import Spire.Segment
import Spire.OperatorRun
import Spire.Text.Utf16

/-!
# The lexer

A source text becomes tokens in four stages: it is cut into segments, operators are
split out of the words among them, the words that remain are told apart into keywords
and names, and blanks, comments and line ends are dropped. Each stage works on demand
on the stage before it, so whoever reads the tokens pays for those they take.

Operator characters are listed as characters, and words are looked at in UTF-16 units. So an
operator character beyond the basic plane is never met. A text that breaks a pair of units apart
is not covered, since texts are made of characters here.

## Main definitions

* `Lexer` — the choice of operator characters
* `Lexer.isOperator` — the characters that are split out of words
* `Lexer.Stage`, `Lexer.stream` — the tokens of a source after any of the stages
* `Lexer.tokens` — the tokens of a source, with or without noise
* `Lexer.Stage.run` — the same stages on whole lists, one after another

## Main results

* `Lexer.isOperator_iff` — the listed characters are split out as far as they are single units
* `Lexer.transcript_stream` — the stages on demand hand out what the stages on whole
  lists give
-/

namespace Spire

/-- A lexer is given by the characters that it splits out of words. -/
structure Lexer where
  operatorChars : List Char := Spelling.operatorChars
deriving DecidableEq, Repr, Inhabited

namespace Lexer

variable (lexer : Lexer)

/-- Whether one of the listed characters is a unit by itself. -/
def isOperatorUnit (unit : Nat) : Bool :=
  lexer.operatorChars.any fun c => Utf16.units c == [unit]

/-- Whether a character is split out of words. Words are looked at unit by unit. -/
def isOperator (c : Char) : Bool :=
  (Utf16.units c).all lexer.isOperatorUnit

/-- A word is a keyword or a name; any other token keeps its kind. -/
def classify (t : Token) : Token :=
  if t.kind = .unknown then { t with kind := (Spelling.keyword? t.raw).getD .name } else t

/-- Whether a token means something to the grammar. -/
def isContent (t : Token) : Bool :=
  !t.kind.isNoise

/-- The segments of a source. -/
def segments (source : String) : TokenStream :=
  Segment.stream {} source.toList

/-- Words with their operators split out. -/
def splitOperators (s : TokenStream) : TokenStream :=
  s.flatMap fun t => .ofTranscript (OperatorRun.pieces lexer.isOperator t)

/-- Words told apart into keywords and names. -/
def classifyWords (s : TokenStream) : TokenStream :=
  s.map classify

/-- The tokens that mean something to the grammar. -/
def dropNoise (s : TokenStream) : TokenStream :=
  s.filter isContent

/-- How far a source has been worked on. -/
inductive Stage where
  | segments
  | operators
  | words
  | content
deriving DecidableEq, Repr, Inhabited

/-- The tokens of a source after a stage. -/
def stream (source : String) : Stage → TokenStream
  | .segments => segments source
  | .operators => lexer.splitOperators (segments source)
  | .words => classifyWords (lexer.splitOperators (segments source))
  | .content => dropNoise (classifyWords (lexer.splitOperators (segments source)))

/-- The tokens of a source, with its blanks, comments and line ends if they are wanted. -/
def tokens (source : String) (keepNoise : Bool := false) : TokenStream :=
  lexer.stream source (if keepNoise then .words else .content)

/-- All tokens of a source at once, or the fault that stands among them. -/
def tokenize (source : String) (keepNoise : Bool := false) : Except LexFault (List Token) :=
  (lexer.tokens source keepNoise).transcript.toExcept

/-! ### Operator characters -/

theorem isOperatorUnit_iff {unit : Nat} :
    lexer.isOperatorUnit unit = true ↔ ∃ c ∈ lexer.operatorChars, Utf16.units c = [unit] := by
  simp [isOperatorUnit]

/-- No unit of a pair is split out, so words are cut between characters. -/
theorem isOperatorUnit_of_mem_pair {c : Char} {unit : Nat} (pair : 0xFFFF < c.toNat)
    (member : unit ∈ Utf16.units c) : lexer.isOperatorUnit unit = false := by
  rw [Bool.eq_false_iff, Ne, isOperatorUnit_iff]
  rintro ⟨d, -, same⟩
  exact Utf16.units_ne_singleton_of_mem_pair pair member d same

/-- The listed characters of the basic plane are split out, and no others. -/
theorem isOperator_iff (c : Char) :
    lexer.isOperator c = true ↔ c ∈ lexer.operatorChars ∧ c.toNat ≤ 0xFFFF := by
  by_cases basic : c.toNat ≤ 0xFFFF
  · have unit : Utf16.units c = [c.toNat] := Utf16.units_eq_singleton_iff.mpr ⟨rfl, basic⟩
    have same : ∀ d, Utf16.units d = [c.toNat] ↔ d = c := by
      intro d
      rw [Utf16.units_eq_singleton_iff, Char.toNat_inj]
      exact and_iff_left_of_imp fun same => same ▸ basic
    rw [isOperator, unit, List.all_cons, List.all_nil, Bool.and_true, isOperatorUnit_iff]
    simp only [same, exists_eq_right, basic, and_true]
  · have pair : 0xFFFF < c.toNat := Nat.lt_of_not_le basic
    have first : 0xD800 + (c.toNat - 0x10000) / 0x400 ∈ Utf16.units c := by
      simp [Utf16.units, basic]
    have notFirst := lexer.isOperatorUnit_of_mem_pair pair first
    simp only [basic, and_false, iff_false, isOperator, List.all_eq_true]
    intro all
    rw [all _ first] at notFirst
    cases notFirst

/-! ### The stages on whole lists -/

/-- The tokens of a source after a stage, each stage run to its end before the next. -/
def Stage.run (source : String) (stage : Stage) : Transcript :=
  let segments : Transcript := ⟨Segment.cut {} source.toList, none⟩
  let operators := segments.flatMap (OperatorRun.pieces lexer.isOperator)
  let words := operators.map classify
  match stage with
  | .segments => segments
  | .operators => operators
  | .words => words
  | .content => words.filter isContent

/-- Splitting on demand hands out what splitting all tokens gives. -/
theorem transcript_splitOperators (s : TokenStream) :
    (lexer.splitOperators s).transcript =
      s.transcript.flatMap (OperatorRun.pieces lexer.isOperator) := by
  simp [splitOperators]

/-- The stages on demand hand out what the stages on whole lists give. -/
theorem transcript_stream (source : String) (stage : Stage) :
    (lexer.stream source stage).transcript = stage.run lexer source := by
  cases stage <;>
    simp [stream, segments, splitOperators, classifyWords, dropNoise, Stage.run,
      Segment.transcript_stream]

end Lexer

end Spire

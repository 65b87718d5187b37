import Spire.Spelling
import Spire.TokenStream

/-!
# Splitting operators out of words

A word is split into maximal runs of operator characters and of other characters. A
run of operator characters is read from left to right: if all that is left of it is
one operator, it is taken whole, and otherwise its first character is taken as an
operator of its own. So a spelling of two characters is recognised at the end of a
run only.

Which characters count as operator characters is a choice of the lexer. A chosen
character that stands for no operator is a fault, and the pieces before it are
handed out first.

## Main definitions

* `OperatorRun.read` — the operators of one run
* `OperatorRun.runs` — a word cut into its runs
* `OperatorRun.pieces` — the tokens that a word is made of

## Main results

* `OperatorRun.flatMap_read_tokens` — the operators of a run without a fault spell the
  run
-/

namespace Spire.OperatorRun

/-- The operators of a run that starts at `p`. -/
def read (p : Position) : List Char → Transcript
  | [] => {}
  | c :: rest =>
    match Spelling.operator? (c :: rest) with
    | some kind => ⟨[⟨kind, String.ofList (c :: rest), p⟩], none⟩
    | none =>
      match Spelling.operator? [c] with
      | some kind => .cons ⟨kind, String.ofList [c], p⟩ (read (p.right 1) rest)
      | none => ⟨[], some ⟨c⟩⟩

/-- A word cut into maximal runs of characters that agree on `isOperator`. -/
def runs (isOperator : Char → Bool) (word : List Char) : List (List Char) :=
  word.splitBy fun a b => isOperator a == isOperator b

/-- Whether a run consists of operator characters: its first character tells. -/
def isOperatorRun (isOperator : Char → Bool) (run : List Char) : Bool :=
  run.head?.any isOperator

/-- The tokens of consecutive runs, the first of which starts at `p`. -/
def readAll (isOperator : Char → Bool) (p : Position) : List (List Char) → Transcript
  | [] => {}
  | run :: others =>
    let tokens :=
      if isOperatorRun isOperator run then read p run
      else ⟨[⟨.unknown, String.ofList run, p⟩], none⟩
    tokens ++ readAll isOperator (p.right run.length) others

/-- The tokens that a token is made of: a word falls apart into operators and words,
any other token stays as it is. -/
def pieces (isOperator : Char → Bool) (t : Token) : Transcript :=
  if t.kind = .unknown then readAll isOperator t.position (runs isOperator t.raw.toList)
  else ⟨[t], none⟩

/-- The operators of a run that has no fault spell the run. -/
theorem flatMap_read_tokens (p : Position) (run : List Char)
    (noFault : (read p run).fault? = none) :
    (read p run).tokens.flatMap (·.raw.toList) = run := by
  induction run generalizing p with
  | nil => rfl
  | cons c rest ih =>
    rw [read] at noFault ⊢
    split
    · simp
    · split
      · next single =>
        simp only [single] at noFault
        simp_all
      · simp_all

end Spire.OperatorRun

import Spire.Proofs.Lexer.Cover

/-!
# What tokens tell about their source

Whatever characters a lexer splits out of words, its tokens lose nothing of the source:
their texts, one behind the other, are the source, or the part of it in front of the
character that no operator is made for. Each token carries the line and the column where
its text begins, counted in the text of the tokens before it. Both are read off the fact
that tokens cover their source.

## Main definitions

* `Transcript.Lossless` — tokens that are not empty and spell a source up to a fault
* `Position.behind` — the place behind a text, by counting its line ends and the
  characters of its last line

## Main results

* `Lexer.loses_nothing` — every stage that drops no token is lossless
* `Position.advance_eq_behind` — reading a text on is counting its lines and columns
* `Lexer.counts_lines_and_columns` — each token stands behind the tokens before it, and
  dropping noise moves none of those that are left
-/

namespace Spire

/-! ### Nothing is lost -/

/-- The tokens of a transcript are not empty, and they spell the source, or the part of it
in front of the operator character that caused the fault. -/
structure Transcript.Lossless (lexer : Lexer) (source : String) (ts : Transcript) : Prop where
  nonempty : ∀ t ∈ ts.tokens, t.raw ≠ ""
  spells : ts.fault? = none → Token.text ts.tokens = source.toList
  stops : ∀ cause, ts.fault? = some cause →
    OperatorRun.IsUnspelled lexer.isOperator cause.char ∧
      ∃ behind, source.toList = Token.text ts.tokens ++ cause.char :: behind

namespace Lexer

variable {lexer : Lexer} {source : String} {stage : Lexer.Stage}

/-- The tokens that a stage hands out cover the source, if the stage drops none. -/
theorem covers_stream (keeps : stage ≠ .content) :
    (lexer.stream source stage).transcript.Covers (OperatorRun.IsUnspelled lexer.isOperator) {}
      source.toList := by
  rw [transcript_stream]
  exact covers_run keeps

/-- A stage that drops no token loses nothing. -/
theorem lossless_stream (keeps : stage ≠ .content) :
    (lexer.stream source stage).transcript.Lossless lexer source := by
  have covers : (lexer.stream source stage).transcript.Covers
      (OperatorRun.IsUnspelled lexer.isOperator) {} source.toList := covers_stream keeps
  constructor
  · intro t member
    exact covers.raw_ne_empty member
  · intro noFault
    exact covers.text_tokens noFault
  · intro cause cut
    exact covers.text_tokens_of_fault cut

/-- The lexer loses nothing as long as noise is kept, and neither do its first two stages. -/
theorem loses_nothing (lexer : Lexer) (source : String) :
    (lexer.tokens source true).transcript.Lossless lexer source ∧
      (lexer.stream source .segments).transcript.Lossless lexer source ∧
      (lexer.stream source .operators).transcript.Lossless lexer source :=
  ⟨lossless_stream (by decide), lossless_stream (by decide), lossless_stream (by decide)⟩

/-- A chosen character that stands for no operator stops the lexer behind the word in front. -/
example : (Lexer.tokens ⟨['@']⟩ "a@b" true).transcript = ⟨[⟨.name, "a", ⟨1, 1⟩⟩], some ⟨'@'⟩⟩ := by
  decide +kernel

end Lexer

/-! ### Lines and columns -/

namespace Position

/-- The place behind a text that starts a source: lines are counted by their ends, and
columns by the characters behind the last of them. -/
def behind (text : List Char) : Position :=
  ⟨1 + text.count '\n', 1 + (text.reverse.takeWhile (· != '\n')).length⟩

/-- Reading a text on from the start is counting its lines and columns. -/
theorem advance_eq_behind (text : List Char) : ({} : Position).advance text = behind text := by
  induction text using List.reverseRecOn with
  | nil => rfl
  | append_singleton text c ih =>
    rw [advance_append, ih, advance_cons, advance_nil]
    by_cases newline : c = '\n'
    · simp [next, behind, newline, Nat.add_assoc]
    · simp [next, behind, newline, Nat.add_comm]

end Position

namespace Lexer

/-- The tokens without noise are those of the whole stream that are no noise. -/
theorem transcript_tokens_content (lexer : Lexer) (source : String) :
    (lexer.tokens source false).transcript =
      (lexer.tokens source true).transcript.filter fun t => !t.kind.isNoise :=
  TokenStream.transcript_filter isContent _

/-- Each token stands behind the text of the tokens before it, which starts the source, and
the tokens that are left without noise are the same tokens at the same places. -/
theorem counts_lines_and_columns (lexer : Lexer) (source : String) :
    (∀ before t after, (lexer.tokens source true).transcript.tokens = before ++ t :: after →
        Token.text before ++ t.raw.toList <+: source.toList ∧
          t.position.line = 1 + (Token.text before).count '\n' ∧
          t.position.column =
            1 + ((Token.text before).reverse.takeWhile (· != '\n')).length) ∧
      (lexer.tokens source false).transcript =
        (lexer.tokens source true).transcript.filter fun t => !t.kind.isNoise := by
  refine ⟨?_, transcript_tokens_content lexer source⟩
  intro before t after split
  have covers : (lexer.tokens source true).transcript.Covers
      (OperatorRun.IsUnspelled lexer.isOperator) {} source.toList := covers_stream (by decide)
  have place : t.position = Position.behind (Token.text before) := by
    rw [covers.position_eq split, Position.advance_eq_behind]
  have regrouped : (lexer.tokens source true).transcript.tokens = (before ++ [t]) ++ after := by
    rw [split, List.append_assoc]
    rfl
  have start : Token.text (before ++ [t]) <+: source.toList := covers.text_take_prefix regrouped
  rw [Token.text_append, Token.text_cons, Token.text_nil, List.append_nil] at start
  rw [place]
  exact ⟨start, rfl, rfl⟩

/-- A line end inside a string, characters beyond the basic plane and a run of operators:
the name at the end stands in the sixth column of the second line. -/
theorem counts_lines_and_columns_in_string :
    ∃ before t,
      (({} : Lexer).tokens "\"\n𝒳\"𝒳->x" true).transcript.tokens = before ++ t :: [] ∧
        Token.text before = "\"\n𝒳\"𝒳->".toList ∧ t.position.line = 2 ∧ t.position.column = 6 := by
  have split : (({} : Lexer).tokens "\"\n𝒳\"𝒳->x" true).transcript.tokens =
      [⟨.string, "\"\n𝒳\"", ⟨1, 1⟩⟩, ⟨.name, "𝒳", ⟨2, 3⟩⟩, ⟨.arrow, "->", ⟨2, 4⟩⟩] ++
        ⟨.name, "x", ⟨2, 6⟩⟩ :: [] := by
    decide +kernel
  obtain ⟨-, line, column⟩ := (counts_lines_and_columns {} _).1 _ _ _ split
  refine ⟨_, _, split, by decide +kernel, ?_, ?_⟩
  · rw [line]
    decide +kernel
  · rw [column]
    decide +kernel

end Lexer

end Spire

import Spire.Proofs.CommandLine.Course
import Spire.Proofs.Json.Rereading
import Spire.Proofs.Lexer.Fidelity

/-!
# Printing tokens

A run that is to print tokens prints one line for each of them, and the line shows the whole token:
its place, its kind and, as a JSON string, its text. So the lines can be read back, and with noise
the texts that are read back make up the text of the input file. Nothing that has to do with trees
changes the lines.

## Main definitions

* `CommandLine.readTokenLine` — the token that a line shows

## Main results

* `CommandLine.readTokenLine_tokenLine` — a line shows the token that it was written for
* `CommandLine.Supplied.run_congr_of_lex` — what printed tokens depend on
* `CommandLine.token_mode_is_lossless` — the lines, with and without noise, and what is read back
-/

namespace Spire

/-! ### Lines -/

namespace CommandLine

/-- The text in front of the first mark, and the text behind it. -/
def cutAt (mark : Char) (text : List Char) : List Char × List Char :=
  (text.takeWhile (· != mark), (text.dropWhile (· != mark)).tail)

/-- The token that a line shows: its line up to a colon, its column up to a tab, the label of its
kind up to a space, and its text as a JSON string. -/
def readTokenLine (line : String) : Option Token :=
  let (row, behindRow) := cutAt ':' line.toList
  let (column, behindColumn) := cutAt '\t' behindRow
  let (label, behindLabel) := cutAt ' ' behindColumn
  match Token.Kind.ofLabel? (String.ofList label), Json.parse (String.ofList behindLabel) with
  | some kind, .ok (.string raw) =>
    some ⟨kind, raw, ⟨Nat.ofDigitChars 10 row 0, Nat.ofDigitChars 10 column 0⟩⟩
  | _, _ => none

theorem cutAt_append {mark : Char} {front : List Char} (absent : mark ∉ front)
    (behind : List Char) : cutAt mark (front ++ mark :: behind) = (front, behind) := by
  have passed : ∀ c ∈ front, (c != mark) = true := by
    intro c member
    simpa using fun same : c = mark => absent (same ▸ member)
  rw [cutAt, List.takeWhile_append_of_pos passed, List.dropWhile_append_of_pos passed]
  simp

theorem notMem_toString {mark : Char} (notDigit : mark.isDigit = false) (n : Nat) :
    mark ∉ (toString n).toList := by
  rw [Nat.toString_eq_repr, Nat.toList_repr]
  intro member
  have isDigit := Nat.isDigit_of_mem_toDigits (by decide) (by decide) member
  rw [notDigit] at isDigit
  cases isDigit

theorem ofDigitChars_toString (n : Nat) : Nat.ofDigitChars 10 (toString n).toList 0 = n := by
  rw [Nat.toString_eq_repr, Nat.toList_repr, Nat.ofDigitChars_ten_toDigits]

theorem space_notMem_label (kind : Token.Kind) : ' ' ∉ kind.label.toList := by
  cases kind <;> decide

/-- A line shows the token that it was written for. -/
theorem readTokenLine_tokenLine (t : Token) : readTokenLine (tokenLine t) = some t := by
  have line : (tokenLine t).toList = (toString t.position.line).toList ++ ':' ::
      ((toString t.position.column).toList ++ '\t' ::
        (t.kind.label.toList ++ ' ' :: (Json.quoted t.raw).toList)) := by
    simp [tokenLine]
  have colon : ':' ∉ (toString t.position.line).toList := notMem_toString (by decide) _
  have tab : '\t' ∉ (toString t.position.column).toList := notMem_toString (by decide) _
  rw [readTokenLine, line]
  simp only [cutAt_append colon, cutAt_append tab, cutAt_append (space_notMem_label _),
    String.ofList_toList, Token.Kind.ofLabel?_label, Json.parse_quoted, ofDigitChars_toString]

theorem map_readTokenLine (tokens : List Token) :
    (tokens.map tokenLine).map readTokenLine = tokens.map some := by
  have same : readTokenLine ∘ tokenLine = some := by
    funext t
    rw [Function.comp_apply, readTokenLine_tokenLine]
  rw [List.map_map, same]

/-- Tests on tokens can be made on their lines. -/
theorem filter_map_tokenLine (p : Token → Bool) (tokens : List Token) :
    (tokens.map tokenLine).filter (fun line => (readTokenLine line).any p) =
      (tokens.filter p).map tokenLine := by
  have same : (fun line => (readTokenLine line).any p) ∘ tokenLine = p := by
    funext t
    rw [Function.comp_apply, readTokenLine_tokenLine, Option.any_some]
  rw [List.filter_map, same]

/-! ### Runs -/

variable {fs fs' : FileSystem} {args args' : List String} {input input' source : String}
  {s s' : Settings}

/-- Two runs that are to print the tokens of one text report the same if both keep noise or neither
does. -/
theorem Supplied.run_congr_of_lex (supplied : Supplied fs args input source s)
    (supplied' : Supplied fs' args' input' source s') (silent : ¬ Options.AsksHelp args)
    (silent' : ¬ Options.AsksHelp args') (lex : "--lex" ∈ args) (lex' : "--lex" ∈ args')
    (noise : ("--noise" ∈ args' ∨ s'.showNoise? = some true) ↔
      ("--noise" ∈ args ∨ s.showNoise? = some true)) :
    run fs' args' = run fs args := by
  rw [supplied.run_of_lex silent lex, supplied'.run_of_lex silent' lex']
  simp only [noise]

/-- With the flag for noise in front, all tokens are printed. -/
theorem Supplied.output_of_noise (supplied : Supplied fs args input source s)
    (silent : ¬ Options.AsksHelp args) (lex : "--lex" ∈ args) :
    (run fs ("--noise" :: args)).output = tokenLines source true := by
  have supplied' : Supplied fs ([] ++ "--noise" :: args) input source s :=
    Supplied.insert supplied (by decide) (by decide) id
  have silent' : ¬ Options.AsksHelp ("--noise" :: args) := by
    simp only [Options.AsksHelp, not_or] at silent ⊢
    simp [silent]
  have noisy : "--noise" ∈ "--noise" :: args ∨ s.showNoise? = some true :=
    Or.inl (List.mem_cons_self ..)
  rw [List.nil_append] at supplied'
  rw [supplied'.run_of_lex silent' (List.mem_cons_of_mem _ lex), Report.output_map_out,
    decide_eq_true noisy]

theorem tokenize_eq (source : String) (keepNoise : Bool) :
    ({} : Lexer).tokenize source keepNoise =
      .ok (({} : Lexer).tokens source keepNoise).transcript.tokens := by
  rw [Lexer.tokenize, Transcript.toExcept, Lexer.fault?_tokens]

/-- Without noise there are the tokens whose kinds are no noise. -/
theorem tokens_eq_filter (source : String) :
    (({} : Lexer).tokens source false).transcript.tokens =
      (({} : Lexer).tokens source true).transcript.tokens.filter fun t =>
        t.kind ∉ [.space, .comment, .newline] := by
  have content : (fun t : Token => !t.kind.isNoise) =
      fun t => decide (t.kind ∉ [.space, .comment, .newline]) := by
    funext t
    cases t.kind <;> rfl
  rw [Lexer.transcript_tokens_content, content, Transcript.filter]

/-- With noise, the tokens make up the source and stand where their texts stand. -/
theorem text_and_places (source : String) :
    Token.text (({} : Lexer).tokens source true).transcript.tokens = source.toList ∧
      ∀ before t after,
        (({} : Lexer).tokens source true).transcript.tokens = before ++ t :: after →
          t.position = Position.behind (Token.text before) := by
  have covers : (({} : Lexer).tokens source true).transcript.Covers
      (OperatorRun.IsUnspelled ({} : Lexer).isOperator) {} source.toList :=
    Lexer.covers_stream (by decide)
  refine ⟨covers.text_tokens (Lexer.fault?_tokens source true), ?_⟩
  intro before t after split
  rw [covers.position_eq split, Position.advance_eq_behind]

/-- **Printing tokens.** A run prints one line for each token of its input and no problem. If noise
is kept, the tokens that the lines show make up the text of the input file and stand where their
texts stand in it. Otherwise the lines are those of a run with noise whose tokens are no noise.
The flags for trees and traces change nothing wherever they stand as flags, and neither does a
setting for trees. -/
theorem token_mode_is_lossless (noHelp : "--help" ∉ args) (noShort : "-h" ∉ args)
    (lex : "--lex" ∈ args) (supplied : Supplied fs args input source s) :
    (run fs args).code = 0 ∧ (run fs args).errors = [] ∧
    (∃ tokens,
      ({} : Lexer).tokenize source ("--noise" ∈ args ∨ s.showNoise? = some true) = .ok tokens ∧
        (run fs args).output = tokens.map tokenLine) ∧
    ("--noise" ∈ args ∨ s.showNoise? = some true →
      ∃ shown : List Token, (run fs args).output.map readTokenLine = shown.map some ∧
        Token.text shown = source.toList ∧
        ∀ before t after, shown = before ++ t :: after →
          t.position = Position.behind (Token.text before)) ∧
    (¬ ("--noise" ∈ args ∨ s.showNoise? = some true) →
      (run fs args).output = (run fs ("--noise" :: args)).output.filter fun line =>
        (readTokenLine line).any fun t => t.kind ∉ [.space, .comment, .newline]) ∧
    (∀ before after, args = before ++ after → ¬ Options.IsValue args before.length →
      ∀ flag ∈ ["--json", "--trace"], run fs (before ++ flag :: after) = run fs args) ∧
    (∀ fs' s', Supplied fs' args input source s' → s'.showNoise? = s.showNoise? →
      run fs' args = run fs args) := by
  have silent : ¬ Options.AsksHelp args := supplied.not_asksHelp noHelp noShort
  have ran := supplied.run_of_lex silent lex
  have lines : (run fs args).output =
      tokenLines source ("--noise" ∈ args ∨ s.showNoise? = some true) := by
    rw [ran, Report.output_map_out]
  refine ⟨?_, ?_, ⟨_, tokenize_eq _ _, lines⟩, ?_, ?_, ?_, ?_⟩
  · rw [ran]
  · rw [ran, Report.errors_map_out]
  · intro noisy
    rw [decide_eq_true noisy] at lines
    obtain ⟨text, places⟩ := text_and_places source
    exact ⟨_, by rw [lines, tokenLines, map_readTokenLine], text, places⟩
  · intro quiet
    rw [decide_eq_false quiet] at lines
    rw [supplied.output_of_noise silent lex, tokenLines, filter_map_tokenLine, lines, tokenLines,
      tokens_eq_filter]
  · rintro before after rfl apart flag member
    obtain ⟨isFlag, other, noNoise, noHelp', noShort'⟩ : Options.isFlag flag = true ∧
        flag ≠ Options.settingsFlag ∧ "--noise" ≠ flag ∧ "--help" ≠ flag ∧ "-h" ≠ flag := by
      revert flag
      decide
    have supplied' : Supplied fs (before ++ flag :: after) input source s :=
      supplied.insert isFlag other apart
    refine supplied.run_congr_of_lex supplied' silent ?_ lex ?_ ?_
    · apply supplied'.not_asksHelp
      · rwa [Options.mem_insert, or_iff_right noHelp']
      · rwa [Options.mem_insert, or_iff_right noShort']
    · exact Options.mem_insert.mpr (Or.inr lex)
    · rw [Options.mem_insert, or_iff_right noNoise]
  · intro fs' s' supplied' sameNoise
    exact supplied.run_congr_of_lex supplied' silent silent lex lex (by rw [sameNoise])

/-- A string over two lines with a backslash in it, a character beyond the basic plane, a tab, and
a comment with a control character and a quote, on which the text ends. -/
def oddText : String := "\"a\\\n𝒳\"\tx-> // \x01\""

/-- If a file beside it asks for noise, the odd text can be put together from the lines, and without
the file the blanks and the comment are left out. -/
theorem token_mode_is_lossless_on_oddText :
    (∃ shown : List Token,
      (run (fileSystemOf [("odd", oddText), (".spirerc.json", "\x7b\"showNoise\": true\x7d")])
          ["odd", "--lex"]).output.map readTokenLine = shown.map some ∧
        Token.text shown = oddText.toList ∧
        ∀ before t after, shown = before ++ t :: after →
          t.position = Position.behind (Token.text before)) ∧
    (run (fileSystemOf [("odd", oddText)]) ["odd", "--lex"]).output =
      (run (fileSystemOf [("odd", oddText)]) ["--noise", "odd", "--lex"]).output.filter fun line =>
        (readTokenLine line).any fun t => t.kind ∉ [.space, .comment, .newline] := by
  have noisy : Supplied
      (fileSystemOf [("odd", oddText), (".spirerc.json", "\x7b\"showNoise\": true\x7d")])
      ["odd", "--lex"] "odd" oddText { showNoise? := some true } :=
    ⟨by decide, by decide +kernel, by decide +kernel⟩
  have quiet : Supplied (fileSystemOf [("odd", oddText)]) ["odd", "--lex"] "odd" oddText {} :=
    ⟨by decide, by decide +kernel, by decide +kernel⟩
  exact ⟨(token_mode_is_lossless (by decide) (by decide) (by decide) noisy).2.2.2.1 (by decide),
    (token_mode_is_lossless (by decide) (by decide) (by decide) quiet).2.2.2.2.1 (by decide)⟩

end CommandLine

end Spire

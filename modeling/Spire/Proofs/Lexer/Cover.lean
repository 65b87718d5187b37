import Spire.Lexer
import Mathlib.Data.List.SplitBy

/-!
# Tokens that cover a text

Tokens cover a text if they make it up without gaps and overlaps, none of them is empty,
and each carries the place where its own text begins. A transcript with a fault covers a
text if its tokens do so up to a faulty character. Covering is kept when tokens are
replaced by tokens that cover them, and so it passes from the segments of a source through
the stages of the lexer.

## Main definitions

* `Token.text` — the texts of tokens, one behind the other
* `Transcript.Covers` — tokens that cover a text from a place on
* `OperatorRun.IsUnspelled` — an operator character that is no operator by itself

## Main results

* `Transcript.Covers.append`, `Transcript.Covers.flatMap` — covers in turn, and within
  each other
* `Segment.covers_cut`, `OperatorRun.covers_pieces` — segments cover a source, and the
  pieces of a word cover the word
* `Lexer.covers_run` — the tokens after each stage that drops none cover the source
-/

namespace Spire

/-- The texts of tokens, one behind the other. -/
def Token.text (ts : List Token) : List Char :=
  ts.flatMap (·.raw.toList)

@[simp] theorem Token.text_nil : Token.text [] = [] := rfl

@[simp] theorem Token.text_cons (t : Token) (ts : List Token) :
    Token.text (t :: ts) = t.raw.toList ++ Token.text ts :=
  List.flatMap_cons

@[simp] theorem Token.text_append (ts us : List Token) :
    Token.text (ts ++ us) = Token.text ts ++ Token.text us :=
  List.flatMap_append

namespace Transcript

/-- The tokens of a transcript make up a text from a place on, and a fault comes in front of
a faulty character of the text. -/
inductive Covers (faulty : Char → Prop) : Transcript → Position → List Char → Prop where
  | done {p : Position} : Covers faulty {} p []
  | fault {p : Position} {c : Char} {behind : List Char} (isFaulty : faulty c) :
      Covers faulty ⟨[], some ⟨c⟩⟩ p (c :: behind)
  | token {t : Token} {ts : Transcript} {behind : List Char} (nonempty : t.raw ≠ "")
      (others : Covers faulty ts (t.position.advance t.raw.toList) behind) :
      Covers faulty (.cons t ts) t.position (t.raw.toList ++ behind)

namespace Covers

variable {faulty : Char → Prop} {ts us : Transcript} {p : Position} {text more : List Char}
  {t : Token}

/-- A single token covers its own text. -/
theorem single (nonempty : t.raw ≠ "") :
    Covers faulty ⟨[t], none⟩ t.position t.raw.toList := by
  have one : Covers faulty (.cons t {}) t.position (t.raw.toList ++ []) := .token nonempty .done
  rwa [List.append_nil] at one

/-- A token made of a text covers the text. -/
theorem ofList (kind : Token.Kind) (nonempty : text ≠ []) :
    Covers faulty ⟨[⟨kind, String.ofList text, p⟩], none⟩ p text := by
  have raw : (String.ofList text).toList = text := String.toList_ofList
  have one : Covers faulty ⟨[⟨kind, String.ofList text, p⟩], none⟩ p (String.ofList text).toList :=
    .single fun empty : String.ofList text = "" => nonempty (by rw [← raw, empty]; rfl)
  rwa [raw] at one

/-- Tokens that cover a text and tokens that go on behind it cover both texts. -/
theorem append (first : Covers faulty ts p text) (second : Covers faulty us (p.advance text) more) :
    Covers faulty (ts ++ us) p (text ++ more) := by
  induction first with
  | done => exact second
  | fault isFaulty => exact .fault isFaulty
  | token nonempty others ih =>
    rw [cons_append, List.append_assoc]
    rw [Position.advance_append] at second
    exact .token nonempty (ih second)

/-- Tokens may be replaced by tokens that cover them. -/
theorem flatMap {f : Token → Transcript} (whole : Covers faulty ts p text)
    (parts : ∀ t ∈ ts.tokens, Covers faulty (f t) t.position t.raw.toList) :
    Covers faulty (ts.flatMap f) p text := by
  induction whole with
  | done => exact .done
  | fault isFaulty => exact .fault isFaulty
  | @token t others behind _ _ ih =>
    rw [flatMap_cons]
    have first := parts t (List.mem_cons_self ..)
    exact first.append (ih fun u member => parts u (List.mem_cons_of_mem _ member))

/-- Tokens may be replaced by tokens with the same text at the same place. -/
theorem map {f : Token → Token} (whole : Covers faulty ts p text)
    (keeps : ∀ t, (f t).raw = t.raw ∧ (f t).position = t.position) :
    Covers faulty (ts.map f) p text := by
  induction whole with
  | done => exact .done
  | fault isFaulty => exact .fault isFaulty
  | @token t others behind nonempty _ ih =>
    obtain ⟨sameText, samePlace⟩ := keeps t
    rw [← sameText] at nonempty ih ⊢
    rw [← samePlace] at ih ⊢
    exact .token nonempty ih

theorem raw_ne_empty (whole : Covers faulty ts p text) (member : t ∈ ts.tokens) :
    t.raw ≠ "" := by
  induction whole with
  | done => cases member
  | fault isFaulty => cases member
  | token nonempty _ ih =>
    rcases List.mem_cons.mp member with rfl | later
    · exact nonempty
    · exact ih later

/-- Without a fault, the tokens make up the whole text. -/
theorem text_tokens (whole : Covers faulty ts p text) (noFault : ts.fault? = none) :
    Token.text ts.tokens = text := by
  induction whole with
  | done => rfl
  | fault isFaulty => cases noFault
  | token _ _ ih => rw [tokens_cons, Token.text_cons, ih noFault]

/-- With a fault, the tokens make up the text in front of the faulty character. -/
theorem text_tokens_of_fault {cause : LexFault} (whole : Covers faulty ts p text)
    (cut : ts.fault? = some cause) :
    faulty cause.char ∧ ∃ behind, text = Token.text ts.tokens ++ cause.char :: behind := by
  induction whole with
  | done => cases cut
  | @fault p c behind isFaulty =>
    cases cut
    exact ⟨isFaulty, behind, rfl⟩
  | token _ _ ih =>
    obtain ⟨isFaulty, behind, same⟩ := ih cut
    refine ⟨isFaulty, behind, ?_⟩
    rw [tokens_cons, Token.text_cons, List.append_assoc, ← same]

/-- The place of a token is reached by reading the tokens before it. -/
theorem position_eq {before after : List Token} (whole : Covers faulty ts p text)
    (split : ts.tokens = before ++ t :: after) : t.position = p.advance (Token.text before) := by
  induction whole generalizing before with
  | done => cases before <;> cases split
  | fault isFaulty => cases before <;> cases split
  | token _ _ ih =>
    cases before with
    | nil =>
      cases split
      rfl
    | cons u before =>
      rw [tokens_cons, List.cons_append, List.cons.injEq] at split
      obtain ⟨rfl, split⟩ := split
      rw [ih split, Token.text_cons, Position.advance_append]

/-- The tokens up to any of them make up the beginning of the text. -/
theorem text_take_prefix {before after : List Token} (whole : Covers faulty ts p text)
    (split : ts.tokens = before ++ after) : Token.text before <+: text := by
  have inside : Token.text before <+: Token.text ts.tokens :=
    ⟨Token.text after, by rw [split, Token.text_append]⟩
  cases fault : ts.fault? with
  | none => rwa [whole.text_tokens fault] at inside
  | some cause =>
    obtain ⟨-, behind, same⟩ := whole.text_tokens_of_fault fault
    exact inside.trans ⟨cause.char :: behind, same.symm⟩

end Covers

end Transcript

/-! ### Segments -/

namespace Segment

variable {c : Char} {rest : List Char} {faulty : Char → Prop}

/-- The segments of a text cover it. -/
theorem covers_cut (p : Position) (text : List Char) :
    Transcript.Covers faulty ⟨cut p text, none⟩ p text := by
  fun_induction cut p text with
  | case1 p => exact .done
  | case2 p c rest ih =>
    have front : Transcript.Covers faulty ⟨[(first c rest).token p], none⟩ p (first c rest).text :=
      .ofList (first c rest).kind first_text_ne_nil
    have whole := front.append ih
    rwa [first_text_append_rest] at whole

/-- A segment of unknown kind runs from its first character to the next separator. -/
theorem first_of_unknown (unknown : (first c rest).kind = .unknown) :
    c ≠ '\n' ∧ first c rest = takeWhile .unknown (fun d => !isSeparator d) c rest := by
  revert unknown
  unfold first
  split
  · nofun
  split
  · nofun
  split
  · nofun
  split
  · nofun
  · next isNewline _ _ _ =>
    intro _
    exact ⟨isNewline, rfl⟩

/-- A segment of unknown kind stays on its line. -/
theorem newline_notMem_first (unknown : (first c rest).kind = .unknown) :
    '\n' ∉ (first c rest).text := by
  obtain ⟨inLine, same⟩ := first_of_unknown unknown
  rw [same]
  intro member
  rcases List.mem_cons.mp member with rfl | inside
  · exact inLine rfl
  · have passed := List.all_eq_true.mp List.all_takeWhile _ inside
    simp [isSeparator] at passed

/-- The words among the segments stay on their lines. -/
theorem newline_notMem_raw {p : Position} {text : List Char} {t : Token} (member : t ∈ cut p text)
    (unknown : t.kind = .unknown) : '\n' ∉ t.raw.toList := by
  fun_induction cut p text with
  | case1 p => cases member
  | case2 p c rest ih =>
    rcases List.mem_cons.mp member with rfl | later
    · rw [token, String.toList_ofList]
      exact newline_notMem_first unknown
    · exact ih later

end Segment

/-! ### Words and their pieces -/

namespace OperatorRun

variable {isOperator : Char → Bool} {p : Position} {run : List Char}

/-- An operator character that is no operator by itself. -/
def IsUnspelled (isOperator : Char → Bool) (c : Char) : Prop :=
  isOperator c = true ∧ Spelling.operator? [c] = none

theorem advance_singleton {c : Char} (inLine : c ≠ '\n') : p.advance [c] = p.right 1 := by
  rw [Position.advance_eq_right (by simpa using Ne.symm inLine)]
  rfl

/-- The operators of a run cover it. -/
theorem covers_read (listed : ∀ c ∈ run, isOperator c = true) (oneLine : '\n' ∉ run) :
    (read p run).Covers (IsUnspelled isOperator) p run := by
  induction run generalizing p with
  | nil => exact .done
  | cons c rest ih =>
    rw [List.mem_cons, not_or] at oneLine
    rw [read]
    split
    · next kind spelled => exact .ofList kind (List.cons_ne_nil c rest)
    split
    · next kind single =>
      have first : Transcript.Covers (IsUnspelled isOperator)
          ⟨[⟨kind, String.ofList [c], p⟩], none⟩ p [c] := .ofList kind (List.cons_ne_nil c [])
      rw [← advance_singleton (Ne.symm oneLine.1)]
      exact first.append (ih (fun d member => listed d (List.mem_cons_of_mem _ member)) oneLine.2)
    · next none => exact .fault ⟨listed c (List.mem_cons_self ..), none⟩

/-- The tokens of consecutive runs cover them, if the runs of operator characters have no
other character in them. -/
theorem covers_readAll {runs : List (List Char)} (nonempty : ∀ run ∈ runs, run ≠ [])
    (uniform : ∀ run ∈ runs, isOperatorRun isOperator run → ∀ c ∈ run, isOperator c = true)
    (oneLine : '\n' ∉ runs.flatten) :
    (readAll isOperator p runs).Covers (IsUnspelled isOperator) p runs.flatten := by
  induction runs generalizing p with
  | nil => exact .done
  | cons run others ih =>
    rw [List.flatten_cons, List.mem_append, not_or] at oneLine
    have behind := ih (p := p.right run.length)
      (fun r member => nonempty r (List.mem_cons_of_mem _ member))
      (fun r member => uniform r (List.mem_cons_of_mem _ member)) oneLine.2
    rw [readAll, List.flatten_cons]
    -- Columns are counted by characters here; within a line this is reading on.
    rw [← Position.advance_eq_right oneLine.1] at behind ⊢
    refine Transcript.Covers.append ?_ behind
    split
    · next operators =>
      exact covers_read (uniform run (List.mem_cons_self ..) operators) oneLine.1
    · exact .ofList .unknown (nonempty run (List.mem_cons_self ..))

/-- A run of operator characters has no other character in it. -/
theorem isOperator_of_mem_runs {word : List Char} (member : run ∈ runs isOperator word)
    (operators : isOperatorRun isOperator run) : ∀ c ∈ run, isOperator c = true := by
  have agree := List.isChain_of_mem_splitBy member
  cases run with
  | nil => nofun
  | cons c rest =>
    clear member
    -- The test has the same answer on neighbours, so the answer travels along the run.
    induction rest generalizing c with
    | nil => simpa [isOperatorRun] using operators
    | cons d rest ih =>
      obtain ⟨same, agree⟩ := List.isChain_cons_cons.mp agree
      have first : isOperator c = true := by simpa [isOperatorRun] using operators
      have second : isOperator d = true := by rw [← eq_of_beq same, first]
      rintro e (_ | ⟨_, later⟩)
      · exact first
      · exact ih d (by simpa [isOperatorRun] using second) agree e later

/-- The pieces of a token that is not empty cover it, if words stay on their lines. -/
theorem covers_pieces {t : Token} (nonempty : t.raw ≠ "")
    (oneLine : t.kind = .unknown → '\n' ∉ t.raw.toList) :
    (pieces isOperator t).Covers (IsUnspelled isOperator) t.position t.raw.toList := by
  unfold pieces
  split
  · next unknown =>
    have whole : (runs isOperator t.raw.toList).flatten = t.raw.toList := List.flatten_splitBy _ _
    have pieces : (readAll isOperator t.position (runs isOperator t.raw.toList)).Covers
        (IsUnspelled isOperator) t.position (runs isOperator t.raw.toList).flatten := by
      refine covers_readAll (fun run => List.ne_nil_of_mem_splitBy)
        (fun run => isOperator_of_mem_runs) ?_
      rw [whole]
      exact oneLine unknown
    rwa [whole] at pieces
  · exact .single nonempty

end OperatorRun

/-! ### The stages of the lexer -/

namespace Lexer

variable {lexer : Lexer} {source : String} {stage : Stage}

/-- Naming a word keeps its text and its place. -/
theorem classify_raw_position (t : Token) :
    (classify t).raw = t.raw ∧ (classify t).position = t.position := by
  unfold classify
  split
  · exact ⟨rfl, rfl⟩
  · exact ⟨rfl, rfl⟩

/-- The tokens after each stage that drops none cover the source. -/
theorem covers_run (keeps : stage ≠ .content) :
    (stage.run lexer source).Covers (OperatorRun.IsUnspelled lexer.isOperator) {}
      source.toList := by
  have segments : Transcript.Covers (OperatorRun.IsUnspelled lexer.isOperator)
      ⟨Segment.cut {} source.toList, none⟩ {} source.toList := Segment.covers_cut {} source.toList
  have operators := segments.flatMap (f := OperatorRun.pieces lexer.isOperator)
    fun t member => OperatorRun.covers_pieces (segments.raw_ne_empty member)
      (Segment.newline_notMem_raw member)
  cases stage with
  | segments => exact segments
  | operators => exact operators
  | words => exact operators.map classify_raw_position
  | content => exact absurd rfl keeps

end Lexer

end Spire

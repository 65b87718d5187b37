import Spire.Proofs.Parser.Language

/-!
# The first offence

The parser stops at the first token that no program could hold at its place, and says what
the grammar wants there. If the tokens end too early, it says what is wanting. Both are
told from the kinds of the tokens before: the last of them, and the number of braces that
are open. The words of the report can be told from the same.

## Main definitions

* `Grammar.wanted` — what the grammar wants behind tokens of given kinds
* `Grammar.refusal` — the report of a token that cannot stand behind them
* `Grammar.demand`, `Grammar.reproof` — the words for both

## Main results

* `Grammar.message_refusal`, `Grammar.message_missing` — the reports are made in these words
* `Reading.refusal_of_step`, `Reading.wanted_of_finish` — reading token by token reports so
* `Parser.stops_at_first_offence` — the parser reports the first token that is not viable
-/

namespace Spire

namespace Grammar

/-- What is wanted behind a complete source: the brace that closes its function, or the end. -/
def wantedBehindSource (before : List Token.Kind) : Expectation :=
  if before.count .rightBrace < before.count .leftBrace then .kind .rightBrace else .endOfInput

/-- What the grammar wants behind tokens of the given kinds, in view of the kind of the next
token, if there is one. Where a source starts, a brace or the end of the tokens can only
be meant to close it. -/
def wanted (before : List Token.Kind) (found? : Option Token.Kind) : Expectation :=
  match before.getLast? with
  | some .fn => .functionName
  | some .name => .kind .leftParen
  | some .leftParen => .kind .rightParen
  | some .rightParen => .kind .leftBrace
  | none | some .leftBrace =>
    if found? = none ∨ found? = some .rightBrace then wantedBehindSource before else .statement
  | some _ => wantedBehindSource before

/-- The report of a token that cannot stand behind tokens of the given kinds: arguments and
type hints are recognised and refused, any other token is unexpected. -/
def refusal (before : List Token.Kind) (t : Token) : ParseError :=
  if before.getLast? = some .leftParen then .unsupported .arguments t
  else if before.getLast? = some .rightParen ∧ t.kind = .arrow then .unsupported .typeHint t
  else .unexpectedToken (wanted before (some t.kind)) t

/-- The words for what is wanted behind a complete source. -/
def demandBehindSource (before : List Token.Kind) : String :=
  if before.count .rightBrace < before.count .leftBrace then "Expected RBRACE"
  else "Expected end of input"

/-- The words for what the grammar wants behind tokens of the given kinds, in view of the kind of
the next token, if there is one. -/
def demand (before : List Token.Kind) (found? : Option Token.Kind) : String :=
  match before.getLast? with
  | some .fn => "Expected function name"
  | some .name => "Expected LPARENTHESES"
  | some .leftParen => "Expected RPARENTHESES"
  | some .rightParen => "Expected LBRACE"
  | none | some .leftBrace =>
    if found? = none ∨ found? = some .rightBrace then demandBehindSource before
    else "Expected a statement"
  | some _ => demandBehindSource before

/-- The words for a token that cannot stand behind tokens of the given kinds. -/
def reproof (before : List Token.Kind) (t : Token) : String :=
  if before.getLast? = some .leftParen then "Function arguments are not supported yet"
  else if before.getLast? = some .rightParen ∧ t.kind = .arrow then
    "Return type hints are not supported yet"
  else demand before (some t.kind) ++ " but got " ++ t.kind.label ++ " '" ++ t.raw ++ "'"

theorem text_wantedBehindSource (before : List Token.Kind) :
    (wantedBehindSource before).text = demandBehindSource before := by
  unfold wantedBehindSource demandBehindSource
  split
  · rfl
  · rfl

/-- What is wanted is named in the words for it. -/
theorem text_wanted (before : List Token.Kind) (found? : Option Token.Kind) :
    (wanted before found?).text = demand before found? := by
  unfold wanted demand
  split
  case h_5 | h_6 =>
    split
    · exact text_wantedBehindSource before
    · rfl
  case h_7 => exact text_wantedBehindSource before
  all_goals rfl

/-- A token is refused in the words for it. -/
theorem complaint_refusal (before : List Token.Kind) (t : Token) :
    (refusal before t).complaint = reproof before t := by
  unfold refusal reproof
  split
  · rfl
  split
  · rfl
  · rw [ParseError.complaint, text_wanted]

/-- The report of a token that cannot stand somewhere is about this token. -/
theorem token?_refusal (before : List Token.Kind) (t : Token) :
    (refusal before t).token? = some t := by
  unfold refusal
  split
  · rfl
  split
  · rfl
  · rfl

theorem message_refusal (before : List Token.Kind) (t : Token) :
    (refusal before t).message =
      "Parse error at line " ++ toString t.position.line ++ ", column " ++
        toString t.position.column ++ ": " ++ reproof before t := by
  have start : "Parse error at line " = "Parse error at " ++ "line " := by decide
  rw [ParseError.message_eq, token?_refusal, complaint_refusal, ParseError.place]
  simp only [start, String.append_assoc]

theorem message_missing (before : List Token.Kind) :
    (ParseError.unexpectedEnd (wanted before none)).message =
      "Parse error at end of input: " ++ demand before none ++ " but input ended" := by
  rw [ParseError.message_eq, ParseError.complaint, text_wanted, String.append_assoc]
  rfl

end Grammar

/-- A program ends in the statement that does nothing or in a closing brace. -/
theorem Program.getLast?_kinds {program : Program} (nonempty : program ≠ .empty) :
    (Token.kinds program.tokens).getLast? = some .nop ∨
      (Token.kinds program.tokens).getLast? = some .rightBrace := by
  cases program with
  | empty => exact absurd rfl nonempty
  | nop t => exact .inl (by simp [tokens, t.2])
  | function header body close => exact .inr (by simp [tokens, close.2])

namespace Reading

open Grammar

variable {r next : Reading} {t : Token} {e : ParseError} {scopes : List Header}
  {program : Program}

theorem count_headers (scopes : List Header) :
    (Token.kinds (scopes.reverse.flatMap Header.tokens)).count .leftBrace = scopes.length ∧
      (Token.kinds (scopes.reverse.flatMap Header.tokens)).count .rightBrace = 0 := by
  induction scopes with
  | nil => exact ⟨rfl, rfl⟩
  | cons header outer ih =>
    have braces : Header.kinds.count .leftBrace = 1 ∧ Header.kinds.count .rightBrace = 0 := by
      decide
    have split : Token.kinds ((header :: outer).reverse.flatMap Header.tokens) =
        Token.kinds (outer.reverse.flatMap Header.tokens) ++ Header.kinds := by
      simp [← header.kinds_tokens]
    rw [split, List.count_append, List.count_append, ih.1, ih.2, braces.1, braces.2]
    exact ⟨rfl, rfl⟩

/-- Behind a source that stands in functions, the innermost of them is to be closed. -/
theorem wantedBehindSource_tokens :
    wantedBehindSource (Token.kinds (Reading.tokens ⟨scopes, .source program⟩)) =
      if scopes = [] then .endOfInput else .kind .rightBrace := by
  obtain ⟨opened, closed⟩ := count_headers scopes
  have balanced := program.count_leftBrace_tokens
  rw [wantedBehindSource, tokens, Token.kinds_append, List.count_append, List.count_append, opened,
    closed, Place.tokens, balanced]
  cases scopes with
  | nil => simp
  | cons header outer => rw [if_pos (by simp), if_neg (List.cons_ne_nil _ _)]

/-! ### The last token that has been read -/

theorem getLast?_tokens (r : Reading) :
    (Token.kinds r.tokens).getLast? = (Token.kinds r.place.tokens).getLast?.or
      (Token.kinds (r.scopes.reverse.flatMap Header.tokens)).getLast? := by
  rw [tokens, Token.kinds_append, List.getLast?_append]

theorem getLast?_place {place : Place} (last : place.tokens.getLast? = some t) :
    (Token.kinds (Reading.tokens ⟨scopes, place⟩)).getLast? = some t.kind := by
  rw [getLast?_tokens, Token.kinds, List.getLast?_map, last]
  rfl

/-- A source starts at the beginning of the tokens or behind an opening brace. -/
theorem getLast?_start :
    (Token.kinds (Reading.tokens ⟨scopes, .source .empty⟩)).getLast? = none ∨
      (Token.kinds (Reading.tokens ⟨scopes, .source .empty⟩)).getLast? = some .leftBrace := by
  rw [getLast?_tokens]
  cases scopes with
  | nil => exact .inl rfl
  | cons header outer =>
    exact .inr (by simp [Place.tokens, Program.tokens, Header.tokens, header.leftBrace.2])

theorem getLast?_source (nonempty : program ≠ .empty) :
    (Token.kinds (Reading.tokens ⟨scopes, .source program⟩)).getLast? = some .nop ∨
      (Token.kinds (Reading.tokens ⟨scopes, .source program⟩)).getLast? = some .rightBrace := by
  rw [getLast?_tokens]
  rcases program.getLast?_kinds nonempty with last | last
  · exact .inl (by rw [Place.tokens, last, Option.some_or])
  · exact .inr (by rw [Place.tokens, last, Option.some_or])

/-- Within a source the last token is no parenthesis. -/
theorem getLast?_source_ne :
    (Token.kinds (Reading.tokens ⟨scopes, .source program⟩)).getLast? ≠ some .leftParen ∧
      (Token.kinds (Reading.tokens ⟨scopes, .source program⟩)).getLast? ≠ some .rightParen := by
  by_cases isEmpty : program = .empty
  · subst isEmpty
    rcases @getLast?_start scopes with last | last
    · simp [last]
    · simp [last]
  · rcases @getLast?_source scopes program isEmpty with last | last
    · simp [last]
    · simp [last]

/-- Behind a statement, and where a source is closed, no statement is wanted. -/
theorem wanted_source {found? : Option Token.Kind}
    (closes : program = .empty → found? = none ∨ found? = some .rightBrace) :
    wanted (Token.kinds (Reading.tokens ⟨scopes, .source program⟩)) found? =
      if scopes = [] then .endOfInput else .kind .rightBrace := by
  rw [← @wantedBehindSource_tokens scopes program]
  by_cases isEmpty : program = .empty
  · subst isEmpty
    rcases @getLast?_start scopes with last | last
    · simp only [wanted, last, if_pos (closes rfl)]
    · simp only [wanted, last, if_pos (closes rfl)]
  · rcases @getLast?_source scopes program isEmpty with last | last
    · simp only [wanted, last]
    · simp only [wanted, last]

/-- Within a source a token that is refused is unexpected. -/
theorem refusal_source :
    refusal (Token.kinds (Reading.tokens ⟨scopes, .source program⟩)) t =
      .unexpectedToken (wanted (Token.kinds (Reading.tokens ⟨scopes, .source program⟩))
        (some t.kind)) t := by
  obtain ⟨notLeft, notRight⟩ := @getLast?_source_ne scopes program
  rw [refusal, if_neg notLeft, if_neg]
  rintro ⟨isRight, -⟩
  exact notRight isRight

theorem refusal_of_leave (closes : program = .empty → t.kind = .rightBrace)
    (refused : leave program t scopes = .error e) :
    e = refusal (Token.kinds (Reading.tokens ⟨scopes, .source program⟩)) t := by
  have asks : wanted (Token.kinds (Reading.tokens ⟨scopes, .source program⟩)) (some t.kind) =
      if scopes = [] then .endOfInput else .kind .rightBrace :=
    wanted_source fun isEmpty => .inr (by rw [closes isEmpty])
  rw [refusal_source, asks]
  cases scopes with
  | nil =>
    cases refused
    rfl
  | cons header outer =>
    rw [leave, take_eq_error] at refused
    rw [refused.2, if_neg (List.cons_ne_nil _ _)]

/-- A token is refused with the report that the kinds before it call for. -/
theorem refusal_of_step (refused : r.step t = .error e) :
    e = refusal (Token.kinds r.tokens) t := by
  obtain ⟨scopes, place⟩ := r
  cases place with
  | source program =>
    cases program with
    | empty =>
      rw [step_empty] at refused
      split at refused
      · next isClose => exact refusal_of_leave (fun _ => isClose) refused
      split at refused
      · cases refused
      · next isOther _ =>
        rw [take_eq_error] at refused
        rw [refused.2, refusal_source]
        rcases @getLast?_start scopes with last | last
        · simp [wanted, last, isOther]
        · simp [wanted, last, isOther]
    | nop | function => exact refusal_of_leave nofun refused
  | fn f =>
    have last := @getLast?_place f scopes (.fn f) rfl
    rw [step_fn, take_eq_error] at refused
    rw [refused.2]
    simp [refusal, wanted, last, f.2]
  | name f n =>
    have last := @getLast?_place n scopes (.name f n) rfl
    rw [step_name, take_eq_error] at refused
    rw [refused.2]
    simp [refusal, wanted, last, n.2]
  | leftParen f n left =>
    have last := @getLast?_place left scopes (.leftParen f n left) rfl
    rw [step_leftParen, take_eq_error] at refused
    rw [refused.2]
    simp [refusal, last, left.2]
  | rightParen f n left right =>
    have last := @getLast?_place right scopes (.rightParen f n left right) rfl
    rw [step_rightParen, take_eq_error] at refused
    rw [refused.2]
    by_cases isArrow : t.kind = .arrow
    · simp [refusal, last, right.2, isArrow]
    · simp [refusal, wanted, last, right.2, isArrow]

/-- If something is wanting at the end of the tokens, it is what the kinds call for. -/
theorem wanted_of_finish (missing : r.finish = .error e) :
    e = .unexpectedEnd (wanted (Token.kinds r.tokens) none) := by
  obtain ⟨scopes, place⟩ := r
  cases place with
  | source program =>
    rw [wanted_source fun _ => .inl rfl]
    cases scopes with
    | nil => cases missing
    | cons header outer =>
      cases missing
      rw [if_neg (List.cons_ne_nil _ _)]
  | fn f =>
    cases missing
    simp [wanted, @getLast?_place f scopes (.fn f) rfl, f.2]
  | name f n =>
    cases missing
    simp [wanted, @getLast?_place n scopes (.name f n) rfl, n.2]
  | leftParen f n left =>
    cases missing
    simp [wanted, @getLast?_place left scopes (.leftParen f n left) rfl, left.2]
  | rightParen f n left right =>
    cases missing
    simp [wanted, @getLast?_place right scopes (.rightParen f n left right) rfl, right.2]

end Reading

namespace Parser

open Grammar

variable {p : Parser} {ts : List Token}

/-- Where reading refuses a token, the parser stops with its report and has taken it. -/
theorem run_of_refused {before behind : List Token} {t : Token} {r : Reading} {e : ParseError}
    (read : before.foldlM Reading.step {} = .ok r) (refused : r.step t = .error e) :
    (p.run (.ofList (before ++ t :: behind))).1.outcome = .error (.parse e) ∧
      (p.run (.ofList (before ++ t :: behind))).1.pulled = before.length + 1 := by
  have verdict : Reading.verdict none {} (before ++ t :: behind) =
      { outcome := .error (.parse e), unread := behind } := by
    rw [Reading.verdict_append read, Reading.verdict_cons_of_error refused]
  have taken := @run_ofList_pulled p (before ++ t :: behind)
  rw [verdict] at taken
  constructor
  · rw [run_ofList_outcome, verdict]
    rfl
  · simp only [List.length_append, List.length_cons] at taken
    omega

/-- Where something is wanting at the end, the parser says so and has taken all tokens. -/
theorem run_of_missing {r : Reading} {e : ParseError}
    (read : ts.foldlM Reading.step {} = .ok r) (missing : r.finish = .error e) :
    (p.run (.ofList ts)).1.outcome = .error (.parse e) ∧
      (p.run (.ofList ts)).1.pulled = ts.length := by
  have verdict : Reading.verdict none {} ts = { outcome := .error (.parse e) } := by
    have whole : Reading.verdict none {} (ts ++ []) = Reading.verdict none r [] :=
      Reading.verdict_append read
    rw [List.append_nil] at whole
    rw [whole, Reading.verdict, missing]
    rfl
  have taken := @run_ofList_pulled p ts
  rw [verdict] at taken
  constructor
  · rw [run_ofList_outcome, verdict]
    rfl
  · exact taken

/-- **First offence.** Tokens that are not accepted are refused at the first token with which
no program could begin, whatever comes behind it: the parser has taken the tokens up to
this one, and reports it as unsupported arguments or type hint or as unexpected. If a
program could begin with all the tokens, the parser has taken them all and reports what
is wanting at their end. The message names the place and, in the words for it, what the
grammar wants there. -/
theorem stops_at_first_offence (p : Parser) (ts : List Token)
    (rejected : ¬ Program.Accepted (Token.kinds ts)) :
    (∀ (k : Nat) (inside : k < ts.length),
      (∀ j ≤ k, Program.Viable (Token.kinds (ts.take j))) →
      ¬ Program.Viable (Token.kinds (ts.take (k + 1))) →
        (p.run (.ofList ts)).1.outcome =
            .error (.parse (refusal (Token.kinds (ts.take k)) ts[k])) ∧
          (p.run (.ofList ts)).1.pulled = k + 1 ∧
          (refusal (Token.kinds (ts.take k)) ts[k]).token? = some ts[k] ∧
          (refusal (Token.kinds (ts.take k)) ts[k]).message =
            "Parse error at line " ++ toString ts[k].position.line ++ ", column " ++
              toString ts[k].position.column ++ ": " ++ reproof (Token.kinds (ts.take k)) ts[k]) ∧
    (Program.Viable (Token.kinds ts) →
      (p.run (.ofList ts)).1.outcome =
          .error (.parse (.unexpectedEnd (wanted (Token.kinds ts) none))) ∧
        (p.run (.ofList ts)).1.pulled = ts.length ∧
        (ParseError.unexpectedEnd (wanted (Token.kinds ts) none)).message =
          "Parse error at end of input: " ++ demand (Token.kinds ts) none ++
            " but input ended") := by
  constructor
  · intro k inside viable offends
    obtain ⟨r, read⟩ := Reading.viable_iff_foldlM_step.mp (viable k (Nat.le_refl k))
    have consumed := Reading.tokens_of_foldlM_step read
    cases next : r.step ts[k] with
    | ok behind =>
      refine absurd (Reading.viable_iff_foldlM_step.mpr ⟨behind, ?_⟩) offends
      rw [List.take_succ_eq_append_getElem inside, Reading.foldlM_step_append read]
      exact Reading.foldlM_step_cons_eq_ok.mpr ⟨behind, next, rfl⟩
    | error e =>
      have stopped := @run_of_refused p _ (ts.drop (k + 1)) _ _ _ read next
      rw [← List.drop_eq_getElem_cons inside, List.take_append_drop, List.length_take,
        Nat.min_eq_left (Nat.le_of_lt inside), Reading.refusal_of_step next, consumed] at stopped
      exact ⟨stopped.1, stopped.2, token?_refusal _ _, message_refusal _ _⟩
  · intro viable
    obtain ⟨r, read⟩ := Reading.viable_iff_foldlM_step.mp viable
    have consumed := Reading.tokens_of_foldlM_step read
    cases ended : r.finish with
    | ok program =>
      refine absurd (Program.accepted_kinds_iff.mpr ⟨program, ?_⟩) rejected
      rw [← Reading.tokens_of_finish ended, consumed]
      rfl
    | error e =>
      have stopped := @run_of_missing p _ _ _ read ended
      rw [Reading.wanted_of_finish ended, consumed] at stopped
      exact ⟨stopped.1, stopped.2, message_missing _⟩

/-- The tokens of a function with an argument, which cannot be read yet. -/
def unaryFunction : List Token :=
  idleFunction.tokens.take 3 ++ [⟨.name, "x", ⟨1, 9⟩⟩, ⟨.rightParen, ")", ⟨1, 10⟩⟩]

/-- The tokens of a function with a name behind the only statement that its body can hold. -/
def crowdedFunction : List Token :=
  idleFunction.tokens.take 6 ++ [⟨.name, "x", ⟨2, 7⟩⟩]

/-- An argument is refused, a second statement is none that can stand there, and without a closing
parenthesis the tokens end too early. -/
theorem stops_in_unaryFunction :
    (¬ Program.Accepted (Token.kinds unaryFunction) ∧
      ∃ e, (run {} (.ofList unaryFunction)).1.outcome = .error (.parse e) ∧
        (run {} (.ofList unaryFunction)).1.pulled = 4 ∧
        e.token? = some ⟨.name, "x", ⟨1, 9⟩⟩ ∧
        e.message =
          "Parse error at line 1, column 9: Function arguments are not supported yet") ∧
    (¬ Program.Accepted (Token.kinds crowdedFunction) ∧
      ∃ e, (run {} (.ofList crowdedFunction)).1.outcome = .error (.parse e) ∧
        (run {} (.ofList crowdedFunction)).1.pulled = 7 ∧
        e.token? = some ⟨.name, "x", ⟨2, 7⟩⟩ ∧
        e.message = "Parse error at line 2, column 7: Expected RBRACE but got NAME 'x'") ∧
    ¬ Program.Accepted (Token.kinds (unaryFunction.take 3)) ∧
      ∃ e, (run {} (.ofList (unaryFunction.take 3))).1.outcome = .error (.parse e) ∧
        (run {} (.ofList (unaryFunction.take 3))).1.pulled = 3 ∧
        e.message = "Parse error at end of input: Expected RPARENTHESES but input ended" := by
  have unary : ¬ Program.Accepted (Token.kinds unaryFunction) := by decide
  have crowded : ¬ Program.Accepted (Token.kinds crowdedFunction) := by decide
  have unfinished : ¬ Program.Accepted (Token.kinds (unaryFunction.take 3)) := by decide
  have argument := (stops_at_first_offence {} _ unary).1 3 (by decide) (by decide) (by decide)
  have second := (stops_at_first_offence {} _ crowded).1 6 (by decide) (by decide) (by decide)
  have missing := (stops_at_first_offence {} _ unfinished).2 (by decide)
  exact ⟨⟨unary, _, argument.1, argument.2.1, argument.2.2.1,
      argument.2.2.2.trans (by decide +kernel)⟩,
    ⟨crowded, _, second.1, second.2.1, second.2.2.1, second.2.2.2.trans (by decide +kernel)⟩,
    unfinished, _, missing.1, missing.2.1, missing.2.2.trans (by decide +kernel)⟩

end Parser

end Spire

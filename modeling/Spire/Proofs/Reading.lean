import Spire.Parser.Error
import Spire.Proofs.Program

/-!
# Reading a program token by token

A program can be read from left to right without looking ahead and without giving tokens
back. What has been read is remembered as the headers of the functions that are open and
the place inside the innermost of them. Each token either leads to the next such state or
is refused, and at the end of the tokens the program is finished or something is wanting.

A state holds all tokens that led to it, with their kinds. So whatever has been read is
the beginning of a program, and no token is refused that a program could hold there.

## Main definitions

* `Place`, `Reading` — what has been read
* `Reading.step`, `Reading.finish` — one more token, and the end of the tokens
* `Reading.verdict` — reading on to the end
* `Reading.tokens` — the tokens that have been read

## Main results

* `Reading.tokens_of_foldlM_step` — reading loses no token
* `Reading.foldlM_step_tokens` — the tokens of a program are read without a refusal
* `Reading.exists_completion` — whatever has been read is the beginning of a program
-/

namespace Spire

/-- How far the innermost source has been read. -/
inductive Place where
  /-- Up to the end of a program. If it is empty, a statement may still come. -/
  | source (program : Program)
  /-- Up to a token in the header of a function. -/
  | fn (fn : Token.Of .fn)
  | name (fn : Token.Of .fn) (name : Token.Of .name)
  | leftParen (fn : Token.Of .fn) (name : Token.Of .name) (leftParen : Token.Of .leftParen)
  | rightParen (fn : Token.Of .fn) (name : Token.Of .name) (leftParen : Token.Of .leftParen)
      (rightParen : Token.Of .rightParen)

/-- The tokens of the innermost source that have been read. -/
def Place.tokens : Place → List Token
  | source program => program.tokens
  | fn f => [f]
  | name f n => [f, n]
  | leftParen f n l => [f, n, l]
  | rightParen f n l r => [f, n, l, r]

/-- What has been read: the headers of the open functions, the innermost first, and the
place in the innermost source. -/
structure Reading where
  scopes : List Header := []
  place : Place := .source .empty

namespace Reading

/-- Read a token of one kind, and refuse any other. -/
def take {kind : Token.Kind} (t : Token) (next : Token.Of kind → Reading) (e : ParseError) :
    Except ParseError Reading :=
  if isKind : t.kind = kind then .ok (next ⟨t, isKind⟩) else .error e

/-- Leave the innermost function, whose body is `body`. -/
def leave (body : Program) (t : Token) : List Header → Except ParseError Reading
  | [] => .error (.unexpectedToken .endOfInput t)
  | header :: outer =>
    take t (fun close => ⟨outer, .source (.function header body close)⟩)
      (.unexpectedToken (.kind .rightBrace) t)

/-- Read one more token. -/
def step (r : Reading) (t : Token) : Except ParseError Reading :=
  match r.place with
  | .source .empty =>
    if t.kind = .rightBrace then leave .empty t r.scopes
    else if isNop : t.kind = .nop then .ok ⟨r.scopes, .source (.nop ⟨t, isNop⟩)⟩
    else take t (fun fn => ⟨r.scopes, .fn fn⟩) (.unexpectedToken .statement t)
  | .source program => leave program t r.scopes
  | .fn fn =>
    take t (fun name => ⟨r.scopes, .name fn name⟩) (.unexpectedToken .functionName t)
  | .name fn name =>
    take t (fun left => ⟨r.scopes, .leftParen fn name left⟩)
      (.unexpectedToken (.kind .leftParen) t)
  | .leftParen fn name left =>
    take t (fun right => ⟨r.scopes, .rightParen fn name left right⟩) (.unsupported .arguments t)
  | .rightParen fn name left right =>
    take t (fun brace => ⟨⟨fn, name, left, right, brace⟩ :: r.scopes, .source .empty⟩)
      (if t.kind = .arrow then .unsupported .typeHint t
        else .unexpectedToken (.kind .leftBrace) t)

/-- The end of the tokens behind a program that stands in the given functions. -/
def conclude (program : Program) : List Header → Except ParseError Program
  | [] => .ok program
  | _ :: _ => .error (.unexpectedEnd (.kind .rightBrace))

/-- Read the end of the tokens. -/
def finish (r : Reading) : Except ParseError Program :=
  match r.place with
  | .source program => conclude program r.scopes
  | .fn _ => .error (.unexpectedEnd .functionName)
  | .name _ _ => .error (.unexpectedEnd (.kind .leftParen))
  | .leftParen _ _ _ => .error (.unexpectedEnd (.kind .rightParen))
  | .rightParen _ _ _ _ => .error (.unexpectedEnd (.kind .leftBrace))

/-- How reading comes to its end. -/
structure Verdict where
  /-- The program, or why there is none. -/
  outcome : Except Failure Program
  /-- The tokens behind the one that was refused. -/
  unread : List Token := []

/-- Read on until a token is refused or no token is left. -/
def verdict (fault? : Option LexFault) : Reading → List Token → Verdict
  | r, [] =>
    match fault? with
    | some fault => { outcome := .error (.lex fault) }
    | none => { outcome := r.finish.mapError .parse }
  | r, t :: ts =>
    match r.step t with
    | .ok next => verdict fault? next ts
    | .error e => { outcome := .error (.parse e), unread := ts }

/-- The tokens that have been read, from left to right. -/
def tokens (r : Reading) : List Token :=
  r.scopes.reverse.flatMap Header.tokens ++ r.place.tokens

variable {r next : Reading} {t : Token} {ts us : List Token} {fault? : Option LexFault}
  {scopes : List Header} {program : Program} {e : ParseError}

/-! ### Reading on -/

theorem take_of_kind {kind : Token.Kind} {behind : Token.Of kind → Reading}
    (isKind : t.kind = kind) : take t behind e = .ok (behind ⟨t, isKind⟩) :=
  dif_pos isKind

theorem take_of_not_kind {kind : Token.Kind} {behind : Token.Of kind → Reading}
    (isOther : t.kind ≠ kind) : take t behind e = .error e :=
  dif_neg isOther

theorem take_eq_ok {kind : Token.Kind} {behind : Token.Of kind → Reading} :
    take t behind e = .ok next ↔ ∃ isKind : t.kind = kind, behind ⟨t, isKind⟩ = next := by
  by_cases isKind : t.kind = kind
  · simp [take_of_kind isKind, isKind]
  · simp [take_of_not_kind isKind, isKind]

theorem take_eq_error {kind : Token.Kind} {behind : Token.Of kind → Reading} {other : ParseError} :
    take t behind other = .error e ↔ t.kind ≠ kind ∧ e = other := by
  by_cases isKind : t.kind = kind
  · simp [take_of_kind isKind, isKind]
  · simp [take_of_not_kind isKind, isKind, eq_comm]

section Places

variable {f : Token.Of .fn} {n : Token.Of .name} {left : Token.Of .leftParen}
  {right : Token.Of .rightParen}

theorem step_empty : step ⟨scopes, .source .empty⟩ t =
    if t.kind = .rightBrace then leave .empty t scopes
    else if isNop : t.kind = .nop then .ok ⟨scopes, .source (.nop ⟨t, isNop⟩)⟩
    else take t (fun fn => ⟨scopes, .fn fn⟩) (.unexpectedToken .statement t) := rfl

theorem step_fn : step ⟨scopes, .fn f⟩ t =
    take t (fun name => ⟨scopes, .name f name⟩) (.unexpectedToken .functionName t) := rfl

theorem step_name : step ⟨scopes, .name f n⟩ t =
    take t (fun left => ⟨scopes, .leftParen f n left⟩)
      (.unexpectedToken (.kind .leftParen) t) := rfl

theorem step_leftParen : step ⟨scopes, .leftParen f n left⟩ t =
    take t (fun right => ⟨scopes, .rightParen f n left right⟩) (.unsupported .arguments t) := rfl

theorem step_rightParen : step ⟨scopes, .rightParen f n left right⟩ t =
    take t (fun brace => ⟨⟨f, n, left, right, brace⟩ :: scopes, .source .empty⟩)
      (if t.kind = .arrow then .unsupported .typeHint t
        else .unexpectedToken (.kind .leftBrace) t) := rfl

end Places

theorem verdict_cons_of_ok (read : r.step t = .ok next) :
    verdict fault? r (t :: ts) = verdict fault? next ts := by
  rw [verdict, read]

theorem verdict_cons_of_error (refused : r.step t = .error e) :
    verdict fault? r (t :: ts) = { outcome := .error (.parse e), unread := ts } := by
  rw [verdict, refused]

/-- Several tokens are read when the first one is and then the others. -/
theorem foldlM_step_cons_eq_ok :
    (t :: ts).foldlM step r = .ok next ↔
      ∃ behind, r.step t = .ok behind ∧ ts.foldlM step behind = .ok next := by
  rw [List.foldlM_cons]
  cases r.step t with
  | error e =>
    constructor
    · intro read
      cases read
    · rintro ⟨_, impossible, _⟩
      cases impossible
  | ok behind =>
    constructor
    · intro read
      exact ⟨behind, rfl, read⟩
    · rintro ⟨_, same, read⟩
      cases same
      exact read

theorem foldlM_step_append (read : ts.foldlM step r = .ok next) :
    (ts ++ us).foldlM step r = us.foldlM step next := by
  rw [List.foldlM_append, read]
  rfl

/-- Reading on behind tokens that were read. -/
theorem verdict_append (read : ts.foldlM step r = .ok next) :
    verdict fault? r (ts ++ us) = verdict fault? next us := by
  induction ts generalizing r with
  | nil =>
    cases read
    rfl
  | cons t ts ih =>
    obtain ⟨behind, first, others⟩ := foldlM_step_cons_eq_ok.mp read
    rw [List.cons_append, verdict_cons_of_ok first, ih others]

/-! ### What has been read -/

theorem tokens_of_leave (read : leave program t scopes = .ok next) :
    next.tokens = Reading.tokens ⟨scopes, .source program⟩ ++ [t] := by
  cases scopes with
  | nil => cases read
  | cons header outer =>
    rw [leave, take_eq_ok] at read
    obtain ⟨_, rfl⟩ := read
    simp [tokens, Place.tokens, Program.tokens]

/-- A token that is read is the last of those that have been read. -/
theorem tokens_of_step (read : r.step t = .ok next) : next.tokens = r.tokens ++ [t] := by
  obtain ⟨scopes, place⟩ := r
  cases place with
  | source program =>
    cases program with
    | empty =>
      simp only [step] at read
      split at read
      · exact tokens_of_leave read
      split at read
      · cases read
        simp [tokens, Place.tokens, Program.tokens]
      · obtain ⟨_, rfl⟩ := take_eq_ok.mp read
        simp [tokens, Place.tokens, Program.tokens]
    | nop | function => exact tokens_of_leave read
  | fn | name | leftParen =>
    simp only [step, take_eq_ok] at read
    obtain ⟨_, rfl⟩ := read
    simp [tokens, Place.tokens]
  | rightParen =>
    simp only [step, take_eq_ok] at read
    obtain ⟨_, rfl⟩ := read
    simp [tokens, Place.tokens, Header.tokens, Program.tokens]

/-- Reading loses no token. -/
theorem tokens_of_foldlM_step (read : ts.foldlM step r = .ok next) :
    next.tokens = r.tokens ++ ts := by
  induction ts generalizing r with
  | nil =>
    cases read
    exact (List.append_nil _).symm
  | cons t ts ih =>
    obtain ⟨behind, first, others⟩ := foldlM_step_cons_eq_ok.mp read
    rw [ih others, tokens_of_step first, List.append_assoc, List.singleton_append]

/-- A program that is finished has the tokens that have been read. -/
theorem tokens_of_finish (finished : r.finish = .ok program) : r.tokens = program.tokens := by
  obtain ⟨scopes, place⟩ := r
  cases place with
  | source inner =>
    cases scopes with
    | nil =>
      cases finished
      rfl
    | cons header outer => cases finished
  | fn | name | leftParen | rightParen => cases finished

/-! ### Programs are read without a refusal -/

theorem step_of_rightBrace (isClose : t.kind = .rightBrace) :
    step ⟨scopes, .source program⟩ t = leave program t scopes := by
  cases program with
  | empty => rw [step, if_pos isClose]
  | nop | function => rfl

theorem foldlM_step_header (header : Header) :
    header.tokens.foldlM step ⟨scopes, .source .empty⟩ =
      .ok ⟨header :: scopes, .source .empty⟩ := by
  simp only [Header.tokens, List.foldlM_cons, List.foldlM_nil, step, take, header.fn.2,
    header.name.2, header.leftParen.2, header.rightParen.2, header.leftBrace.2, reduceCtorEq,
    if_false, dite_true, dite_false]
  rfl

/-- The tokens of a program are read without a refusal. -/
theorem foldlM_step_tokens (program : Program) (scopes : List Header) :
    program.tokens.foldlM step ⟨scopes, .source .empty⟩ = .ok ⟨scopes, .source program⟩ := by
  induction program generalizing scopes with
  | empty => rfl
  | nop t =>
    simp only [Program.tokens, List.foldlM_cons, List.foldlM_nil, step, t.2, reduceCtorEq, if_false,
      dite_true]
    rfl
  | function header body close ih =>
    have closed : step ⟨header :: scopes, .source body⟩ close =
        .ok ⟨scopes, .source (.function header body close)⟩ := by
      rw [step_of_rightBrace close.2, leave, take_of_kind close.2]
    rw [Program.tokens, List.append_assoc, foldlM_step_append (foldlM_step_header header),
      foldlM_step_append (ih _)]
    exact foldlM_step_cons_eq_ok.mpr ⟨_, closed, rfl⟩

/-! ### Whatever has been read is the beginning of a program -/

/-- A program inside open functions begins a program around them. -/
theorem exists_enclosing (scopes : List Header) (inner : Program) :
    ∃ (program : Program) (more : List Token),
      program.tokens = scopes.reverse.flatMap Header.tokens ++ inner.tokens ++ more := by
  induction scopes generalizing inner with
  | nil => exact ⟨inner, [], by simp⟩
  | cons header outer ih =>
    -- Any closing brace will do for the innermost function.
    let close : Token.Of .rightBrace := ⟨⟨.rightBrace, "\x7d", {}⟩, rfl⟩
    obtain ⟨program, more, whole⟩ := ih (.function header inner close)
    exact ⟨program, close.1 :: more, by simp [whole, Program.tokens]⟩

/-- What has been read of the innermost source is the beginning of a program. -/
theorem exists_inner (place : Place) :
    ∃ (inner : Program) (more : List Token), inner.tokens = place.tokens ++ more := by
  -- What the header still lacks is made up, and the body is left empty.
  let name : Token.Of .name := ⟨⟨.name, "f", {}⟩, rfl⟩
  let left : Token.Of .leftParen := ⟨⟨.leftParen, "(", {}⟩, rfl⟩
  let right : Token.Of .rightParen := ⟨⟨.rightParen, ")", {}⟩, rfl⟩
  let brace : Token.Of .leftBrace := ⟨⟨.leftBrace, "\x7b", {}⟩, rfl⟩
  let close : Token.Of .rightBrace := ⟨⟨.rightBrace, "\x7d", {}⟩, rfl⟩
  cases place with
  | source program => exact ⟨program, [], (List.append_nil _).symm⟩
  | fn f => exact ⟨.function ⟨f, name, left, right, brace⟩ .empty close, _, rfl⟩
  | name f n => exact ⟨.function ⟨f, n, left, right, brace⟩ .empty close, _, rfl⟩
  | leftParen f n l => exact ⟨.function ⟨f, n, l, right, brace⟩ .empty close, _, rfl⟩
  | rightParen f n l r => exact ⟨.function ⟨f, n, l, r, brace⟩ .empty close, _, rfl⟩

/-- Whatever has been read is the beginning of a program. -/
theorem exists_completion (r : Reading) :
    ∃ (program : Program) (more : List Token), program.tokens = r.tokens ++ more := by
  obtain ⟨inner, within, inside⟩ := exists_inner r.place
  obtain ⟨program, outside, whole⟩ := exists_enclosing r.scopes inner
  exact ⟨program, within ++ outside, by simp [whole, inside, tokens]⟩

/-- Tokens with which a program may begin are those that are read without a refusal. -/
theorem viable_iff_foldlM_step :
    Program.Viable (Token.kinds ts) ↔ ∃ next, ts.foldlM step {} = .ok next := by
  rw [Program.viable_kinds_iff]
  constructor
  · rintro ⟨program, more, whole⟩
    have read := foldlM_step_tokens program []
    rw [whole, List.foldlM_append] at read
    cases first : ts.foldlM step {} with
    | ok next => exact ⟨next, rfl⟩
    | error e =>
      rw [first] at read
      cases read
  · rintro ⟨next, read⟩
    obtain ⟨program, more, whole⟩ := exists_completion next
    have consumed := tokens_of_foldlM_step read
    exact ⟨program, more, by rw [whole, consumed]; rfl⟩

/-! ### Reading to the end -/

/-- Reading the tokens of a program to their end gives the program. -/
theorem verdict_tokens (program : Program) :
    verdict none {} program.tokens = { outcome := .ok program } := by
  have whole : verdict none {} (program.tokens ++ []) = verdict none ⟨[], .source program⟩ [] :=
    verdict_append (foldlM_step_tokens program [])
  rw [List.append_nil] at whole
  exact whole

/-- Reading gives only programs that have the tokens that are read. -/
theorem tokens_of_verdict (accepted : (verdict none r ts).outcome = .ok program) :
    program.tokens = r.tokens ++ ts := by
  induction ts generalizing r with
  | nil =>
    rw [List.append_nil]
    cases finished : r.finish with
    | ok whole =>
      rw [verdict, finished] at accepted
      cases accepted
      exact (tokens_of_finish finished).symm
    | error e =>
      rw [verdict, finished] at accepted
      cases accepted
  | cons t ts ih =>
    cases first : r.step t with
    | ok behind =>
      rw [verdict_cons_of_ok first] at accepted
      rw [ih accepted, tokens_of_step first, List.append_assoc, List.singleton_append]
    | error e =>
      rw [verdict_cons_of_error first] at accepted
      cases accepted

/-! ### Deciding about kinds -/

instance (kinds : List Token.Kind) : Decidable (Program.Viable kinds) :=
  decidable_of_iff (((Token.ofKinds kinds).foldlM step {}).isOk = true) <| by
    rw [← Token.kinds_ofKinds kinds, viable_iff_foldlM_step, Token.kinds_ofKinds]
    cases (Token.ofKinds kinds).foldlM step {} <;> simp [Except.isOk, Except.toBool]

instance (kinds : List Token.Kind) : Decidable (Program.Accepted kinds) :=
  decidable_of_iff ((verdict none {} (Token.ofKinds kinds)).outcome.isOk = true) <| by
    rw [← Token.kinds_ofKinds kinds, Program.accepted_kinds_iff, Token.kinds_ofKinds]
    constructor
    · intro accepted
      cases reached : (verdict none {} (Token.ofKinds kinds)).outcome with
      | error e =>
        rw [reached] at accepted
        cases accepted
      | ok program => exact ⟨program, tokens_of_verdict reached⟩
    · rintro ⟨program, same⟩
      rw [← same, verdict_tokens]
      rfl

end Reading

end Spire

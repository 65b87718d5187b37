import Mathlib.Order.Bounds.Basic
import Spire.Proofs.Parser.Isolation
import Spire.Proofs.Parser.Language

/-!
# The log of the parser

The log has an entry for each rule that is entered and for each token that is put back, whether
the tokens have a tree or not. It can be told from the kinds of the tokens: the headers in front
leave the same entries each, and what follows them leaves a few entries more. Closing braces leave
none, and neither does what stands behind the first offence.

At each point of a run there are tokens ahead and entries that are still owed to the log. Each
computation of the parser pays some of them, and one that fails has paid all that was owed.

## Main definitions

* `Parser.headerEntries`, `Parser.endingEntries` — the entries for a header, and for what stands
  behind the headers
* `Parser.Headed` — kinds that begin with a number of headers
* `Parser.Logs` — what a computation pays of the entries that are owed

## Main results

* `Parser.logs_opening_header`, `Parser.logs_opening_of_not_header` — the entries of a source up to
  the body of its function
* `Parser.logs_source_header`, `Parser.logs_source_of_not_header` — the entries of a source
* `Parser.log_tells_headers` — the log of a run
-/

namespace Spire.Parser

/-! ### Entries -/

/-- The entries for a header, with that of the source which it opens. -/
def headerEntries : List String :=
  ["source", "fn_stmt", "func_head", "unread LBRACE", "scope"]

/-- The entries for tokens of the given kinds behind the head of a function, as far as they are not
a brace that opens its body. -/
def scopeEndingEntries : List Token.Kind → List String
  | [] => ["scope"]
  | kind :: _ => if kind = .arrow then [] else ["unread " ++ kind.label, "scope"]

/-- The entries for tokens of the given kinds that do not begin with a header, where a statement
may stand. -/
def endingEntries : List Token.Kind → List String
  | [] => []
  | kind :: behind =>
    if kind = .nop then ["nop"]
    else if kind = .rightBrace then ["unread RBRACE"]
    else if kind = .fn then
      "fn_stmt" :: "func_head" ::
        if [.name, .leftParen, .rightParen] <+: behind then scopeEndingEntries (behind.drop 3)
        else []
    else []

/-- Tokens of the given kinds begin with `count` headers. -/
def Headed (kinds : List Token.Kind) (count : Nat) : Prop :=
  (List.replicate count Header.kinds).flatten <+: kinds

/-! ### Entries that are owed -/

/-- The entries of the log so far. -/
def entries (p : Parser) : List String :=
  p.log.toList.map Step.text

/-- With the tokens `ts` ahead and the entries `owed` still to be logged, `x` logs a beginning of
them. If it succeeds, `after` holds of what is left, and if it fails, nothing is left. -/
def Logs {α : Type} (ts : List Token) (owed : List String) (x : ParseM α)
    (after : α → List Token → List String → Prop) : Prop :=
  ∀ p : Parser, p.cursor.ahead = ⟨ts, none⟩ →
    match x p with
    | .ok a q => ∃ us left, q.cursor.ahead = ⟨us, none⟩ ∧
        q.entries ++ left = p.entries ++ owed ∧ after a us left
    | .error _ q => q.entries = p.entries ++ owed

/-- Nothing is owed any more. -/
def Settled {α : Type} (_ : α) (_ : List Token) (left : List String) : Prop :=
  left = []

variable {α β : Type} {p : Parser} {ts us : List Token} {owed left : List String} {t : Token}
  {e : Expectation} {kind : Token.Kind} {x : ParseM α} {f : α → ParseM β}
  {after : β → List Token → List String → Prop}

/-! ### Rules for computations -/

/-- The next token is taken, if there is one, and nothing is logged. -/
theorem next_of_ahead (ahead : p.cursor.ahead = ⟨ts, none⟩) :
    ∃ q, next p = .ok ts.head? q ∧ q.cursor.ahead = ⟨ts.tail, none⟩ ∧ q.log = p.log := by
  have step : (p.cursor.next.1, p.cursor.next.2.ahead) = (.ok ts.head?, ⟨ts.tail, none⟩) := by
    rw [p.cursor.next_ahead, ahead]
    cases ts <;> rfl
  obtain ⟨answer, behind⟩ := Prod.mk.inj step
  refine ⟨{ p with cursor := p.cursor.next.2 }, ?_, behind, rfl⟩
  rw [next, ← Prod.eta p.cursor.next, answer]

namespace Logs

theorem pure {b : β} (holds : after b ts owed) : Logs ts owed (Pure.pure b) after :=
  fun _ ahead => ⟨ts, owed, ahead, rfl, holds⟩

theorem throw {failure : Failure} : Logs ts [] (MonadExcept.throw failure : ParseM β) after :=
  fun _ _ => (List.append_nil _).symm

theorem bind {between : α → List Token → List String → Prop} (first : Logs ts owed x between)
    (second : ∀ a us left, between a us left → Logs us left (f a) after) :
    Logs ts owed (x >>= f) after := by
  intro p ahead
  have paid := first p ahead
  cases result : x p with
  | error failure q =>
    rw [result] at paid
    rw [bind_of_error result]
    exact paid
  | ok a q =>
    rw [result] at paid
    obtain ⟨us, left, aheadNow, total, holds⟩ := paid
    have rest := second a us left holds q aheadNow
    rw [total] at rest
    rw [bind_of_ok result]
    exact rest

/-- Behind a computation whose success is known, the rest goes on from there. -/
theorem bind_of_ok {a : α}
    (first : Logs ts owed x fun a' us' left' => a' = a ∧ us' = us ∧ left' = left)
    (rest : Logs us left (f a) after) : Logs ts owed (x >>= f) after := by
  refine first.bind ?_
  rintro _ _ _ ⟨rfl, rfl, rfl⟩
  exact rest

/-- A computation that can only fail pays for the rest as well. -/
theorem bind_of_error (fails : Logs ts owed x fun _ _ _ => False) :
    Logs ts owed (x >>= f) after :=
  fails.bind fun _ _ _ impossible => impossible.elim

theorem note (step : Step) {f : Unit → ParseM β} (rest : Logs ts owed (f ()) after) :
    Logs ts (step.text :: owed) (Parser.note step >>= f) after := by
  refine bind_of_ok (fun p ahead => ?_) rest
  exact ⟨ts, owed, ahead, by simp [entries], rfl, rfl, rfl⟩

theorem next {f : Option Token → ParseM β} (rest : Logs ts.tail owed (f ts.head?) after) :
    Logs ts owed (Parser.next >>= f) after := by
  refine bind_of_ok (fun p ahead => ?_) rest
  obtain ⟨q, read, behind, sameLog⟩ := next_of_ahead ahead
  rw [read]
  exact ⟨ts.tail, owed, behind, by rw [entries, sameLog, entries], rfl, rfl, rfl⟩

/-- A token that is put back is logged with its kind. -/
theorem putBack {f : Unit → ParseM β} (rest : Logs (t :: ts) owed (f ()) after) :
    Logs ts (("unread " ++ t.kind.label) :: owed) (Parser.putBack t >>= f) after := by
  refine bind_of_ok (note (.putBack t.kind) fun p ahead => ?_) rest
  refine ⟨t :: ts, owed, ?_, rfl, rfl, rfl, rfl⟩
  change (p.cursor.putBack t).ahead = _
  rw [Cursor.ahead_putBack, ahead]
  rfl

theorem require {f : Token → ParseM β} (rest : Logs ts owed (f t) after) :
    Logs (t :: ts) owed (Parser.require e >>= f) after :=
  bind_of_ok (next (pure ⟨rfl, rfl, rfl⟩)) rest

theorem require_of_nil {f : Token → ParseM β} : Logs [] [] (Parser.require e >>= f) after :=
  bind_of_error (next throw)

theorem expect {f : Token → ParseM β} (isKind : t.kind = kind) (rest : Logs ts owed (f t) after) :
    Logs (t :: ts) owed (Parser.expect kind e >>= f) after := by
  refine bind_of_ok (require ?_) rest
  rw [if_pos isKind]
  exact pure ⟨rfl, rfl, rfl⟩

/-- Where a token of one kind is wanted and does not come, nothing more is logged. -/
theorem expect_of_ne {f : Token → ParseM β} (other : ∀ t ∈ ts.head?, t.kind ≠ kind) :
    Logs ts [] (Parser.expect kind e >>= f) after := by
  refine bind_of_error ?_
  cases ts with
  | nil => exact require_of_nil
  | cons t ts =>
    refine require ?_
    rw [if_neg (other t rfl)]
    exact throw

end Logs

theorem exists_cons_of_kind (first : ¬ ∀ t ∈ ts.head?, t.kind ≠ kind) :
    ∃ t us, ts = t :: us ∧ t.kind = kind := by
  cases ts with
  | nil => simp at first
  | cons t us => exact ⟨t, us, rfl, by simpa using first⟩

/-- Tokens of the kinds of a head begin with a head. -/
theorem exists_head_of_kinds (complete : [.name, .leftParen, .rightParen] <+: Token.kinds ts) :
    ∃ name paren close us, ts = name :: paren :: close :: us ∧ name.kind = .name ∧
      paren.kind = .leftParen ∧ close.kind = .rightParen := by
  obtain ⟨kinds, whole⟩ := complete
  have same : Token.kinds ts = .name :: .leftParen :: .rightParen :: kinds := whole.symm
  simp only [Token.kinds, List.map_eq_cons_iff] at same
  obtain ⟨name, _, rfl, isName, paren, _, rfl, isParen, close, us, rfl, isClose, -⟩ := same
  exact ⟨name, paren, close, us, rfl, isName, isParen, isClose⟩

/-! ### Rules for the grammar -/

/-- A head without an arrow behind it puts back the token that comes next, if there is one. -/
theorem logs_head (ts : List Token) (owed : List String) {name paren close : Token}
    (isName : name.kind = .name) (isParen : paren.kind = .leftParen)
    (isClose : close.kind = .rightParen) (noArrow : ∀ t ∈ ts.head?, t.kind ≠ .arrow) :
    Logs (name :: paren :: close :: ts)
      ("func_head" :: ((ts.head?.map fun t => "unread " ++ t.kind.label).toList ++ owed)) head
      fun name' us left => name' = name ∧ us = ts ∧ left = owed := by
  refine .note .head (.expect isName (.expect isParen (.require ?_)))
  rw [if_pos isClose]
  refine .next ?_
  cases ts with
  | nil => exact .pure ⟨rfl, rfl, rfl⟩
  | cons t ts =>
    have notArrow : t.kind ≠ .arrow := noArrow t rfl
    simp only [List.head?_cons, notArrow, if_false]
    exact .putBack (.pure ⟨rfl, rfl, rfl⟩)

/-- An arrow behind a head is refused, and nothing more is logged. -/
theorem logs_head_of_arrow {name paren close : Token} (isName : name.kind = .name)
    (isParen : paren.kind = .leftParen) (isClose : close.kind = .rightParen)
    (isArrow : t.kind = .arrow) {after : Token → List Token → List String → Prop} :
    Logs (name :: paren :: close :: t :: ts) ["func_head"] head after := by
  refine .note .head (.expect isName (.expect isParen (.require ?_)))
  rw [if_pos isClose]
  refine .next ?_
  simp only [List.head?_cons, isArrow, if_true]
  exact .throw

/-- A head that is not complete is refused, and nothing more is logged. -/
theorem logs_head_of_incomplete
    (incomplete : ¬ [.name, .leftParen, .rightParen] <+: Token.kinds ts)
    {after : Token → List Token → List String → Prop} : Logs ts ["func_head"] head after := by
  refine .note .head ?_
  by_cases named : ∀ t ∈ ts.head?, t.kind ≠ .name
  · exact .expect_of_ne named
  obtain ⟨name, ts, rfl, isName⟩ := exists_cons_of_kind named
  refine .expect isName ?_
  by_cases opened : ∀ t ∈ ts.head?, t.kind ≠ .leftParen
  · exact .expect_of_ne opened
  obtain ⟨paren, ts, rfl, isParen⟩ := exists_cons_of_kind opened
  refine .expect isParen ?_
  cases ts with
  | nil => exact .require_of_nil
  | cons close ts =>
    refine .require ?_
    have notClose : close.kind ≠ .rightParen := by
      intro isClose
      simp [isName, isParen, isClose] at incomplete
    rw [if_neg notClose]
    exact .throw

/-- A header is read with its own entries. -/
theorem logs_opening_header (header : Header) (ts : List Token) (owed : List String) :
    Logs (header.tokens ++ ts) (headerEntries ++ owed) opening
      fun opened us left => opened = .function header.fn header.name ∧ us = ts ∧ left = owed := by
  have notArrow : header.leftBrace.1.kind ≠ .arrow := by simp [header.leftBrace.2]
  have head := logs_head (header.leftBrace.1 :: ts) ("scope" :: owed) header.name.2
    header.leftParen.2 header.rightParen.2 (by simpa using notArrow)
  have entry : "unread " ++ Token.Kind.leftBrace.label = "unread LBRACE" := by decide
  simp only [List.head?_cons, Option.map_some, header.leftBrace.2, entry] at head
  refine .note .source (.next ?_)
  simp only [Header.tokens, List.cons_append, List.head?_cons, header.fn.2, reduceCtorEq, if_false,
    if_true]
  refine .note .function (.bind_of_ok head (.note .scope ?_))
  exact .expect header.leftBrace.2 (.pure ⟨rfl, rfl, rfl⟩)

/-- What has been opened is no function, and nothing is owed any more. -/
def NoFunction : Opening → List Token → List String → Prop
  | .function _ _, _, _ => False
  | .empty, _, left | .nop _, _, left => left = []

/-- Behind the keyword of a function, tokens that do not complete a header are refused. -/
theorem logs_function_of_not_header {fn : Token}
    (other : ¬ [.name, .leftParen, .rightParen, .leftBrace] <+: Token.kinds ts)
    {after : Opening → List Token → List String → Prop} :
    Logs ts
      ("func_head" :: if [.name, .leftParen, .rightParen] <+: Token.kinds ts then
        scopeEndingEntries ((Token.kinds ts).drop 3) else [])
      (head >>= fun name => note .scope >>= fun _ => expect .leftBrace >>= fun _ =>
        pure (.function fn name)) after := by
  by_cases complete : [.name, .leftParen, .rightParen] <+: Token.kinds ts
  · rw [if_pos complete]
    obtain ⟨name, paren, close, us, rfl, isName, isParen, isClose⟩ := exists_head_of_kinds complete
    cases us with
    | nil =>
      refine .bind_of_ok (logs_head [] ["scope"] isName isParen isClose ?_) ?_
      · simp
      · exact .note .scope (.expect_of_ne (by simp))
    | cons t us =>
      simp only [Token.kinds_cons, List.drop_succ_cons, List.drop_zero, scopeEndingEntries]
      by_cases isArrow : t.kind = .arrow
      · rw [if_pos isArrow]
        exact .bind_of_error (logs_head_of_arrow isName isParen isClose isArrow)
      · rw [if_neg isArrow]
        have notBrace : t.kind ≠ .leftBrace := by
          intro isBrace
          simp [isName, isParen, isClose, isBrace] at other
        refine .bind_of_ok (logs_head (t :: us) ["scope"] isName isParen isClose ?_) ?_
        · simpa using isArrow
        · exact .note .scope (.expect_of_ne (by simpa using notBrace))
  · rw [if_neg complete]
    exact .bind_of_error (logs_head_of_incomplete complete)

/-- A source that does not begin with a header is read to its end, or refused. -/
theorem logs_opening_of_not_header (other : ¬ Header.kinds <+: Token.kinds ts) :
    Logs ts ("source" :: endingEntries (Token.kinds ts)) opening NoFunction := by
  refine .note .source (.next ?_)
  cases ts with
  | nil => exact .pure rfl
  | cons t ts =>
    simp only [Token.kinds_cons, endingEntries, List.head?_cons, List.tail_cons]
    by_cases isClose : t.kind = .rightBrace
    · have entry : "unread " ++ t.kind.label = "unread RBRACE" := by
        rw [isClose]
        decide
      have back : Logs ts ["unread RBRACE"] (putBack t >>= fun _ => pure .empty) NoFunction := by
        rw [← entry]
        exact .putBack (.pure rfl)
      simp only [isClose, reduceCtorEq, if_true, if_false]
      exact back
    by_cases isNop : t.kind = .nop
    · simp only [isNop, reduceCtorEq, if_true, if_false]
      exact .note .nop (.pure rfl)
    by_cases isFn : t.kind = .fn
    · simp only [isFn, reduceCtorEq, if_true, if_false]
      refine .note .function (logs_function_of_not_header fun header => other ?_)
      rw [Token.kinds_cons, isFn]
      exact (List.prefix_append_right_inj [.fn]).mpr header
    · simp only [isClose, isNop, isFn, if_false]
      exact .throw

theorem logs_closing (fn name : Token) (body : Tree) (ts : List Token) :
    Logs ts [] (closing fn name body) Settled := by
  by_cases other : ∀ t ∈ ts.head?, t.kind ≠ .rightBrace
  · exact .expect_of_ne other
  · obtain ⟨t, us, rfl, isClose⟩ := exists_cons_of_kind other
    exact .expect isClose (.pure rfl)

theorem logs_ending (tree : Tree) (ts : List Token) :
    Logs ts [] (next >>= ending tree) Settled := by
  refine .next ?_
  cases ts.head? with
  | none => exact .pure rfl
  | some t => exact .throw

theorem source_eq : source = opening >>= complete :=
  funext source_eq_bind

/-- A header in front of a source adds its own entries, and nothing is logged when the function is
closed. -/
theorem logs_source_header (header : Header) (body : Logs ts owed source Settled) :
    Logs (header.tokens ++ ts) (headerEntries ++ owed) source Settled := by
  rw [source_eq]
  refine .bind_of_ok (logs_opening_header header ts owed) (body.bind ?_)
  rintro tree us _ rfl
  exact logs_closing header.fn header.name tree us

theorem logs_source_of_not_header (other : ¬ Header.kinds <+: Token.kinds ts) :
    Logs ts ("source" :: endingEntries (Token.kinds ts)) source Settled := by
  rw [source_eq]
  refine (logs_opening_of_not_header other).bind ?_
  intro opened us left noFunction
  cases opened with
  | empty | nop => exact .pure noFunction
  | function fn name => exact noFunction.elim

/-! ### Headers in front -/

theorem headed_header {kinds : List Token.Kind} {count : Nat} :
    Headed (Header.kinds ++ kinds) (count + 1) ↔ Headed kinds count := by
  rw [Headed, Headed, List.replicate_succ, List.flatten_cons, List.prefix_append_right_inj]

/-- Where no header stands in front, none are. -/
theorem isGreatest_zero {kinds : List Token.Kind} (other : ¬ Header.kinds <+: kinds) :
    IsGreatest { count | Headed kinds count } 0 := by
  refine ⟨List.nil_prefix, ?_⟩
  rintro (_ | more) headed
  · exact Nat.le_refl _
  · rw [Set.mem_ofPred_eq, Headed, List.replicate_succ, List.flatten_cons] at headed
    exact absurd ((List.prefix_append _ _).trans headed) other

/-- A header in front is one more. -/
theorem isGreatest_succ {kinds : List Token.Kind} {count : Nat}
    (greatest : IsGreatest { count | Headed kinds count } count) :
    IsGreatest { count | Headed (Header.kinds ++ kinds) count } (count + 1) := by
  refine ⟨headed_header.mpr greatest.1, ?_⟩
  rintro (_ | more) headed
  · exact Nat.zero_le _
  · exact Nat.succ_le_succ (greatest.2 (headed_header.mp headed))

/-- A source is logged header by header, as long as there are headers in front. -/
theorem exists_logs_source (ts : List Token) :
    ∃ count, IsGreatest { count | Headed (Token.kinds ts) count } count ∧
      Logs ts ((List.replicate count headerEntries).flatten ++
        "source" :: endingEntries ((Token.kinds ts).drop (5 * count))) source Settled := by
  induction length : ts.length using Nat.strong_induction_on generalizing ts with
  | _ size ih =>
    by_cases begins : Header.kinds <+: Token.kinds ts
    · obtain ⟨kinds, whole⟩ := begins
      obtain ⟨front, us, rfl, isHeader, rfl⟩ := List.map_eq_append_iff.mp whole.symm
      obtain ⟨header, rfl⟩ := Header.exists_of_kinds isHeader
      have shorter : us.length < size := by
        rw [← length, List.length_append]
        exact Nat.lt_add_of_pos_left (Nat.succ_pos _)
      obtain ⟨count, greatest, logs⟩ := ih us.length shorter us rfl
      have behind : (Header.kinds ++ Token.kinds us).drop (5 * (count + 1)) =
          (Token.kinds us).drop (5 * count) := by
        rw [Nat.mul_succ, Nat.add_comm, ← List.drop_drop]
        rfl
      refine ⟨count + 1, ?_⟩
      rw [Token.kinds_append, header.kinds_tokens, behind, List.replicate_succ, List.flatten_cons,
        List.append_assoc]
      exact ⟨isGreatest_succ greatest, logs_source_header header logs⟩
    · exact ⟨0, isGreatest_zero begins, logs_source_of_not_header begins⟩

/-! ### Runs -/

/-- The log of a run is what a source owes to it. -/
theorem log_run (p : Parser) (logs : Logs ts owed source Settled) :
    (p.run (.ofList ts)).1.log.map Step.text = owed := by
  have whole : Logs ts owed (source >>= fun tree => next >>= ending tree) Settled := by
    refine logs.bind ?_
    rintro tree us _ rfl
    exact logs_ending tree us
  let start : Parser := { p with cursor := .ofStream (.ofList ts), log := #[] }
  have same : p.parse (.ofList ts) = (source >>= fun tree => next >>= ending tree) start := rfl
  have paid := whole start (by rw [Cursor.ahead_ofStream, TokenStream.transcript_ofList])
  rw [← same] at paid
  unfold run
  split
  · next tree q parsed =>
    rw [parsed] at paid
    obtain ⟨us, _, -, total, rfl⟩ := paid
    rwa [List.append_nil] at total
  · next e q parsed =>
    rw [parsed] at paid
    exact paid

/-- **The log.** Whether the tokens have a tree or not, the log has five entries for each header in
front, and behind them the entry of a source with what the tokens behind the headers leave: an
entry for the statement that does nothing, one for a closing brace that is put back, those of a
function that is not opened, and none otherwise. -/
theorem log_tells_headers (p : Parser) (ts : List Token) :
    ∃ count, IsGreatest { count | Headed (Token.kinds ts) count } count ∧
      (p.run (.ofList ts)).1.log.map Step.text =
        (List.replicate count
          ["source", "fn_stmt", "func_head", "unread LBRACE", "scope"]).flatten ++
        "source" :: endingEntries ((Token.kinds ts).drop (5 * count)) := by
  obtain ⟨count, greatest, logs⟩ := exists_logs_source ts
  exact ⟨count, greatest, log_run p logs⟩

/-- A header, and behind it, with the entries they leave: the statement that does nothing, a closing
brace, a head that is cut short, a complete one, and a complete one with a name and with an arrow
behind it. -/
theorem log_tells_headers_behind_header :
    ∀ inside ∈ [([⟨.nop, "nop", {}⟩], ["nop"]),
        ([⟨.rightBrace, "\x7d", {}⟩], ["unread RBRACE"]),
        (idleFunction.tokens.take 2, ["fn_stmt", "func_head"]),
        (idleFunction.tokens.take 4, ["fn_stmt", "func_head", "scope"]),
        (idleFunction.tokens.take 4 ++ [⟨.name, "x", {}⟩],
          ["fn_stmt", "func_head", "unread NAME", "scope"]),
        (idleFunction.tokens.take 4 ++ [⟨.arrow, "->", {}⟩], ["fn_stmt", "func_head"])],
      (run {} (.ofList (idleFunction.tokens.take 5 ++ inside.1))).1.log.map Step.text =
        ["source", "fn_stmt", "func_head", "unread LBRACE", "scope", "source"] ++ inside.2 := by
  intro inside member
  obtain ⟨other, entries⟩ : ¬ Header.kinds <+: Token.kinds inside.1 ∧
      endingEntries (Token.kinds inside.1) = inside.2 := by
    revert inside
    decide
  obtain ⟨count, greatest, log⟩ := log_tells_headers {} (idleFunction.tokens.take 5 ++ inside.1)
  obtain rfl : count = 1 := greatest.unique (isGreatest_succ (isGreatest_zero other))
  rw [log, ← entries]
  rfl

end Spire.Parser

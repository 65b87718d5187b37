import Spire.Lexer
import Spire.Cursor
import Spire.Parser.Error

/-!
# What a parser remembers

A parser reads from a cursor, keeps a log of the rules that it enters and of the tokens
that it puts back, and prints the log as it grows if it is asked to. A computation of
the parser changes these three and may fail; a failure keeps the changes made before it.

## Main definitions

* `Step` — an entry of the log
* `Parser` — cursor, log and printed lines
* `Parser.note`, `Parser.next`, `Parser.putBack` — record a step, read a token, give a
  token back
* `Parser.require`, `Parser.expect` — read a token that must be there

## Main results

* `Parser.bind_eq_ok` — a computation in two parts succeeds when both parts do
* `Parser.remaining_next`, `Parser.expect_eq_ok` — a token that is read is one token less
  to read
-/

namespace Spire

/-- What the log records: a rule that is entered, or a token that is put back. -/
inductive Step where
  | source
  | nop
  | function
  | head
  | scope
  | putBack (kind : Token.Kind)
deriving DecidableEq, Repr, Inhabited

namespace Step

/-- The log entry of a step. -/
def text : Step → String
  | source => "source"
  | nop => "nop"
  | function => "fn_stmt"
  | head => "func_head"
  | scope => "scope"
  | putBack kind => "unread " ++ kind.label

/-- The line that is printed for a step. -/
def line (step : Step) : String :=
  "  [trace] " ++ step.text

end Step

/-- What a parser remembers: whether it prints its log, where it reads, the log of the
current source, and the lines that it has printed so far. -/
structure Parser where
  tracing : Bool := false
  cursor : Cursor := {}
  log : Array Step := #[]
  console : Array String := #[]
deriving Inhabited

/-- A computation of the parser. A failure leaves the log and the reading position as
they were when it arose. -/
abbrev ParseM := EStateM Failure Parser

namespace Parser

/-- Record a step, and print it if the parser traces. -/
def note (step : Step) : ParseM Unit := fun p =>
  .ok () { p with
    log := p.log.push step
    console := if p.tracing then p.console.push step.line else p.console }

/-- Read the next token, if there is one. -/
def next : ParseM (Option Token) := fun p =>
  match p.cursor.next with
  | (.ok t?, cursor) => .ok t? { p with cursor }
  | (.error fault, cursor) => .error (.lex fault) { p with cursor }

/-- Give a token back for another rule to read. -/
def putBack (t : Token) : ParseM Unit := do
  note (.putBack t.kind)
  modify fun p => { p with cursor := p.cursor.putBack t }

/-- Read a token where one is needed. -/
def require (expected : Expectation) : ParseM Token := do
  match ← next with
  | some t => return t
  | none => throw (.parse (.unexpectedEnd expected))

/-- Read a token of one kind. -/
def expect (kind : Token.Kind) (expected : Expectation := .kind kind) : ParseM Token := do
  let t ← require expected
  if t.kind = kind then
    return t
  else
    throw (.parse (.unexpectedToken expected t))

/-! ### Success, and the tokens it takes -/

/-- The number of tokens that a parser can still read. -/
def remaining (p : Parser) : Nat :=
  p.cursor.remaining

variable {α β : Type} {p q : Parser} {t : Token}

/-- A computation in two parts succeeds when both parts do. -/
theorem bind_eq_ok {x : ParseM α} {f : α → ParseM β} {b : β} :
    (x >>= f) p = .ok b q ↔ ∃ a r, x p = .ok a r ∧ f a r = .ok b q := by
  change EStateM.bind x f p = .ok b q ↔ _
  unfold EStateM.bind
  cases x p with
  | ok a r =>
    constructor
    · intro finished
      exact ⟨a, r, rfl, finished⟩
    · rintro ⟨_, _, same, finished⟩
      cases same
      exact finished
  | error e r => simp

theorem pure_eq_ok {a b : α} : (pure a : ParseM α) p = .ok b q ↔ a = b ∧ p = q := by
  change EStateM.Result.ok a p = .ok b q ↔ _
  simp

theorem throw_ne_ok {e : Failure} {a : α} : (throw e : ParseM α) p ≠ .ok a q :=
  fun impossible => nomatch impossible

@[simp] theorem remaining_note (step : Step) :
    note step p = .ok () q → q.remaining = p.remaining := by
  intro noted
  cases noted
  rfl

/-- A token that is read is one token less to read. -/
theorem remaining_next (read : next p = .ok (some t) q) : q.remaining + 1 = p.remaining := by
  unfold next at read
  split at read
  · next t? cursor answered =>
    cases read
    have step := Cursor.remaining_next (congrArg Prod.fst answered)
    rwa [answered] at step
  · cases read

theorem remaining_next_of_none (ended : next p = .ok none q) : q.remaining = 0 := by
  unfold next at ended
  split at ended
  · next t? cursor answered =>
    cases ended
    have step := Cursor.remaining_next_of_none (congrArg Prod.fst answered)
    rwa [answered] at step
  · cases ended

theorem remaining_putBack (back : putBack t p = .ok () q) : q.remaining = p.remaining + 1 := by
  cases back
  exact Cursor.remaining_putBack

theorem require_eq_ok {e : Expectation} : require e p = .ok t q ↔ next p = .ok (some t) q := by
  rw [require, bind_eq_ok]
  constructor
  · rintro ⟨t?, r, read, finished⟩
    cases t? with
    | none => exact absurd finished throw_ne_ok
    | some u =>
      obtain ⟨rfl, rfl⟩ := pure_eq_ok.mp finished
      exact read
  · intro read
    exact ⟨some t, q, read, rfl⟩

/-- A token of the wanted kind is read, or there is no success. -/
theorem expect_eq_ok {kind : Token.Kind} {e : Expectation} :
    expect kind e p = .ok t q ↔ next p = .ok (some t) q ∧ t.kind = kind := by
  rw [expect, bind_eq_ok]
  constructor
  · rintro ⟨u, r, read, finished⟩
    by_cases same : u.kind = kind
    · rw [if_pos same] at finished
      obtain ⟨rfl, rfl⟩ := pure_eq_ok.mp finished
      exact ⟨require_eq_ok.mp read, same⟩
    · rw [if_neg same] at finished
      exact absurd finished throw_ne_ok
  · rintro ⟨read, same⟩
    exact ⟨t, q, require_eq_ok.mpr read, by rw [if_pos same]; rfl⟩

end Parser

end Spire

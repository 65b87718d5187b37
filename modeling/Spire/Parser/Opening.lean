import Spire.Parser.Basic

/-!
# How a source opens

A source is read up to the point where another source begins inside it. By then it is
clear whether the source is empty, holds the statement that does nothing, or holds a
function; of a function the keyword, the head and the opening brace have been read.

## Main definitions

* `Parser.head` — the head of a function
* `Opening` — what a source turns out to be
* `Parser.opening` — a source up to the body of its function

## Main results

* `Parser.remaining_head`, `Parser.remaining_opening` — a function that is opened has used
  up tokens, so that bodies are nested only as deep as there are tokens
-/

namespace Spire

/-- A source as far as it can be read without reading another source. -/
inductive Opening where
  /-- There is no statement. -/
  | empty
  /-- The only statement does nothing. -/
  | nop (t : Token)
  /-- The only statement is a function, and its body comes next. -/
  | function (fn name : Token)
deriving DecidableEq, Repr, Inhabited

namespace Parser

/-- Read the head of a function and give its name. The token behind the head belongs to
the scope and is put back. -/
def head : ParseM Token := do
  note .head
  let name ← expect .name .functionName
  let _ ← expect .leftParen
  let close ← require (.kind .rightParen)
  if close.kind = .rightParen then
    match ← next with
    | none => return name
    | some t =>
      if t.kind = .arrow then
        throw (.parse (.unsupported .typeHint t))
      else
        putBack t
        return name
  else
    throw (.parse (.unsupported .arguments close))

/-- Read a source up to the body of its function, if it has one. A closing brace belongs
to the scope around the source and is put back. -/
def opening : ParseM Opening := do
  note .source
  match ← next with
  | none => return .empty
  | some t =>
    if t.kind = .rightBrace then
      putBack t
      return .empty
    else if t.kind = .nop then
      note .nop
      return .nop t
    else if t.kind = .fn then
      note .function
      let name ← head
      note .scope
      let _ ← expect .leftBrace
      return .function t name
    else
      throw (.parse (.unexpectedToken .statement t))

variable {p q : Parser} {t fn name : Token}

/-- A head takes no fewer tokens than it gives back. -/
theorem remaining_head (read : head p = .ok name q) : q.remaining ≤ p.remaining := by
  obtain ⟨_, p₁, noted, read⟩ := bind_eq_ok.mp read
  obtain ⟨_, p₂, named, read⟩ := bind_eq_ok.mp read
  obtain ⟨_, p₃, opened, read⟩ := bind_eq_ok.mp read
  obtain ⟨close, p₄, closed, read⟩ := bind_eq_ok.mp read
  have start := remaining_note _ noted
  have afterName := remaining_next (expect_eq_ok.mp named).1
  have afterOpen := remaining_next (expect_eq_ok.mp opened).1
  have afterClose := remaining_next (require_eq_ok.mp closed)
  by_cases isClose : close.kind = .rightParen
  · rw [if_pos isClose] at read
    obtain ⟨t?, p₅, looked, read⟩ := bind_eq_ok.mp read
    cases t? with
    | none =>
      obtain ⟨-, rfl⟩ := pure_eq_ok.mp read
      have afterLook := remaining_next_of_none looked
      omega
    | some t =>
      have afterLook := remaining_next looked
      by_cases isArrow : t.kind = .arrow
      · simp only [isArrow, if_true] at read
        exact absurd read throw_ne_ok
      · simp only [isArrow, if_false] at read
        obtain ⟨_, p₆, back, read⟩ := bind_eq_ok.mp read
        obtain ⟨-, rfl⟩ := pure_eq_ok.mp read
        have afterBack := remaining_putBack back
        omega
  · rw [if_neg isClose] at read
    exact absurd read throw_ne_ok

/-- A function that is opened has used up tokens. -/
theorem remaining_opening (read : opening p = .ok (.function fn name) q) :
    q.remaining < p.remaining := by
  obtain ⟨_, p₁, noted, read⟩ := bind_eq_ok.mp read
  obtain ⟨t?, p₂, looked, read⟩ := bind_eq_ok.mp read
  have start := remaining_note _ noted
  cases t? with
  | none => exact absurd (pure_eq_ok.mp read).1 (by simp)
  | some t =>
    have afterFirst := remaining_next looked
    by_cases isClose : t.kind = .rightBrace
    · simp only [isClose, if_true] at read
      obtain ⟨_, _, _, read⟩ := bind_eq_ok.mp read
      exact absurd (pure_eq_ok.mp read).1 (by simp)
    by_cases isNop : t.kind = .nop
    · simp only [isNop, if_true] at read
      obtain ⟨_, _, _, read⟩ := bind_eq_ok.mp read
      exact absurd (pure_eq_ok.mp read).1 (by simp)
    by_cases isFn : t.kind = .fn
    · simp only [isFn, if_true] at read
      obtain ⟨_, p₃, noted, read⟩ := bind_eq_ok.mp read
      obtain ⟨_, p₄, headed, read⟩ := bind_eq_ok.mp read
      obtain ⟨_, p₅, entered, read⟩ := bind_eq_ok.mp read
      obtain ⟨_, p₆, braced, read⟩ := bind_eq_ok.mp read
      obtain ⟨-, rfl⟩ := pure_eq_ok.mp read
      have afterFn := remaining_note _ noted
      have afterHead := remaining_head headed
      have afterScope := remaining_note _ entered
      have afterBrace := remaining_next (expect_eq_ok.mp braced).1
      omega
    · simp only [isClose, isNop, isFn, if_false] at read
      exact absurd read throw_ne_ok

end Parser

end Spire

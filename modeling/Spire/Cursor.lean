import Spire.TokenStream

/-!
# Reading tokens with put-back

A cursor reads a token stream one token at a time and takes tokens back. Tokens that
were put back are read again before the stream goes on, the latest first. The cursor
also counts the tokens that it has taken from the stream; reading a token again does
not count.

## Main definitions

* `Cursor` — tokens put back, the rest of the stream, and the count
* `Cursor.next`, `Cursor.putBack` — read a token, give a token back
* `Cursor.ahead` — the tokens that reading on would give

## Main results

* `Cursor.ahead_putBack` — a token that is put back stands in front of the others
* `Cursor.next_ahead` — reading takes the token in front
* `Cursor.remaining_next` — each token that is read leaves one token less to read
-/

namespace Spire

/-- A reading position in a token stream. -/
structure Cursor where
  pending : List Token := []
  stream : TokenStream := .done
  pulled : Nat := 0
deriving Inhabited

namespace Cursor

/-- The cursor at the start of a stream. -/
def ofStream (stream : TokenStream) : Cursor :=
  ⟨[], stream, 0⟩

/-- The next token, if there is one, and the cursor behind it. -/
def next (c : Cursor) : Except LexFault (Option Token) × Cursor :=
  match c.pending with
  | t :: pending => (.ok (some t), { c with pending })
  | [] =>
    match c.stream.next with
    | (.ok (some t), stream) => (.ok (some t), ⟨[], stream, c.pulled + 1⟩)
    | (answer, stream) => (answer, ⟨[], stream, c.pulled⟩)

/-- The cursor that reads `t` before everything else. -/
def putBack (c : Cursor) (t : Token) : Cursor :=
  { c with pending := t :: c.pending }

/-- What reading on gives: the tokens that were put back, then those of the stream. -/
def ahead (c : Cursor) : Transcript :=
  ⟨c.pending ++ c.stream.transcript.tokens, c.stream.transcript.fault?⟩

/-- The number of tokens that can still be read. -/
def remaining (c : Cursor) : Nat :=
  c.pending.length + c.stream.length

variable {c : Cursor} {t : Token}

@[simp] theorem ahead_ofStream (s : TokenStream) : (ofStream s).ahead = s.transcript := rfl

/-- A token that is put back stands in front of the others. -/
theorem ahead_putBack : (c.putBack t).ahead = .cons t c.ahead := rfl

@[simp] theorem remaining_putBack : (c.putBack t).remaining = c.remaining + 1 := by
  simp [putBack, remaining, Nat.add_right_comm]

/-- Reading takes the token in front; at the end and at a fault nothing is left. -/
theorem next_ahead (c : Cursor) :
    (c.next.1, c.next.2.ahead) =
      match c.ahead with
      | ⟨t :: tokens, fault?⟩ => (.ok (some t), ⟨tokens, fault?⟩)
      | ⟨[], some cause⟩ => (.error cause, {})
      | ⟨[], none⟩ => (.ok none, {}) := by
  obtain ⟨_ | ⟨t, pending⟩, stream, pulled⟩ := c
  · cases stream <;> rfl
  · rfl

/-- Each token that is read leaves one token less to read. -/
theorem remaining_next (read : c.next.1 = .ok (some t)) :
    c.next.2.remaining + 1 = c.remaining := by
  obtain ⟨_ | ⟨u, pending⟩, stream, pulled⟩ := c
  · cases stream with
    | done => simp [next, TokenStream.next] at read
    | fault cause => simp [next, TokenStream.next] at read
    | token u rest => simp [next, TokenStream.next, remaining, TokenStream.length]
  · simp [next, remaining, Nat.add_right_comm]

/-- At the end of the tokens there is nothing to read afterwards either. -/
theorem remaining_next_of_none (ended : c.next.1 = .ok none) : c.next.2.remaining = 0 := by
  obtain ⟨_ | ⟨u, pending⟩, stream, pulled⟩ := c
  · cases stream with
    | done => rfl
    | fault cause => rfl
    | token u rest => simp [next, TokenStream.next] at ended
  · simp [next] at ended

end Cursor

end Spire

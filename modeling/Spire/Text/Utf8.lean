/-!
# Reading UTF-8

Bytes are read as UTF-8. Bytes that are no UTF-8 become replacement characters: one for
the longest run of bytes that could have begun a character, and one for each byte that
can begin none. A byte order mark is a character like any other.

## Main definitions

* `Utf8.Pending` — a character of which some bytes have been read
* `Utf8.step` — what one more byte completes
* `Utf8.decode` — the text of a list of bytes
-/

namespace Spire.Utf8

/-- The character that stands for what cannot be read. -/
def replacement : Char := '\ufffd'

/-- A character of which some bytes have been read: how many bytes are owed, between which
bounds the next one must lie, and the value so far. -/
structure Pending where
  owed : Nat
  low : Nat := 0x80
  high : Nat := 0xBF
  value : Nat
deriving DecidableEq, Repr, Inhabited

/-- What a byte gives at the beginning of a character. The bounds on the second byte keep
out values that have a shorter form, surrogates, and values that are too large. -/
def lead (b : Nat) : List Char × Option Pending :=
  if b < 0x80 then ([Char.ofNat b], none)
  else if b < 0xC2 then ([replacement], none)
  else if b < 0xE0 then ([], some { owed := 1, value := b - 0xC0 })
  else if b = 0xE0 then ([], some { owed := 2, low := 0xA0, value := 0 })
  else if b = 0xED then ([], some { owed := 2, high := 0x9F, value := 0xD })
  else if b < 0xF0 then ([], some { owed := 2, value := b - 0xE0 })
  else if b = 0xF0 then ([], some { owed := 3, low := 0x90, value := 0 })
  else if b < 0xF4 then ([], some { owed := 3, value := b - 0xF0 })
  else if b = 0xF4 then ([], some { owed := 3, high := 0x8F, value := 4 })
  else ([replacement], none)

/-- The characters that one more byte completes, and what is pending behind it. -/
def step (pending : Option Pending) (b : Nat) : List Char × Option Pending :=
  match pending with
  | none => lead b
  | some p =>
    if p.low ≤ b ∧ b ≤ p.high then
      let value := p.value * 0x40 + (b - 0x80)
      if p.owed ≤ 1 then ([Char.ofNat value], none)
      else ([], some { owed := p.owed - 1, value })
    else
      let (chars, next) := lead b
      (replacement :: chars, next)

/-- The characters of bytes that follow a pending character. -/
def decodeFrom (pending : Option Pending) : List UInt8 → List Char
  | [] => if pending.isSome then [replacement] else []
  | b :: bytes =>
    let (chars, next) := step pending b.toNat
    chars ++ decodeFrom next bytes

/-- The text of a list of bytes. -/
def decode (bytes : List UInt8) : String :=
  String.ofList (decodeFrom none bytes)

end Spire.Utf8

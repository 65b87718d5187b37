import Spire.Text.Utf16

/-!
# Quoted text

A text is quoted by writing it between double quotes with some of its characters
escaped: the quote, the backslash, and everything below the space. Reading takes any
escape that the format knows, among them four hexadecimal digits for a code unit of
sixteen bits. Two such units may stand for one character outside the basic plane; half
of such a pair alone stands for no character and is read as the replacement character.

## Main definitions

* `Json.quote` — a text between quotes
* `Json.Quoted.read` — the code units of a quoted text whose opening quote has been read
* `Json.Quoted.decode` — the text that code units stand for

## Main results

* `Json.Quoted.read_escape` — an escaped character is read as its code
* `Json.Quoted.read_quote` — what is written by quoting is read back, whatever follows
* `Json.Quoted.decode_map_toNat` — codes of characters stand for these characters
-/

namespace Spire.Json

namespace Quoted

/-- How a character is written between quotes. -/
def escape (c : Char) : List Char :=
  if c = '"' then ['\\', '"']
  else if c = '\\' then ['\\', '\\']
  else if c = '\x08' then ['\\', 'b']
  else if c = '\x0c' then ['\\', 'f']
  else if c = '\n' then ['\\', 'n']
  else if c = '\r' then ['\\', 'r']
  else if c = '\t' then ['\\', 't']
  else if c.toNat < 0x20 then
    ['\\', 'u', '0', '0', Nat.digitChar (c.toNat / 16), Nat.digitChar (c.toNat % 16)]
  else [c]

/-- The code that a letter stands for behind a backslash. -/
def simple? (c : Char) : Option Nat :=
  [('"', 0x22), ('\\', 0x5C), ('/', 0x2F), ('b', 0x08), ('f', 0x0C), ('n', 0x0A), ('r', 0x0D),
    ('t', 0x09)].lookup c

/-- The value of a hexadecimal digit. -/
def hexValue? (c : Char) : Option Nat :=
  if '0' ≤ c ∧ c ≤ '9' then some (c.toNat - '0'.toNat)
  else if 'a' ≤ c ∧ c ≤ 'f' then some (c.toNat - 'a'.toNat + 10)
  else if 'A' ≤ c ∧ c ≤ 'F' then some (c.toNat - 'A'.toNat + 10)
  else none

/-- Where reading stands inside a quoted text. -/
inductive Mode where
  /-- Between characters. -/
  | plain
  /-- Behind a backslash. -/
  | escape
  /-- Inside a code unit, with more digits owed behind the next one. -/
  | hex (owed : Nat) (value : Nat)
deriving DecidableEq, Repr, Inhabited

/-- The code units up to the closing quote, and the text behind it. -/
def readFrom (mode : Mode) : List Char → Option (List Nat × List Char)
  | [] => none
  | c :: rest =>
    let unit (value : Nat) := (readFrom .plain rest).map fun (units, behind) =>
      (value :: units, behind)
    match mode with
    | .plain =>
      if c = '"' then some ([], rest)
      else if c = '\\' then readFrom .escape rest
      else if c.toNat < 0x20 then none
      else unit c.toNat
    | .escape =>
      if c = 'u' then readFrom (.hex 3 0) rest else (simple? c).bind unit
    | .hex owed value =>
      (hexValue? c).bind fun digit =>
        match owed with
        | 0 => unit (16 * value + digit)
        | owed + 1 => readFrom (.hex owed (16 * value + digit)) rest

/-- The code units of a quoted text whose opening quote has been read, and the text
behind its closing quote. -/
def read (text : List Char) : Option (List Nat × List Char) :=
  readFrom .plain text

/-- The first unit of a pair. -/
def isHigh (unit : Nat) : Bool :=
  0xD800 ≤ unit && unit < 0xDC00

/-- The second unit of a pair. -/
def isLow (unit : Nat) : Bool :=
  0xDC00 ≤ unit && unit < 0xE000

/-- The character of a unit that is not in a pair. -/
def ofUnit (unit : Nat) : Char :=
  if isHigh unit || isLow unit then '\ufffd' else Char.ofNat unit

/-- The text that code units stand for. -/
def decode : List Nat → List Char
  | [] => []
  | [unit] => [ofUnit unit]
  | high :: low :: units =>
    if isHigh high && isLow low then
      Char.ofNat (0x10000 + (high - 0xD800) * 0x400 + (low - 0xDC00)) :: decode units
    else
      ofUnit high :: decode (low :: units)

end Quoted

/-- A text between quotes. -/
def quote (text : List Char) : List Char :=
  '"' :: (text.flatMap Quoted.escape ++ ['"'])

namespace Quoted

variable {text rest : List Char}

/-- The text behind a quoted text is shorter than the text. -/
theorem length_readFrom {mode : Mode} {units : List Nat} {behind : List Char}
    (found : readFrom mode text = some (units, behind)) : behind.length < text.length := by
  induction text generalizing mode units behind with
  | nil => simp [readFrom] at found
  | cons c text ih =>
    have afterUnit : ∀ value : Nat,
        ((readFrom .plain text).map fun (units, behind) => (value :: units, behind)) =
          some (units, behind) → behind.length < (c :: text).length := by
      intro value taken
      obtain ⟨⟨us, b⟩, more, same⟩ := Option.map_eq_some_iff.mp taken
      cases same
      exact Nat.lt_succ_of_lt (ih more)
    cases mode with
    | plain =>
      simp only [readFrom] at found
      split at found
      · cases found
        exact Nat.lt_succ_self _
      split at found
      · exact Nat.lt_succ_of_lt (ih found)
      split at found
      · cases found
      · exact afterUnit _ found
    | escape =>
      simp only [readFrom] at found
      split at found
      · exact Nat.lt_succ_of_lt (ih found)
      · obtain ⟨value, -, taken⟩ := Option.bind_eq_some_iff.mp found
        exact afterUnit value taken
    | hex owed value =>
      simp only [readFrom] at found
      obtain ⟨digit, -, taken⟩ := Option.bind_eq_some_iff.mp found
      cases owed with
      | zero => exact afterUnit _ taken
      | succ owed => exact Nat.lt_succ_of_lt (ih taken)

/-- An escaped character is read as its code. -/
theorem read_escape (c : Char) :
    read (escape c ++ rest) =
      (read rest).map fun (units, behind) => (c.toNat :: units, behind) := by
  unfold read escape
  split
  · next h => subst h; rfl
  split
  · next h => subst h; rfl
  split
  · next h => subst h; rfl
  split
  · next h => subst h; rfl
  split
  · next h => subst h; rfl
  split
  · next h => subst h; rfl
  split
  · next h => subst h; rfl
  split
  · next low =>
    have hexRead : ∀ n : Fin 32,
        hexValue? (Nat.digitChar (n.val / 16)) = some (n.val / 16) ∧
          hexValue? (Nat.digitChar (n.val % 16)) = some (n.val % 16) := by
      decide
    obtain ⟨upper, lower⟩ := hexRead ⟨c.toNat, low⟩
    have zero : hexValue? '0' = some 0 := by decide
    have whole : 16 * (c.toNat / 16) + c.toNat % 16 = c.toNat := Nat.div_add_mod _ _
    simp only at upper lower
    simp [readFrom, zero, upper, lower, whole]
  · next notQuote notBackslash _ _ _ _ _ notLow =>
    simp [readFrom, notQuote, notBackslash, notLow]

/-- What is written by quoting is read back, whatever follows. -/
theorem read_quote :
    read (text.flatMap escape ++ '"' :: rest) = some (text.map Char.toNat, rest) := by
  induction text with
  | nil => rfl
  | cons c text ih =>
    rw [List.flatMap_cons, List.append_assoc, read_escape, ih]
    rfl

theorem ofUnit_toNat (c : Char) : ofUnit c.toNat = c := by
  have notPair : (isHigh c.toNat || isLow c.toNat) = false := by
    simp only [isHigh, isLow, Bool.or_eq_false_iff, Bool.and_eq_false_iff, decide_eq_false_iff_not]
    have bounds := Utf16.toNat_bounds c
    omega
  rw [ofUnit, notPair]
  exact Char.ofNat_toNat c

/-- Codes of characters stand for these characters. -/
theorem decode_map_toNat (text : List Char) : decode (text.map Char.toNat) = text := by
  induction text with
  | nil => rfl
  | cons c text ih =>
    cases text with
    | nil => exact congrArg (fun d => [d]) (ofUnit_toNat c)
    | cons d text =>
      have notHigh : isHigh c.toNat = false := by
        have bounds := Utf16.toNat_bounds c
        simp only [isHigh, Bool.and_eq_false_iff, decide_eq_false_iff_not]
        omega
      simp only [List.map_cons] at ih ⊢
      rw [decode, notHigh, Bool.false_and, if_neg Bool.false_ne_true, ih, ofUnit_toNat]

end Quoted

end Spire.Json

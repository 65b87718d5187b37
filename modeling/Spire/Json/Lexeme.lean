import Spire.Json
import Spire.Json.Quoted

/-!
# The words of JSON

A JSON text is made of brackets, commas, colons and values that contain no others, with
blanks between them as one likes. Numbers and the three names are cut out as long runs
of their characters and checked afterwards, which refuses no text of the format, since
two of them never touch there.

## Main definitions

* `Json.Lexeme` — the words of the format
* `Json.Lexeme.first` — the word at the front of a text
* `Json.Lexeme.all` — the words of a text
* `Json.isNumber` — the check of a number

## Main results

* `Json.Lexeme.length_first` — a word takes at least one character
-/

namespace Spire.Json

/-! ### Numbers -/

/-- Where the check of a number stands. -/
inductive NumberState where
  | start
  | sign
  | zero
  | whole
  | point
  | fraction
  | mark
  | markSign
  | exponent
deriving DecidableEq, Repr, Inhabited

namespace NumberState

/-- The state behind one more character. -/
def next (state : NumberState) (c : Char) : Option NumberState :=
  match state with
  | start => if c = '-' then some sign else firstDigit
  | sign => firstDigit
  | zero => behindWhole
  | whole => if c.isDigit then some whole else behindWhole
  | point => if c.isDigit then some fraction else none
  | fraction => if c.isDigit then some fraction else behindFraction
  | mark => if c = '+' ∨ c = '-' then some markSign else exponentDigit
  | markSign => exponentDigit
  | exponent => exponentDigit
where
  firstDigit := if c = '0' then some zero else if c.isDigit then some whole else none
  behindFraction := if c = 'e' ∨ c = 'E' then some mark else none
  behindWhole := if c = '.' then some point else behindFraction
  exponentDigit := if c.isDigit then some exponent else none

/-- A number may stop here. -/
def accepts : NumberState → Bool
  | zero | whole | fraction | exponent => true
  | _ => false

end NumberState

/-- Whether characters spell a number: a whole part without leading zeros, then perhaps a
fraction, then perhaps an exponent. -/
def isNumber (text : List Char) : Bool :=
  (text.foldlM NumberState.next .start).any NumberState.accepts

/-- The characters that numbers are made of. -/
def inNumber (c : Char) : Bool :=
  c.isDigit || ['+', '-', '.', 'e', 'E'].contains c

/-! ### Words -/

/-- The words of the format. -/
inductive Lexeme where
  | openArray
  | closeArray
  | openObject
  | closeObject
  | comma
  | colon
  | scalar (value : Json)
deriving Repr, Inhabited

/-- The blanks of the format. -/
def isSpace (c : Char) : Bool :=
  c == ' ' || c == '\t' || c == '\n' || c == '\r'

namespace Lexeme

/-- The words of one character. -/
def punctuation : List (Char × Lexeme) :=
  [('[', openArray), (']', closeArray), ('{', openObject), ('}', closeObject), (',', comma),
    (':', colon)]

/-- The words of letters. -/
def names : List (List Char × Json) :=
  [(['n', 'u', 'l', 'l'], null), (['t', 'r', 'u', 'e'], bool true),
    (['f', 'a', 'l', 's', 'e'], bool false)]

/-- The word at the front of the text `c :: rest`, and what follows it. -/
def first (c : Char) (rest : List Char) : Option (Lexeme × List Char) :=
  match punctuation.lookup c with
  | some mark => some (mark, rest)
  | none =>
    if c = '"' then
      (Quoted.read rest).map fun (units, behind) =>
        (scalar (string (String.ofList (Quoted.decode units))), behind)
    else if c = '-' ∨ c.isDigit then
      let literal := c :: rest.takeWhile inNumber
      if isNumber literal then
        some (scalar (number (String.ofList literal)), rest.dropWhile inNumber)
      else none
    else
      (names.lookup (c :: rest.takeWhile Char.isAlpha)).map fun value =>
        (scalar value, rest.dropWhile Char.isAlpha)

private theorem length_dropWhile_le (inside : Char → Bool) (text : List Char) :
    (text.dropWhile inside).length ≤ text.length :=
  (List.dropWhile_sublist _).length_le

/-- A word takes at least one character. -/
theorem length_first {c : Char} {rest behind : List Char} {lexeme : Lexeme}
    (found : first c rest = some (lexeme, behind)) : behind.length ≤ rest.length := by
  unfold first at found
  split at found
  · cases found
    exact Nat.le_refl _
  split at found
  · obtain ⟨⟨units, b⟩, taken, same⟩ := Option.map_eq_some_iff.mp found
    cases same
    exact Nat.le_of_lt (Quoted.length_readFrom taken)
  split at found
  · simp only at found
    split at found
    · cases found
      exact length_dropWhile_le _ _
    · cases found
  · obtain ⟨value, -, same⟩ := Option.map_eq_some_iff.mp found
    cases same
    exact length_dropWhile_le _ _

/-- The words of a text, or the first character that begins none. -/
def all (text : List Char) : Except Char (List Lexeme) :=
  match text with
  | [] => .ok []
  | c :: rest =>
    if isSpace c then all rest
    else
      match _ : first c rest with
      | some (lexeme, behind) => (all behind).map (lexeme :: ·)
      | none => .error c
termination_by text.length
decreasing_by
  · exact Nat.lt_succ_self _
  · exact Nat.lt_succ_of_le (length_first ‹_›)

end Lexeme

end Spire.Json

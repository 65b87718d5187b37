import Spire.Json
import Spire.Json.Quoted

/-!
# Writing JSON

A value is written on one line, or over several lines with a step of spaces for each
level. The first form is the second with a step of no spaces, where line breaks are
left out altogether. An array or object without content is written on one line in both.

## Main definitions

* `Json.write` — the text of a value
* `Json.step` — the step that a requested indentation comes to
-/

namespace Spire.Json

/-- The step for a requested indentation: between no spaces and ten. -/
def step (indentation : Int) : Nat :=
  min 10 indentation.toNat

/-- A line break in front of `depth` steps. Nothing is broken if the step is empty. -/
def lineBreak (step depth : Nat) : List Char :=
  if step = 0 then [] else '\n' :: List.replicate (step * depth) ' '

/-- What stands between a name and its value. -/
def colon (step : Nat) : List Char :=
  if step = 0 then [':'] else [':', ' ']

mutual

/-- The text of a value that stands `depth` levels deep, followed by `rest`. -/
def chars (step depth : Nat) : Json → List Char → List Char
  | null, rest => 'n' :: 'u' :: 'l' :: 'l' :: rest
  | bool true, rest => 't' :: 'r' :: 'u' :: 'e' :: rest
  | bool false, rest => 'f' :: 'a' :: 'l' :: 's' :: 'e' :: rest
  | number literal, rest => literal.toList ++ rest
  | string text, rest => quote text.toList ++ rest
  | array [], rest => '[' :: ']' :: rest
  | array (item :: items), rest =>
    '[' :: (lineBreak step (depth + 1) ++
      chars step (depth + 1) item (itemChars step depth items rest))
  | object [], rest => '{' :: '}' :: rest
  | object ((name, value) :: members), rest =>
    '{' :: (lineBreak step (depth + 1) ++ quote name.toList ++ colon step ++
      chars step (depth + 1) value (memberChars step depth members rest))

/-- The text of the items that follow an item of an array, of the bracket that closes the
array, and of `rest`. -/
def itemChars (step depth : Nat) : List Json → List Char → List Char
  | [], rest => lineBreak step depth ++ ']' :: rest
  | item :: items, rest =>
    ',' :: (lineBreak step (depth + 1) ++
      chars step (depth + 1) item (itemChars step depth items rest))

/-- The text of the members that follow a member of an object, of the brace that closes
the object, and of `rest`. -/
def memberChars (step depth : Nat) : List (String × Json) → List Char → List Char
  | [], rest => lineBreak step depth ++ '}' :: rest
  | (name, value) :: members, rest =>
    ',' :: (lineBreak step (depth + 1) ++ quote name.toList ++ colon step ++
      chars step (depth + 1) value (memberChars step depth members rest))

end

/-- The text of a value, with a step for each level or on one line. -/
def write (json : Json) (step : Nat := 0) : String :=
  String.ofList (chars step 0 json [])

/-- A text between quotes. -/
def quoted (text : String) : String :=
  String.ofList (quote text.toList)

end Spire.Json

import Spire.Json.Lexeme

/-!
# Reading JSON

The words of a text are put together from left to right. The values that are not
complete yet are kept on a stack of frames, and the state says what may come next; so a
text is read in one pass, and one value must be all of it.

## Main definitions

* `Json.SyntaxError` — why a text is no JSON
* `Json.Frame`, `Json.State` — what has been read, and what may come next
* `Json.State.next` — one more word
* `Json.parse` — the value of a text
-/

namespace Spire.Json

/-- Why a text is no JSON. -/
inductive SyntaxError where
  /-- A character begins no word of the format. -/
  | badCharacter (c : Char)
  /-- A word stands where it may not. -/
  | misplaced (lexeme : Lexeme)
  /-- The text ends before its value does. -/
  | unexpectedEnd
deriving Repr, Inhabited

/-- How a word is named in a message. -/
def Lexeme.description : Lexeme → String
  | openArray => "an opening bracket"
  | closeArray => "a closing bracket"
  | openObject => "an opening brace"
  | closeObject => "a closing brace"
  | comma => "a comma"
  | colon => "a colon"
  | scalar _ => "a value"

/-- The text that reports why a text is no JSON. -/
def SyntaxError.message : SyntaxError → String
  | badCharacter c => "unexpected character " ++ c.quote
  | misplaced lexeme => "unexpected " ++ lexeme.description
  | unexpectedEnd => "unexpected end of the text"

/-- An array or object that is not complete: what it holds so far, and for an object the
name whose value is being read. -/
inductive Frame where
  | array (items : List Json)
  | member (members : List (String × Json)) (name : String)
deriving Repr, Inhabited

/-- What may come next. Items and members that are complete are kept in reverse. -/
inductive State where
  /-- A value, or the end of the innermost array if it is still empty. -/
  | value (mayClose : Bool) (stack : List Frame)
  /-- A name, or the end of the object if it is still empty. -/
  | name (mayClose : Bool) (members : List (String × Json)) (stack : List Frame)
  /-- The colon behind a name. -/
  | colon (members : List (String × Json)) (name : String) (stack : List Frame)
  /-- A comma or the end of the array. -/
  | item (items : List Json) (stack : List Frame)
  /-- A comma or the end of the object. -/
  | member (members : List (String × Json)) (stack : List Frame)
  /-- Nothing: the value is complete. -/
  | finished (json : Json)
deriving Repr, Inhabited

namespace State

/-- The state behind a complete value. -/
def complete (json : Json) : List Frame → State
  | [] => finished json
  | .array items :: stack => item (json :: items) stack
  | .member members key :: stack => member ((key, json) :: members) stack

/-- The state behind one more word. -/
def next (state : State) (lexeme : Lexeme) : Except SyntaxError State :=
  match state, lexeme with
  | value _ stack, .scalar json => .ok (complete json stack)
  | value _ stack, .openArray => .ok (value true (.array [] :: stack))
  | value _ stack, .openObject => .ok (name true [] stack)
  | value true (.array items :: stack), .closeArray => .ok (complete (.array items.reverse) stack)
  | name _ members stack, .scalar (.string text) => .ok (colon members text stack)
  | name true members stack, .closeObject => .ok (complete (.object members.reverse) stack)
  | colon members text stack, .colon => .ok (value false (.member members text :: stack))
  | item items stack, .comma => .ok (value false (.array items :: stack))
  | item items stack, .closeArray => .ok (complete (.array items.reverse) stack)
  | member members stack, .comma => .ok (name false members stack)
  | member members stack, .closeObject => .ok (complete (.object members.reverse) stack)
  | _, lexeme => .error (.misplaced lexeme)

/-- The value that has been read, if it is complete. -/
def result : State → Except SyntaxError Json
  | finished json => .ok json
  | _ => .error .unexpectedEnd

end State

/-- The value of a text. -/
def parse (text : String) : Except SyntaxError Json := do
  let lexemes ← (Lexeme.all text.toList).mapError .badCharacter
  let state ← lexemes.foldlM State.next (.value false [])
  state.result

end Spire.Json

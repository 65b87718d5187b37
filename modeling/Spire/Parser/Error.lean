import Spire.TokenStream

/-!
# What can stop the parser

The parser stops at the first token that no continuation could accept, at the end of
the tokens when more are needed, or at a fault of the lexer. An error says what was
wanted and what was found; its wording is in one place.

## Main definitions

* `Expectation` — what the grammar wants at some place
* `Feature` — what the grammar knows of but does not read yet
* `ParseError` — the offences against the grammar, and `ParseError.message`
* `Failure` — an offence or a fault of the lexer
-/

namespace Spire

/-- What the grammar wants at some place. -/
inductive Expectation where
  | kind (kind : Token.Kind)
  | functionName
  | statement
  | endOfInput
deriving DecidableEq, Repr, Inhabited

/-- How a message names what is wanted. -/
def Expectation.text : Expectation → String
  | kind k => "Expected " ++ k.label
  | functionName => "Expected function name"
  | statement => "Expected a statement"
  | endOfInput => "Expected end of input"

/-- Parts of a function head that are recognised and refused. -/
inductive Feature where
  | arguments
  | typeHint
deriving DecidableEq, Repr, Inhabited

/-- How a message refuses a feature. -/
def Feature.text : Feature → String
  | arguments => "Function arguments are not supported yet"
  | typeHint => "Return type hints are not supported yet"

/-- The offences against the grammar. -/
inductive ParseError where
  /-- A token stands where something else is wanted. -/
  | unexpectedToken (expected : Expectation) (found : Token)
  /-- The tokens end where something is wanted. -/
  | unexpectedEnd (expected : Expectation)
  /-- A token opens a part of a function head that is not read yet. -/
  | unsupported (feature : Feature) (found : Token)
deriving DecidableEq, Repr, Inhabited

namespace ParseError

/-- The offending token, unless the tokens ended. -/
def token? : ParseError → Option Token
  | unexpectedToken _ t => some t
  | unexpectedEnd _ => none
  | unsupported _ t => some t

/-- What is wrong, without the place. -/
def complaint : ParseError → String
  | unexpectedToken e t => e.text ++ " but got " ++ t.kind.label ++ " '" ++ t.raw ++ "'"
  | unexpectedEnd e => e.text ++ " but input ended"
  | unsupported feature _ => feature.text

/-- How a message names a place. -/
def place : Option Token → String
  | some t =>
    "line " ++ toString t.position.line ++ ", column " ++ toString t.position.column
  | none => "end of input"

/-- The text that reports an offence. -/
def message (e : ParseError) : String :=
  "Parse error at " ++ place e.token? ++ ": " ++ e.complaint

theorem message_eq (e : ParseError) :
    e.message = "Parse error at " ++ place e.token? ++ ": " ++ e.complaint := rfl

end ParseError

/-- Why a source has no tree. -/
inductive Failure where
  | parse (error : ParseError)
  | lex (fault : LexFault)
deriving DecidableEq, Repr, Inhabited

/-- The text that reports a failure. -/
def Failure.message : Failure → String
  | parse e => e.message
  | lex fault => fault.message

end Spire

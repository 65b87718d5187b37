import Spire.Parser.Opening
import Spire.Tree

/-!
# The parser

The grammar has five rules:

* a source is empty or one block; it stops before a closing brace and at the end;
* a block is the keyword `nop`, or a function;
* a function is the keyword `fn`, a head and a scope;
* a head is a name and an empty pair of parentheses;
* a scope is a source between braces.

The parser takes tokens one at a time and looks one token ahead where a rule may end, so
it never takes a token behind the first one that it refuses.

## Main definitions

* `Parser.source` — a source that may stand inside a scope
* `Parser.parse` — a source that is all there is
* `Parser.run`, `Run` — one use of a parser, and what can be seen of it
* `parse` — one use of a new parser on the tokens of a text
-/

namespace Spire

namespace Parser

/-- Read the brace behind a body and give the source that holds the function. -/
def closing (fn name : Token) (body : Tree) : ParseM Tree := do
  let _ ← expect .rightBrace
  return .source [.node fn [.leaf name, body]]

/-- Read a source. -/
def source (p : Parser) : EStateM.Result Failure Parser Tree :=
  match _ : opening p with
  | .error e q => .error e q
  | .ok .empty q => .ok (.source []) q
  | .ok (.nop t) q => .ok (.source [.leaf t]) q
  | .ok (.function fn name) q =>
    match source q with
    | .error e r => .error e r
    | .ok body r => closing fn name body r
termination_by p.remaining
decreasing_by exact remaining_opening ‹_›

/-- Read a source that ends where the tokens end. -/
def parse (tokens : TokenStream) : ParseM Tree := do
  modify fun p => { p with cursor := .ofStream tokens, log := #[] }
  let tree ← source
  match ← next with
  | none => return tree
  | some t => throw (.parse (.unexpectedToken .endOfInput t))

end Parser

/-- What can be seen of one use of a parser. -/
structure Run where
  /-- The tree, or why there is none. -/
  outcome : Except Failure Tree
  /-- How many tokens were taken from the stream. -/
  pulled : Nat
  /-- The rules entered and the tokens put back. -/
  log : List Step
  /-- The lines printed. -/
  printed : List String

/-- Use a parser on a stream of tokens. The parser can be used again afterwards. -/
def Parser.run (p : Parser) (tokens : TokenStream) : Run × Parser :=
  let seen (outcome : Except Failure Tree) (q : Parser) : Run :=
    ⟨outcome, q.cursor.pulled, q.log.toList, q.console.toList.drop p.console.size⟩
  match p.parse tokens with
  | .ok tree q => (seen (.ok tree) q, q)
  | .error e q => (seen (.error e) q, q)

/-- Use one parser on several streams in turn. -/
def Parser.runAll (p : Parser) : List TokenStream → List Run
  | [] => []
  | tokens :: others =>
    let (run, q) := p.run tokens
    run :: q.runAll others

/-- The tree of a source text, or why it has none. -/
def parse (source : String) (tracing : Bool := false) : Run :=
  (Parser.run { tracing } (({} : Lexer).tokens source)).1

end Spire

/-!
# Tokens of the Spire language

A token is a piece of source text together with its kind and the place where it
starts. Places count lines and columns from one, and a column is a number of
characters, not of bytes.

## Main definitions

* `Position` — a line and a column, with the places reached by reading on
* `Token.Kind` — the closed list of token kinds, with their labels
* `Token` — kind, exact text and starting place
* `Token.caption` — how a token is shown in a drawing of a tree

## Main results

* `Position.advance_append` — reading two texts in turn is reading their concatenation
* `Token.Kind.ofLabel?_label` — a kind is determined by its label
-/

namespace Spire

/-- A place in a source text. -/
structure Position where
  line : Nat := 1
  column : Nat := 1
deriving DecidableEq, Repr, Inhabited

namespace Position

/-- The place after one character: a line end opens a new line, anything else moves
one column to the right. -/
def next (p : Position) (c : Char) : Position :=
  if c = '\n' then ⟨p.line + 1, 1⟩ else ⟨p.line, p.column + 1⟩

/-- The place after a whole text. -/
def advance (p : Position) (text : List Char) : Position :=
  text.foldl next p

/-- The place `n` columns to the right on the same line. -/
def right (p : Position) (n : Nat) : Position :=
  ⟨p.line, p.column + n⟩

variable {p : Position}

@[simp] theorem advance_nil : p.advance [] = p := rfl

@[simp] theorem advance_cons (c : Char) (text : List Char) :
    p.advance (c :: text) = (p.next c).advance text := rfl

/-- Reading two texts in turn is reading their concatenation. -/
theorem advance_append (first second : List Char) :
    p.advance (first ++ second) = (p.advance first).advance second :=
  List.foldl_append

@[simp] theorem right_zero : p.right 0 = p := rfl

theorem right_right (m n : Nat) : (p.right m).right n = p.right (m + n) := by
  simp [right, Nat.add_assoc]

/-- A text without line ends moves the place right by its number of characters. -/
theorem advance_eq_right {text : List Char} (oneLine : '\n' ∉ text) :
    p.advance text = p.right text.length := by
  induction text generalizing p with
  | nil => rfl
  | cons c text ih =>
    rw [List.mem_cons, not_or] at oneLine
    have stay : p.next c = p.right 1 := by simp [next, right, Ne.symm oneLine.1]
    rw [advance_cons, stay, ih oneLine.2, right_right, List.length_cons, Nat.add_comm]

end Position

/-- The kinds of token. Some are structural, `indent` and `dedent` are reserved, and
each kind from `add` on stands for one fixed spelling. -/
inductive Token.Kind where
  | root
  | unknown
  | newline
  | comment
  | indent
  | dedent
  | space
  | string
  | name
  | add
  | sub
  | mul
  | div
  | mod
  | neg
  | inc
  | dec
  | lt
  | gt
  | and
  | or
  | not
  | xor
  | shiftLeft
  | shiftRight
  | arrow
  | leftParen
  | rightParen
  | leftBrace
  | rightBrace
  | leftBracket
  | rightBracket
  | fn
  | print
  | nop
deriving DecidableEq, Repr, Inhabited

/-- A piece of source text with its kind and the place where it starts. -/
structure Token where
  kind : Token.Kind
  raw : String
  position : Position := {}
deriving DecidableEq, Repr, Inhabited

namespace Token

namespace Kind

/-- The name of a kind in messages, listings and serialised trees. -/
def label : Kind → String
  | root => "ROOT"
  | unknown => "UNKNOWN"
  | newline => "NEWLINE"
  | comment => "COMMENT"
  | indent => "INDENT"
  | dedent => "DEDENT"
  | space => "SPACE"
  | string => "STRING"
  | name => "NAME"
  | add => "ADD"
  | sub => "SUB"
  | mul => "MUL"
  | div => "DIV"
  | mod => "MOD"
  | neg => "NEG"
  | inc => "INC"
  | dec => "DEC"
  | lt => "LT"
  | gt => "GT"
  | and => "AND"
  | or => "OR"
  | not => "NOT"
  | xor => "XOR"
  | shiftLeft => "LSHIFT"
  | shiftRight => "RSHIFT"
  | arrow => "ARROW"
  | leftParen => "LPARENTHESES"
  | rightParen => "RPARENTHESES"
  | leftBrace => "LBRACE"
  | rightBrace => "RBRACE"
  | leftBracket => "LBRACKET"
  | rightBracket => "RBRACKET"
  | fn => "FN"
  | print => "PRINT"
  | nop => "NOP"

/-- Every kind, once. -/
def all : List Kind :=
  [root, unknown, newline, comment, indent, dedent, space, string, name, add, sub, mul, div,
    mod, neg, inc, dec, lt, gt, and, or, not, xor, shiftLeft, shiftRight, arrow, leftParen,
    rightParen, leftBrace, rightBrace, leftBracket, rightBracket, fn, print, nop]

/-- The kind that carries a label, if any does. -/
def ofLabel? (text : String) : Option Kind :=
  all.find? fun kind => kind.label == text

/-- A kind is determined by its label. -/
theorem ofLabel?_label (kind : Kind) : ofLabel? kind.label = some kind := by
  cases kind <;> decide

/-- Blanks, comments and line ends mean nothing to the grammar. -/
def isNoise : Kind → Bool
  | space | comment | newline => true
  | _ => false

/-- Layout kinds have no useful spelling. -/
def isLayout : Kind → Bool
  | space | newline | indent | dedent => true
  | _ => false

end Kind

/-- The token carried by the root of a source: it stands for no text of its own. -/
def root : Token := ⟨.root, ".", {}⟩

/-- How a token is shown in a drawing: layout by its label in brackets, anything else
by its text. -/
def caption (t : Token) : String :=
  if t.kind.isLayout then "[" ++ t.kind.label ++ "]" else t.raw

end Token

end Spire

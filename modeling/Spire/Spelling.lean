import Spire.Token

/-!
# Fixed spellings

The tables that say which texts are operators, delimiters and keywords. They are
data: the lexer looks spellings up, and nothing else in the library repeats them.

## Main definitions

* `Spelling.operatorChars` — the characters that break a word apart
* `Spelling.operator?`, `Spelling.keyword?` — the kind a spelling stands for

## Main results

* `Spelling.operator?_length` — an operator has one character or two
* `Spelling.operatorChars_spelled` — each operator character alone is an operator
-/

namespace Spire.Spelling

/-- The characters that are split out of words. -/
def operatorChars : List Char :=
  ['+', '-', '*', '/', '%', '<', '>', '&', '|', '!', '^', '~', '(', ')', '{', '}', '[', ']']

/-- Operators and delimiters with the kinds they stand for. -/
def operators : List (String × Token.Kind) :=
  [("+", .add), ("-", .sub), ("*", .mul), ("/", .div), ("%", .mod), ("~", .neg),
    ("++", .inc), ("--", .dec), ("<", .lt), (">", .gt), ("&", .and), ("|", .or), ("!", .not),
    ("^", .xor), ("<<", .shiftLeft), (">>", .shiftRight), ("->", .arrow),
    ("(", .leftParen), (")", .rightParen), ("\x7b", .leftBrace), ("\x7d", .rightBrace),
    ("[", .leftBracket), ("]", .rightBracket)]

/-- Reserved words with the kinds they stand for. -/
def keywords : List (String × Token.Kind) :=
  [("fn", .fn), ("print", .print), ("nop", .nop)]

/-- The kind of the operator that is spelled by exactly these characters. -/
def operator? (text : List Char) : Option Token.Kind :=
  operators.lookup (String.ofList text)

/-- The kind of the keyword with this spelling. -/
def keyword? (word : String) : Option Token.Kind :=
  keywords.lookup word

/-- Each operator character alone is an operator. -/
theorem operatorChars_spelled : ∀ c ∈ operatorChars, (operator? [c]).isSome := by
  have listed : operatorChars.all (fun c => (operator? [c]).isSome) = true := by decide
  exact List.all_eq_true.mp listed

private theorem mem_of_lookup {α β : Type} [BEq α] [LawfulBEq α] {key : α} {value : β}
    {table : List (α × β)} (found : table.lookup key = some value) : (key, value) ∈ table := by
  induction table with
  | nil => simp at found
  | cons entry table ih =>
    obtain ⟨k, v⟩ := entry
    rw [List.lookup_cons] at found
    split at found
    · next same => simp_all
    · exact List.mem_cons_of_mem _ (ih found)

/-- An operator has one character or two. -/
theorem operator?_length {text : List Char} {kind : Token.Kind}
    (found : operator? text = some kind) : text.length = 1 ∨ text.length = 2 := by
  have listed := mem_of_lookup found
  have sizes : ∀ entry ∈ operators, entry.1.toList.length = 1 ∨ entry.1.toList.length = 2 := by
    decide
  simpa using sizes _ listed

end Spire.Spelling

import Spire.Tree

/-!
# Programs as nested functions

A program is empty, or the statement that does nothing, or one function whose body is a
program again. This file says so without a parser: a program holds all of its tokens,
and each of them has the kind that its place asks for, so a list of tokens that is not a
program cannot be built.

## Main definitions

* `Token.Of` — the tokens of one kind
* `Header` — the five tokens in front of the body of a function
* `Program` — programs with their tokens
* `Program.tokens`, `Program.tree` — the tokens from left to right, and the syntax tree
* `Program.nested` — the kinds of the tokens of a program of given depth
* `Program.Accepted`, `Program.Viable` — the kinds of whole programs and of their beginnings

## Main results

* `Program.kinds_tokens` — the kinds of the tokens of a program depend on its depth and
  on whether it does nothing at its core
* `Program.accepted_kinds_iff`, `Program.viable_kinds_iff` — tokens of these kinds are the
  tokens of a program, or begin one
-/

namespace Spire

/-- The tokens of one kind. -/
abbrev Token.Of (kind : Token.Kind) := { t : Token // t.kind = kind }

/-- The kinds of tokens, one by one. -/
def Token.kinds (ts : List Token) : List Token.Kind :=
  ts.map Token.kind

@[simp] theorem Token.kinds_nil : Token.kinds [] = [] := rfl

@[simp] theorem Token.kinds_cons (t : Token) (ts : List Token) :
    Token.kinds (t :: ts) = t.kind :: Token.kinds ts := rfl

@[simp] theorem Token.kinds_append (ts us : List Token) :
    Token.kinds (ts ++ us) = Token.kinds ts ++ Token.kinds us :=
  List.map_append

/-- Tokens of given kinds, without any text. -/
def Token.ofKinds (kinds : List Token.Kind) : List Token :=
  kinds.map fun kind => { kind, raw := "" }

@[simp] theorem Token.kinds_ofKinds (kinds : List Token.Kind) :
    Token.kinds (Token.ofKinds kinds) = kinds := by
  simp [Token.kinds, Token.ofKinds, Function.comp_def]

/-- The five tokens in front of the body of a function. -/
structure Header where
  fn : Token.Of .fn
  name : Token.Of .name
  leftParen : Token.Of .leftParen
  rightParen : Token.Of .rightParen
  leftBrace : Token.Of .leftBrace

namespace Header

/-- The tokens of a header from left to right. -/
def tokens (h : Header) : List Token :=
  [h.fn, h.name, h.leftParen, h.rightParen, h.leftBrace]

/-- The kinds of the tokens of every header. -/
def kinds : List Token.Kind :=
  [.fn, .name, .leftParen, .rightParen, .leftBrace]

theorem kinds_tokens (h : Header) : Token.kinds h.tokens = kinds := by
  simp [tokens, kinds, h.fn.2, h.name.2, h.leftParen.2, h.rightParen.2, h.leftBrace.2]

/-- Five tokens of the right kinds are a header. -/
theorem exists_of_kinds {ts : List Token} (same : Token.kinds ts = kinds) :
    ∃ h : Header, h.tokens = ts := by
  simp only [Token.kinds, kinds, List.map_eq_cons_iff, List.map_eq_nil_iff] at same
  obtain ⟨fn, _, rfl, isFn, name, _, rfl, isName, left, _, rfl, isLeft, right, _, rfl, isRight,
    brace, _, rfl, isBrace, rfl⟩ := same
  exact ⟨⟨⟨fn, isFn⟩, ⟨name, isName⟩, ⟨left, isLeft⟩, ⟨right, isRight⟩, ⟨brace, isBrace⟩⟩, rfl⟩

end Header

/-- A program with all of its tokens. -/
inductive Program where
  /-- There is no statement. -/
  | empty
  /-- The only statement does nothing. -/
  | nop (t : Token.Of .nop)
  /-- The only statement is a function. -/
  | function (header : Header) (body : Program) (close : Token.Of .rightBrace)

namespace Program

/-- The tokens of a program from left to right. -/
def tokens : Program → List Token
  | empty => []
  | nop t => [t]
  | function header body close => header.tokens ++ body.tokens ++ [close.1]

/-- The syntax tree of a program: parentheses and braces leave no trace in it, and each source has
a token of its own that comes from no text. -/
def tree : Program → Tree
  | empty => .node ⟨.root, ".", ⟨1, 1⟩⟩ []
  | nop t => .node ⟨.root, ".", ⟨1, 1⟩⟩ [.leaf t]
  | function header body _ =>
    .node ⟨.root, ".", ⟨1, 1⟩⟩ [.node header.fn [.leaf header.name, body.tree]]

/-- How many functions stand inside each other. -/
def depth : Program → Nat
  | empty => 0
  | nop _ => 0
  | function _ body _ => body.depth + 1

/-- Whether the innermost source holds the statement that does nothing. -/
def hasNop : Program → Bool
  | empty => false
  | nop _ => true
  | function _ body _ => body.hasNop

/-- The kinds of the tokens of a program: as many headers as it is deep, perhaps the
statement that does nothing, and a closing brace for each header. -/
def nested (depth : Nat) (hasNop : Bool) : List Token.Kind :=
  (List.replicate depth Header.kinds).flatten ++ (if hasNop then [.nop] else []) ++
    List.replicate depth .rightBrace

theorem nested_zero (hasNop : Bool) : nested 0 hasNop = if hasNop then [.nop] else [] := by
  simp [nested]

/-- One more function puts a header in front and a brace behind. -/
theorem nested_succ (depth : Nat) (hasNop : Bool) :
    nested (depth + 1) hasNop = Header.kinds ++ nested depth hasNop ++ [.rightBrace] := by
  rw [nested, nested, List.replicate_succ, List.flatten_cons, List.replicate_succ']
  simp only [List.append_assoc]

/-- The kinds of the tokens of a program depend on its depth and on its core only. -/
theorem kinds_tokens (program : Program) :
    Token.kinds program.tokens = nested program.depth program.hasNop := by
  induction program with
  | empty => rfl
  | nop t => simp [tokens, depth, hasNop, nested_zero, t.2]
  | function header body close ih =>
    rw [tokens, depth, hasNop, nested_succ, ← ih, ← header.kinds_tokens]
    simp [close.2]

/-- Tokens of the kinds of a program are the tokens of a program. -/
theorem exists_of_kinds {ts : List Token} {depth : Nat} {hasNop : Bool}
    (same : Token.kinds ts = nested depth hasNop) :
    ∃ program : Program, program.tokens = ts := by
  induction depth generalizing ts with
  | zero =>
    rw [nested_zero] at same
    cases hasNop with
    | false => exact ⟨.empty, (List.map_eq_nil_iff.mp same).symm⟩
    | true =>
      obtain ⟨t, _, rfl, isNop, rest⟩ := List.map_eq_cons_iff.mp same
      obtain rfl := List.map_eq_nil_iff.mp rest
      exact ⟨.nop ⟨t, isNop⟩, rfl⟩
  | succ depth ih =>
    rw [nested_succ] at same
    obtain ⟨_, closing, rfl, before, closes⟩ := List.map_eq_append_iff.mp same
    obtain ⟨opening, inner, rfl, opens, within⟩ := List.map_eq_append_iff.mp before
    obtain ⟨header, rfl⟩ := Header.exists_of_kinds opens
    obtain ⟨body, rfl⟩ := ih within
    obtain ⟨close, _, rfl, isClose, rest⟩ := List.map_eq_cons_iff.mp closes
    obtain rfl := List.map_eq_nil_iff.mp rest
    exact ⟨.function header body ⟨close, isClose⟩, rfl⟩

/-- The kinds of the tokens of programs. -/
def Accepted (kinds : List Token.Kind) : Prop :=
  ∃ depth hasNop, kinds = nested depth hasNop

/-- The kinds of tokens with which a program may begin. -/
def Viable (kinds : List Token.Kind) : Prop :=
  ∃ more, Accepted (kinds ++ more)

theorem accepted_kinds_iff {ts : List Token} :
    Accepted (Token.kinds ts) ↔ ∃ program : Program, program.tokens = ts := by
  constructor
  · rintro ⟨depth, hasNop, same⟩
    exact exists_of_kinds same
  · rintro ⟨program, rfl⟩
    exact ⟨_, _, program.kinds_tokens⟩

/-- Tokens may begin a program when they do begin one. -/
theorem viable_kinds_iff {ts : List Token} :
    Viable (Token.kinds ts) ↔
      ∃ (program : Program) (more : List Token), program.tokens = ts ++ more := by
  constructor
  · rintro ⟨more, whole⟩
    have sameKinds : Token.kinds (ts ++ Token.ofKinds more) = Token.kinds ts ++ more := by
      rw [Token.kinds_append, Token.kinds_ofKinds]
    rw [← sameKinds, accepted_kinds_iff] at whole
    obtain ⟨program, same⟩ := whole
    exact ⟨program, Token.ofKinds more, same⟩
  · rintro ⟨program, more, same⟩
    refine ⟨Token.kinds more, ?_⟩
    rw [← Token.kinds_append, ← same]
    exact accepted_kinds_iff.mpr ⟨program, rfl⟩

/-- In a program each opening brace has its closing brace. -/
theorem count_leftBrace_tokens (program : Program) :
    (Token.kinds program.tokens).count .leftBrace =
      (Token.kinds program.tokens).count .rightBrace := by
  induction program with
  | empty => rfl
  | nop t => simp [tokens, t.2]
  | function header body close ih =>
    have outside : Header.kinds.count .leftBrace = 1 ∧ Header.kinds.count .rightBrace = 0 := by
      decide
    rw [tokens, Token.kinds_append, Token.kinds_append, header.kinds_tokens]
    simp only [List.count_append, outside, ih, Token.kinds_cons, Token.kinds_nil, close.2]
    simp [Nat.add_comm]

end Program

end Spire

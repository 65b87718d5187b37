import Spire.Proofs.Lexer.Names
import Spire.Proofs.Parser.Places

/-!
# Printing trees

A tree of the parser can be written as a source again, on one line and with a blank wherever one
may stand. Parsing this source gives the tree back, whatever names the functions have, as long as
each of them is a name by itself. The trees that the parser gives are of this sort.

A word in front of a separator contributes its own tokens to a text, so the tokens of a printed
tree are found word by word, by induction on the tree.

## Main definitions

* `IsName` — texts that are names by themselves
* `Tree.print` — the source that is written for a tree
* `Tree.Printable` — functions with names inside each other, with the spellings of their tokens

## Main results

* `Tree.Printable.content_print` — the tokens of a printed tree are those of a program
* `Program.printable_tree` — the trees of programs are printable if their tokens are spelled so
* `Tree.parse_undoes_print` — printing and parsing
-/

namespace Spire

/-- Texts that are names by themselves: they are not empty, are neither cut nor split, and are
neither strings nor keywords. -/
structure IsName (x : String) : Prop where
  nonempty : x.toList ≠ []
  solid : ∀ c ∈ x.toList, isSeparator c = false ∧ c ∉ Spelling.operatorChars
  unquoted : ¬ ['"'] <+: x.toList
  unreserved : Spelling.keyword? x = none

instance (x : String) : Decidable (IsName x) :=
  have := List.decidableBAll
    (fun c => isSeparator c = false ∧ c ∉ Spelling.operatorChars) x.toList
  decidable_of_iff
    (x.toList ≠ [] ∧ (∀ c ∈ x.toList, isSeparator c = false ∧ c ∉ Spelling.operatorChars) ∧
      ¬ ['"'] <+: x.toList ∧ Spelling.keyword? x = none)
    ⟨fun ⟨nonempty, solid, unquoted, unreserved⟩ => ⟨nonempty, solid, unquoted, unreserved⟩,
      fun name => ⟨name.nonempty, name.solid, name.unquoted, name.unreserved⟩⟩

namespace Tree

/-- The source that is written for a tree of the parser. -/
def print : Tree → String
  | node _ [] => ""
  | node _ [node _ []] => "nop"
  | node _ [node _ [node name _, body]] =>
    "fn " ++ name.raw ++ "() \x7b " ++ body.print ++ " \x7d"
  | node _ _ => ""

/-- Trees that hold functions with names inside each other. Where their tokens stood does not
matter. -/
inductive Printable : Tree → Prop where
  | empty : Printable (.source [])
  | nop {p : Position} : Printable (.source [.leaf ⟨.nop, "nop", p⟩])
  | function {p q : Position} {x : String} {body : Tree} (name : IsName x)
      (inside : Printable body) :
      Printable (.source [.node ⟨.fn, "fn", p⟩ [.leaf ⟨.name, x, q⟩, body]])

end Tree

theorem Token.eq_mk {t : Token} {kind : Token.Kind} {raw : String} (isKind : t.kind = kind)
    (isText : t.raw = raw) : t = ⟨kind, raw, t.position⟩ := by
  rw [← isKind, ← isText]

/-! ### The tokens of a printed tree -/

namespace Lexer

variable {x : String} {rest : List Char}

theorem read_parens (p : Position) : OperatorRun.readRun true p ['(', ')'] =
    ⟨[⟨.leftParen, "(", p⟩, ⟨.rightParen, ")", p.right 1⟩], none⟩ :=
  rfl

/-- A name with an empty pair of parentheses behind it is one run. -/
theorem shaped_call (name : IsName x) :
    Segment.Shaped .unknown (x.toList ++ ['(', ')']) .ending := by
  have nonempty : x.toList ++ ['(', ')'] ≠ [] :=
    List.append_ne_nil_of_left_ne_nil name.nonempty _
  have solid : ∀ c ∈ x.toList ++ ['(', ')'], isSeparator c = false := by
    have parens : ['(', ')'].all (fun c => !isSeparator c) = true := by decide
    intro c member
    rcases List.mem_append.mp member with inside | paren
    · exact (name.solid c inside).1
    · simpa using List.all_eq_true.mp parens c paren
  obtain ⟨c, others, begins⟩ := List.exists_cons_of_ne_nil name.nonempty
  have unquoted : ¬ ['"'] <+: x.toList ++ ['(', ')'] := by
    intro quoted
    apply name.unquoted
    rw [begins, List.cons_append, List.cons_prefix_cons] at quoted
    rw [begins, List.cons_prefix_cons]
    exact ⟨quoted.1, List.nil_prefix⟩
  have uncommented : ¬ ['/', '/'] <+: x.toList ++ ['(', ')'] := by
    intro commented
    rw [begins, List.cons_append, List.cons_prefix_cons] at commented
    have first : '/' ∈ x.toList := by
      rw [begins, ← commented.1]
      exact List.mem_cons_self ..
    exact absurd (name.solid '/' first).2 (by decide)
  exact ⟨nonempty, solid, unquoted, uncommented, by decide⟩

/-- A name with an empty pair of parentheses behind it is split in front of the parentheses. -/
theorem split_call (name : IsName x) (p : Position) :
    OperatorRun.split ({} : Lexer).isOperator p (x.toList ++ ['(', ')']) =
      OperatorRun.readRun false p x.toList ++
        OperatorRun.readRun true (p.right x.toList.length) ['(', ')'] := by
  have ordinary : ∀ c ∈ x.toList, ({} : Lexer).isOperator c = false := by
    intro c member
    rw [isOperator_default]
    simpa using (name.solid c member).2
  have parens : ∀ c ∈ ['(', ')'], ({} : Lexer).isOperator c = true :=
    List.all_eq_true.mp (by decide)
  have differs : ∀ d ∈ ['(', ')'].head?, ({} : Lexer).isOperator d ≠ false := by
    intro d first
    simp [parens d (List.mem_of_mem_head? first)]
  rw [OperatorRun.split_append p name.nonempty ordinary differs,
    OperatorRun.split_run _ (List.cons_ne_nil _ _) parens]

/-- A name with an empty pair of parentheses behind it contributes three tokens. -/
theorem content_call (name : IsName x) (ends : ∀ c ∈ rest.head?, isSeparator c = true) :
    ({} : Lexer).content (x.toList ++ ['(', ')'] ++ rest) =
      ⟨[⟨.name, x, {}⟩, ⟨.leftParen, "(", {}⟩, ⟨.rightParen, ")", {}⟩], none⟩ ++
        ({} : Lexer).content rest := by
  have named : classify ⟨.unknown, x, {}⟩ = ⟨.name, x, {}⟩ := by
    rw [classify_of_unknown rfl, name.unreserved]
    rfl
  have own : ({} : Lexer).contentOf ⟨.unknown, String.ofList (x.toList ++ ['(', ')']), {}⟩ =
      ⟨[⟨.name, x, {}⟩, ⟨.leftParen, "(", {}⟩, ⟨.rightParen, ")", {}⟩], none⟩ := by
    rw [contentOf_of_unknown rfl, String.toList_ofList, split_call name, read_parens,
      OperatorRun.readRun, String.ofList_toList]
    change (⟨[(classify ⟨.unknown, x, {}⟩).unplaced, _, _], none⟩ : Transcript) = _
    rw [named]
    rfl
  rw [content_word (shaped_call name) ends, own]

end Lexer

/-- The token of a kind with the given spelling, without a place. -/
def Token.Of.spelled (kind : Token.Kind) (raw : String) : Token.Of kind :=
  ⟨⟨kind, raw, {}⟩, rfl⟩

/-- The header of a function with the given name, spelled out and without places. -/
def Header.named (x : String) : Header :=
  ⟨.spelled .fn "fn", .spelled .name x, .spelled .leftParen "(", .spelled .rightParen ")",
    .spelled .leftBrace "\x7b"⟩

namespace Tree

variable {tree : Tree} {x : String} {rest : List Char}

theorem toList_print_nop (p : Position) :
    (source [leaf ⟨.nop, "nop", p⟩]).print.toList = ['n', 'o', 'p'] := by
  change "nop".toList = _
  simp

/-- A function is printed word by word, with a blank behind each of them. -/
theorem toList_print_function (p q : Position) (x : String) (body : Tree) (rest : List Char) :
    (source [node ⟨.fn, "fn", p⟩ [leaf ⟨.name, x, q⟩, body]]).print.toList ++ rest =
      ['f', 'n'] ++ ' ' :: (x.toList ++ ['(', ')'] ++ ' ' :: (['\x7b'] ++ ' ' ::
        (body.print.toList ++ ' ' :: (['\x7d'] ++ rest)))) := by
  change ("fn " ++ x ++ "() \x7b " ++ body.print ++ " \x7d").toList ++ rest = _
  simp

/-- The tokens of a printed tree are those of a program with this tree, whatever follows behind
a separator. -/
theorem Printable.content_print (printable : Printable tree) :
    ∃ program : Program, program.tree = tree.unplaced ∧
      ∀ rest : List Char, (∀ c ∈ rest.head?, isSeparator c = true) →
        ({} : Lexer).content (tree.print.toList ++ rest) =
          ⟨program.tokens, none⟩ ++ ({} : Lexer).content rest := by
  induction printable with
  | empty => exact ⟨.empty, rfl, fun _ _ => rfl⟩
  | nop =>
    refine ⟨.nop (.spelled .nop "nop"), rfl, fun rest ends => ?_⟩
    have nop : (Token.Kind.nop, ['n', 'o', 'p']) ∈ Spelling.samples := by decide
    rw [toList_print_nop, Lexer.content_sample nop ends]
    rfl
  | @function p q x body name inside ih =>
    obtain ⟨program, sameTree, within⟩ := ih
    refine ⟨.function (.named x) program (.spelled .rightBrace "\x7d"), ?_, ?_⟩
    · rw [Program.tree, sameTree]
      rfl
    intro rest ends
    have blank : isSeparator ' ' = true := rfl
    have behindBlank (text : List Char) : ∀ c ∈ (' ' :: text).head?, isSeparator c = true := by
      rintro c ⟨⟩
      exact blank
    have fn : (Token.Kind.fn, ['f', 'n']) ∈ Spelling.samples := by decide
    have leftBrace : (Token.Kind.leftBrace, ['\x7b']) ∈ Spelling.samples := by decide
    have rightBrace : (Token.Kind.rightBrace, ['\x7d']) ∈ Spelling.samples := by decide
    -- Word by word from the left; the words of the body are the induction hypothesis.
    rw [toList_print_function,
      Lexer.content_sample fn (behindBlank _), Lexer.content_separator blank,
      Lexer.content_call name (behindBlank _), Lexer.content_separator blank,
      Lexer.content_sample leftBrace (behindBlank _), Lexer.content_separator blank,
      within _ (behindBlank _), Lexer.content_separator blank,
      Lexer.content_sample rightBrace ends]
    simp [Transcript.cons, Transcript.mk_none_append, Program.tokens, Header.tokens, Header.named,
      Token.Of.spelled]

/-- The printed form of a tree is parsed as this tree. -/
theorem Printable.parse_print (printable : Printable tree) :
    ∃ again, (parse tree.print).outcome = .ok again ∧ again.unplaced = tree.unplaced := by
  obtain ⟨program, sameTree, tokens⟩ := printable.content_print
  have content : ({} : Lexer).content tree.print.toList = ⟨program.tokens, none⟩ := by
    have whole := tokens [] nofun
    rwa [List.append_nil, Lexer.content_nil, Transcript.append_nil] at whole
  have success : Outcome.unplaced (parse tree.print).outcome = .ok tree.unplaced := by
    rw [unplaced_parse, content, Reading.verdict_tokens, ← sameTree]
    rfl
  exact Outcome.exists_of_unplaced_eq_ok success

end Tree

/-! ### The trees of the parser are printable -/

/-- A name that is spelled as one and does not begin with a quote is a name by itself. -/
theorem Lexer.Spelled.isName {t : Token} (spelled : Spelled {} t) (isName : t.kind = .name)
    (unquoted : IsUnquoted t) : IsName t.raw := by
  obtain ⟨isWord, unreserved⟩ := spelled.name isName
  exact ⟨isWord.nonempty, isWord.ordinary, unquoted isName, unreserved⟩

/-- The tree of a program is printable if its tokens are spelled as their kinds say and names
behind keywords do not begin with a quote. -/
theorem Program.printable_tree (program : Program)
    (spelled : ∀ t ∈ program.tokens, Lexer.Spelled {} t)
    (unquoted : program.tokens.IsChain fun s t =>
      s.kind ∈ Spelling.keywords.map Prod.snd → Lexer.IsUnquoted t) :
    program.tree.Printable := by
  induction program with
  | empty => exact .empty
  | nop t =>
    have sameText : t.1.raw = "nop" :=
      (spelled t (List.mem_singleton_self _)).raw_eq t.2 (by decide)
    change Tree.Printable (.source [.leaf t])
    rw [Token.eq_mk t.2 sameText]
    exact .nop
  | function header body close ih =>
    have fnInside : header.fn.1 ∈ (function header body close).tokens := by
      simp [tokens, Header.tokens]
    have nameInside : header.name.1 ∈ (function header body close).tokens := by
      simp [tokens, Header.tokens]
    have bodyInside : body.tokens <:+: (function header body close).tokens := ⟨_, _, rfl⟩
    have printable : body.tree.Printable := by
      apply ih
      · intro t member
        exact spelled t (bodyInside.subset member)
      · exact unquoted.infix bodyInside
    have sameText : header.fn.1.raw = "fn" := (spelled _ fnInside).raw_eq header.fn.2 (by decide)
    have isName : IsName header.name.1.raw := by
      apply (spelled _ nameInside).isName header.name.2
      apply (List.isChain_cons_cons.mp unquoted).1
      rw [header.fn.2]
      decide
    change Tree.Printable (.source [.node header.fn [.leaf header.name, body.tree]])
    rw [Token.eq_mk header.fn.2 sameText, Token.eq_mk header.name.2 rfl]
    exact .function isName printable

/-- **Parsing undoes printing.** The printed form of a tree whose functions have names of their
own is parsed as this tree again, and every tree that the parser gives is such a tree, so that
parsing its printed form gives the same JSON value. -/
theorem Tree.parse_undoes_print :
    (∀ tree : Tree, tree.Printable →
      ∃ again, (parse tree.print).outcome = .ok again ∧ again.unplaced = tree.unplaced) ∧
    ∀ (source : String) (tree : Tree), (parse source).outcome = .ok tree →
      tree.Printable ∧
        ∃ again, (parse tree.print).outcome = .ok again ∧ again.toJson = tree.toJson := by
  refine ⟨fun tree printable => printable.parse_print, ?_⟩
  intro source tree accepted
  obtain ⟨program, tokens, rfl⟩ := parse_eq_ok_iff.mp accepted
  have printable : program.tree.Printable := by
    apply program.printable_tree
    · intro t member
      rw [tokens] at member
      exact Lexer.spelled_of_mem_tokens member
    · rw [tokens]
      exact Lexer.isChain_tokens {} source
  obtain ⟨again, success, same⟩ := printable.parse_print
  refine ⟨printable, again, success, ?_⟩
  rw [← again.toJson_unplaced, same, program.tree.toJson_unplaced]

/-- Two functions inside each other, with a quote and a character beyond the basic plane in the
name of the outer one. -/
def Tree.quotedNames : Tree :=
  .source [.node ⟨.fn, "fn", {}⟩ [.leaf ⟨.name, "𝒳\"x", {}⟩,
    .source [.node ⟨.fn, "fn", {}⟩ [.leaf ⟨.name, "λ", {}⟩, .source [.leaf ⟨.nop, "nop", {}⟩]]]]]

theorem Tree.parse_undoes_print_of_quotedNames :
    (quotedNames.Printable ∧
      ∃ again, (parse quotedNames.print).outcome = .ok again ∧
        again.unplaced = quotedNames.unplaced) ∧
    (parse "fn idle() \x7b\n  nop \x7d").outcome = .ok Parser.idleFunction.tree ∧
      Parser.idleFunction.tree.Printable ∧
        ∃ again, (parse Parser.idleFunction.tree.print).outcome = .ok again ∧
          again.toJson = Parser.idleFunction.tree.toJson := by
  have printable : quotedNames.Printable := .function (by decide) (.function (by decide) .nop)
  have accepted : (parse "fn idle() \x7b\n  nop \x7d").outcome = .ok Parser.idleFunction.tree := by
    have tokens : Parser.idleFunction.tokens =
        (({} : Lexer).tokens "fn idle() \x7b\n  nop \x7d").transcript.tokens := by
      decide +kernel
    exact parse_eq_ok_iff.mpr ⟨_, tokens, rfl⟩
  exact ⟨⟨printable, parse_undoes_print.1 _ printable⟩, accepted,
    parse_undoes_print.2 _ _ accepted⟩

end Spire

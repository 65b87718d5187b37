import Spire.Proofs.Forest.Rendering
import Spire.Proofs.Lexer.Names
import Spire.Proofs.Parser.Places
import Spire.Proofs.Tree.Likeness

/-!
# Drawings can be read

A line of a drawing below the first one has spaces, a connector and a caption. A connector does not
begin with a space, so all three can be told from the line, even if there are spaces or connectors
in the caption. The number of spaces tells where a line belongs: those of the nodes below a node
stand further right, and the next line that does not is the one of the next node beside it or above.
So the lines of a tree are those up to there, and the tree can be read off them.

Captions leave out the kinds of tokens. In the trees of programs the kinds can be told from the
shape.

## Main definitions

* `Tree.Row` — a line of a drawing, taken apart
* `Tree.rows`, `Tree.rowsBelow` — the lines of a tree and of consecutive trees below a node
* `Tree.Every` — a property of the tokens at all nodes
* `Token.SameCaption` — tokens that are shown alike

## Main results

* `Tree.Row.text_inj` — a line can be taken apart in one way
* `Tree.branch_eq_rows`, `Tree.draw_eq_rows` — drawings are made of such lines
* `Tree.alike_of_rows` — a tree can be read off the lines that begin with its own
* `Tree.draw_eq_iff` — trees with the same drawing
* `Program.sameText_of_sameCaption` — the kinds in the tree of a program can be told
* `drawings_tell_trees_apart` — the drawings of nodes, and of accepted sources
-/

namespace Spire

/-- Tokens that are shown alike. -/
def Token.SameCaption (s t : Token) : Prop :=
  s.caption = t.caption

instance (s t : Token) : Decidable (s.SameCaption t) :=
  inferInstanceAs (Decidable (s.caption = t.caption))

/-- Tokens that are shown on one line. -/
def Token.OneLine (t : Token) : Prop :=
  '\n' ∉ t.caption.toList

instance (t : Token) : Decidable t.OneLine :=
  inferInstanceAs (Decidable ('\n' ∉ t.caption.toList))

theorem Token.SameText.sameCaption {s t : Token} (same : s.SameText t) : s.SameCaption t := by
  rw [SameCaption, caption, caption, same.1, same.2]

/-- Tokens of one kind that are shown alike have the same text, if it is the text that is shown. -/
theorem Token.SameCaption.sameText {s t : Token} {kind : Token.Kind} (same : s.SameCaption t)
    (isKind : s.kind = kind) (isKind' : t.kind = kind) (shown : kind.isLayout = false) :
    s.SameText t := by
  rw [SameCaption, caption, caption, isKind, isKind', shown] at same
  exact ⟨isKind.trans isKind'.symm, same⟩

namespace Tree

/-! ### Lines -/

/-- A line of a drawing: the number of spaces, whether the connector is that of a last child, and
the caption. -/
@[ext]
structure Row where
  gap : Nat
  last : Bool
  caption : String

/-- The text of a line. -/
def Row.text (row : Row) : String :=
  String.ofList (List.replicate row.gap ' ') ++ connector row.last ++ "  " ++ row.caption

mutual

/-- The lines of a tree below a node. -/
def rows (gap : Nat) (last : Bool) : Tree → List Row
  | node t children => ⟨gap, last, t.caption⟩ :: rowsBelow (gap + 4) children

/-- The lines of consecutive trees below a node, up to its last child. -/
def rowsBelow (gap : Nat) : List Tree → List Row
  | [] => []
  | tree :: others => rows gap others.isEmpty tree ++ rowsBelow gap others

end

theorem toList_connector (last : Bool) :
    (connector last).toList = [if last then '└' else '├', '─'] := by
  cases last <;> rfl

theorem Row.toList_text (row : Row) :
    row.text.toList = List.replicate row.gap ' ' ++
      (if row.last then '└' else '├') :: '─' :: ' ' :: ' ' :: row.caption.toList := by
  simp [text, toList_connector]

/-- Spaces in front of something else can be counted. -/
theorem eq_of_replicate_append {m n : Nat} {c d : Char} {front back : List Char}
    (notBlank : c ≠ ' ') (notBlank' : d ≠ ' ')
    (same : List.replicate m ' ' ++ c :: front = List.replicate n ' ' ++ d :: back) :
    m = n ∧ c = d ∧ front = back := by
  induction m generalizing n with
  | zero =>
    cases n with
    | zero => simpa using same
    | succ n => exact absurd (List.cons.inj same).1 notBlank
  | succ m ih =>
    cases n with
    | zero => exact absurd (List.cons.inj same).1.symm notBlank'
    | succ n =>
      obtain ⟨counts, rest⟩ := ih (List.cons.inj same).2
      exact ⟨congrArg Nat.succ counts, rest⟩

/-- A line can be taken apart in one way. -/
theorem Row.text_inj {a b : Row} (same : a.text = b.text) : a = b := by
  have visible : ∀ last : Bool, (if last then '└' else '├') ≠ ' ' := by decide
  have signs : ∀ p q : Bool, (if p then '└' else '├') = (if q then '└' else '├') → p = q := by
    decide
  have chars := congrArg String.toList same
  rw [a.toList_text, b.toList_text] at chars
  obtain ⟨gaps, connectors, behind⟩ := eq_of_replicate_append (visible _) (visible _) chars
  have captions : a.caption = b.caption := String.toList_inj.mp (by simpa using behind)
  exact Row.ext gaps (signs _ _ connectors) captions

theorem Row.newline_notMem_text {row : Row} (oneLine : '\n' ∉ row.caption.toList) :
    '\n' ∉ row.text.toList := by
  rw [row.toList_text]
  cases row.last <;> simp [oneLine]

/-- Lines can be told from the text that they make up. -/
theorem onLines_inj {as bs : List String} (nonempty : as ≠ []) (nonempty' : bs ≠ [])
    (oneLine : ∀ a ∈ as, '\n' ∉ a.toList) (oneLine' : ∀ b ∈ bs, '\n' ∉ b.toList)
    (same : onLines as = onLines bs) : as = bs := by
  have split : ∀ lines : List String, lines ≠ [] → (∀ line ∈ lines, '\n' ∉ line.toList) →
      (onLines lines).toList.splitOn '\n' = lines.map String.toList := by
    intro lines some each
    rw [onLines, String.toList_intercalate]
    exact List.splitOn_intercalate '\n' (by simpa using each) (by simpa using some)
  have parts : as.map String.toList = bs.map String.toList := by
    rw [← split as nonempty oneLine, ← split bs nonempty' oneLine', same]
  exact List.map_injective_iff.mpr (fun _ _ => String.toList_inj.mp) parts

/-! ### Drawings are made of lines -/

theorem branches_eq_rowsBelow {trees : List Tree} {gap : Nat}
    (each : ∀ tree ∈ trees, ∀ last,
      branch gap last tree = .ok ((rows gap last tree).map Row.text)) :
    branches gap trees = .ok ((rowsBelow gap trees).map Row.text) := by
  induction trees with
  | nil =>
    rw [branches, rowsBelow]
    rfl
  | cons tree others ih =>
    obtain ⟨first, later⟩ := List.forall_mem_cons.mp each
    rw [branches, first, ih later, rowsBelow, List.map_append]
    rfl

/-- The entries of a tree below a node are the texts of its lines. -/
theorem branch_eq_rows (tree : Tree) (gap : Nat) (last : Bool) :
    branch gap last tree = .ok ((rows gap last tree).map Row.text) := by
  induction tree using inductionOn generalizing gap last with
  | step t children ih =>
    have further : (gap : Int) + indentWidth = (gap + 4 : Nat) := rfl
    have below := branches_eq_rowsBelow fun child member last => ih child member (gap + 4) last
    rw [branch, entry_of_nonneg (Int.natCast_nonneg gap), further, below, rows]
    rfl

/-- A tree that stands by itself is drawn with its caption in front of the lines of its
branches. -/
theorem draw_eq_rows {indent : Int} {gap : Nat} (fits : indent + indentWidth = gap) (t : Token)
    (children : List Tree) :
    (node t children).draw indent =
      .ok (onLines (t.caption :: (rowsBelow gap children).map Row.text)) := by
  have below := branches_eq_rowsBelow fun child (_ : child ∈ children) last =>
    branch_eq_rows child gap last
  rw [draw, entries, fits, below]
  rfl

/-! ### Reading lines -/

variable {a b : Tree} {as bs : List Tree} {rest rest' : List Row} {gap : Nat}

theorem rows_eq_cons (gap : Nat) (last : Bool) (tree : Tree) :
    ∃ row below, rows gap last tree = row :: below ∧ row.gap = gap := by
  obtain ⟨t, children⟩ := tree
  exact ⟨_, _, by rw [rows], rfl⟩

/-- The first line behind a tree is not further right than the tree, if that is so behind the trees
beside it. -/
theorem head?_rowsBelow_append (beside : ∀ row ∈ rest.head?, row.gap < gap) :
    ∀ row ∈ (rowsBelow gap as ++ rest).head?, row.gap ≤ gap := by
  cases as with
  | nil => exact fun row first => Nat.le_of_lt (beside row first)
  | cons tree others =>
    obtain ⟨top, below, lines, sameGap⟩ := rows_eq_cons gap others.isEmpty tree
    rw [rowsBelow, lines]
    rintro row ⟨⟩
    exact Nat.le_of_eq sameGap

/-- Lines that begin further left do not begin with a tree. -/
theorem ne_rowsBelow_cons (beside : ∀ row ∈ rest.head?, row.gap < gap) :
    rest ≠ rowsBelow gap (b :: bs) ++ rest' := by
  intro same
  obtain ⟨top, below, lines, sameGap⟩ := rows_eq_cons gap bs.isEmpty b
  rw [rowsBelow, lines] at same
  simp [same, sameGap] at beside

/-- Consecutive trees can be read off their lines, if each of them can. -/
theorem forall₂_of_rowsBelow
    (each : ∀ a ∈ as, ∀ b last last' rest rest',
      (∀ row ∈ rest.head?, row.gap ≤ gap) → (∀ row ∈ rest'.head?, row.gap ≤ gap) →
      rows gap last a ++ rest = rows gap last' b ++ rest' →
      Alike Token.SameCaption a b ∧ rest = rest')
    (beside : ∀ row ∈ rest.head?, row.gap < gap) (beside' : ∀ row ∈ rest'.head?, row.gap < gap)
    (same : rowsBelow gap as ++ rest = rowsBelow gap bs ++ rest') :
    List.Forall₂ (Alike Token.SameCaption) as bs ∧ rest = rest' := by
  induction as generalizing bs with
  | nil =>
    cases bs with
    | nil => exact ⟨.nil, same⟩
    | cons b bs => exact absurd same (ne_rowsBelow_cons beside)
  | cons a as ih =>
    cases bs with
    | nil => exact absurd same.symm (ne_rowsBelow_cons beside')
    | cons b bs =>
      obtain ⟨first, later⟩ := List.forall_mem_cons.mp each
      rw [rowsBelow, rowsBelow, List.append_assoc, List.append_assoc] at same
      obtain ⟨alike, others⟩ := first b _ _ _ _ (head?_rowsBelow_append beside)
        (head?_rowsBelow_append beside') same
      obtain ⟨below, left⟩ := ih later others
      exact ⟨.cons alike below, left⟩

/-- A tree can be read off the lines that begin with its own, if the next one is not further
right. -/
theorem alike_of_rows {last last' : Bool} (behind : ∀ row ∈ rest.head?, row.gap ≤ gap)
    (behind' : ∀ row ∈ rest'.head?, row.gap ≤ gap)
    (same : rows gap last a ++ rest = rows gap last' b ++ rest') :
    Alike Token.SameCaption a b ∧ rest = rest' := by
  -- What follows is general in the induction, since other trees follow the children.
  induction a using inductionOn generalizing b gap last last' rest rest' with
  | step s as ih =>
    obtain ⟨t, bs⟩ := b
    rw [rows, rows, List.cons_append, List.cons_append] at same
    obtain ⟨tops, below⟩ := List.cons.inj same
    -- What is not further right than the top is further left than the branches.
    have beside : ∀ row ∈ rest.head?, row.gap < gap + 4 :=
      fun row first => Nat.lt_of_le_of_lt (behind row first) (by omega)
    have beside' : ∀ row ∈ rest'.head?, row.gap < gap + 4 :=
      fun row first => Nat.lt_of_le_of_lt (behind' row first) (by omega)
    obtain ⟨branches, left⟩ := forall₂_of_rowsBelow
      (fun a member b _ _ _ _ next next' => ih a member next next') beside beside' below
    exact ⟨.node (congrArg Row.caption tops) branches, left⟩

theorem rowsBelow_congr
    (each : List.Forall₂ (fun a b => ∀ last, rows gap last a = rows gap last b) as bs) :
    rowsBelow gap as = rowsBelow gap bs := by
  induction each with
  | nil => rfl
  | @cons _ _ as bs first others ih =>
    have bothLast : as.isEmpty = bs.isEmpty := by cases others <;> rfl
    rw [rowsBelow, rowsBelow, first, ih, bothLast]

/-- Trees that are shown alike have the same lines. -/
theorem Alike.rows_eq (alike : Alike Token.SameCaption a b) (gap : Nat) (last : Bool) :
    rows gap last a = rows gap last b := by
  induction a using inductionOn generalizing b gap last with
  | step s as ih =>
    obtain ⟨t, bs⟩ := b
    obtain ⟨tops, below⟩ := alike_node.mp alike
    have captions : s.caption = t.caption := tops
    have branches := forall₂_of_mem (fun a member _ alike => ih a member alike (gap + 4)) below
    rw [rows, rows, captions, rowsBelow_congr branches]

/-! ### Comparing drawings -/

/-- All tokens of a tree have a property. -/
inductive Every (p : Token → Prop) : Tree → Prop where
  | node {t : Token} {trees : List Tree} (top : p t) (below : ∀ tree ∈ trees, Every p tree) :
      Every p (.node t trees)

theorem oneLine_rowsBelow {trees : List Tree}
    (each : ∀ tree ∈ trees, ∀ last, ∀ row ∈ rows gap last tree, '\n' ∉ row.caption.toList) :
    ∀ row ∈ rowsBelow gap trees, '\n' ∉ row.caption.toList := by
  induction trees with
  | nil =>
    rw [rowsBelow]
    simp
  | cons tree others ih =>
    obtain ⟨first, later⟩ := List.forall_mem_cons.mp each
    rw [rowsBelow]
    exact List.forall_mem_append.mpr ⟨first _, ih later⟩

theorem Every.oneLine_rows (every : a.Every Token.OneLine) (gap : Nat) (last : Bool) :
    ∀ row ∈ rows gap last a, '\n' ∉ row.caption.toList := by
  induction every generalizing gap last with
  | node top _ ih =>
    rw [rows]
    exact List.forall_mem_cons.mpr
      ⟨top, oneLine_rowsBelow fun tree member last => ih tree member (gap + 4) last⟩

/-- The lines of the drawing of a tree, each of them in one piece. -/
theorem Every.oneLine_lines {t : Token} (every : (Tree.node t as).Every Token.OneLine)
    (gap : Nat) :
    ∀ line ∈ t.caption :: (rowsBelow gap as).map Row.text, '\n' ∉ line.toList := by
  cases every with
  | node top below =>
    refine List.forall_mem_cons.mpr ⟨top, List.forall_mem_map.mpr fun row member => ?_⟩
    exact row.newline_notMem_text (oneLine_rowsBelow
      (fun tree inside last => (below tree inside).oneLine_rows gap last) row member)

/-- Trees whose captions are on one line have the same drawing if they have the same shape and the
same captions. -/
theorem draw_eq_iff (every : a.Every Token.OneLine) (every' : b.Every Token.OneLine) {indent : Int}
    (inside : 0 ≤ indent + indentWidth) :
    a.draw indent = b.draw indent ↔ Alike Token.SameCaption a b := by
  obtain ⟨gap, fits⟩ := Int.eq_ofNat_of_zero_le inside
  obtain ⟨s, as⟩ := a
  obtain ⟨t, bs⟩ := b
  rw [draw_eq_rows fits, draw_eq_rows fits, alike_node]
  constructor
  · intro same
    have lines := onLines_inj (List.cons_ne_nil _ _) (List.cons_ne_nil _ _)
      (every.oneLine_lines gap) (every'.oneLine_lines gap) (Except.ok.inj same)
    obtain ⟨tops, texts⟩ := List.cons.inj lines
    have below : rowsBelow gap as = rowsBelow gap bs :=
      List.map_injective_iff.mpr (fun _ _ => Row.text_inj) texts
    have whole : rowsBelow gap as ++ [] = rowsBelow gap bs ++ [] := by rw [below]
    obtain ⟨branches, -⟩ := forall₂_of_rowsBelow
      (fun a _ b _ _ _ _ next next' => alike_of_rows next next') (by simp) (by simp) whole
    exact ⟨tops, branches⟩
  · rintro ⟨tops, below⟩
    have captions : s.caption = t.caption := tops
    rw [captions, rowsBelow_congr (below.imp fun a b alike => alike.rows_eq gap)]

end Tree

/-- What holds of the tokens of all nodes in the tree of a node holds at all nodes of the tree that
is read off it. -/
theorem Forest.Linked.every_subtree {f : Forest} (linked : f.Linked) {p : Token → Prop} {x : Id}
    (inside : ∀ y, f.Inside x y → p (f.token y)) : (f.subtree x).Every p := by
  induction x using linked.induction_below with
  | step x ih =>
    rw [linked.subtree_eq]
    refine .node (inside x .refl) fun tree member => ?_
    obtain ⟨y, child, rfl⟩ := List.mem_map.mp member
    exact ih y child fun z below => inside z (inside_iff_head.mpr (.inr ⟨y, child, below⟩))

/-! ### The trees of programs -/

/-- The tokens that are left in the tree of a program are shown on one line. -/
theorem Lexer.Spelled.oneLine {t : Token} (spelled : Spelled {} t)
    (isKind : t.kind ∈ [Token.Kind.fn, .name, .nop]) : t.OneLine := by
  have plain : ∀ kind ∈ [Token.Kind.fn, .name, .nop], kind.isLayout = false ∧
      (kind = .name ∨ kind ∈ Spelling.keywords.map Prod.snd) := by
    decide
  obtain ⟨shown, named | reserved⟩ := plain _ isKind
  all_goals rw [Token.OneLine, Token.caption, shown]
  · obtain ⟨isWord, -⟩ := spelled.name named
    intro newline
    exact absurd (isWord.ordinary '\n' newline).1 (by decide)
  · have spellings : ∀ entry ∈ Spelling.keywords, '\n' ∉ entry.1.toList := by decide
    exact spellings _ (spelled.keyword reserved)

theorem Program.every_oneLine (program : Program)
    (spelled : ∀ t ∈ program.tokens, Lexer.Spelled {} t) : program.tree.Every Token.OneLine := by
  have top : Token.root.OneLine := by decide
  induction program with
  | empty => exact .node top (by simp)
  | nop t =>
    have oneLine : t.1.OneLine := (spelled t (by simp [tokens])).oneLine (by simp [t.2])
    exact .node top (by simpa using .node oneLine (by simp))
  | function header body close ih =>
    have fn : header.fn.1.OneLine :=
      (spelled header.fn (by simp [tokens, Header.tokens])).oneLine (by simp [header.fn.2])
    have name : header.name.1.OneLine :=
      (spelled header.name (by simp [tokens, Header.tokens])).oneLine (by simp [header.name.2])
    have inside : body.tree.Every Token.OneLine :=
      ih fun t member => spelled t (by simp [tokens, member])
    exact .node top (by simpa using .node fn (by simpa using ⟨.node name (by simp), inside⟩))

/-- The only statements of sources that are alike are alike. -/
theorem Tree.Alike.statement {same : Token → Token → Prop} {a b : Tree}
    (alike : Alike same (source [a]) (source [b])) : Alike same a b :=
  (List.forall₂_cons.mp (alike_node.mp alike).2).1

/-- The kinds in the tree of a program can be told from its shape. -/
theorem Program.sameText_of_sameCaption {p q : Program}
    (alike : Tree.Alike Token.SameCaption p.tree q.tree) :
    Tree.Alike Token.SameText p.tree q.tree := by
  induction p generalizing q with
  | empty =>
    cases q with
    | empty => exact .node ⟨rfl, rfl⟩ .nil
    | nop _ | function _ _ _ => cases (Tree.alike_node.mp alike).2
  | nop t =>
    cases q with
    | empty => cases (Tree.alike_node.mp alike).2
    | nop u =>
      obtain ⟨captions, -⟩ := Tree.alike_node.mp alike.statement
      have texts : t.1.SameText u.1 := captions.sameText t.2 u.2 rfl
      exact .node ⟨rfl, rfl⟩ (.cons (.node texts .nil) .nil)
    | function _ _ _ =>
      cases (Tree.alike_node.mp alike.statement).2
  | function header body close ih =>
    cases q with
    | empty => cases (Tree.alike_node.mp alike).2
    | nop _ => cases (Tree.alike_node.mp alike.statement).2
    | function header' body' close' =>
      obtain ⟨fns, parts⟩ := Tree.alike_node.mp alike.statement
      obtain ⟨names, bodies⟩ := List.forall₂_cons.mp parts
      have fnTexts : header.fn.1.SameText header'.fn.1 :=
        fns.sameText header.fn.2 header'.fn.2 rfl
      have nameTexts : header.name.1.SameText header'.name.1 :=
        (Tree.alike_node.mp names).1.sameText header.name.2 header'.name.2 rfl
      have inside := ih (List.forall₂_cons.mp bodies).1
      refine .node ⟨rfl, rfl⟩ (.cons (.node fnTexts ?_) .nil)
      exact .cons (.node nameTexts .nil) (.cons inside .nil)

/-- **Drawings can be read.** Two nodes without parents, in forests that are built lawfully and with
captions on one line, can be drawn as far left as their branches allow; and their drawings are the
same exactly if their trees have the same shape and the same captions. For the trees of two sources
that are accepted, the drawings are the same exactly if the JSON values are. -/
theorem drawings_tell_trees_apart :
    (∀ acts acts', Forest.Lawful acts → Forest.Lawful acts' → ∀ x y,
      (Forest.build acts).parent x = none → (Forest.build acts').parent y = none →
      (∀ z, (Forest.build acts).Inside x z → ((Forest.build acts).token z).OneLine) →
      (∀ z, (Forest.build acts').Inside y z → ((Forest.build acts').token z).OneLine) →
      ∀ indent : Int, -4 ≤ indent →
        (∃ text, (Forest.build acts).draw x indent = .ok text) ∧
        ((Forest.build acts).draw x indent = (Forest.build acts').draw y indent ↔
          Tree.Alike Token.SameCaption ((Forest.build acts).subtree x)
            ((Forest.build acts').subtree y))) ∧
    (∀ source source' tree tree',
      (parse source).outcome = .ok tree → (parse source').outcome = .ok tree' →
      ∀ indent : Int, -4 ≤ indent →
        (tree.draw indent = tree'.draw indent ↔ tree.toJson = tree'.toJson)) := by
  have margin : ∀ {indent : Int}, -4 ≤ indent → 0 ≤ indent + Tree.indentWidth := by
    intro indent inside
    simp only [Tree.indentWidth]
    omega
  constructor
  · intro acts acts' lawful lawful' x y top top' oneLine oneLine' indent inside
    have linked := Forest.linked_of_lawful lawful
    have linked' := Forest.linked_of_lawful lawful'
    have every := linked.every_subtree oneLine
    have every' := linked'.every_subtree oneLine'
    rw [linked.draw_of_none top, linked'.draw_of_none top']
    exact ⟨Tree.exists_draw _ (margin inside), Tree.draw_eq_iff every every' (margin inside)⟩
  · intro source source' tree tree' accepted accepted' indent inside
    obtain ⟨p, tokens, rfl⟩ := parse_eq_ok_iff.mp accepted
    obtain ⟨q, tokens', rfl⟩ := parse_eq_ok_iff.mp accepted'
    have every := p.every_oneLine fun t member => Lexer.spelled_of_mem_tokens (tokens ▸ member)
    have every' := q.every_oneLine fun t member => Lexer.spelled_of_mem_tokens (tokens' ▸ member)
    rw [Tree.draw_eq_iff every every' (margin inside), Tree.toJson_eq_iff]
    exact ⟨Program.sameText_of_sameCaption, Tree.Alike.mono fun _ _ => Token.SameText.sameCaption⟩

/-- Two trees of which one shows the label of a blank and the other a name that looks the same, each
with a name behind it that begins with a connector. -/
def Forest.lookalikes : List Forest.Act :=
  [.create .root, .create ⟨.space, " ", {}⟩, .create ⟨.name, "└─  x", {}⟩,
    .create .root, .create ⟨.name, "[SPACE]", {}⟩, .create ⟨.name, "└─  x", {}⟩,
    .append 0 1, .append 0 2, .append 3 4, .append 3 5]

/-- The drawings of these trees are the same, and those of two sources are not. -/
theorem drawings_tell_trees_apart_of_lookalikes :
    (Forest.Lawful Forest.lookalikes ∧
      (Forest.build Forest.lookalikes).draw 0 (-4) =
        (Forest.build Forest.lookalikes).draw 3 (-4)) ∧
    (parse "fn idle() \x7b\n  nop \x7d").outcome = .ok Parser.idleFunction.tree ∧
      (parse "").outcome = .ok Program.empty.tree ∧
      Parser.idleFunction.tree.draw ≠ Program.empty.tree.draw := by
  have lawful : Forest.Lawful Forest.lookalikes := by
    have nodes : Forest.Lawful [.create .root, .create ⟨.space, " ", {}⟩,
        .create ⟨.name, "└─  x", {}⟩, .create .root, .create ⟨.name, "[SPACE]", {}⟩,
        .create ⟨.name, "└─  x", {}⟩] :=
      ⟨trivial, trivial, trivial, trivial, trivial, trivial, trivial⟩
    have first := nodes.append (a := 0) (b := 1) ⟨by decide, by decide⟩ ⟨by decide, by decide⟩ nofun
    have second := first.append (a := 0) (b := 2) ⟨by decide, by decide⟩ ⟨by decide, by decide⟩
      nofun
    have third := second.append (a := 3) (b := 4) ⟨by decide, by decide⟩ ⟨by decide, by decide⟩
      nofun
    exact third.append ⟨by decide, by decide⟩ ⟨by decide, by decide⟩ nofun
  have linked := Forest.linked_of_lawful lawful
  have oneLine : ∀ x ∈ [0, 3], ∀ z, (Forest.build Forest.lookalikes).Inside x z →
      ((Forest.build Forest.lookalikes).token z).OneLine := by
    have listed : ∀ x ∈ [0, 3], ∀ z ∈ (Forest.build Forest.lookalikes).descendants x,
        ((Forest.build Forest.lookalikes).token z).OneLine := by
      decide +kernel
    exact fun x member z inside => listed x member z (linked.mem_descendants_iff.mpr inside)
  obtain ⟨nodes, sources⟩ := drawings_tell_trees_apart
  have accepted : (parse "fn idle() \x7b\n  nop \x7d").outcome = .ok Parser.idleFunction.tree := by
    have tokens : Parser.idleFunction.tokens =
        (({} : Lexer).tokens "fn idle() \x7b\n  nop \x7d").transcript.tokens := by
      decide +kernel
    exact parse_eq_ok_iff.mpr ⟨_, tokens, rfl⟩
  have acceptedEmpty : (parse "").outcome = .ok Program.empty.tree :=
    parse_eq_ok_iff.mpr ⟨.empty, by decide +kernel, rfl⟩
  refine ⟨⟨lawful, ?_⟩, accepted, acceptedEmpty, ?_⟩
  · obtain ⟨-, compares⟩ := nodes _ _ lawful lawful 0 3 (by decide) (by decide)
      (oneLine 0 (by simp)) (oneLine 3 (by simp)) (-4) (by decide)
    refine compares.mpr (.node rfl (.cons (.node ?_ .nil) (.cons (.node rfl .nil) .nil)))
    decide +kernel
  · intro same
    have values := (sources _ _ _ _ accepted acceptedEmpty 0 (by decide)).mp same
    exact absurd values (by decide)

end Spire

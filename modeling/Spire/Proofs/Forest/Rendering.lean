import Spire.Proofs.Drawing
import Spire.Proofs.Forest.Subtrees

/-!
# Drawings of nodes

The drawing of a node has one entry for each node of its tree, in the order of an outline: a node
stands in front of those below it, and they follow child by child. What an entry looks like can be
told from the links of its own node. The drawing of a tree tells the last child from the others by
its place in the list instead, which comes to the same if the links fit together.

A drawing fails only at its first entry that stands behind spaces, since all others stand further
right. That is the entry of the node itself, or of its first child if the node has no parent.

## Main definitions

* `Forest.outline` — the nodes of a tree with their depths
* `Forest.Outlines` — what an outline is
* `Forest.line` — the entry of a node at some depth
* `Forest.Lacks` — the number of spaces that a drawing cannot give

## Main results

* `Forest.Linked.outlines` — the outline of a node has each node of its tree once
* `Forest.Linked.draw_eq` — the drawing of a node by the drawings of its children
* `Forest.Linked.draw_of_lacks`, `Forest.Linked.draw_of_not_lacks` — when a drawing fails, and what
  it is otherwise
* `Forest.Linked.draw_of_some`, `Forest.Linked.draw_of_none` — the drawing of a node by its tree
* `Forest.drawings_are_outlines` — the drawing of each node in a forest that is built lawfully
-/

namespace Spire.Forest

/-! ### Outlines -/

/-- The nodes of the tree of a node, down to a number of levels, with their depths. -/
def outlineWithin (f : Forest) : Nat → Nat → Id → List (Nat × Id)
  | 0, depth, x => [(depth, x)]
  | levels + 1, depth, x =>
    (depth, x) :: (f.children x).flatMap (f.outlineWithin levels (depth + 1))

/-- The nodes of the tree of a node that is at some depth, with their depths. -/
def outline (f : Forest) (depth : Nat) (x : Id) : List (Nat × Id) :=
  f.outlineWithin f.nodes.size depth x

/-- What an outline is: each node of a tree once, with its depth, in front of the nodes below it,
which follow child by child. -/
structure Outlines (f : Forest) (outline : Nat → Id → List (Nat × Id)) : Prop where
  preorder : ∀ depth x,
    outline depth x = (depth, x) :: (f.children x).flatMap (outline (depth + 1))
  mem_iff : ∀ depth x y, y ∈ (outline depth x).map Prod.snd ↔ f.Inside x y
  nodup : ∀ depth x, ((outline depth x).map Prod.snd).Nodup

/-- The entry of a node at some depth: its caption alone if it has no parent, and else its caption
behind spaces and a connector, which tells whether it is the last child of its parent. -/
def line (f : Forest) (indent : Int) : Nat × Id → String
  | (depth, x) =>
    match f.parent x with
    | none => (f.token x).caption
    | some p =>
      String.ofList (List.replicate (indent + 4 * depth).toNat ' ') ++
        (if (f.children p).getLast? = some x then "└─" else "├─") ++ "  " ++ (f.token x).caption

variable {f : Forest} {acts : List Act} {p x y : Id} {depth : Nat} {indent : Int}

theorem line_of_none (noParent : f.parent x = none) :
    f.line indent (depth, x) = (f.token x).caption := by
  simp [line, noParent]

theorem line_of_some (above : f.parent x = some p) :
    f.line indent (depth, x) =
      String.ofList (List.replicate (indent + 4 * depth).toNat ' ') ++
        Tree.connector (f.isLast x) ++ "  " ++ (f.token x).caption := by
  simp [line, above, isLast, Tree.connector]

/-- An outline lists the nodes of a tree in their order. -/
theorem map_snd_outline (f : Forest) (depth : Nat) (x : Id) :
    (f.outline depth x).map Prod.snd = f.descendants x := by
  have within (levels depth : Nat) (x : Id) :
      (f.outlineWithin levels depth x).map Prod.snd = f.descendantsWithin levels x := by
    induction levels generalizing depth x with
    | zero => rfl
    | succ levels ih =>
      rw [outlineWithin, descendantsWithin, List.map_cons, List.map_flatMap]
      exact congrArg _ (List.flatMap_congr fun y _ => ih (depth + 1) y)
  exact within f.nodes.size depth x

namespace Linked

variable (linked : f.Linked)

include linked

theorem outline_eq (depth : Nat) (x : Id) :
    f.outline depth x = (depth, x) :: (f.children x).flatMap (f.outline (depth + 1)) := by
  have whole := linked.read_eq (fun levels x depth => f.outlineWithin levels depth x)
    (fun x below depth => (depth, x) :: below.flatMap (· (depth + 1))) (fun _ => rfl)
    (fun levels x => funext fun depth => by rw [outlineWithin, List.flatMap_map]) x
  have atDepth := congrFun whole depth
  rwa [List.flatMap_map] at atDepth

/-- To stand one level deeper is to stand four columns further right. -/
theorem map_line_outline (depth : Nat) (x : Id) :
    (f.outline (depth + 1) x).map (f.line indent) =
      (f.outline depth x).map (f.line (indent + 4)) := by
  induction x using linked.induction_below generalizing depth with
  | step x ih =>
    have column : indent + 4 * (depth + 1 : Nat) = indent + 4 + 4 * depth := by omega
    rw [linked.outline_eq, linked.outline_eq depth, List.map_cons, List.map_cons,
      List.map_flatMap, List.map_flatMap, List.flatMap_congr fun y child => ih y child (depth + 1),
      line, column]
    rfl

theorem outlines : f.Outlines f.outline where
  preorder := linked.outline_eq
  mem_iff := by
    intro depth x y
    rw [map_snd_outline, linked.mem_descendants_iff]
  nodup := by
    intro depth x
    rw [map_snd_outline]
    exact linked.nodup_descendants x

/-! ### By the links -/

/-- The drawing of a node is its first entry, with the drawings of its children below it. Each of
these is drawn by its own links, four columns further right. -/
theorem draw_eq (x : Id) (indent : Int) :
    f.draw x indent = do
      let top ← f.entry x indent
      let below ← (f.children x).mapM fun y => f.draw y (indent + 4)
      return Tree.onLines (top :: below) := by
  have whole := linked.read_eq f.drawWithin
    (fun x drawings indent => do
      let top ← f.entry x indent
      let below ← drawings.mapM fun draw => draw (indent + 4)
      return Tree.onLines (top :: below))
    (fun x => funext fun indent => by rw [drawWithin]; cases f.entry x indent <;> rfl)
    (fun levels x => funext fun indent => by
      simp only [List.mapM_map]
      rfl) x
  have atIndent := congrFun whole indent
  simp only [List.mapM_map] at atIndent
  exact atIndent

end Linked

/-! ### Failures -/

/-- The number of spaces that the drawing of a node comes to and cannot give. A node without a
parent needs no spaces itself, but its children do. -/
inductive Lacks (f : Forest) (x : Id) (indent : Int) : Int → Prop where
  | below (noParent : f.parent x = none) (hasChild : f.children x ≠ []) (outside : indent < -4) :
      Lacks f x indent (indent + 4)
  | here {p : Id} (above : f.parent x = some p) (outside : indent < 0) : Lacks f x indent indent

theorem entry_of_none (noParent : f.parent x = none) :
    f.entry x indent = .ok (f.token x).caption := by
  simp [entry, isRoot, noParent]

theorem entry_of_some (above : f.parent x = some p) :
    f.entry x indent = Tree.entry indent (f.isLast x) (f.token x) := by
  simp [entry, isRoot, above]

/-- The first entry of a node stands at depth zero. -/
theorem entry_of_fits (fits : ∀ count, ¬ f.Lacks x indent count) :
    f.entry x indent = .ok (f.line indent (0, x)) := by
  cases above : f.parent x with
  | none => rw [entry_of_none above, line_of_none above]
  | some p =>
    have inside : 0 ≤ indent := by
      by_contra outside
      exact fits indent (.here above (by omega))
    rw [entry_of_some above, Tree.entry_of_nonneg inside, line_of_some above, Int.natCast_zero,
      Int.mul_zero, Int.add_zero]

theorem mapM_eq_ok {ys : List Id} {draw : Id → Except NegativeIndent String} {text : Id → String}
    (each : ∀ y ∈ ys, draw y = .ok (text y)) : ys.mapM draw = .ok (ys.map text) := by
  induction ys with
  | nil => rfl
  | cons y ys ih =>
    obtain ⟨first, others⟩ := List.forall_mem_cons.mp each
    rw [List.mapM_cons, first, ih others]
    rfl

namespace Linked

variable (linked : f.Linked)

include linked

/-- The first entry that stands behind spaces fails: the one of the node, or of its first child. -/
theorem draw_of_lacks {count : Int} (lacks : f.Lacks x indent count) :
    f.draw x indent = .error ⟨count⟩ := by
  have fails {y q : Id} {indent : Int} (above : f.parent y = some q) (outside : indent < 0) :
      f.draw y indent = .error ⟨indent⟩ := by
    rw [linked.draw_eq, entry_of_some above, Tree.entry_of_neg outside]
    rfl
  cases lacks with
  | below noParent hasChild outside =>
    obtain ⟨y, others, whole⟩ := List.exists_cons_of_ne_nil hasChild
    have child : y ∈ f.children x := by simp [whole]
    have first := fails (linked.mem_children_iff.mp child) (by omega : indent + 4 < 0)
    rw [linked.draw_eq, entry_of_none noParent, whole, List.mapM_cons, first]
    rfl
  | here above outside => exact fails above outside

/-- If the drawing of a node comes to no negative number of spaces, the drawings of its children
four columns further right do not, either. -/
theorem child_fits (fits : ∀ count, ¬ f.Lacks x indent count) (child : y ∈ f.children x) :
    ∀ count, ¬ f.Lacks y (indent + 4) count := by
  have aboveChild := linked.mem_children_iff.mp child
  rintro count (⟨noParent, -, -⟩ | ⟨-, outside⟩)
  · cases aboveChild.symm.trans noParent
  · cases above : f.parent x with
    | none => exact fits _ (.below above (List.ne_nil_of_mem child) (by omega))
    | some p => exact fits _ (.here above (by omega))

theorem draw_of_not_lacks (fits : ∀ count, ¬ f.Lacks x indent count) :
    f.draw x indent = .ok (Tree.onLines ((f.outline 0 x).map (f.line indent))) := by
  induction x using linked.induction_below generalizing indent with
  | step x ih =>
    have drawn : ∀ y ∈ f.children x, f.draw y (indent + 4) =
        .ok (Tree.onLines ((f.outline 1 y).map (f.line indent))) := by
      intro y child
      rw [ih y child (linked.child_fits fits child), linked.map_line_outline]
    have nonempty : ∀ y ∈ f.children x, (f.outline 1 y).map (f.line indent) ≠ [] := by
      intro y _
      rw [linked.outline_eq]
      exact List.cons_ne_nil _ _
    rw [linked.draw_eq, entry_of_fits fits, mapM_eq_ok drawn, linked.outline_eq, List.map_cons,
      List.map_flatMap, ← Tree.onLines_flatMap nonempty]
    rfl

/-! ### By the lists of children -/

/-- A child is the last one if no child comes behind it. -/
theorem isLast_eq_isEmpty {front rest : List Id} (whole : f.children x = front ++ y :: rest) :
    f.isLast y = rest.isEmpty := by
  have child : y ∈ f.children x := by simp [whole]
  rw [Bool.eq_iff_iff, linked.isLast_iff child, whole, List.isEmpty_iff]
  have once := linked.nodup x
  rw [whole] at once
  constructor
  · intro isLast
    by_contra more
    rw [List.getLast?_append_cons, List.getLast?_cons_of_ne_nil more] at isLast
    have again : y ∈ rest := List.mem_of_getLast? isLast
    exact (List.nodup_cons.mp once.of_append_right).1 again
  · rintro rfl
    simp

/-- The entries of some children of a node, up to the last one. -/
theorem branches_eq {front rest : List Id} (whole : f.children x = front ++ rest)
    (each : ∀ y ∈ f.children x,
      Tree.branch (indent + 4 * depth) (f.isLast y) (f.subtree y) =
        .ok ((f.outline depth y).map (f.line indent))) :
    Tree.branches (indent + 4 * depth) (rest.map f.subtree) =
      .ok ((rest.flatMap (f.outline depth)).map (f.line indent)) := by
  induction rest generalizing front with
  | nil =>
    rw [List.map_nil, Tree.branches]
    rfl
  | cons y rest ih =>
    have first := each y (by simp [whole])
    have others := ih (whole.trans (List.append_cons front y rest))
    rw [linked.isLast_eq_isEmpty whole] at first
    rw [List.map_cons, Tree.branches, List.isEmpty_map, first, others, List.flatMap_cons,
      List.map_append]
    rfl

/-- The entries of a node with a parent that is not left of the margin. -/
theorem branch_eq (above : f.parent x = some p) (inside : 0 ≤ indent + 4 * depth) :
    Tree.branch (indent + 4 * depth) (f.isLast x) (f.subtree x) =
      .ok ((f.outline depth x).map (f.line indent)) := by
  induction x using linked.induction_below generalizing p depth with
  | step x ih =>
    have column : indent + 4 * depth + Tree.indentWidth = indent + 4 * (depth + 1 : Nat) := by
      rw [Tree.indentWidth]
      omega
    have further : 0 ≤ indent + 4 * (depth + 1 : Nat) := by omega
    have below := linked.branches_eq (List.nil_append (f.children x)).symm
      fun y child => ih y child (linked.mem_children_iff.mp child) further
    rw [linked.subtree_eq, Tree.branch, Tree.entry_of_nonneg inside, column, below,
      linked.outline_eq, List.map_cons, line_of_some above]
    rfl

/-- A node without a parent is drawn as a tree. -/
theorem draw_of_none (noParent : f.parent x = none) (indent : Int) :
    f.draw x indent = (f.subtree x).draw indent := by
  have listed : (f.subtree x).draw indent =
      (Tree.branches (indent + 4) ((f.children x).map f.subtree)).map fun below =>
        Tree.onLines ((f.token x).caption :: below) := by
    rw [linked.subtree_eq, Tree.draw, Tree.entries, Tree.indentWidth]
    cases Tree.branches (indent + 4) ((f.children x).map f.subtree) <;> rfl
  rw [listed]
  by_cases lacks : ∃ count, f.Lacks x indent count
  · obtain ⟨count, lacks⟩ := lacks
    rw [linked.draw_of_lacks lacks]
    cases lacks with
    | below _ hasChild outside =>
      have left : indent + 4 < 0 := by omega
      rw [Tree.branches_of_neg left (by simpa using hasChild)]
      rfl
    | here above outside => cases above.symm.trans noParent
  · have fits := not_exists.mp lacks
    rw [linked.draw_of_not_lacks fits, linked.outline_eq, List.map_cons, line_of_none noParent]
    by_cases childless : f.children x = []
    · rw [childless, List.map_nil, Tree.branches]
      rfl
    · have inside : 0 ≤ indent + 4 * (1 : Nat) := by
        by_contra outside
        exact fits (indent + 4) (.below noParent childless (by omega))
      have below := linked.branches_eq (List.nil_append (f.children x)).symm
        fun y child => linked.branch_eq (linked.mem_children_iff.mp child) inside
      rw [Int.natCast_one, Int.mul_one] at below
      rw [below]
      rfl

end Linked

/-! ### Lawful forests -/

/-- **Drawings.** In a forest that is built lawfully, the drawing of a node fails exactly if it
comes to a negative number of spaces, which the failure names. Otherwise it is the outline of the
tree of the node, each entry on a line of its own. -/
theorem drawings_are_outlines (lawful : Lawful acts) (x : Id) (indent : Int) :
    (build acts).Outlines (build acts).outline ∧
    ((build acts).draw x indent = do
      let top ← (build acts).entry x indent
      let below ← ((build acts).children x).mapM fun y => (build acts).draw y (indent + 4)
      return "\n".intercalate (top :: below)) ∧
    (∀ failure, (build acts).draw x indent = .error failure ↔
      (build acts).Lacks x indent failure.count) ∧
    (∀ failure, (build acts).draw x indent = .error failure →
      failure.message = "Invalid count value: " ++ toString failure.count) ∧
    ((∀ count, ¬ (build acts).Lacks x indent count) →
      (build acts).draw x indent =
        .ok ("\n".intercalate (((build acts).outline 0 x).map ((build acts).line indent)))) := by
  have linked := linked_of_lawful lawful
  refine ⟨linked.outlines, linked.draw_eq x indent,
    fun failure => ⟨fun failed => ?_, linked.draw_of_lacks⟩, fun failure _ => rfl,
    linked.draw_of_not_lacks⟩
  by_cases fits : ∀ count, ¬ (build acts).Lacks x indent count
  · rw [linked.draw_of_not_lacks fits] at failed
    cases failed
  · obtain ⟨count, lacks⟩ := not_forall_not.mp fits
    rw [linked.draw_of_lacks lacks] at failed
    cases failed
    exact lacks

/-- A tree that is put together from below: a function with a statement in it, and a blank. -/
def sketch : List Act :=
  [.create .root, .create ⟨.fn, "fn", {}⟩, .create ⟨.nop, "nop", {}⟩, .append 1 2, .append 0 1,
    .create ⟨.space, " ", {}⟩, .append 0 3]

/-- Drawings from the top and from inside of the tree, as far left as possible and one step
further. -/
theorem drawings_are_outlines_of_sketch :
    (build sketch).draw 0 (-4) = .ok ".\n├─  fn\n    └─  nop\n└─  [SPACE]" ∧
      (build sketch).draw 0 (-5) = .error ⟨-1⟩ ∧
      (build sketch).draw 1 0 = .ok "├─  fn\n    └─  nop" ∧
      (build sketch).draw 1 (-1) = .error ⟨-1⟩ := by
  have lawful : Lawful sketch := by
    have nodes : Lawful [.create .root, .create ⟨.fn, "fn", {}⟩, .create ⟨.nop, "nop", {}⟩] :=
      ⟨trivial, trivial, trivial, trivial⟩
    have inner := nodes.append (a := 1) (b := 2) ⟨by decide, by decide⟩ ⟨by decide, by decide⟩ nofun
    have outer := inner.append (a := 0) (b := 1) ⟨by decide, by decide⟩ ⟨by decide, by decide⟩ nofun
    have more : Lawful (_ ++ [.create ⟨.space, " ", {}⟩]) := lawful_concat.mpr ⟨outer, trivial⟩
    exact more.append ⟨by decide, by decide⟩ ⟨by decide, by decide⟩ nofun
  refine ⟨?_, ?_, ?_, ?_⟩
  · have fits : ∀ count, ¬ (build sketch).Lacks 0 (-4) count := by
      rintro count (⟨-, -, outside⟩ | ⟨above, -⟩)
      · exact absurd outside (by decide)
      · exact absurd above (by decide +revert)
    have drawn := (drawings_are_outlines lawful 0 (-4)).2.2.2.2 fits
    rw [drawn]
    decide +kernel
  · exact ((drawings_are_outlines lawful 0 (-5)).2.2.1 ⟨-1⟩).mpr
      (.below (by decide) (by decide) (by decide))
  · have fits : ∀ count, ¬ (build sketch).Lacks 1 0 count := by
      rintro count (⟨noParent, -, -⟩ | ⟨-, outside⟩)
      · exact absurd noParent (by decide)
      · exact absurd outside (by decide)
    rw [(drawings_are_outlines lawful 1 0).2.2.2.2 fits]
    decide +kernel
  · have above : (build sketch).parent 1 = some 0 := by decide
    exact ((drawings_are_outlines lawful 1 (-1)).2.2.1 ⟨-1⟩).mpr (.here above (by decide))

end Spire.Forest

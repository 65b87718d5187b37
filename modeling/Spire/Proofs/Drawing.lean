import Spire.Tree.Drawing

/-!
# Drawings that fail and drawings that do not

A drawing fails only if it comes to a negative number of spaces. The number grows with each level,
so a drawing that starts inside the margin stays there, and one that does not fails at its first
entry behind a connector.

## Main results

* `Tree.entry_of_nonneg` — the entry of a node that is not left of the margin
* `Tree.branch_of_neg`, `Tree.branches_of_neg` — a tree below a node that is left of the margin
* `Tree.exists_branch` — a tree below a node can be drawn from any column on
* `Tree.exists_draw` — a tree that stands by itself can be drawn if its branches can
-/

namespace Spire.Tree

variable {indent : Int}

/-- A node that is not left of the margin is drawn behind its spaces and its connector. -/
theorem entry_of_nonneg (inside : 0 ≤ indent) (last : Bool) (t : Token) :
    entry indent last t =
      .ok (String.ofList (List.replicate indent.toNat ' ') ++ connector last ++ "  " ++
        t.caption) := by
  have gap : spaces indent = .ok (String.ofList (List.replicate indent.toNat ' ')) :=
    if_neg (Int.not_lt.mpr inside)
  rw [entry, gap]
  rfl

theorem entry_of_neg (outside : indent < 0) (last : Bool) (t : Token) :
    entry indent last t = .error ⟨indent⟩ := by
  have gap : spaces indent = .error ⟨indent⟩ := if_pos outside
  rw [entry, gap]
  rfl

/-- A tree left of the margin fails at its top. -/
theorem branch_of_neg (outside : indent < 0) (last : Bool) (tree : Tree) :
    branch indent last tree = .error ⟨indent⟩ := by
  obtain ⟨t, children⟩ := tree
  rw [branch, entry_of_neg outside]
  rfl

/-- Trees left of the margin fail at the first of them. -/
theorem branches_of_neg (outside : indent < 0) {trees : List Tree} (nonempty : trees ≠ []) :
    branches indent trees = .error ⟨indent⟩ := by
  obtain ⟨tree, others, rfl⟩ := List.exists_cons_of_ne_nil nonempty
  rw [branches, branch_of_neg outside]
  rfl

/-- Consecutive trees below a node can be drawn if each of them can. -/
theorem exists_branches {trees : List Tree}
    (each : ∀ tree ∈ trees, ∀ last, ∃ lines, branch indent last tree = .ok lines) :
    ∃ lines, branches indent trees = .ok lines := by
  induction trees with
  | nil => exact ⟨[], by rw [branches]; rfl⟩
  | cons tree others ih =>
    obtain ⟨above, drawn⟩ := each tree (List.mem_cons_self ..) others.isEmpty
    obtain ⟨below, others⟩ := ih fun other member => each other (List.mem_cons_of_mem _ member)
    exact ⟨above ++ below, by rw [branches, drawn, others]; rfl⟩

/-- A tree below a node can be drawn from any column on. -/
theorem exists_branch (tree : Tree) (inside : 0 ≤ indent) (last : Bool) :
    ∃ lines, branch indent last tree = .ok lines := by
  -- The column is general in the induction, since the children stand further right.
  induction tree using inductionOn generalizing indent last with
  | step t children ih =>
    have further : 0 ≤ indent + indentWidth := Int.add_nonneg inside (by decide)
    obtain ⟨below, others⟩ := exists_branches fun child member last => ih child member further last
    exact ⟨_ :: below, by rw [branch, entry_of_nonneg inside, others]; rfl⟩

/-- A tree that stands by itself can be drawn if its branches are not left of the margin. -/
theorem exists_draw (tree : Tree) (inside : 0 ≤ indent + indentWidth) :
    ∃ text, tree.draw indent = .ok text := by
  obtain ⟨t, children⟩ := tree
  obtain ⟨below, drawn⟩ := exists_branches fun child (_ : child ∈ children) last =>
    exists_branch child inside last
  exact ⟨onLines (t.caption :: below), by rw [draw, entries, drawn]; rfl⟩

/-! ### Lines -/

/-- Entries that stand on lines of their own may be put in the place of the lines. -/
theorem onLines_cons_onLines {first others : List String} (nonempty : first ≠ []) :
    onLines (onLines first :: others) = onLines (first ++ others) := by
  by_cases last : others = []
  · rw [last, List.append_nil, onLines, onLines, String.intercalate_singleton]
  · rw [onLines, onLines, onLines, String.intercalate_cons_of_ne_nil last,
      String.intercalate_append_of_ne_nil nonempty last]

theorem onLines_flatMap {α : Type} {entries : α → List String} {xs : List α} {top : String}
    (nonempty : ∀ x ∈ xs, entries x ≠ []) :
    onLines (top :: xs.map fun x => onLines (entries x)) = onLines (top :: xs.flatMap entries) := by
  induction xs generalizing top with
  | nil => rfl
  | cons x xs ih =>
    obtain ⟨first, others⟩ := List.forall_mem_cons.mp nonempty
    have more : entries x ++ xs.flatMap entries ≠ [] := List.append_ne_nil_of_left_ne_nil first _
    rw [List.map_cons, List.flatMap_cons, onLines, String.intercalate_cons_cons, ← onLines,
      ih others, onLines_cons_onLines first, onLines, onLines,
      String.intercalate_cons_of_ne_nil more]

end Spire.Tree

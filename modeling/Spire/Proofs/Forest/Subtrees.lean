import Spire.Proofs.Forest.Links
import Mathlib.Data.List.Chain
import Mathlib.Data.List.Perm.Subperm

/-!
# Trees in a forest

The tree below a node is read off to as many levels as the forest has nodes. If the links fit
together this is enough: on the way from a node up through its parents no node comes twice, so no
way is longer than there are nodes. Hence whatever is read off a node level by level is read off it
from what is read off its children, and what holds of a node when it holds of its children holds of
all nodes.

## Main definitions

* `Forest.Shallow` — nodes with at most a number of levels below them

## Main results

* `Forest.Linked.shallow` — no node has more levels below it than there are nodes
* `Forest.Linked.read_eq`, `Forest.Linked.subtree_eq`, `Forest.Linked.toJson_eq` — what is read off
  a node, such as the tree below it, by what is read off its children
* `Forest.Linked.induction_below` — induction from the children of a node to the node
* `Forest.Linked.mem_descendants_iff`, `Forest.Linked.nodup_descendants` — the nodes of a tree are
  listed, and each of them once
-/

namespace Spire.Forest

/-- There are at most `levels` levels of nodes below a node. -/
def Shallow (f : Forest) : Nat → Id → Prop
  | 0, x => f.children x = []
  | levels + 1, x => ∀ y ∈ f.children x, f.Shallow levels y

variable {f : Forest} {x y z : Id} {levels : Nat}

/-- A node with a parent, and a node with children, is one of the nodes. -/
theorem lt_size_of_parent {p : Id} (above : f.parent x = some p) : x < f.nodes.size := by
  by_contra outside
  rw [(links_of_size_le (Nat.le_of_not_lt outside)).1] at above
  cases above

theorem lt_size_of_mem_children (below : y ∈ f.children x) : x < f.nodes.size := by
  by_contra outside
  rw [(links_of_size_le (Nat.le_of_not_lt outside)).2] at below
  cases below

/-- What is read off a node from what is read off its children does not change with one more level,
if there are enough of them. -/
theorem Shallow.read_succ {α : Type} {read : Nat → Id → α} {combine : Id → List α → α}
    (top : ∀ x, read 0 x = combine x [])
    (below : ∀ levels x, read (levels + 1) x = combine x ((f.children x).map (read levels)))
    (shallow : f.Shallow levels x) : read (levels + 1) x = read levels x := by
  induction levels generalizing x with
  | zero =>
    have none : f.children x = [] := shallow
    rw [below, none, top, List.map_nil]
  | succ levels ih =>
    rw [below, below levels]
    exact congrArg _ (List.map_congr_left fun y child => ih (shallow y child))

/-- A node is in the tree of another one if it is this one, or in the tree of a child. -/
theorem inside_iff_head : f.Inside x y ↔ x = y ∨ ∃ c ∈ f.children x, f.Inside c y :=
  Relation.ReflTransGen.cases_head_iff

namespace Linked

variable (linked : f.Linked)

include linked

/-- No node comes twice on the way up from a node. -/
theorem nodup_of_isChain {way : List Id} (up : way.IsChain fun x p => f.parent x = some p) :
    way.Nodup := by
  have steps : way.IsChain (Relation.TransGen fun x p => f.parent x = some p) :=
    up.imp fun _ _ above => .single above
  refine steps.pairwise.imp fun {x y} apart same => ?_
  subst same
  exact linked.not_cycle x apart

theorem lt_size_of_isChain {way : List Id} (inside : x < f.nodes.size)
    (up : (x :: way).IsChain fun x p => f.parent x = some p) :
    ∀ z ∈ x :: way, z < f.nodes.size := by
  induction way generalizing x with
  | nil => simpa using inside
  | cons p way ih =>
    obtain ⟨above, further⟩ := List.isChain_cons_cons.mp up
    have pInside := lt_size_of_mem_children (linked.mem_children_iff.mpr above)
    exact List.forall_mem_cons.mpr ⟨inside, ih pInside further⟩

/-- The way up from a node is not longer than there are nodes. -/
theorem length_le_of_isChain {way : List Id} (inside : x < f.nodes.size)
    (up : (x :: way).IsChain fun x p => f.parent x = some p) :
    (x :: way).length ≤ f.nodes.size := by
  have subset : x :: way ⊆ List.range f.nodes.size :=
    fun z member => List.mem_range.mpr (linked.lt_size_of_isChain inside up z member)
  simpa using (List.subperm_of_subset (linked.nodup_of_isChain up) subset).length_le

/-- A way up goes on from a child. -/
theorem isChain_child {way : List Id} (below : y ∈ f.children x)
    (up : (x :: way).IsChain fun x p => f.parent x = some p) :
    (y :: x :: way).IsChain fun x p => f.parent x = some p :=
  List.isChain_cons_cons.mpr ⟨linked.mem_children_iff.mp below, up⟩

/-- What is not taken up by the way above a node is enough for the levels below it. -/
theorem shallow_of_isChain {way : List Id}
    (up : (x :: way).IsChain fun x p => f.parent x = some p)
    (enough : f.nodes.size ≤ levels + (x :: way).length) : f.Shallow levels x := by
  induction levels generalizing x way with
  | zero =>
    refine List.eq_nil_iff_forall_not_mem.mpr fun y below => ?_
    have yInside := lt_size_of_parent (linked.mem_children_iff.mp below)
    have short := linked.length_le_of_isChain yInside (linked.isChain_child below up)
    rw [List.length_cons] at short
    omega
  | succ levels ih =>
    intro y below
    refine ih (linked.isChain_child below up) ?_
    rw [List.length_cons]
    omega

/-- No node has more levels below it than there are nodes. -/
theorem shallow (x : Id) : f.Shallow f.nodes.size x :=
  linked.shallow_of_isChain (.singleton x) (Nat.le_add_right ..)

/-- What is read off a node level by level, down to as many levels as there are nodes, is read off
it from what is read off its children. -/
theorem read_eq {α : Type} (read : Nat → Id → α) (combine : Id → List α → α)
    (top : ∀ x, read 0 x = combine x [])
    (below : ∀ levels x, read (levels + 1) x = combine x ((f.children x).map (read levels)))
    (x : Id) :
    read f.nodes.size x = combine x ((f.children x).map (read f.nodes.size)) := by
  rw [← (linked.shallow x).read_succ top below, below]

/-- The tree below a node is its token with the trees below its children. -/
theorem subtree_eq (x : Id) : f.subtree x = .node (f.token x) ((f.children x).map f.subtree) :=
  linked.read_eq f.subtreeWithin (fun x trees => .node (f.token x) trees) (fun _ => rfl)
    (fun _ _ => rfl) x

/-- The JSON value of a node, by those of its children. -/
theorem toJson_eq (x : Id) :
    f.toJson x = Tree.nodeJson (f.token x) ((f.children x).map f.toJson) := by
  rw [toJson, linked.subtree_eq, Tree.toJson_node, List.map_map]
  rfl

/-- What holds of a node when it holds of its children holds of all nodes. -/
theorem induction_below {P : Id → Prop} (step : ∀ x, (∀ y ∈ f.children x, P y) → P x) (x : Id) :
    P x := by
  have shallow := linked.shallow x
  generalize f.nodes.size = levels at shallow
  induction levels generalizing x with
  | zero =>
    have none : f.children x = [] := shallow
    refine step x fun y below => ?_
    rw [none] at below
    cases below
  | succ levels ih => exact step x fun y below => ih y (shallow y below)

/-! ### The nodes of a tree -/

theorem descendants_eq (x : Id) :
    f.descendants x = x :: (f.children x).flatMap f.descendants :=
  linked.read_eq f.descendantsWithin (fun x lists => x :: lists.flatten) (fun _ => rfl)
    (fun _ _ => rfl) x

/-- The nodes that are listed for a node are those of its tree. -/
theorem mem_descendants_iff : y ∈ f.descendants x ↔ f.Inside x y := by
  induction x using linked.induction_below with
  | step x ih =>
    rw [linked.descendants_eq, List.mem_cons, List.mem_flatMap, inside_iff_head, eq_comm]
    exact or_congr_right (exists_congr fun c => and_congr_right fun child => ih c child)

/-- A node is not in the tree of its child. -/
theorem not_inside_child (child : y ∈ f.children x) : ¬ f.Inside y x := by
  intro inside
  rw [linked.inside_iff] at inside
  exact linked.not_cycle x (.tail' inside (linked.mem_children_iff.mp child))

/-- A child of a node is not in the tree of another child. -/
theorem eq_of_inside_child (first : y ∈ f.children x) (second : z ∈ f.children x)
    (inside : f.Inside z y) : y = z := by
  rw [linked.inside_iff] at inside
  rcases inside.cases_head with same | ⟨p, above, further⟩
  · exact same
  · cases above.symm.trans (linked.mem_children_iff.mp first)
    exact absurd (linked.inside_iff.mpr further) (linked.not_inside_child second)

/-- No node is in the trees of two children of one node. -/
theorem eq_of_inside_children (first : y ∈ f.children x) (second : z ∈ f.children x) {w : Id}
    (inFirst : f.Inside y w) (inSecond : f.Inside z w) : y = z := by
  have one : Relator.RightUnique fun x p => f.parent x = some p :=
    fun _ _ _ above above' => Option.some.inj (above.symm.trans above')
  rw [linked.inside_iff] at inFirst inSecond
  -- Of two nodes on the way up from `w`, one is on the way up from the other.
  rcases Relation.ReflTransGen.total_of_right_unique one inFirst inSecond with up | up
  · exact linked.eq_of_inside_child first second (linked.inside_iff.mpr up)
  · exact (linked.eq_of_inside_child second first (linked.inside_iff.mpr up)).symm

/-- Each node of a tree is listed once. -/
theorem nodup_descendants (x : Id) : (f.descendants x).Nodup := by
  induction x using linked.induction_below with
  | step x ih =>
    rw [linked.descendants_eq, List.nodup_cons, List.nodup_flatMap]
    refine ⟨?_, ih, ?_⟩
    · intro below
      obtain ⟨y, child, inside⟩ := List.mem_flatMap.mp below
      exact linked.not_inside_child child (linked.mem_descendants_iff.mp inside)
    · refine (linked.nodup x).imp_of_mem fun {y z} first second differ w inFirst inSecond => ?_
      rw [linked.mem_descendants_iff] at inFirst inSecond
      exact differ (linked.eq_of_inside_children first second inFirst inSecond)

end Linked

end Spire.Forest

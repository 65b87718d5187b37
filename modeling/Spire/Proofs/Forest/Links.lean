import Spire.Forest
import Mathlib.Data.List.Nodup
import Mathlib.Logic.Relation
import Mathlib.Order.WellFounded

/-!
# Links between nodes

A forest is built by creating nodes and by putting nodes below others. The builder has to see to
it that a node which is put somewhere has no parent yet, and that it is not put inside its own
tree; nothing checks this. If it is so at each act, then the links to parents and the lists of
children say the same, no chain of parents runs in a circle, and each node has one place.

What one act does to the links is said once. That the links fit together is kept by each act, and
so it holds of every forest that is built lawfully.

## Main definitions

* `Forest.Act`, `Forest.build` — the acts of building, and what comes of them
* `Forest.Inside` — the nodes of the tree below a node
* `Forest.Permits`, `Forest.Lawful` — what a builder may do
* `Forest.Alone`, `Forest.Linked` — nodes without parents, and links that fit together
* `Forest.Orderly` — all that can be seen of the links of a forest

## Main results

* `Forest.Linked.act` — an act that is permitted keeps the links together
* `Forest.Linked.isLinked` — the check of the links below a node without a parent succeeds
* `Forest.linked_of_lawful`, `Forest.orderly_of_lawful` — the links of a forest that is built
  lawfully
-/

namespace Spire.Forest

/-! ### Building -/

/-- One act of building. -/
inductive Act where
  /-- A new node. -/
  | create (t : Token)
  /-- The node `b` is put below `a`. -/
  | append (a b : Id)
deriving DecidableEq, Repr

/-- The node that an act puts below `a`, if it does. -/
def Act.childOf (a : Id) : Act → Option Id
  | create _ => none
  | append parent b => if parent = a then some b else none

/-- A forest behind one more act. -/
def act (f : Forest) : Act → Forest
  | .create t => (f.create t).2
  | .append a b => f.append a b

/-- What comes of acts, one after the other, in a forest. -/
def grow (f : Forest) (acts : List Act) : Forest :=
  acts.foldl act f

/-- What comes of acts that start from nothing. -/
def build (acts : List Act) : Forest :=
  grow {} acts

/-- A node is in the tree of `top` if it is `top`, or a child of a node in it. -/
def Inside (f : Forest) (top : Id) : Id → Prop :=
  Relation.ReflTransGen (fun x y => y ∈ f.children x) top

/-- The acts that a builder may do: a node is put below another one only if it has no parent yet
and the other one is not in its own tree. -/
def Permits (f : Forest) : Act → Prop
  | .create _ => True
  | .append a b =>
    a < f.nodes.size ∧ b < f.nodes.size ∧ f.parent b = none ∧ ¬ f.Inside b a

/-- Acts of which each may be done in the forest that has come of those before it. -/
def LawfulFrom (f : Forest) : List Act → Prop
  | [] => True
  | a :: acts => f.Permits a ∧ (f.act a).LawfulFrom acts

/-- Acts that may be done one after the other, from nothing on. -/
def Lawful (acts : List Act) : Prop :=
  LawfulFrom {} acts

/-- Links that fit together. -/
structure Linked (f : Forest) : Prop where
  mem_children_iff : ∀ {a b}, b ∈ f.children a ↔ f.parent b = some a
  nodup : ∀ a, (f.children a).Nodup
  wellFounded : WellFounded fun p x => f.parent x = some p

/-- A node without a parent. -/
structure Alone (f : Forest) (x : Id) : Prop where
  inside : x < f.nodes.size
  noParent : f.parent x = none

variable {f : Forest} {acts more : List Act} {a b x y top : Id} {t : Token} {step : Act}

theorem lawfulFrom_append :
    f.LawfulFrom (acts ++ more) ↔ f.LawfulFrom acts ∧ (f.grow acts).LawfulFrom more := by
  induction acts generalizing f with
  | nil => simp [LawfulFrom, grow]
  | cons a acts ih =>
    rw [List.cons_append, LawfulFrom, LawfulFrom, ih, and_assoc]
    rfl

theorem build_concat : build (acts ++ [step]) = (build acts).act step := by
  rw [build, grow, List.foldl_append]
  rfl

theorem lawful_concat : Lawful (acts ++ [step]) ↔ Lawful acts ∧ (build acts).Permits step := by
  rw [Lawful, lawfulFrom_append, LawfulFrom, LawfulFrom, and_true]
  rfl

/-! ### What one act does -/

theorem node_of_size_le (outside : f.nodes.size ≤ x) : f.node x = {} := by
  simp [node, Array.getElem?_eq_none outside]

@[simp] theorem size_create : (f.create t).2.nodes.size = f.nodes.size + 1 := by
  simp [create]

@[simp] theorem size_append : (f.append a b).nodes.size = f.nodes.size := by
  simp [append]

/-- A new node changes no other node. -/
theorem node_create_of_ne (differ : x ≠ f.nodes.size) : (f.create t).2.node x = f.node x := by
  by_cases inside : x < f.nodes.size
  · exact node_create inside
  · have beyond : f.nodes.size < x :=
      Nat.lt_of_le_of_ne (Nat.le_of_not_lt inside) (Ne.symm differ)
    rw [node_of_size_le (Nat.le_of_lt beyond), node_of_size_le]
    rwa [size_create]

/-- A new node comes without links. -/
theorem links_of_size_le (outside : f.nodes.size ≤ x) : f.parent x = none ∧ f.children x = [] := by
  unfold parent children
  rw [node_of_size_le outside]
  exact ⟨rfl, rfl⟩

/-- A new node changes no links. -/
theorem links_create (f : Forest) (t : Token) (x : Id) :
    (f.create t).2.parent x = f.parent x ∧ (f.create t).2.children x = f.children x := by
  by_cases isNew : x = f.nodes.size
  · subst isNew
    have created : (f.create t).2.node f.nodes.size = { token := t } := node_create_self
    obtain ⟨noParent, noChildren⟩ := links_of_size_le (Nat.le_refl f.nodes.size)
    rw [noParent, noChildren, parent, children, created]
    exact ⟨rfl, rfl⟩
  · unfold parent children
    rw [node_create_of_ne isNew]
    exact ⟨rfl, rfl⟩

@[simp] theorem parent_create : (f.create t).2.parent x = f.parent x :=
  (links_create f t x).1

@[simp] theorem children_create : (f.create t).2.children x = f.children x :=
  (links_create f t x).2

section

variable (aInside : a < f.nodes.size) (bInside : b < f.nodes.size) (x : Id)

include aInside bInside

theorem token_append : (f.append a b).token x = f.token x := by
  rw [token, node_append aInside bInside]

/-- A node that is put below `a` has `a` as its parent, and no other node has another parent. -/
theorem parent_append : (f.append a b).parent x = if x = b then some a else f.parent x := by
  rw [parent, node_append aInside bInside]

/-- A node that is put below `a` is its last child, and no other node has other children. -/
theorem children_append :
    (f.append a b).children x = if x = a then f.children x ++ [b] else f.children x := by
  rw [children, node_append aInside bInside]
  dsimp only
  split
  · next same => rw [same]
  · rfl

end

/-- An act puts at most one node behind the children that are there. -/
theorem children_act (permits : f.Permits step) (x : Id) :
    (f.act step).children x = f.children x ++ (step.childOf x).toList := by
  cases step with
  | create t => simp [act, Act.childOf]
  | append a b =>
    rw [act, children_append permits.1 permits.2.1, Act.childOf]
    by_cases same : x = a
    · simp [same]
    · simp [same, Ne.symm same]

/-! ### Nodes without parents -/

theorem alone_create (f : Forest) (t : Token) : (f.create t).2.Alone (f.create t).1 where
  inside := by
    rw [size_create]
    exact Nat.lt_succ_self _
  noParent := by
    rw [parent_create]
    exact (links_of_size_le (Nat.le_refl _)).1

theorem Alone.create (alone : f.Alone x) : (f.create t).2.Alone x where
  inside := by
    rw [size_create]
    exact Nat.lt_succ_of_lt alone.inside
  noParent := by rw [parent_create, alone.noParent]

theorem Alone.ne_created (alone : f.Alone x) (t : Token) : x ≠ (f.create t).1 :=
  Nat.ne_of_lt alone.inside

/-- Only the node that is put below another one gets a parent. -/
theorem Alone.append (alone : f.Alone x) (above : f.Alone a) (below : f.Alone b)
    (differ : x ≠ b) : (f.append a b).Alone x where
  inside := by
    rw [size_append]
    exact alone.inside
  noParent := by rw [parent_append above.inside below.inside, if_neg differ, alone.noParent]

/-! ### Links that fit together -/

namespace Linked

/-- The tree of a node, seen from within: the nodes whose chain of parents comes by it. -/
theorem inside_iff (linked : f.Linked) :
    f.Inside top x ↔ Relation.ReflTransGen (fun x p => f.parent x = some p) x top := by
  have same : (fun x y => y ∈ f.children x) = Function.swap fun x p => f.parent x = some p := by
    funext x y
    exact propext linked.mem_children_iff
  rw [Inside, same, Relation.reflTransGen_swap]

/-- A node without a parent is in its own tree only. -/
theorem eq_of_inside (linked : f.Linked) (isRoot : f.parent x = none) (inside : f.Inside top x) :
    x = top := by
  rcases Relation.ReflTransGen.cases_tail inside with same | ⟨y, -, child⟩
  · exact same
  · rw [linked.mem_children_iff, isRoot] at child
    cases child

/-- Of two nodes without parents each may be put below the other. -/
theorem permits_of_alone (linked : f.Linked) (above : f.Alone a) (below : f.Alone b)
    (differ : a ≠ b) : f.Permits (.append a b) :=
  ⟨above.inside, below.inside, below.noParent,
    fun inside => differ (linked.eq_of_inside above.noParent inside)⟩

theorem empty : Linked {} where
  mem_children_iff := by simp [children, parent, node]
  nodup := by simp [children, node]
  wellFounded := ⟨fun x => ⟨x, fun p above => by simp [parent, node] at above⟩⟩

/-- Chains of parents still end when a node without a parent is put outside its own tree. -/
theorem wellFounded_append (linked : f.Linked) (permits : f.Permits (.append a b)) :
    WellFounded fun p x => (f.append a b).parent x = some p := by
  have parents := parent_append permits.1 permits.2.1
  obtain ⟨-, -, bRoot, apart⟩ := permits
  rw [linked.inside_iff] at apart
  have away (x : Id) (misses : ¬ Relation.ReflTransGen (fun x p => f.parent x = some p) x b) :
      Acc (fun p x => (f.append a b).parent x = some p) x := by
    induction x using linked.wellFounded.induction with
    | _ x ih =>
      refine ⟨x, fun p above => ?_⟩
      have differ : x ≠ b := by
        rintro rfl
        exact misses .refl
      rw [parents, if_neg differ] at above
      exact ih p above fun comes => misses (.head above comes)
  constructor
  intro x
  induction x using linked.wellFounded.induction with
  | _ x ih =>
    refine ⟨x, fun p above => ?_⟩
    rw [parents] at above
    split at above
    · cases above
      exact away a apart
    · exact ih p above

/-- An act that is permitted keeps the links together. -/
theorem act (linked : f.Linked) (permits : f.Permits step) : (f.act step).Linked := by
  cases step with
  | create t =>
    constructor
    · intro a b
      rw [Forest.act, children_create, parent_create]
      exact linked.mem_children_iff
    · intro a
      rw [Forest.act, children_create]
      exact linked.nodup a
    · simp only [Forest.act, parent_create]
      exact linked.wellFounded
  | append a b =>
    have bRoot : f.parent b = none := permits.2.2.1
    have nowhere (p : Id) : b ∉ f.children p := by
      rw [linked.mem_children_iff, bRoot]
      nofun
    constructor
    · intro p x
      rw [Forest.act, children_append permits.1 permits.2.1, parent_append permits.1 permits.2.1]
      by_cases isNew : x = b
      · subst isNew
        by_cases here : p = a
        · simp [here]
        · simp [here, Ne.symm here, nowhere]
      · by_cases here : p = a
        · simp [here, isNew, linked.mem_children_iff]
        · simp [here, isNew, linked.mem_children_iff]
    · intro p
      rw [Forest.act, children_append permits.1 permits.2.1]
      split
      · rw [← List.concat_eq_append]
        exact List.Nodup.concat (nowhere p) (linked.nodup p)
      · exact linked.nodup p
    · exact linked.wellFounded_append permits

/-- Lawful acts keep the links together. -/
theorem grow (linked : f.Linked) (lawful : f.LawfulFrom acts) : (f.grow acts).Linked := by
  induction acts generalizing f with
  | nil => exact linked
  | cons step acts ih => exact ih (linked.act lawful.1) lawful.2

/-! ### What can be seen of the links -/

variable (linked : f.Linked)

include linked

/-- Each chain of parents comes to a node that has none. -/
theorem exists_top (x : Id) :
    ∃ top, Relation.ReflTransGen (fun x p => f.parent x = some p) x top ∧
      f.parent top = none := by
  induction x using linked.wellFounded.induction with
  | _ x ih =>
    cases above : f.parent x with
    | none => exact ⟨x, .refl, above⟩
    | some p =>
      obtain ⟨top, chain, isRoot⟩ := ih p above
      exact ⟨top, .head above chain, isRoot⟩

/-- No chain of parents comes back to where it started. -/
theorem not_cycle (x : Id) : ¬ Relation.TransGen (fun x p => f.parent x = some p) x x := by
  intro cycle
  have back := Relation.transGen_swap.mpr cycle
  exact linked.wellFounded.transGen.irrefl.irrefl x back

theorem contains_iff : f.contains a b = true ↔ f.parent b = some a := by
  rw [contains, List.contains_iff_mem, linked.mem_children_iff]

/-- A child counts as last exactly if it is the last one in the list. -/
theorem isLast_iff (child : b ∈ f.children a) :
    f.isLast b = true ↔ (f.children a).getLast? = some b := by
  rw [linked.mem_children_iff] at child
  simp [isLast, child]

/-- The check of the links between a node and its children succeeds. -/
theorem isLinkedBelow (x : Id) : f.isLinkedBelow x = true := by
  refine List.all_eq_true.mpr fun y child => ?_
  have above := linked.mem_children_iff.mp child
  have contained : f.contains x y = true := linked.contains_iff.mpr above
  have last : f.isLast y = ((f.children x).getLast? == some y) := by
    rw [Bool.eq_iff_iff, beq_iff_eq]
    exact linked.isLast_iff child
  simp [above, contained, isRoot, last]

/-- The check of all links below a node without a parent succeeds. -/
theorem isLinked (noParent : f.parent x = none) : f.isLinked x = true := by
  have below : (f.descendants x).all f.isLinkedBelow = true :=
    List.all_eq_true.mpr fun y _ => linked.isLinkedBelow y
  simp [Forest.isLinked, isRoot, isLast, noParent, below]

end Linked

/-! ### Forests that are built lawfully -/

theorem linked_of_lawful (lawful : Lawful acts) : (build acts).Linked :=
  Linked.empty.grow lawful

/-- Of two nodes without parents one may be put below the other. -/
theorem Lawful.append (lawful : Lawful acts) (above : (build acts).Alone a)
    (below : (build acts).Alone b) (differ : a ≠ b) : Lawful (acts ++ [.append a b]) :=
  lawful_concat.mpr ⟨lawful, (linked_of_lawful lawful).permits_of_alone above below differ⟩

/-- The children of a node are those that it had, and those that are put below it, in order. -/
theorem children_grow (lawful : f.LawfulFrom acts) (x : Id) :
    (f.grow acts).children x = f.children x ++ acts.filterMap (Act.childOf x) := by
  induction acts generalizing f with
  | nil => exact (List.append_nil _).symm
  | cons step acts ih =>
    have others : ((f.act step).grow acts).children x = _ := ih lawful.2
    rw [children_act lawful.1, List.append_assoc] at others
    rw [List.filterMap_cons]
    cases put : step.childOf x with
    | none =>
      rw [put] at others
      exact others
    | some y =>
      rw [put] at others
      exact others

/-- All that can be seen of the links of a forest which has come of `acts`. -/
structure Orderly (f : Forest) (acts : List Act) : Prop where
  /-- The lists of children and the links to parents say the same. -/
  mem_children_iff : ∀ a b, b ∈ f.children a ↔ f.parent b = some a
  /-- No list of children has a node twice. -/
  nodup : ∀ a, (f.children a).Nodup
  /-- No node is in the lists of two nodes. -/
  unique : ∀ a c b, b ∈ f.children a → b ∈ f.children c → a = c
  /-- Each chain of parents ends at a node that has none. -/
  exists_top : ∀ x, ∃ top, Relation.ReflTransGen (fun x p => f.parent x = some p) x top ∧
    f.parent top = none
  /-- No chain of parents comes back to where it started. -/
  not_cycle : ∀ x, ¬ Relation.TransGen (fun x p => f.parent x = some p) x x
  contains_iff : ∀ a b, f.contains a b = true ↔ f.parent b = some a
  isRoot_iff : ∀ x, f.isRoot x = true ↔ f.parent x = none
  /-- A node without a parent counts as last. -/
  isLast_of_root : ∀ x, f.parent x = none → f.isLast x = true
  /-- In a list of children the last one counts as last, and no other one does. -/
  isLast_iff : ∀ a, ∀ b ∈ f.children a, f.isLast b = true ↔ (f.children a).getLast? = some b
  /-- Children stand in the order in which they were put below their parent. -/
  inOrder : ∀ a, f.children a = acts.filterMap (Act.childOf a)

/-- **Links.** What lawful acts build is orderly. -/
theorem orderly_of_lawful (lawful : Lawful acts) : (build acts).Orderly acts := by
  have linked := linked_of_lawful lawful
  constructor
  case mem_children_iff => exact fun a b => linked.mem_children_iff
  case nodup => exact linked.nodup
  case unique =>
    intro a c b first second
    rw [linked.mem_children_iff] at first second
    exact Option.some.inj (first.symm.trans second)
  case exists_top => exact linked.exists_top
  case not_cycle => exact linked.not_cycle
  case contains_iff => exact fun a b => linked.contains_iff
  case isRoot_iff => exact fun x => Option.isNone_iff_eq_none
  case isLast_of_root =>
    intro x noParent
    simp [isLast, noParent]
  case isLast_iff => exact fun a b child => linked.isLast_iff child
  case inOrder =>
    intro a
    have none : children {} a = [] := by simp [children, node]
    rw [build, children_grow lawful, none, List.nil_append]

end Spire.Forest

import Spire.Proofs.Forest.Links

/-!
# Trees that are built node by node

A tree is built by creating its top, building the trees below it one behind the other, and putting
each of them below the top. This leaves the nodes that were there before as they were, and the
tree below the new top is the one that was to be built.

## Main definitions

* `Forest.Agrees` — forests with the same tokens and children in some place
* `Forest.Planted`, `Forest.PlantedBelow` — what comes of building a tree, and of building trees
  below a node

## Main results

* `Forest.planted` — what comes of building a tree
* `Forest.alone_plant`, `Forest.subtree_plant` — the top of a tree that is built has no parent, and
  the tree is read off again
-/

namespace Spire.Forest

/-- `h` has the tokens and the children that `f` has at the nodes from `first` to before `last`. -/
def Agrees (f h : Forest) (first last : Id) : Prop :=
  ∀ y, first ≤ y → y < last → h.token y = f.token y ∧ h.children y = f.children y

/-- What comes of building a tree. -/
structure Planted (f : Forest) (tree : Tree) : Prop where
  top : (f.plant tree).1 = f.nodes.size
  grows : f.nodes.size < (f.plant tree).2.nodes.size
  node_eq : ∀ y < f.nodes.size, (f.plant tree).2.node y = f.node y
  noParent : (f.plant tree).2.parent f.nodes.size = none
  /-- The tree is found at its top as long as nothing is put below its nodes. -/
  subtreeWithin : ∀ h n, (f.plant tree).2.Agrees h f.nodes.size (f.plant tree).2.nodes.size →
    (f.plant tree).2.nodes.size ≤ f.nodes.size + n → h.subtreeWithin n f.nodes.size = tree

/-- What comes of building trees below a node. -/
structure PlantedBelow (f : Forest) (x : Id) (trees : List Tree) : Prop where
  grows : f.nodes.size ≤ (f.plantBelow x trees).nodes.size
  node_eq : ∀ y < f.nodes.size, y ≠ x → (f.plantBelow x trees).node y = f.node y
  token_eq : (f.plantBelow x trees).token x = f.token x
  parent_eq : (f.plantBelow x trees).parent x = f.parent x
  /-- The tops of the trees are behind the children that were there. -/
  children_eq : ∃ tops, (f.plantBelow x trees).children x = f.children x ++ tops ∧
    ∀ h n, (f.plantBelow x trees).Agrees h f.nodes.size (f.plantBelow x trees).nodes.size →
      (f.plantBelow x trees).nodes.size ≤ f.nodes.size + n → tops.map (h.subtreeWithin n) = trees

variable {f g h : Forest} {x first last : Id} {t : Token} {tree : Tree} {trees : List Tree}

theorem Agrees.trans (some : f.Agrees g first last) (others : g.Agrees h first last) :
    f.Agrees h first last := by
  intro y atLeast before
  obtain ⟨token₁, children₁⟩ := some y atLeast before
  obtain ⟨token₂, children₂⟩ := others y atLeast before
  exact ⟨token₂.trans token₁, children₂.trans children₁⟩

theorem Agrees.mono {first' last' : Id} (agrees : f.Agrees h first last) (later : first ≤ first')
    (sooner : last' ≤ last) : f.Agrees h first' last' :=
  fun y atLeast before =>
    agrees y (Nat.le_trans later atLeast) (Nat.lt_of_lt_of_le before sooner)

theorem plant_node :
    f.plant (.node t trees) =
      (f.nodes.size, (f.create t).2.plantBelow f.nodes.size trees) := by
  rw [plant]
  rfl

theorem plantBelow_cons :
    f.plantBelow x (tree :: trees) =
      ((f.plant tree).2.append x (f.plant tree).1).plantBelow x trees := by
  rw [plantBelow]

/-! ### Trees below a node -/

theorem plantedBelow_nil : PlantedBelow f x [] where
  grows := Nat.le_refl _
  node_eq := fun _ _ _ => rfl
  token_eq := rfl
  parent_eq := rfl
  children_eq := ⟨[], (List.append_nil _).symm, fun _ _ _ _ => rfl⟩

section

variable (top : Planted f tree) (xInside : x < f.nodes.size)
  (rest : PlantedBelow ((f.plant tree).2.append x f.nodes.size) x trees)

include top xInside rest

/-- The nodes of a tree keep their tokens and children when the tree is put below `x` and other
trees are built behind it. -/
theorem agrees_plantBelow :
    (f.plant tree).2.Agrees (((f.plant tree).2.append x f.nodes.size).plantBelow x trees)
      f.nodes.size (f.plant tree).2.nodes.size := by
  intro y atLeast before
  have xInTree : x < (f.plant tree).2.nodes.size := Nat.lt_trans xInside top.grows
  have notX : y ≠ x := Nat.ne_of_gt (Nat.lt_of_lt_of_le xInside atLeast)
  have inside : y < ((f.plant tree).2.append x f.nodes.size).nodes.size := by
    rw [size_append]
    exact before
  have settled := rest.node_eq y inside notX
  have sameToken := token_append xInTree top.grows y
  have sameChildren := children_append xInTree top.grows y
  rw [if_neg notX] at sameChildren
  rw [← sameToken, ← sameChildren]
  exact ⟨congrArg Node.token settled, congrArg Node.children settled⟩

theorem plantedBelow_cons : PlantedBelow f x (tree :: trees) := by
  let g := (f.plant tree).2
  let put := g.append x f.nodes.size
  have grows : f.nodes.size < g.nodes.size := top.grows
  have sameSize : put.nodes.size = g.nodes.size := size_append
  have xInTree : x < g.nodes.size := Nat.lt_trans xInside grows
  have oldX : g.node x = f.node x := top.node_eq x xInside
  constructor <;> rw [plantBelow_cons, top.top]
  case grows => exact Nat.le_trans (Nat.le_of_lt (sameSize ▸ grows)) rest.grows
  case node_eq =>
    intro y inside differ
    have notTop : y ≠ f.nodes.size := Nat.ne_of_lt inside
    have kept : put.node y = f.node y := by
      rw [node_append xInTree grows, if_neg notTop, if_neg differ, ← top.node_eq y inside]
      rfl
    rw [rest.node_eq y (sameSize ▸ Nat.lt_trans inside grows) differ, kept]
  case token_eq =>
    rw [rest.token_eq, token_append xInTree grows]
    exact congrArg Node.token oldX
  case parent_eq =>
    rw [rest.parent_eq, parent_append xInTree grows, if_neg (Nat.ne_of_lt xInside)]
    exact congrArg Node.parent oldX
  case children_eq =>
    obtain ⟨tops, behind, others⟩ := rest.children_eq
    refine ⟨f.nodes.size :: tops, ?_, fun h n agrees enough => ?_⟩
    · have sameChildren : g.children x = f.children x := congrArg Node.children oldX
      rw [behind, children_append xInTree grows, if_pos rfl, sameChildren, List.append_assoc]
      rfl
    · have within : g.nodes.size ≤ (put.plantBelow x trees).nodes.size := sameSize ▸ rest.grows
      have later : f.nodes.size ≤ put.nodes.size := sameSize ▸ Nat.le_of_lt grows
      have first : h.subtreeWithin n f.nodes.size = tree := by
        have agreesFirst := (agrees_plantBelow top xInside rest).trans
          (agrees.mono (Nat.le_refl _) within)
        exact top.subtreeWithin h n agreesFirst (Nat.le_trans within enough)
      have below : tops.map (h.subtreeWithin n) = trees :=
        others h n (agrees.mono later (Nat.le_refl _))
          (Nat.le_trans enough (Nat.add_le_add_right later n))
      rw [List.map_cons, first, below]

end

/-- What comes of building trees below a node, if it is so for each of them. -/
theorem plantedBelow (each : ∀ tree ∈ trees, ∀ f, Planted f tree) (xInside : x < f.nodes.size) :
    PlantedBelow f x trees := by
  induction trees generalizing f with
  | nil => exact plantedBelow_nil
  | cons tree trees ih =>
    have top := each tree (List.mem_cons_self ..) f
    refine plantedBelow_cons top xInside (ih ?_ ?_)
    · exact fun other member => each other (List.mem_cons_of_mem _ member)
    · rw [size_append]
      exact Nat.lt_trans xInside top.grows

/-! ### Trees -/

/-- Building a tree adds nodes behind those that are there, and the tree is found at its top. -/
theorem planted (tree : Tree) : ∀ f, Planted f tree := by
  induction tree using Tree.inductionOn with
  | step t trees ih =>
    intro f
    let g := (f.create t).2
    have gSize : g.nodes.size = f.nodes.size + 1 := size_create
    have topInside : f.nodes.size < g.nodes.size := by omega
    have created : g.node f.nodes.size = { token := t } := node_create_self
    have below : PlantedBelow g f.nodes.size trees := plantedBelow ih topInside
    have grows := below.grows
    constructor <;> rw [plant_node]
    case grows => exact Nat.lt_of_lt_of_le topInside grows
    case node_eq =>
      intro y inside
      rw [below.node_eq y (Nat.lt_trans inside topInside) (Nat.ne_of_lt inside)]
      exact node_create inside
    case noParent => rw [below.parent_eq, parent, created]
    case subtreeWithin =>
      intro h n agrees enough
      obtain ⟨tops, behind, found⟩ := below.children_eq
      obtain ⟨sameToken, sameChildren⟩ :=
        agrees f.nodes.size (Nat.le_refl _) (Nat.lt_of_lt_of_le topInside grows)
      have topToken : h.token f.nodes.size = t := by
        rw [sameToken, below.token_eq, token, created]
      have topChildren : h.children f.nodes.size = tops := by
        rw [sameChildren, behind, children, created, List.nil_append]
      obtain ⟨levels, rfl⟩ : ∃ levels, n = levels + 1 :=
        Nat.exists_eq_succ_of_ne_zero fun none => by
          subst none
          exact Nat.not_lt_of_le enough (Nat.lt_of_lt_of_le topInside grows)
      have trees_eq : tops.map (h.subtreeWithin levels) = trees := by
        refine found h levels (agrees.mono (Nat.le_of_lt topInside) (Nat.le_refl _)) ?_
        rw [gSize, Nat.succ_add_eq_add_succ]
        exact enough
      rw [Forest.subtreeWithin, topToken, topChildren, trees_eq]

theorem alone_plant (f : Forest) (tree : Tree) : (f.plant tree).2.Alone (f.plant tree).1 := by
  have built := planted tree f
  rw [built.top]
  exact ⟨built.grows, built.noParent⟩

theorem Alone.plant (alone : f.Alone x) : (f.plant tree).2.Alone x := by
  have built := planted tree f
  refine ⟨Nat.lt_trans alone.inside built.grows, ?_⟩
  rw [parent, built.node_eq x alone.inside]
  exact alone.noParent

theorem Alone.ne_planted (alone : f.Alone x) (tree : Tree) : x ≠ (f.plant tree).1 := by
  rw [(planted tree f).top]
  exact Nat.ne_of_lt alone.inside

/-- A tree that is built is the tree below its top. -/
theorem subtree_plant (f : Forest) (tree : Tree) :
    (f.plant tree).2.subtree (f.plant tree).1 = tree := by
  have built := planted tree f
  rw [built.top]
  exact built.subtreeWithin _ _ (fun y _ _ => ⟨rfl, rfl⟩) (Nat.le_add_left ..)

end Spire.Forest

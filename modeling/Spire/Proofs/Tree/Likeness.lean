import Mathlib.Data.List.Forall2
import Spire.Proofs.Json.Rereading
import Spire.Tree.Serialized

/-!
# Trees that look alike

Two trees are alike if they have the same shape and the tokens at corresponding nodes are alike, in
whatever sense. Of a token its JSON value keeps the kind and the text, and so the JSON value of a
tree keeps the shape with the kinds and the texts, and nothing else.

## Main definitions

* `Tree.Alike` — trees of one shape with tokens that are alike
* `Token.SameText` — tokens of one kind with one text

## Main results

* `Tree.alike_node` — likeness of trees by likeness of their tops and branches
* `Tree.toJson_eq_iff` — trees with the same JSON value
* `Tree.writable_toJson` — the JSON value of a tree can be written and read
-/

namespace Spire

/-- Tokens of one kind with one text, wherever they stand. -/
def Token.SameText (s t : Token) : Prop :=
  s.kind = t.kind ∧ s.raw = t.raw

namespace Tree

/-- Trees of one shape whose tokens are alike at corresponding nodes. -/
inductive Alike (same : Token → Token → Prop) : Tree → Tree → Prop where
  | node {s t : Token} {as bs : List Tree} (tops : same s t)
      (below : List.Forall₂ (Alike same) as bs) : Alike same (.node s as) (.node t bs)

variable {same same' : Token → Token → Prop} {s t : Token} {a b : Tree} {as bs : List Tree}

theorem alike_node :
    Alike same (node s as) (node t bs) ↔ same s t ∧ List.Forall₂ (Alike same) as bs := by
  refine ⟨fun alike => ?_, fun ⟨tops, below⟩ => .node tops below⟩
  cases alike with
  | node tops below => exact ⟨tops, below⟩

/-- A relation between branches may be changed at the branches of one side. -/
theorem forall₂_of_mem {R S : Tree → Tree → Prop} (each : ∀ a ∈ as, ∀ b, R a b → S a b)
    (below : List.Forall₂ R as bs) : List.Forall₂ S as bs := by
  induction below with
  | nil => exact .nil
  | cons first _ ih =>
    obtain ⟨now, later⟩ := List.forall_mem_cons.mp each
    exact .cons (now _ first) (ih later)

/-- Trees are alike in every sense that is not finer. -/
theorem Alike.mono (coarser : ∀ s t, same s t → same' s t) (alike : Alike same a b) :
    Alike same' a b := by
  induction a using inductionOn generalizing b with
  | step s as ih =>
    obtain ⟨t, bs⟩ := b
    obtain ⟨tops, below⟩ := alike_node.mp alike
    exact .node (coarser s t tops) (forall₂_of_mem (fun a member _ => ih a member) below)

/-! ### JSON values -/

/-- The JSON value of a node tells the kind and the text of its token, and the values of its
children. -/
theorem nodeJson_inj {xs ys : List Json} :
    nodeJson s xs = nodeJson t ys ↔ s.SameText t ∧ xs = ys := by
  have labels : s.kind.label = t.kind.label ↔ s.kind = t.kind := by
    refine ⟨fun same => ?_, fun same => by rw [same]⟩
    have known := Token.Kind.ofLabel?_label s.kind
    rw [same, Token.Kind.ofLabel?_label] at known
    exact (Option.some.inj known).symm
  simp [nodeJson, Token.SameText, labels, and_assoc]

/-- Trees have the same JSON value if they have the same shape and the same kinds and texts. -/
theorem toJson_eq_iff : a.toJson = b.toJson ↔ Alike Token.SameText a b := by
  induction a using inductionOn generalizing b with
  | step s as ih =>
    obtain ⟨t, bs⟩ := b
    have branches : as.map toJson = bs.map toJson ↔ List.Forall₂ (Alike Token.SameText) as bs := by
      rw [← List.forall₂_eq_eq_eq, List.forall₂_map_left_iff, List.forall₂_map_right_iff]
      exact ⟨forall₂_of_mem fun a member _ => (ih a member).mp,
        forall₂_of_mem fun a member _ => (ih a member).mpr⟩
    rw [toJson_node, toJson_node, nodeJson_inj, alike_node, branches]

/-- The JSON value of a tree can be written and read. -/
theorem writable_toJson (tree : Tree) : Json.Writable tree.toJson := by
  induction tree using inductionOn with
  | step t trees ih =>
    have branches : Json.Writable (.array (trees.map toJson)) := by
      refine .array fun json member => ?_
      obtain ⟨tree, inside, rfl⟩ := List.mem_map.mp member
      exact ih tree inside
    rw [toJson_node, nodeJson]
    refine .object fun member inside => ?_
    simp only [List.mem_cons, List.not_mem_nil, or_false] at inside
    obtain rfl | rfl | rfl := inside
    · exact .string _
    · exact .string _
    · exact branches

end Tree

end Spire

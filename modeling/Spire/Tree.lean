import Spire.Token

/-!
# Syntax trees

A syntax tree carries a token at each node and keeps the children of a node in order.
The tree of a source has the root token at its top; each function body is again the
tree of a source.

## Main definitions

* `Tree` — a token with its children
* `Tree.source`, `Tree.leaf` — the tree of a source, and a node without children
* `Tree.decEq` — a comparison of trees

## Main results

* `Tree.inductionOn` — what holds of a node when it holds of its children holds of all
  trees
-/

namespace Spire

/-- A token with an ordered list of subtrees. -/
inductive Tree where
  | node (token : Token) (children : List Tree)
deriving Repr, Inhabited

namespace Tree

/-- The token at the top. -/
def token : Tree → Token
  | node t _ => t

/-- The subtrees below the top. -/
def children : Tree → List Tree
  | node _ cs => cs

/-- A node without children. -/
def leaf (t : Token) : Tree :=
  node t []

/-- The tree of a source with the given statements. -/
def source (statements : List Tree) : Tree :=
  node .root statements

mutual

/-- A comparison of trees, node by node. -/
def decEq : (a b : Tree) → Decidable (a = b)
  | node s as, node t bs =>
    match instDecidableEqToken s t, decEqAll as bs with
    | isTrue tops, isTrue below => isTrue (by rw [tops, below])
    | isFalse differ, _ => isFalse fun same => differ (node.inj same).1
    | _, isFalse differ => isFalse fun same => differ (node.inj same).2

/-- A comparison of lists of trees. -/
def decEqAll : (as bs : List Tree) → Decidable (as = bs)
  | [], [] => isTrue rfl
  | [], _ :: _ => isFalse nofun
  | _ :: _, [] => isFalse nofun
  | a :: as, b :: bs =>
    match decEq a b, decEqAll as bs with
    | isTrue first, isTrue others => isTrue (by rw [first, others])
    | isFalse differ, _ => isFalse fun same => differ (List.cons.inj same).1
    | _, isFalse differ => isFalse fun same => differ (List.cons.inj same).2

end

instance : DecidableEq Tree := decEq

/-- What holds of a node when it holds of its children holds of all trees. -/
theorem inductionOn {P : Tree → Prop} (step : ∀ t cs, (∀ c ∈ cs, P c) → P (node t cs))
    (tree : Tree) : P tree :=
  match tree with
  | node t cs => step t cs fun c _ => inductionOn step c
termination_by tree
decreasing_by
  have smaller := List.sizeOf_lt_of_mem ‹c ∈ cs›
  simp only [node.sizeOf_spec]
  omega

end Tree

end Spire

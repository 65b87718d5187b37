import Spire.Tree.Drawing
import Spire.Tree.Serialized

/-!
# Trees that grow

A forest holds nodes that are created one by one and then put below each other. Each
node knows its parent and its children. A node may be put below another one if it has no
parent yet and the other one is not inside its own tree; whoever builds a forest keeps
to that.

## Main definitions

* `Forest`, `Forest.Node` — nodes with their links
* `Forest.create`, `Forest.append` — a new node, and a node put below another one
* `Forest.isRoot`, `Forest.isLast`, `Forest.contains` — how a node stands to others
* `Forest.subtree` — the tree below a node
* `Forest.draw` — the drawing of a node where it stands, by its links
* `Forest.plant` — a given tree, built node by node
* `Forest.isLinked` — a check of the links below a node

## Main results

* `Forest.node_create`, `Forest.node_append` — what building does to each node
-/

namespace Spire

namespace Forest

/-- Nodes are numbered in the order of their creation. -/
abbrev Id := Nat

/-- A token with links to the node above and the nodes below. -/
structure Node where
  token : Token := .root
  parent : Option Id := none
  children : List Id := []
deriving DecidableEq, Repr, Inhabited

end Forest

/-- Nodes with links between them. -/
structure Forest where
  nodes : Array Forest.Node := #[]
deriving DecidableEq, Repr, Inhabited

namespace Forest

/-- The node with a number. -/
def node (f : Forest) (x : Id) : Node :=
  f.nodes[x]?.getD {}

/-- The token of a node. -/
def token (f : Forest) (x : Id) : Token :=
  (f.node x).token

/-- The node above a node. -/
def parent (f : Forest) (x : Id) : Option Id :=
  (f.node x).parent

/-- The nodes below a node, in the order in which they were put there. -/
def children (f : Forest) (x : Id) : List Id :=
  (f.node x).children

/-- A new node that stands by itself. -/
def create (f : Forest) (t : Token := .root) : Id × Forest :=
  (f.nodes.size, ⟨f.nodes.push { token := t }⟩)

/-- The forest with `b` put below `a`, behind the nodes that are there already. -/
def append (f : Forest) (a b : Id) : Forest :=
  ⟨(f.nodes.modify a fun n => { n with children := n.children ++ [b] }).modify b
    fun n => { n with parent := some a }⟩

/-- Whether a node stands by itself. -/
def isRoot (f : Forest) (x : Id) : Bool :=
  (f.parent x).isNone

/-- Whether a node stands by itself or is the last below its parent. -/
def isLast (f : Forest) (x : Id) : Bool :=
  match f.parent x with
  | none => true
  | some p => (f.children p).getLast? == some x

/-- Whether a node is directly below another one. -/
def contains (f : Forest) (a b : Id) : Bool :=
  (f.children a).contains b

/-! ### What building does to each node -/

variable {f : Forest} {a b x : Id} {t : Token}

theorem node_create (inside : x < f.nodes.size) : (f.create t).2.node x = f.node x := by
  simp [create, node, Array.getElem?_push_lt inside, inside]

theorem node_create_self : (f.create t).2.node (f.create t).1 = { token := t } := by
  simp [create, node]

theorem node_append (aInside : a < f.nodes.size) (bInside : b < f.nodes.size) (x : Id) :
    (f.append a b).node x =
      { token := f.token x
        parent := if x = b then some a else f.parent x
        children := if x = a then f.children a ++ [b] else f.children x } := by
  simp only [append, node, token, parent, children, Array.getElem?_modify]
  by_cases isA : a = x <;> by_cases isB : b = x
  · subst isA
    simp [isB, aInside]
  · subst isA
    simp [isB, Ne.symm isB, aInside]
  · subst isB
    simp [isA, Ne.symm isA, bInside]
  · simp [isA, isB, Ne.symm isA, Ne.symm isB]

/-! ### The tree below a node -/

/-- The tree below a node, cut off below `depth` levels. -/
def subtreeWithin (f : Forest) : Nat → Id → Tree
  | 0, x => .leaf (f.token x)
  | depth + 1, x => .node (f.token x) ((f.children x).map (f.subtreeWithin depth))

/-- The tree below a node. No tree has more levels than the forest has nodes. -/
def subtree (f : Forest) (x : Id) : Tree :=
  f.subtreeWithin f.nodes.size x

/-- The nodes of the tree below a node, cut off below `depth` levels, each node before
those below it. -/
def descendantsWithin (f : Forest) : Nat → Id → List Id
  | 0, x => [x]
  | depth + 1, x => x :: (f.children x).flatMap (f.descendantsWithin depth)

/-- The nodes of the tree below a node, each node before those below it. -/
def descendants (f : Forest) (x : Id) : List Id :=
  f.descendantsWithin f.nodes.size x

/-- The JSON value of the tree below a node. -/
def toJson (f : Forest) (x : Id) : Json :=
  (f.subtree x).toJson

/-! ### Drawings -/

/-- The first entry in the drawing of a node, by the links of the node: its caption alone if it has
no parent, and else its caption behind spaces and a connector. -/
def entry (f : Forest) (x : Id) (indent : Int) : Except NegativeIndent String :=
  if f.isRoot x then .ok (f.token x).caption else Tree.entry indent (f.isLast x) (f.token x)

/-- The drawing of a node, cut off below `depth` levels. -/
def drawWithin (f : Forest) : Nat → Id → Int → Except NegativeIndent String
  | 0, x, indent => f.entry x indent
  | depth + 1, x, indent => do
    let top ← f.entry x indent
    let below ← (f.children x).mapM fun y => f.drawWithin depth y (indent + Tree.indentWidth)
    return Tree.onLines (top :: below)

/-- The drawing of a node: its first entry, with the drawings of its children below it. -/
def draw (f : Forest) (x : Id) (indent : Int := 0) : Except NegativeIndent String :=
  f.drawWithin f.nodes.size x indent

/-! ### Building a given tree -/

mutual

/-- Build a tree, and give the number of its top. -/
def plant (f : Forest) : Tree → Id × Forest
  | .node t trees =>
    let (x, g) := f.create t
    (x, plantBelow g x trees)

/-- Build trees below a node, one behind the other. -/
def plantBelow (f : Forest) (x : Id) : List Tree → Forest
  | [] => f
  | tree :: trees =>
    let (y, g) := f.plant tree
    plantBelow (g.append x y) x trees

end

/-- Whether the nodes directly below a node are linked to it, and only the last of them
counts as last. -/
def isLinkedBelow (f : Forest) (x : Id) : Bool :=
  (f.children x).all fun y =>
    f.parent y == some x && f.contains x y && !f.isRoot y &&
      (f.isLast y == ((f.children x).getLast? == some y))

/-- Whether a node stands by itself and all links below it fit together. -/
def isLinked (f : Forest) (x : Id) : Bool :=
  f.isRoot x && f.isLast x && (f.descendants x).all f.isLinkedBelow

end Forest

end Spire

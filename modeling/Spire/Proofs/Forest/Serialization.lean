import Spire.Proofs.Forest.Subtrees
import Spire.Proofs.Tree.Likeness

/-!
# The JSON text of a node

A node is written down with the kinds and the texts in its tree. Whatever the texts are and however
the lines are broken, what is written can be read back, so it tells the kinds, the texts and the
order of the nodes; and it tells nothing else, neither where a token stood in its source nor what
there is above the node.

## Main definitions

* `Forest.jsonText` — the JSON value of a node as a text

## Main results

* `Forest.parse_jsonText`, `Forest.jsonText_eq_iff` — reading and comparing the texts of nodes
* `Forest.serialization_keeps_kinds_and_texts` — what the text of a node tells, in a forest that is
  built lawfully
-/

namespace Spire.Forest

/-- The JSON value of a node as a text: on one line, or with a requested indentation. -/
def jsonText (f : Forest) (x : Id) (indentation : Option Int := none) : String :=
  (f.toJson x).write ((indentation.map Json.step).getD 0)

variable {f g : Forest} {x y : Id} {indentation : Option Int}

/-- The text of a node is read back as its JSON value. -/
theorem parse_jsonText : Json.parse (f.jsonText x indentation) = .ok (f.toJson x) :=
  Json.parse_write (f.subtree x).writable_toJson _

/-- Nodes have the same text if their trees have the same shape with the same kinds and texts. -/
theorem jsonText_eq_iff :
    f.jsonText x indentation = g.jsonText y indentation ↔
      Tree.Alike Token.SameText (f.subtree x) (g.subtree y) :=
  (Json.write_inj (f.subtree x).writable_toJson (g.subtree y).writable_toJson).trans
    Tree.toJson_eq_iff

/-- **Writing down a node.** The text of a node is read back as its JSON value, with or without an
indentation. In a forest that is built lawfully this is an object with the label of its kind, its
text and the JSON values of its children in order. So two nodes, of one forest or of two, have the
same text exactly if their trees have the same shape with the same kinds and texts. -/
theorem serialization_keeps_kinds_and_texts :
    (∀ (f : Forest) (x : Id) (indentation : Option Int),
      Json.parse (f.jsonText x indentation) = .ok (f.toJson x)) ∧
    (∀ acts, Lawful acts → ∀ x,
      (build acts).toJson x =
        .object [("type", .string ((build acts).token x).kind.label),
          ("raw", .string ((build acts).token x).raw),
          ("children", .array (((build acts).children x).map (build acts).toJson))]) ∧
    (∀ (f g : Forest) (x y : Id) (indentation : Option Int),
      f.jsonText x indentation = g.jsonText y indentation ↔
        Tree.Alike Token.SameText (f.subtree x) (g.subtree y)) :=
  ⟨fun _ _ _ => parse_jsonText, fun _ lawful x => (linked_of_lawful lawful).toJson_eq x,
    fun _ _ _ _ _ => jsonText_eq_iff⟩

/-- A string with a quote, a backslash, a line end and a control character in it, by itself. -/
def loose : List Act :=
  [.create ⟨.string, "\"\\\"\n\x01𝒳\"", {}⟩]

/-- The same string in another place, below the top of a source. -/
def placed : List Act :=
  [.create .root, .create ⟨.string, "\"\\\"\n\x01𝒳\"", ⟨3, 7⟩⟩, .append 0 1]

/-- The string has the same text in both forests, and the top of the source has another one that is
read back with the string in it. -/
theorem serialization_keeps_kinds_and_texts_of_placed :
    Lawful placed ∧
      (build loose).jsonText 0 (some 2) = (build placed).jsonText 1 (some 2) ∧
      (build placed).jsonText 0 (some 2) ≠ (build placed).jsonText 1 (some 2) ∧
      Json.parse ((build placed).jsonText 0 (some 2)) =
        .ok (.object [("type", .string "ROOT"), ("raw", .string "."),
          ("children", .array [.object [("type", .string "STRING"),
            ("raw", .string "\"\\\"\n\x01𝒳\""), ("children", .array [])]])]) := by
  have lawful : Lawful placed := by
    have nodes : Lawful [.create .root, .create ⟨.string, "\"\\\"\n\x01𝒳\"", ⟨3, 7⟩⟩] :=
      ⟨trivial, trivial, trivial⟩
    exact nodes.append ⟨by decide, by decide⟩ ⟨by decide, by decide⟩ nofun
  obtain ⟨reads, tells, compares⟩ := serialization_keeps_kinds_and_texts
  refine ⟨lawful, ?_, ?_, ?_⟩
  · refine (compares (build loose) (build placed) 0 1 (some 2)).mpr ?_
    exact .node ⟨rfl, rfl⟩ .nil
  · intro same
    have alike := (compares (build placed) (build placed) 0 1 (some 2)).mp same
    cases alike with
    | node tops below => exact absurd tops.1 (by decide)
  · rw [reads, tells placed lawful 0]
    exact congrArg Except.ok (by decide +kernel)

end Spire.Forest

/-!
# Paths

A place in a file system is a list of names from the top. A path text is read against
such a place: it starts at the top if it begins with a slash, an empty part or a single
dot stays where it is, and two dots go one name up. Nothing is looked up for this, so
the place need not exist.

## Main definitions

* `Path` — names from the top
* `Path.resolve` — the place that a text names
* `Path.text` — the text of a place
-/

namespace Spire

/-- A place in a file system, by its names from the top. -/
structure Path where
  names : List String := []
deriving DecidableEq, Repr, Inhabited

namespace Path

/-- The parts of a path text between its slashes. -/
def parts (text : String) : List String :=
  (text.toList.splitOn '/').map String.ofList

/-- Whether a path text starts at the top. -/
def isAbsolute (text : String) : Bool :=
  text.toList.head? == some '/'

/-- The place one name below. -/
def child (p : Path) (name : String) : Path :=
  ⟨p.names ++ [name]⟩

/-- The place one name up; at the top there is nothing above. -/
def parent (p : Path) : Path :=
  ⟨p.names.dropLast⟩

/-- The place behind one part of a path text. -/
def enter (p : Path) (part : String) : Path :=
  if part = "" ∨ part = "." then p
  else if part = ".." then p.parent
  else p.child part

/-- The place that a path text names for someone who stands at `base`. -/
def resolve (base : Path) (text : String) : Path :=
  (parts text).foldl enter (if isAbsolute text then {} else base)

/-- The text of a place. -/
def text (p : Path) : String :=
  "/" ++ "/".intercalate p.names

end Path

end Spire

import Spire.FileSystem

/-!
# File systems given by a list

A listing names directories and files. A path text is walked through it part by part, as
an operating system does: each part but the last must lead to a directory, two dots lead
back to the directory above, and a slash at the end asks for a directory.

## Main definitions

* `Listing` — directories and files by their places
* `Listing.walk` — what a path leads to
* `Listing.fileSystem` — the file system that a listing describes
-/

namespace Spire

/-- Directories and files by their places. A directory on the way to another entry need
not be listed, and of several files at one place the last one counts. -/
structure Listing where
  directories : List Path := []
  files : List (Path × List UInt8) := []
deriving Repr, Inhabited

namespace Listing

variable (l : Listing)

/-- Whether there is a directory at a place. -/
def isDirectory (p : Path) : Bool :=
  p.names.isEmpty ||
    l.directories.any (fun d => p.names.isPrefixOf d.names) ||
    l.files.any fun (f, _) => p.names.isPrefixOf f.parent.names

/-- What is at a place. -/
def entry (p : Path) : Found :=
  match l.files.reverse.lookup p with
  | some bytes => .file bytes
  | none => if l.isDirectory p then .directory else .missing

/-- What the parts of a path lead to from a directory. -/
def walk (p : Path) : List String → Found
  | [] => .directory
  | part :: others =>
    match l.entry (p.enter part) with
    | .directory => walk (p.enter part) others
    | .file bytes => if others.isEmpty then .file bytes else .obstructed
    | .missing => .missing
    | .obstructed => .obstructed
    | .closed reason => .closed reason

/-- The file system that a listing describes, seen from a working directory. -/
def fileSystem (cwd : Path) : FileSystem where
  cwd
  find text :=
    if text.isEmpty then .missing
    else l.walk (if Path.isAbsolute text then {} else cwd) (Path.parts text)

end Listing

end Spire

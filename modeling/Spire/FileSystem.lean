import Spire.Path
import Spire.Text.Utf8

/-!
# The file system as one run sees it

A run looks files up by path texts and reads them whole. It sees a file system that does
not change meanwhile: a working directory, and for each path text what is found there.

## Main definitions

* `Found` — what a path text leads to
* `FileSystem` — the working directory and what is found
* `FileSystem.holds`, `FileSystem.read` — whether there is something, and the text of a
  file
* `ReadError` — why a file cannot be read
-/

namespace Spire

/-- What a path text leads to. -/
inductive Found where
  /-- There is nothing. -/
  | missing
  /-- The path goes on behind a file. -/
  | obstructed
  /-- There is something that cannot be opened, for a reason that the system gives. -/
  | closed (reason : String)
  | directory
  | file (bytes : List UInt8)
deriving DecidableEq, Repr, Inhabited

/-- Why a file cannot be read. -/
inductive ReadError where
  | noEntry (path : String)
  | notDirectory (path : String)
  | notOpened (reason path : String)
  | isDirectory
deriving DecidableEq, Repr, Inhabited

/-- The text that reports why a file cannot be read. -/
def ReadError.message : ReadError → String
  | noEntry path => "ENOENT: no such file or directory, open '" ++ path ++ "'"
  | notDirectory path => "ENOTDIR: not a directory, open '" ++ path ++ "'"
  | notOpened reason path => reason ++ ", open '" ++ path ++ "'"
  | isDirectory => "EISDIR: illegal operation on a directory, read"

/-- A working directory, and what each path text leads to from there. -/
structure FileSystem where
  cwd : Path
  find : String → Found

namespace FileSystem

variable (fs : FileSystem)

/-- Whether a path text leads to something, whether it can be read or not. -/
def holds (path : String) : Bool :=
  match fs.find path with
  | .closed _ | .directory | .file _ => true
  | .missing | .obstructed => false

/-- The text of a file. -/
def read (path : String) : Except ReadError String :=
  match fs.find path with
  | .file bytes => .ok (Utf8.decode bytes)
  | .directory => .error .isDirectory
  | .closed reason => .error (.notOpened reason path)
  | .obstructed => .error (.notDirectory path)
  | .missing => .error (.noEntry path)

/-- The place that a path text names. -/
def resolve (path : String) : Path :=
  fs.cwd.resolve path

end FileSystem

end Spire

import Spire.CommandLine

/-!
# The program

The program looks up the few paths that a run may ask for, runs, and prints the report.

## Main definitions

* `main` — the program
-/

namespace Spire

/-- Whether there is something at a path, which need not be readable. -/
def exists? (path : String) : IO Bool := do
  try
    let _ ← IO.FS.realPath path
    return true
  catch _ =>
    return false

/-- Why something cannot be opened. -/
def reason : IO.Error → String
  | .permissionDenied .. => "EACCES: permission denied"
  | e => toString e

/-- What a path leads to now. A directory can be opened but not read, so the error for it
names no file; a path that goes on behind a file cannot be opened. -/
def lookUp (path : String) : IO Found := do
  try
    return .file (← IO.FS.readBinFile path).toList
  catch
    | .inappropriateType none .. => return .directory
    | .inappropriateType (some _) .. => return .obstructed
    | e => return if ← exists? path then .closed (reason e) else .missing

/-- The file system as far as it matters for given paths. -/
def observe (cwd : Path) (paths : List String) : IO FileSystem := do
  let found ← paths.mapM fun path => return (path, ← lookUp path)
  return ⟨cwd, fun path => (found.lookup path).getD .missing⟩

end Spire

/-- Run the command line on the arguments of the program. -/
def main (args : List String) : IO UInt32 := do
  let cwd := ({} : Spire.Path).resolve (← IO.currentDir).toString
  let fs ← Spire.observe cwd (Spire.CommandLine.paths cwd args)
  let report := Spire.CommandLine.run fs args
  for line in report.printed do
    if line.isError then
      IO.eprintln line.text
    else
      IO.println line.text
  return UInt32.ofNat report.code

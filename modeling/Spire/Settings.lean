import Spire.FileSystem
import Spire.Json.Reader

/-!
# Settings

Settings come from a JSON file. The file is named outright, or it is the first of a few
candidates that exists: two names beside the source, then the same two in the working
directory. The first candidate that exists decides alone, whether it can be used or not.

## Main definitions

* `TreeFormat`, `Settings` — what can be set
* `SettingsError` — why a file gives no settings
* `Settings.ofJson` — the settings that a JSON value describes
* `Settings.load`, `Settings.loadBeside` — the settings of a named file, and of a search
-/

namespace Spire

/-- How a syntax tree is printed. -/
inductive TreeFormat where
  | tree
  | json
deriving DecidableEq, Repr, Inhabited

/-- The name of a format in a settings file. -/
def TreeFormat.name : TreeFormat → String
  | tree => "tree"
  | json => "json"

/-- Every format, in the order in which messages list them. -/
def TreeFormat.all : List TreeFormat :=
  [tree, json]

/-- The format with a name. -/
def TreeFormat.ofName? (text : String) : Option TreeFormat :=
  all.find? fun format => format.name == text

/-- What can be set; what is not set has a default elsewhere. -/
structure Settings where
  treeFormat? : Option TreeFormat := none
  showNoise? : Option Bool := none
deriving DecidableEq, Repr, Inhabited

/-- Why a file gives no settings. -/
inductive SettingsError where
  | unreadable (error : ReadError)
  | invalidJson (path : String) (detail : String)
  | notObject (path : String)
  | badFormat (path : String)
  | badShowNoise (path : String)
deriving DecidableEq, Repr, Inhabited

/-- The text that reports why a file gives no settings. -/
def SettingsError.message : SettingsError → String
  | unreadable e => e.message
  | invalidJson path detail => "Invalid JSON in config file " ++ path ++ ": " ++ detail
  | notObject path => "Invalid config in " ++ path ++ ": must be an object"
  | badFormat path =>
    "Invalid \"astFormat\" in " ++ path ++ ": must be one of " ++
      ", ".intercalate (TreeFormat.all.map TreeFormat.name)
  | badShowNoise path => "Invalid \"showNoise\" in " ++ path ++ ": must be a boolean"

namespace Settings

/-- The tree format that a member asks for. -/
def readFormat (path : String) : Option Json → Except SettingsError (Option TreeFormat)
  | none => .ok none
  | some (.string text) =>
    match TreeFormat.ofName? text with
    | some format => .ok (some format)
    | none => .error (.badFormat path)
  | some _ => .error (.badFormat path)

/-- The choice that a member makes about noise. -/
def readShowNoise (path : String) : Option Json → Except SettingsError (Option Bool)
  | none => .ok none
  | some (.bool choice) => .ok (some choice)
  | some _ => .error (.badShowNoise path)

/-- The settings that a JSON value describes; `path` is where it comes from. Members with
other names are passed over. -/
def ofJson (path : String) : Json → Except SettingsError Settings
  | .object members => do
    let treeFormat? ← readFormat path (Json.member? members "astFormat")
    let showNoise? ← readShowNoise path (Json.member? members "showNoise")
    return { treeFormat?, showNoise? }
  | _ => .error (.notObject path)

/-- The settings that the text of a file describes. -/
def ofText (path text : String) : Except SettingsError Settings :=
  match Json.parse text with
  | .ok json => ofJson path json
  | .error e => .error (.invalidJson path e.message)

/-- The settings of one file. -/
def ofFile (fs : FileSystem) (path : String) : Except SettingsError Settings :=
  match fs.read path with
  | .ok text => ofText path text
  | .error e => .error (.unreadable e)

/-! ### Search -/

/-- The names that a settings file may have. -/
def fileNames : List String :=
  ["spire.config.json", ".spirerc.json"]

/-- The candidates in a directory. -/
def candidates (directory : Path) : List String :=
  fileNames.map fun name => (directory.child name).text

/-- The settings of the first candidate that exists, and none if none does. -/
def search (fs : FileSystem) (paths : List String) : Except SettingsError Settings :=
  match paths.find? fs.holds with
  | some path => ofFile fs path
  | none => .ok {}

/-- The candidates for a source: beside it, then in the working directory. -/
def candidatesBeside (cwd : Path) (source : String) : List String :=
  candidates (cwd.resolve source).parent ++ candidates cwd

/-- The settings of a named file, or of the working directory if none is named. -/
def load (fs : FileSystem) (path : String := "") : Except SettingsError Settings :=
  if path.isEmpty then search fs (candidates fs.cwd) else ofFile fs path

/-- The settings for a source. -/
def loadBeside (fs : FileSystem) (source : String) : Except SettingsError Settings :=
  search fs (candidatesBeside fs.cwd source)

end Settings

end Spire

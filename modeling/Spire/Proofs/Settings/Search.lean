import Spire.Settings
import Spire.FileSystem.Listing
import Mathlib.Control.Monad.Basic

/-!
# Where settings come from

Settings are looked for at a few places in turn. The first place with something at it decides, and
it decides alone: a file that cannot be used is an error even if there is a good one at a later
place, and nothing that is at another place is looked into. So two file systems give the same
settings as soon as they agree on the place that decides and nothing is in front of it.

## Main definitions

* `FileSystem.IsFirst` — a place with something at it, and nothing at those in front of it
* `Settings.Gives` — what comes of a place whose file is read and checked
* `Settings.FollowsFirst` — settings that depend on the first of some places, and on nothing else

## Main results

* `Settings.gives_ofFile` — reading one file looks at one place
* `Settings.followsFirst_search` — a search depends on the first place with something at it
* `Settings.first_candidate_decides` — the settings for a source, and those of a named file
-/

namespace Spire

/-- There is something at `path`, and nothing at the places `before` it. -/
structure FileSystem.IsFirst (fs : FileSystem) (before : List String) (path : String) : Prop where
  holds : fs.holds path = true
  nothing : ∀ earlier ∈ before, fs.holds earlier = false

namespace Settings

/-- What comes of a place whose file is read as JSON and checked. -/
inductive Gives (fs : FileSystem) (path : String) : Except SettingsError Settings → Prop where
  /-- The file is JSON, and the check of its value decides. -/
  | checked {bytes : List UInt8} {json : Json} (found : fs.find path = .file bytes)
      (isJson : Json.parse (Utf8.decode bytes) = .ok json) : Gives fs path (ofJson path json)
  | notJson {bytes : List UInt8} {e : Json.SyntaxError} (found : fs.find path = .file bytes)
      (noJson : Json.parse (Utf8.decode bytes) = .error e) :
      Gives fs path (.error (.invalidJson path e.message))
  | directory (found : fs.find path = .directory) :
      Gives fs path (.error (.unreadable .isDirectory))
  | obstructed (found : fs.find path = .obstructed) :
      Gives fs path (.error (.unreadable (.notDirectory path)))
  | closed {reason : String} (found : fs.find path = .closed reason) :
      Gives fs path (.error (.unreadable (.notOpened reason path)))
  | missing (found : fs.find path = .missing) :
      Gives fs path (.error (.unreadable (.noEntry path)))

/-- Settings that depend on the first of some places with something at it, and on nothing else. -/
structure FollowsFirst (load : FileSystem → Except SettingsError Settings) (fs : FileSystem)
    (places : List String) : Prop where
  /-- With nothing at any place nothing is set. -/
  nowhere : (∀ place ∈ places, fs.holds place = false) → load fs = .ok {}
  /-- The first place with something at it decides, whether it can be used or not. -/
  first : ∀ {before path after}, places = before ++ path :: after → fs.IsFirst before path →
    Gives fs path (load fs)
  /-- A file system with the same at the place that decides, and nothing in front of it, gives the
  same settings. -/
  alone : ∀ {before path after}, places = before ++ path :: after → fs.IsFirst before path →
    ∀ other : FileSystem, other.cwd = fs.cwd → other.find path = fs.find path →
      (∀ earlier ∈ before, other.holds earlier = false) → load other = load fs

variable {fs other : FileSystem} {before after paths : List String} {path : String}

/-! ### One file -/

theorem gives_ofFile (fs : FileSystem) (path : String) : Gives fs path (ofFile fs path) := by
  unfold ofFile FileSystem.read
  split
  · next text read =>
    split at read <;> cases read
    next bytes found =>
    unfold ofText
    split
    · next json isJson => exact .checked found isJson
    · next e noJson => exact .notJson found noJson
  · next e unread =>
    split at unread <;> cases unread
    · next found => exact .directory found
    · next found => exact .closed found
    · next found => exact .obstructed found
    · next found => exact .missing found

/-- A place gives one thing only. -/
theorem Gives.unique {result result' : Except SettingsError Settings}
    (gives : Gives fs path result) (gives' : Gives fs path result') : result = result' := by
  cases gives <;> cases gives' <;> simp_all

theorem ofFile_congr (same : other.find path = fs.find path) :
    ofFile other path = ofFile fs path := by
  simp only [ofFile, FileSystem.read, same]

/-! ### Several places -/

theorem search_of_nowhere (nothing : ∀ place ∈ paths, fs.holds place = false) :
    search fs paths = .ok {} := by
  have none : paths.find? fs.holds = none := by
    rw [List.find?_eq_none]
    intro place member
    simp [nothing place member]
  rw [search, none]

theorem search_of_isFirst (whole : paths = before ++ path :: after)
    (isFirst : fs.IsFirst before path) : search fs paths = ofFile fs path := by
  have found : paths.find? fs.holds = some path := by
    refine List.find?_eq_some_iff_append.mpr ⟨isFirst.holds, before, after, whole, ?_⟩
    intro earlier member
    simp [isFirst.nothing earlier member]
  rw [search, found]

/-- Either there is a first place with something at it, or there is nothing at any place. -/
theorem isFirst_or_nowhere (fs : FileSystem) (paths : List String) :
    (∃ before path after, paths = before ++ path :: after ∧ fs.IsFirst before path) ∨
      ∀ place ∈ paths, fs.holds place = false := by
  cases found : paths.find? fs.holds with
  | some path =>
    obtain ⟨holds, before, after, whole, nothing⟩ := List.find?_eq_some_iff_append.mp found
    exact .inl ⟨before, path, after, whole, holds, by simpa using nothing⟩
  | none => exact .inr (by simpa using found)

/-- A place with the same at it is still the first one if nothing has come in front of it. -/
theorem isFirst_congr (isFirst : fs.IsFirst before path) (same : other.find path = fs.find path)
    (nothing : ∀ earlier ∈ before, other.holds earlier = false) : other.IsFirst before path where
  holds := by
    rw [FileSystem.holds, same]
    exact isFirst.holds
  nothing := nothing

/-- A search depends on the first place with something at it. The places may depend on where the
search is made, but not on what there is. -/
theorem followsFirst_search (places : Path → List String) (fs : FileSystem) :
    FollowsFirst (fun fs => search fs (places fs.cwd)) fs (places fs.cwd) where
  nowhere := search_of_nowhere
  first := by
    intro before path after whole isFirst
    rw [search_of_isFirst whole isFirst]
    exact gives_ofFile fs path
  alone := by
    intro before path after whole isFirst other sameCwd same nothing
    have stillFirst := isFirst_congr isFirst same nothing
    rw [sameCwd, search_of_isFirst whole isFirst, search_of_isFirst whole stillFirst]
    exact ofFile_congr same

/-! ### Settings for a source, and of a named file -/

/-- **Where settings come from.** For a source there are four places: two beside it and two in the
working directory. The first of them with something at it decides alone. A path that is given is
the only place that is read; without one, and with an empty one, the two places in the working
directory are left. -/
theorem first_candidate_decides (fs : FileSystem) (source : String) :
    FollowsFirst (loadBeside · source) fs
      [((fs.resolve source).parent.child "spire.config.json").text,
        ((fs.resolve source).parent.child ".spirerc.json").text,
        (fs.cwd.child "spire.config.json").text,
        (fs.cwd.child ".spirerc.json").text] ∧
    FollowsFirst (load ·) fs
      [(fs.cwd.child "spire.config.json").text, (fs.cwd.child ".spirerc.json").text] ∧
    ∀ path, path ≠ "" → Gives fs path (load fs path) ∧
      ∀ other : FileSystem, other.find path = fs.find path → load other path = load fs path := by
  refine ⟨followsFirst_search (candidatesBeside · source) fs, followsFirst_search candidates fs, ?_⟩
  intro path isPath
  have named (fs : FileSystem) : load fs path = ofFile fs path :=
    if_neg (mt String.isEmpty_iff.mp isPath)
  rw [named]
  refine ⟨gives_ofFile fs path, fun other same => ?_⟩
  rw [named]
  exact ofFile_congr same

/-- Good settings in the working directory, and a directory with the name of a settings file beside
a source that is missing. -/
def shadowed : FileSystem :=
  Listing.fileSystem
    { directories := [⟨["work", "src", ".spirerc.json"]⟩]
      files := [(⟨["work", "spire.config.json"]⟩, "\x7b\"showNoise\": true\x7d".toUTF8.toList)] }
    ⟨["work"]⟩

/-- The directory beside the source stands in front of the good settings, which are used for a
source elsewhere; a named file is looked for at its own place only. -/
theorem first_candidate_decides_when_shadowed :
    loadBeside shadowed "src/main.spr" = .error (.unreadable .isDirectory) ∧
      loadBeside shadowed "lib/main.spr" = .ok { showNoise? := some true } ∧
      load shadowed "src/none.json" = .error (.unreadable (.noEntry "src/none.json")) := by
  refine ⟨?_, ?_, ?_⟩
  · have isFirst : shadowed.IsFirst ["/work/src/spire.config.json"] "/work/src/.spirerc.json" :=
      ⟨by decide +kernel, by decide +kernel⟩
    have gives := (first_candidate_decides shadowed "src/main.spr").1.first rfl isFirst
    exact gives.unique (.directory (by decide +kernel))
  · have isFirst : shadowed.IsFirst ["/work/lib/spire.config.json", "/work/lib/.spirerc.json"]
        "/work/spire.config.json" :=
      ⟨by decide +kernel, by decide +kernel⟩
    have gives := (first_candidate_decides shadowed "lib/main.spr").1.first rfl isFirst
    rw [gives.unique (gives_ofFile ..)]
    decide +kernel
  · have gives := (first_candidate_decides shadowed "").2.2 "src/none.json" (by decide)
    exact gives.1.unique (.missing (by decide +kernel))

end Settings

end Spire

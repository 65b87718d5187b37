import Spire.CommandLine
import Spire.Proofs.CommandLine.Arguments
import Spire.Proofs.Settings.Validation

/-!
# The settings of a run

The settings of a run come from one file or from none. A path behind the first settings flag names
the file. Without such a path there are four places, two beside the source and two in the working
directory, and the first of them with something at it is the file; if there is nothing at any of
them, nothing is set. The file has to hold an object whose members can be used, and then the
settings are what the members say. If it does not, the run has no settings, whatever there is at
other places.

## Main definitions

* `FileSystem.HasText` — a file with a text
* `Settings.SaidAt` — settings that are what a file says
* `CommandLine.settingsPlaces` — the four places
* `CommandLine.Applies` — the settings that apply to a run

## Main results

* `Settings.ofFile_eq_ok_iff` — the settings of a file are what it says
* `CommandLine.settings_eq_ok_iff` — the settings of a run are those that apply to it
-/

namespace Spire

variable {fs : FileSystem} {path place text source : String} {s : Settings} {args : List String}

/-! ### Files -/

/-- There is a file at a place, and its bytes are those of a text. -/
def FileSystem.HasText (fs : FileSystem) (place text : String) : Prop :=
  ∃ bytes, fs.find place = .file bytes ∧ Utf8.decode bytes = text

theorem FileSystem.read_eq_ok_iff : fs.read place = .ok text ↔ fs.HasText place text := by
  unfold read HasText
  cases fs.find place <;> simp

/-- Where a file is, there is something. -/
theorem FileSystem.HasText.holds (file : fs.HasText place text) : fs.holds place = true := by
  obtain ⟨bytes, found, -⟩ := file
  rw [FileSystem.holds, found]

instance (fs : FileSystem) (place text : String) : Decidable (fs.HasText place text) :=
  decidable_of_iff _ FileSystem.read_eq_ok_iff

namespace Settings

/-- The file at a place holds an object, and the settings are what its members say. -/
def SaidAt (s : Settings) (fs : FileSystem) (place : String) : Prop :=
  ∃ text members, fs.HasText place text ∧ Json.Denotes text (.object members) ∧ s.SaidBy members

theorem ofText_eq_ok_iff :
    ofText path text = .ok s ↔
      ∃ members, Json.Denotes text (.object members) ∧ s.SaidBy members := by
  constructor
  · intro gives
    by_cases isJson : ∃ json, Json.Denotes text json
    · obtain ⟨json, denotes⟩ := isJson
      rw [ofText_of_denotes denotes, ofJson_eq_ok_iff] at gives
      obtain ⟨members, rfl, said⟩ := gives
      exact ⟨members, denotes, said⟩
    · obtain ⟨e, refused⟩ := Json.exists_parse_eq_error (not_exists.mp isJson)
      rw [ofText, refused] at gives
      cases gives
  · rintro ⟨members, denotes, said⟩
    rw [ofText_of_denotes denotes, ofJson_eq_ok_iff]
    exact ⟨members, rfl, said⟩

/-- The settings of a file are what it says. -/
theorem ofFile_eq_ok_iff : ofFile fs place = .ok s ↔ s.SaidAt fs place := by
  constructor
  · intro gives
    cases read : fs.read place with
    | ok text =>
      rw [ofFile, read] at gives
      obtain ⟨members, denotes, said⟩ := ofText_eq_ok_iff.mp gives
      exact ⟨text, members, FileSystem.read_eq_ok_iff.mp read, denotes, said⟩
    | error e =>
      rw [ofFile, read] at gives
      cases gives
  · rintro ⟨text, members, file, denotes, said⟩
    rw [ofFile, FileSystem.read_eq_ok_iff.mpr file]
    exact ofText_eq_ok_iff.mpr ⟨members, denotes, said⟩

end Settings

/-! ### Runs -/

namespace CommandLine

/-- The places where settings are looked for if no path is named. -/
def settingsPlaces (fs : FileSystem) (source : String) : List String :=
  [((fs.resolve source).parent.child "spire.config.json").text,
    ((fs.resolve source).parent.child ".spirerc.json").text,
    (fs.cwd.child "spire.config.json").text,
    (fs.cwd.child ".spirerc.json").text]

/-- The settings that apply to a run with some arguments and a source file. -/
inductive Applies (fs : FileSystem) (args : List String) (source : String) : Settings → Prop where
  /-- A path is named, and the settings are what its file says. -/
  | named {path : String} {s : Settings} (named : Options.NamesSettings args path)
      (said : s.SaidAt fs path) : Applies fs args source s
  /-- No path is named, and the settings are what the file at the first place with something at it
  says. -/
  | found {before after : List String} {place : String} {s : Settings}
      (unnamed : ∀ path, ¬ Options.NamesSettings args path)
      (whole : settingsPlaces fs source = before ++ place :: after)
      (isFirst : fs.IsFirst before place) (said : s.SaidAt fs place) : Applies fs args source s
  /-- No path is named, and there is nothing at the places. -/
  | nowhere (unnamed : ∀ path, ¬ Options.NamesSettings args path)
      (nothing : ∀ place ∈ settingsPlaces fs source, fs.holds place = false) :
      Applies fs args source {}

theorem settings_of_named (named : Options.NamesSettings args path) :
    settings fs (Options.ofArgs args) source = Settings.ofFile fs path := by
  rw [settings, Options.settingsPath?_ofArgs_eq_some_iff.mpr named]
  exact if_neg (mt String.isEmpty_iff.mp named.2)

theorem settings_of_unnamed (unnamed : ∀ path, ¬ Options.NamesSettings args path) :
    settings fs (Options.ofArgs args) source = Settings.search fs (settingsPlaces fs source) := by
  have none : (Options.ofArgs args).settingsPath? = none := by
    refine Option.eq_none_iff_forall_ne_some.mpr fun path named => unnamed path ?_
    exact Options.settingsPath?_ofArgs_eq_some_iff.mp named
  rw [settings, none]
  rfl

/-- The settings of a run are those that apply to it. -/
theorem settings_eq_ok_iff :
    settings fs (Options.ofArgs args) source = .ok s ↔ Applies fs args source s := by
  constructor
  · intro gives
    by_cases isNamed : ∃ path, Options.NamesSettings args path
    · obtain ⟨path, named⟩ := isNamed
      rw [settings_of_named named] at gives
      exact .named named (Settings.ofFile_eq_ok_iff.mp gives)
    · have unnamed := not_exists.mp isNamed
      rw [settings_of_unnamed unnamed] at gives
      obtain ⟨before, place, after, whole, isFirst⟩ | nothing :=
        Settings.isFirst_or_nowhere fs (settingsPlaces fs source)
      · rw [Settings.search_of_isFirst whole isFirst] at gives
        exact .found unnamed whole isFirst (Settings.ofFile_eq_ok_iff.mp gives)
      · rw [Settings.search_of_nowhere nothing] at gives
        cases gives
        exact .nowhere unnamed nothing
  · rintro (⟨named, said⟩ | ⟨unnamed, whole, isFirst, said⟩ | ⟨unnamed, nothing⟩)
    · rw [settings_of_named named]
      exact Settings.ofFile_eq_ok_iff.mpr said
    · rw [settings_of_unnamed unnamed, Settings.search_of_isFirst whole isFirst]
      exact Settings.ofFile_eq_ok_iff.mpr said
    · rw [settings_of_unnamed unnamed]
      exact Settings.search_of_nowhere nothing

instance (fs : FileSystem) (args : List String) (source : String) (s : Settings) :
    Decidable (Applies fs args source s) :=
  decidable_of_iff _ settings_eq_ok_iff

end CommandLine

end Spire

import Spire.Proofs.CommandLine.Course

/-!
# The path behind the settings flag

The argument behind the first settings flag is the path of a settings file. If another path leads
to the same file, settings are the same, and an error about them names the other path; nothing else
of a run changes. There is one exception. The words that mean something wherever they stand are
looked for in all arguments, and so the path has an effect of its own if it is one of these words.

## Main definitions

* `Report.naming` — a report in which errors about settings name another path

## Main results

* `Settings.ofFile_naming` — two paths to one file give the same settings, or the same error with
  another path
* `CommandLine.runWith_naming` — so they give the same report
* `CommandLine.settings_value_is_a_path` — the same for arguments, up to words that have an effect
* `CommandLine.settings_value_has_effects` — the exception is not empty
-/

namespace Spire

variable {fs : FileSystem} {path other : String}

/-! ### Errors that name another path -/

/-- The same failure to read a file under another path. -/
def ReadError.naming (path : String) : ReadError → ReadError
  | noEntry _ => noEntry path
  | notDirectory _ => notDirectory path
  | notOpened reason _ => notOpened reason path
  | isDirectory => isDirectory

/-- The same error about settings under another path. -/
def SettingsError.naming (path : String) : SettingsError → SettingsError
  | unreadable e => unreadable (e.naming path)
  | invalidJson _ detail => invalidJson path detail
  | notObject _ => notObject path
  | badFormat _ => badFormat path
  | badShowNoise _ => badShowNoise path

/-- The same problem, with another path if it is about settings. -/
def Problem.naming (path : String) : Problem → Problem
  | settings e => settings (e.naming path)
  | problem => problem

/-- The same line, with another path if it is about settings. -/
def Line.naming (path : String) : Line → Line
  | out text => out text
  | error problem => error (problem.naming path)
  | origin problem => origin (problem.naming path)

/-- The same report, with another path where it is about settings. -/
def Report.naming (path : String) (r : Report) : Report :=
  ⟨r.code, r.printed.map (Line.naming path)⟩

theorem FileSystem.read_naming (same : fs.find path = fs.find other) :
    fs.read other = (fs.read path).mapError (ReadError.naming other) := by
  rw [read, read, ← same]
  cases fs.find path <;> rfl

namespace Settings

theorem readFormat_naming (path other : String) (member : Option Json) :
    readFormat other member = (readFormat path member).mapError (SettingsError.naming other) := by
  unfold readFormat
  split
  · rfl
  · split <;> rfl
  · rfl

theorem readShowNoise_naming (path other : String) (member : Option Json) :
    readShowNoise other member =
      (readShowNoise path member).mapError (SettingsError.naming other) := by
  unfold readShowNoise
  split <;> rfl

theorem ofJson_naming (json : Json) :
    ofJson other json = (ofJson path json).mapError (SettingsError.naming other) := by
  cases json with
  | object members =>
    simp only [ofJson]
    rw [readFormat_naming path other, readShowNoise_naming path other]
    cases readFormat path (Json.member? members "astFormat") with
    | error e => rfl
    | ok format => cases readShowNoise path (Json.member? members "showNoise") <;> rfl
  | null | bool | number | string | array => rfl

theorem ofText_naming (text : String) :
    ofText other text = (ofText path text).mapError (SettingsError.naming other) := by
  unfold ofText
  cases Json.parse text with
  | ok json => exact ofJson_naming json
  | error e => rfl

/-- Two paths to one file give the same settings, or the same error with another path. -/
theorem ofFile_naming (same : fs.find path = fs.find other) :
    ofFile fs other = (ofFile fs path).mapError (SettingsError.naming other) := by
  rw [ofFile, ofFile, FileSystem.read_naming same]
  cases fs.read path with
  | ok text => exact ofText_naming text
  | error e => rfl

end Settings

/-! ### Reports -/

namespace CommandLine

variable {o : Options}

/-- The same printout, with another path where it is about settings. -/
def Printout.naming (path : String) (p : Printout) : Printout :=
  ⟨p.lines.map (Line.naming path), p.problem?.map (Problem.naming path)⟩

theorem map_naming_out (texts : List String) :
    (texts.map Line.out).map (Line.naming path) = texts.map Line.out := by
  rw [List.map_map]
  rfl

theorem printTokens_naming (source : String) (keepNoise : Bool) :
    (printTokens source keepNoise).naming path = printTokens source keepNoise := by
  rw [printTokens_eq, Printout.naming, map_naming_out, Option.map_none]

theorem printTree_naming (source : String) (trace : Bool) (format : TreeFormat) :
    (printTree source trace format).naming path = printTree source trace format := by
  cases outcome : (parse source).outcome with
  | ok tree =>
    cases shown : showTree format tree with
    | ok text =>
      rw [printTree_of_ok outcome shown, Printout.naming, map_naming_out, Option.map_none]
    | error failure =>
      rw [printTree, outcome_parse_tracing, outcome]
      simp [shown, Printout.naming, Problem.naming, Line.naming]
  | error failure =>
    rw [printTree_of_error outcome, Printout.naming, map_naming_out]
    rfl

theorem settings_naming (named : o.settingsPath? = some path) (isPath : path ≠ "")
    (otherPath : other ≠ "") (same : fs.find path = fs.find other) (input : String) :
    settings fs { o with settingsPath? := some other } input =
      (settings fs o input).mapError (SettingsError.naming other) := by
  simp only [settings, named, Settings.load, String.isEmpty_iff, isPath, otherPath, if_false]
  exact Settings.ofFile_naming same

theorem print_naming (named : o.settingsPath? = some path) (isPath : path ≠ "")
    (otherPath : other ≠ "") (same : fs.find path = fs.find other) (input : String) :
    print fs { o with settingsPath? := some other } input = (print fs o input).naming other := by
  unfold print
  cases fs.read input with
  | error e => rfl
  | ok source =>
    simp only [settings_naming named isPath otherPath same]
    cases settings fs o input with
    | error e => rfl
    | ok s =>
      simp only [Except.mapError]
      split
      · rw [printTokens_naming]
      · rw [printTree_naming]

theorem conclude_naming (p : Printout) :
    conclude o (p.naming path) = (conclude o p).naming path := by
  obtain ⟨lines, _ | problem⟩ := p
  · rfl
  · by_cases trace : o.trace <;> simp [conclude, Printout.naming, Report.naming, Line.naming, trace]

/-- Two settings paths to one file give the same report, apart from the path in errors. -/
theorem runWith_naming (named : o.settingsPath? = some path) (isPath : path ≠ "")
    (otherPath : other ≠ "") (same : fs.find path = fs.find other) :
    runWith fs { o with settingsPath? := some other } = (runWith fs o).naming other := by
  obtain ⟨help, lex, json, noise, trace, input?, settingsPath?⟩ := o
  cases help with
  | true => rfl
  | false =>
    cases input? with
    | none => rfl
    | some input =>
      have printed := print_naming named isPath otherPath same (fs.resolve input).text
      by_cases found : fs.holds (fs.resolve input).text = true
      · simp only [runWith, found, if_true, Bool.false_eq_true, if_false, printed]
        exact conclude_naming _
      · simp only [runWith, found, Bool.false_eq_true, if_false]
        rfl

/-- **The settings path.** The value of the first settings flag is no input file. If it is replaced
by another path to the same file, the exit code and the printed lines stay the same, apart from the
path in errors about settings, as long as each word that means something wherever it stands is none
of the two paths or stands elsewhere among the arguments, too. -/
theorem settings_value_is_a_path {before after : List String} (first : "--config" ∉ before)
    (isPath : path ≠ "") (otherPath : other ≠ "") (same : fs.find path = fs.find other)
    (plain : ∀ word ∈ Options.words, word ∉ before ++ after → word ≠ path ∧ word ≠ other) :
    (∀ input, Options.FirstInput (before ++ "--config" :: path :: after) input ↔
      Options.FirstInput (before ++ after) input) ∧
    run fs (before ++ "--config" :: other :: after) =
      (run fs (before ++ "--config" :: path :: after)).naming other := by
  constructor
  · intro input
    rw [← Options.head?_inputs_eq_some_iff, ← Options.head?_inputs_eq_some_iff]
    exact Iff.of_eq (congrArg (·.head? = some input) (Options.inputs_value first))
  · have named : (Options.ofArgs (before ++ "--config" :: path :: after)).settingsPath? =
        some path := Options.settingsPath?_value first isPath
    have options := Options.ofArgs_value first otherPath plain
    calc run fs (before ++ "--config" :: other :: after)
      _ = runWith fs { Options.ofArgs (before ++ "--config" :: path :: after) with
            settingsPath? := some other } := congrArg (runWith fs) options
      _ = _ := runWith_naming named isPath otherPath same

/-- A path that begins with dashes and means nothing to the run, and the same file by another path:
the error about the file names the other path. -/
theorem settings_value_is_a_path_with_dashes :
    run (fileSystemOf [("--set", "[]"), ("idle", "nop")])
        (["--trace"] ++ "--config" :: "./--set" :: ["idle"]) =
      (run (fileSystemOf [("--set", "[]"), ("idle", "nop")])
        (["--trace"] ++ "--config" :: "--set" :: ["idle"])).naming "./--set" :=
  (settings_value_is_a_path (by decide) (by decide) (by decide) (by decide +kernel) (by decide)).2

/-- If the path of the settings file is the word that asks for tokens, then tokens are printed,
while another path to the same file leaves the tree. -/
theorem settings_value_has_effects :
    ¬ ∀ (fs : FileSystem) (before after : List String) (path other : String),
      "--config" ∉ before → path ≠ "" → other ≠ "" → fs.find path = fs.find other →
        run fs (before ++ "--config" :: other :: after) =
          (run fs (before ++ "--config" :: path :: after)).naming other := by
  intro always
  have differ := always (fileSystemOf [("--lex", "\x7b\x7d"), ("idle", "nop")]) [] ["idle"] "--lex"
    "./--lex" (by decide) (by decide) (by decide) (by decide +kernel)
  revert differ
  decide +kernel

end CommandLine

end Spire

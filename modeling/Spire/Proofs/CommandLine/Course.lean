import Spire.FileSystem.Listing
import Spire.Proofs.CommandLine.Settings
import Spire.Proofs.Drawing
import Spire.Proofs.Lexer.Content
import Spire.Proofs.Parser.Isolation

/-!
# The course of a run

A run of the command line explains itself, or complains that something it needs is not there, or
has an input text and settings and goes on to print tokens or a tree. Printing tokens never fails,
since the lexer has a kind for each of its operator characters, and drawing a tree never fails,
since no line of the drawing stands left of the margin. So parsing is the only thing that can go
wrong behind that point.

## Main definitions

* `Report.output`, `Report.errors` — what a report shows on each of the two outputs
* `CommandLine.Supplied` — an input file, its text and the settings are there
* `CommandLine.traced`, `CommandLine.tokenLines` — the lines of the trace, if it is wanted, and of
  the tokens
* `CommandLine.fileSystemOf` — the file system of a few short texts
* `CommandLine.Course` — everything that a run can do, and when

## Main results

* `CommandLine.Supplied.run_of_lex`, `CommandLine.Supplied.run_of_accepted`,
  `CommandLine.Supplied.run_of_refused` — the report of a run that has what it needs
* `CommandLine.course_run` — every run takes one of the courses
-/

namespace Spire

/-! ### The two outputs -/

namespace Report

/-- The texts on the standard output. -/
def output (r : Report) : List String :=
  (r.printed.filter fun line => !line.isError).map Line.text

/-- The texts on the error output. -/
def errors (r : Report) : List String :=
  (r.printed.filter Line.isError).map Line.text

variable {code : Nat} {lines more : List Line} {text : String} {problem : Problem}

@[simp] theorem output_nil : (Report.mk code []).output = [] := rfl

@[simp] theorem errors_nil : (Report.mk code []).errors = [] := rfl

@[simp] theorem output_append :
    (Report.mk code (lines ++ more)).output =
      (Report.mk code lines).output ++ (Report.mk code more).output := by
  simp [output]

@[simp] theorem errors_append :
    (Report.mk code (lines ++ more)).errors =
      (Report.mk code lines).errors ++ (Report.mk code more).errors := by
  simp [errors]

@[simp] theorem output_out :
    (Report.mk code (.out text :: lines)).output = text :: (Report.mk code lines).output := rfl

@[simp] theorem output_error :
    (Report.mk code (.error problem :: lines)).output = (Report.mk code lines).output := rfl

@[simp] theorem output_origin :
    (Report.mk code (.origin problem :: lines)).output = (Report.mk code lines).output := rfl

@[simp] theorem errors_out :
    (Report.mk code (.out text :: lines)).errors = (Report.mk code lines).errors := rfl

@[simp] theorem errors_error :
    (Report.mk code (.error problem :: lines)).errors =
      ("Error: " ++ problem.message) :: (Report.mk code lines).errors := rfl

@[simp] theorem errors_origin :
    (Report.mk code (.origin problem :: lines)).errors =
      (Line.origin problem).text :: (Report.mk code lines).errors := rfl

@[simp] theorem output_map_out (texts : List String) :
    (Report.mk code (texts.map Line.out)).output = texts := by
  induction texts with
  | nil => rfl
  | cons text texts ih => rw [List.map_cons, output_out, ih]

@[simp] theorem errors_map_out (texts : List String) :
    (Report.mk code (texts.map Line.out)).errors = [] := by
  induction texts with
  | nil => rfl
  | cons text texts ih => rw [List.map_cons, errors_out, ih]

end Report

/-! ### Parsing with and without a trace -/

/-- Tracing adds the lines of the log to what can be seen of a parse. -/
theorem parse_eq_with_printed (source : String) (tracing : Bool) :
    parse source tracing =
      { parse source with
        printed := if tracing then (parse source).log.map Step.line else [] } :=
  (Parser.run_eq { tracing } _).1

namespace CommandLine

variable {fs : FileSystem} {args : List String} {input source text : String} {s : Settings}
  {tree : Tree} {failure : Failure}

/-- The lines of the trace of a parse, if it is wanted. -/
def traced (args : List String) (source : String) : List String :=
  if "--trace" ∈ args then (parse source true).printed else []

theorem printed_parse_trace :
    (parse source (Options.ofArgs args).trace).printed = traced args source := by
  by_cases wanted : "--trace" ∈ args
  · rw [Options.trace_ofArgs, decide_eq_true wanted, traced, if_pos wanted]
  · rw [Options.trace_ofArgs, decide_eq_false wanted, traced, if_neg wanted, parse_eq_with_printed]
    rfl

/-- Each line of the trace is that of a step, and there is none unless the trace is wanted. -/
theorem mem_traced (member : text ∈ traced args source) :
    "--trace" ∈ args ∧ ∃ step : Step, text = step.line := by
  by_cases wanted : "--trace" ∈ args
  · rw [traced, if_pos wanted, parse_eq_with_printed] at member
    obtain ⟨step, -, rfl⟩ := List.mem_map.mp member
    exact ⟨wanted, step, rfl⟩
  · rw [traced, if_neg wanted] at member
    cases member

/-! ### Printing -/

/-- The texts of a tree that a run may print: as JSON, or as a drawing. -/
theorem exists_showTree (json : Prop) [Decidable json] (tree : Tree) :
    ∃ drawing, tree.draw = .ok drawing ∧
      showTree (if json then .json else .tree) tree =
        .ok (if json then tree.toJson.write 2 else drawing) := by
  obtain ⟨drawing, drawn⟩ : ∃ drawing, tree.draw = .ok drawing := tree.exists_draw (by decide)
  refine ⟨drawing, drawn, ?_⟩
  by_cases isJson : json
  · simp [isJson, showTree]
  · simp [isJson, showTree, drawn]

/-- The lines of the tokens of a source. -/
def tokenLines (source : String) (keepNoise : Bool) : List String :=
  (({} : Lexer).tokens source keepNoise).transcript.tokens.map tokenLine

theorem printTokens_eq (source : String) (keepNoise : Bool) :
    printTokens source keepNoise = ⟨(tokenLines source keepNoise).map .out, none⟩ := by
  rw [printTokens, Lexer.fault?_tokens, tokenLines, List.map_map]
  rfl

theorem outcome_parse_tracing (source : String) (tracing : Bool) :
    (parse source tracing).outcome = (parse source).outcome := by
  rw [parse_eq_with_printed source tracing]

theorem printTree_of_error {trace : Bool} {format : TreeFormat}
    (refused : (parse source).outcome = .error failure) :
    printTree source trace format =
      ⟨(parse source trace).printed.map .out, some (.source failure)⟩ := by
  rw [printTree, outcome_parse_tracing, refused]

theorem printTree_of_ok {trace : Bool} {format : TreeFormat}
    (accepted : (parse source).outcome = .ok tree) (shown : showTree format tree = .ok text) :
    printTree source trace format =
      ⟨((parse source trace).printed ++ [text]).map .out, none⟩ := by
  rw [printTree, outcome_parse_tracing, accepted]
  simp [shown]

/-! ### Reporting a problem -/

/-- The lines that report a problem. Tracing also reports where it arose. -/
def complaint (args : List String) (problem : Problem) : List Line :=
  .error problem :: if "--trace" ∈ args then [.origin problem] else []

theorem conclude_problem (lines : List Line) (problem : Problem) :
    conclude (Options.ofArgs args) ⟨lines, some problem⟩ =
      ⟨1, lines ++ complaint args problem⟩ := by
  simp [conclude, complaint]

theorem output_complaint {code : Nat} (problem : Problem) :
    (Report.mk code (complaint args problem)).output = [] := by
  by_cases wanted : "--trace" ∈ args <;> simp [complaint, wanted]

theorem errors_complaint {code : Nat} (problem : Problem) :
    (Report.mk code (complaint args problem)).errors =
      ("Error: " ++ problem.message) ::
        if "--trace" ∈ args then [(Line.origin problem).text] else [] := by
  by_cases wanted : "--trace" ∈ args <;> simp [complaint, wanted]

/-! ### Runs that have what they need -/

/-- What a run needs is there: the first input file with its text, and the settings that are named
or found for it. -/
structure Supplied (fs : FileSystem) (args : List String) (input source : String)
    (s : Settings) : Prop where
  first : Options.FirstInput args input
  file : fs.HasText (fs.resolve input).text source
  applies : Applies fs args (fs.resolve input).text s

/-- The file system with some files at its top, seen from there. A file is given by its name and
its text. -/
def fileSystemOf (files : List (String × String)) : FileSystem :=
  Listing.fileSystem { files := files.map fun (name, text) => (⟨[name]⟩, text.toUTF8.toList) } {}

theorem help_eq_false (silent : ¬ Options.AsksHelp args) : (Options.ofArgs args).help = false := by
  rwa [← Options.help_ofArgs_iff, Bool.not_eq_true] at silent

theorem run_of_asksHelp (asked : Options.AsksHelp args) : run fs args = ⟨0, [.out usage]⟩ := by
  rw [run, runWith, if_pos (Options.help_ofArgs_iff.mpr asked)]

theorem run_of_no_input (silent : ¬ Options.AsksHelp args)
    (none : (Options.ofArgs args).input? = none) :
    run fs args = ⟨1, [.error .noInput, .out usage]⟩ := by
  simp [run, runWith, help_eq_false silent, none]

theorem run_of_not_found (silent : ¬ Options.AsksHelp args)
    (first : Options.FirstInput args input)
    (missing : fs.holds (fs.resolve input).text = false) :
    run fs args = ⟨1, [.error (.fileNotFound (fs.resolve input).text)]⟩ := by
  simp [run, runWith, help_eq_false silent, Options.input?_ofArgs_eq_some_iff.mpr first, missing]

theorem run_of_firstInput (silent : ¬ Options.AsksHelp args)
    (first : Options.FirstInput args input)
    (found : fs.holds (fs.resolve input).text = true) :
    run fs args =
      conclude (Options.ofArgs args) (print fs (Options.ofArgs args) (fs.resolve input).text) := by
  simp [run, runWith, help_eq_false silent, Options.input?_ofArgs_eq_some_iff.mpr first, found]

/-- What a run needs is there with one more flag if it is there without the flag. -/
theorem Supplied.insert {before after : List String} {flag : String}
    (supplied : Supplied fs (before ++ after) input source s)
    (isFlag : Options.isFlag flag = true) (other : flag ≠ Options.settingsFlag)
    (apart : ¬ Options.IsValue (before ++ after) before.length) :
    Supplied fs (before ++ flag :: after) input source s := by
  have options := Options.ofArgs_insert isFlag other apart supplied.first.ne_nil
  refine ⟨?_, supplied.file, ?_⟩
  · rw [← Options.input?_ofArgs_eq_some_iff, options]
    exact Options.input?_ofArgs_eq_some_iff.mpr supplied.first
  · rw [← settings_eq_ok_iff, options]
    exact settings_eq_ok_iff.mpr supplied.applies

namespace Supplied

variable (supplied : Supplied fs args input source s)
include supplied

theorem not_asksHelp (noHelp : "--help" ∉ args) (noShort : "-h" ∉ args) :
    ¬ Options.AsksHelp args :=
  Options.not_asksHelp supplied.first.ne_nil noHelp noShort

theorem print_of_lex (lex : "--lex" ∈ args) :
    print fs (Options.ofArgs args) (fs.resolve input).text =
      printTokens source ("--noise" ∈ args ∨ s.showNoise? = some true) := by
  have noisy : ((Options.ofArgs args).noise || s.showNoise?.getD false) =
      decide ("--noise" ∈ args ∨ s.showNoise? = some true) := by
    cases s.showNoise? <;> simp
  rw [print, FileSystem.read_eq_ok_iff.mpr supplied.file]
  simp only [settings_eq_ok_iff.mpr supplied.applies, Options.lex_ofArgs, decide_eq_true lex,
    noisy, if_true]

theorem print_of_not_lex (noLex : "--lex" ∉ args) :
    print fs (Options.ofArgs args) (fs.resolve input).text =
      printTree source (Options.ofArgs args).trace
        (if "--json" ∈ args ∨ s.treeFormat? = some .json then .json else .tree) := by
  have format : (if (Options.ofArgs args).json then .json else s.treeFormat?.getD .tree) =
      if "--json" ∈ args ∨ s.treeFormat? = some .json then TreeFormat.json else .tree := by
    by_cases json : "--json" ∈ args
    · simp [json]
    · rcases s.treeFormat? with _ | _ | _ <;> simp [json]
  rw [print, FileSystem.read_eq_ok_iff.mpr supplied.file]
  simp only [settings_eq_ok_iff.mpr supplied.applies, Options.lex_ofArgs, decide_eq_false noLex,
    format, Bool.false_eq_true, if_false]

/-- The tokens are printed, with noise if the arguments or the settings ask for it. -/
theorem run_of_lex (silent : ¬ Options.AsksHelp args) (lex : "--lex" ∈ args) :
    run fs args =
      ⟨0, (tokenLines source ("--noise" ∈ args ∨ s.showNoise? = some true)).map .out⟩ := by
  rw [run_of_firstInput silent supplied.first supplied.file.holds, supplied.print_of_lex lex,
    printTokens_eq, conclude]

/-- A tree is printed behind the trace. -/
theorem run_of_accepted (silent : ¬ Options.AsksHelp args) (noLex : "--lex" ∉ args)
    (accepted : (parse source).outcome = .ok tree) :
    ∃ drawing, tree.draw = .ok drawing ∧
      run fs args =
        ⟨0, (traced args source ++ [if "--json" ∈ args ∨ s.treeFormat? = some .json then
          tree.toJson.write 2 else drawing]).map .out⟩ := by
  obtain ⟨drawing, drawn, shown⟩ :=
    exists_showTree ("--json" ∈ args ∨ s.treeFormat? = some .json) tree
  refine ⟨drawing, drawn, ?_⟩
  rw [run_of_firstInput silent supplied.first supplied.file.holds, supplied.print_of_not_lex noLex,
    printTree_of_ok accepted shown, printed_parse_trace, conclude]

/-- The failure of a parse is reported behind the trace. -/
theorem run_of_refused (silent : ¬ Options.AsksHelp args) (noLex : "--lex" ∉ args)
    (refused : (parse source).outcome = .error failure) :
    run fs args =
      ⟨1, (traced args source).map .out ++ complaint args (.source failure)⟩ := by
  rw [run_of_firstInput silent supplied.first supplied.file.holds, supplied.print_of_not_lex noLex,
    printTree_of_error refused, printed_parse_trace, conclude_problem]

end Supplied

/-! ### Every course of a run -/

/-- What a run can do that is not asked for help, and when. -/
inductive Course (fs : FileSystem) (args : List String) : Report → Prop where
  /-- No argument names an input file. -/
  | noInput (none : ∀ input, ¬ Options.FirstInput args input) :
      Course fs args ⟨1, [.error .noInput, .out usage]⟩
  /-- There is nothing where the first input file should be. -/
  | notFound {input : String} (first : Options.FirstInput args input)
      (missing : fs.holds (fs.resolve input).text = false) :
      Course fs args ⟨1, [.error (.fileNotFound (fs.resolve input).text)]⟩
  /-- The first input file cannot be read. -/
  | unreadable {input : String} {e : ReadError} (first : Options.FirstInput args input)
      (failed : fs.read (fs.resolve input).text = .error e) :
      Course fs args ⟨1, complaint args (.unreadable e)⟩
  /-- The settings cannot be used. -/
  | unsettled {input : String} {e : SettingsError} (first : Options.FirstInput args input)
      (failed : settings fs (Options.ofArgs args) (fs.resolve input).text = .error e) :
      Course fs args ⟨1, complaint args (.settings e)⟩
  /-- Tokens are wanted. -/
  | listed {input source : String} {s : Settings} (supplied : Supplied fs args input source s)
      (lex : "--lex" ∈ args) (lines : List String) : Course fs args ⟨0, lines.map .out⟩
  /-- A tree is wanted, and there is one. -/
  | accepted {input source : String} {s : Settings} {tree : Tree}
      (supplied : Supplied fs args input source s)
      (accepted : (parse source).outcome = .ok tree) (text : String) :
      Course fs args ⟨0, (traced args source ++ [text]).map .out⟩
  /-- A tree is wanted, and there is none. -/
  | refused {input source : String} {s : Settings} {failure : Failure}
      (supplied : Supplied fs args input source s) (noLex : "--lex" ∉ args)
      (refused : (parse source).outcome = .error failure) :
      Course fs args ⟨1, (traced args source).map .out ++ complaint args (.source failure)⟩

/-- A run that is not asked for help takes one of the courses. -/
theorem course_run (silent : ¬ Options.AsksHelp args) : Course fs args (run fs args) := by
  cases chosen : (Options.ofArgs args).input? with
  | none =>
    rw [run_of_no_input silent chosen]
    refine .noInput fun input first => ?_
    rw [Options.input?_ofArgs_eq_some_iff.mpr first] at chosen
    cases chosen
  | some input =>
    have first := Options.input?_ofArgs_eq_some_iff.mp chosen
    cases found : fs.holds (fs.resolve input).text with
    | false =>
      rw [run_of_not_found silent first found]
      exact .notFound first found
    | true =>
      have ran := run_of_firstInput silent first found
      cases read : fs.read (fs.resolve input).text with
      | error e =>
        rw [ran, print, read, conclude_problem, List.nil_append]
        exact .unreadable first read
      | ok source =>
        cases loaded : settings fs (Options.ofArgs args) (fs.resolve input).text with
        | error e =>
          rw [ran, print, read]
          simp only [loaded, conclude_problem, List.nil_append]
          exact .unsettled first loaded
        | ok s =>
          have supplied : Supplied fs args input source s :=
            ⟨first, FileSystem.read_eq_ok_iff.mp read, settings_eq_ok_iff.mp loaded⟩
          by_cases lex : "--lex" ∈ args
          · rw [supplied.run_of_lex silent lex]
            exact .listed supplied lex _
          · cases outcome : (parse source).outcome with
            | ok tree =>
              obtain ⟨drawing, -, ran⟩ := supplied.run_of_accepted silent lex outcome
              rw [ran]
              exact .accepted supplied outcome _
            | error failure =>
              rw [supplied.run_of_refused silent lex outcome]
              exact .refused supplied lex outcome

/-! ### The exit code -/

/-- A run that has what it needs succeeds if it is to print tokens, or if there is a tree. -/
theorem Supplied.code_eq_zero (supplied : Supplied fs args input source s)
    (silent : ¬ Options.AsksHelp args)
    (possible : "--lex" ∈ args ∨ ∃ tree, (parse source).outcome = .ok tree) :
    (run fs args).code = 0 := by
  by_cases lex : "--lex" ∈ args
  · rw [supplied.run_of_lex silent lex]
  · obtain ⟨tree, accepted⟩ := possible.resolve_left lex
    obtain ⟨drawing, -, ran⟩ := supplied.run_of_accepted silent lex accepted
    rw [ran]

/-- A report on a failure: exit code one, a first complaint on the error output with at most the
place where it arose behind it, and nothing but the trace or the usage on the standard output. -/
structure Failed (args : List String) (r : Report) : Prop where
  code : r.code = 1
  complains : ∃ (problem : Problem) (more : List String),
    r.errors = ("Error: " ++ problem.message) :: more ∧
      (more = [] ∨ "--trace" ∈ args ∧ more = [(Line.origin problem).text])
  prints : ∀ text ∈ r.output, text = usage ∨ "--trace" ∈ args ∧ ∃ step : Step, text = step.line

/-- A complaint behind nothing but lines of a trace is a report on a failure. -/
theorem failed_of_complaint {lines : List String} (problem : Problem)
    (traces : ∀ text ∈ lines, "--trace" ∈ args ∧ ∃ step : Step, text = step.line) :
    Failed args ⟨1, lines.map .out ++ complaint args problem⟩ where
  code := rfl
  complains := by
    refine ⟨problem, if "--trace" ∈ args then [(Line.origin problem).text] else [], ?_, ?_⟩
    · rw [Report.errors_append, Report.errors_map_out, errors_complaint, List.nil_append]
    · by_cases wanted : "--trace" ∈ args <;> simp [wanted]
  prints := by
    intro text member
    rw [Report.output_append, Report.output_map_out, output_complaint, List.append_nil] at member
    exact Or.inr (traces text member)

/-- A course that does not end with exit code zero ends in a report on a failure. -/
theorem Course.failed {r : Report} (course : Course fs args r) (nonzero : r.code ≠ 0) :
    Failed args r := by
  cases course with
  | noInput none =>
    refine ⟨rfl, ⟨.noInput, [], rfl, Or.inl rfl⟩, ?_⟩
    intro text member
    exact Or.inl (List.mem_singleton.mp member)
  | notFound first missing => exact ⟨rfl, ⟨.fileNotFound _, [], rfl, Or.inl rfl⟩, nofun⟩
  | unreadable first failed => exact failed_of_complaint (.unreadable _) (List.forall_mem_nil _)
  | unsettled first failed => exact failed_of_complaint (.settings _) (List.forall_mem_nil _)
  | listed supplied lex lines => exact absurd rfl nonzero
  | accepted supplied accepted text => exact absurd rfl nonzero
  | refused supplied noLex refused =>
    exact failed_of_complaint (.source _) fun text member => mem_traced member

/-- A course that ends with exit code zero has what it needs, and reports no problem. -/
theorem Course.succeeded {r : Report} (course : Course fs args r) (zero : r.code = 0) :
    r.errors = [] ∧ ∃ input source s, Supplied fs args input source s ∧
      ("--lex" ∈ args ∨ ∃ tree, (parse source).outcome = .ok tree) := by
  cases course with
  | listed supplied lex lines =>
    exact ⟨Report.errors_map_out _, _, _, _, supplied, Or.inl lex⟩
  | accepted supplied accepted text =>
    exact ⟨Report.errors_map_out _, _, _, _, supplied, Or.inr ⟨_, accepted⟩⟩
  | noInput | notFound | unreadable | unsettled | refused => cases zero

/-- **Exit codes.** A run ends with exit code zero if and only if help is asked for, or the first
input file exists and can be read, the settings can be used, and tokens are wanted or the text has
a tree. It prints nothing on the error output then. Otherwise it ends with exit code one, and its
first text on the error output says what is wrong; only a trace adds another one, and nothing but
the trace and the usage stands on the standard output. -/
theorem exits_zero_iff_nothing_fails (fs : FileSystem) (args : List String) :
    ((run fs args).code = 0 ↔
      (args = [] ∨ "--help" ∈ args ∨ "-h" ∈ args) ∨
        ∃ input source s, Supplied fs args input source s ∧
          ("--lex" ∈ args ∨ ∃ tree, (parse source).outcome = .ok tree)) ∧
    ((run fs args).code = 0 → (run fs args).errors = []) ∧
    ((run fs args).code ≠ 0 →
      (run fs args).code = 1 ∧
      (∃ (problem : Problem) (more : List String),
        (run fs args).errors = ("Error: " ++ problem.message) :: more ∧
          (more = [] ∨ "--trace" ∈ args ∧ more = [(Line.origin problem).text])) ∧
      ∀ text ∈ (run fs args).output,
        text = usage ∨ "--trace" ∈ args ∧ ∃ step : Step, text = "  [trace] " ++ step.text) := by
  by_cases asked : Options.AsksHelp args
  · rw [run_of_asksHelp asked]
    exact ⟨iff_of_true rfl (Or.inl asked), fun _ => rfl, fun nonzero => absurd rfl nonzero⟩
  · have course : Course fs args (run fs args) := course_run asked
    refine ⟨⟨fun zero => Or.inr (course.succeeded zero).2, ?_⟩,
      fun zero => (course.succeeded zero).1, fun nonzero => ?_⟩
    · rintro (help | ⟨input, source, s, supplied, possible⟩)
      · exact absurd help asked
      · exact supplied.code_eq_zero asked possible
    · have failed := course.failed nonzero
      exact ⟨failed.code, failed.complains, failed.prints⟩

end CommandLine

end Spire

import Spire.CommandLine.Options
import Spire.Forest
import Spire.Parser
import Spire.Settings

/-!
# The command line

One run of the command line reads a source file and prints its syntax tree, or its
tokens. Everything that can go wrong is reported on lines of the error output, and the
exit code says whether anything did.

## Main definitions

* `Problem` — why a run fails
* `Line`, `Report` — what a run prints, and its exit code
* `CommandLine.run` — the report of a run
* `CommandLine.paths` — the path texts that a run may look up
-/

namespace Spire

/-- Why a run fails. -/
inductive Problem where
  | noInput
  | fileNotFound (path : String)
  | unreadable (error : ReadError)
  | settings (error : SettingsError)
  | source (failure : Failure)
  | drawing (failure : NegativeIndent)
deriving DecidableEq, Repr, Inhabited

/-- The text that reports a problem. -/
def Problem.message : Problem → String
  | noInput => "No input file specified."
  | fileNotFound path => "File not found: " ++ path
  | unreadable e => e.message
  | settings e => e.message
  | source e => e.message
  | drawing e => e.message

/-- One thing that a run prints. -/
inductive Line where
  /-- A text on the standard output. -/
  | out (text : String)
  /-- A problem on the error output. -/
  | error (problem : Problem)
  /-- Where a problem arose, on the error output. -/
  | origin (problem : Problem)
deriving DecidableEq, Repr, Inhabited

namespace Line

/-- Whether a line goes to the error output. -/
def isError : Line → Bool
  | out _ => false
  | error _ | origin _ => true

/-- The text of a line. -/
def text : Line → String
  | out text => text
  | error problem => "Error: " ++ problem.message
  | origin problem => "Raised by: " ++ problem.message

end Line

/-- The exit code of a run and what it prints. -/
structure Report where
  code : Nat
  printed : List Line
deriving DecidableEq, Repr, Inhabited

namespace CommandLine

/-- The explanation of the command line. -/
def usage : String :=
"
spire - The Spire language front end v0.1.0

Usage:
  spire <file.spr>            Parse a file and print its syntax tree
  spire --parse <file.spr>    Same as above
  spire --lex <file.spr>      Tokenize and print the token stream
  spire --help                Show this help message

Options:
  --json             Print the syntax tree as JSON
  --noise            Keep spaces, comments and newlines in --lex output
  --trace            Trace grammar rules while parsing
  --config <path>    Path to spire.config.json (auto-detected by default)

Configuration:
  A spire.config.json (or .spirerc.json) next to the source file or in the
  working directory may set:
    \"astFormat\": \"tree\" | \"json\"
    \"showNoise\": true | false

Examples:
  spire examples/main.spr
  spire --lex --noise examples/main.spr
  spire --json examples/main.spr
"

/-- The line that shows a token: its place, its kind and its quoted text. -/
def tokenLine (t : Token) : String :=
  toString t.position.line ++ ":" ++ toString t.position.column ++ "\t" ++ t.kind.label ++ " " ++
    Json.quoted t.raw

/-- What printing gives: lines, and the problem that stopped it if there was one. -/
structure Printout where
  lines : List Line := []
  problem? : Option Problem := none
deriving DecidableEq, Repr, Inhabited

/-- Print the tokens of a source. -/
def printTokens (source : String) (keepNoise : Bool) : Printout :=
  let ts := (({} : Lexer).tokens source keepNoise).transcript
  ⟨ts.tokens.map fun t => .out (tokenLine t), ts.fault?.map fun fault => .source (.lex fault)⟩

/-- The text of a tree in a format. -/
def showTree (format : TreeFormat) (tree : Tree) : Except NegativeIndent String :=
  match format with
  | .tree => tree.draw
  | .json => .ok (tree.toJson.write 2)

/-- Print the tree of a source, behind the trace if it is wanted. -/
def printTree (source : String) (trace : Bool) (format : TreeFormat) : Printout :=
  let run := parse source trace
  let traced := run.printed.map Line.out
  match run.outcome with
  | .error failure => ⟨traced, some (.source failure)⟩
  | .ok tree =>
    match showTree format tree with
    | .ok text => ⟨traced ++ [.out text], none⟩
    | .error failure => ⟨traced, some (.drawing failure)⟩

/-- The settings of a run: those of the named file, or those found for the input. -/
def settings (fs : FileSystem) (o : Options) (path : String) : Except SettingsError Settings :=
  match o.settingsPath? with
  | some named => Settings.load fs named
  | none => Settings.loadBeside fs path

/-- Print what is asked for of an input file. The file is read before the settings. -/
def print (fs : FileSystem) (o : Options) (path : String) : Printout :=
  match fs.read path with
  | .error e => ⟨[], some (.unreadable e)⟩
  | .ok source =>
    match settings fs o path with
    | .error e => ⟨[], some (.settings e)⟩
    | .ok s =>
      if o.lex then printTokens source (o.noise || s.showNoise?.getD false)
      else printTree source o.trace (if o.json then .json else s.treeFormat?.getD .tree)

/-- The report on a printout. Tracing also reports where a problem arose. -/
def conclude (o : Options) (p : Printout) : Report :=
  match p.problem? with
  | none => ⟨0, p.lines⟩
  | some problem =>
    ⟨1, p.lines ++ .error problem :: if o.trace then [.origin problem] else []⟩

/-- The report of a run with given options. -/
def runWith (fs : FileSystem) (o : Options) : Report :=
  if o.help then ⟨0, [.out usage]⟩
  else
    match o.input? with
    | none => ⟨1, [.error .noInput, .out usage]⟩
    | some input =>
      let path := (fs.resolve input).text
      if fs.holds path then conclude o (print fs o path)
      else ⟨1, [.error (.fileNotFound path)]⟩

/-- The report of a run with given arguments. -/
def run (fs : FileSystem) (args : List String) : Report :=
  runWith fs (Options.ofArgs args)

/-- The path texts that a run may look up. -/
def paths (cwd : Path) (args : List String) : List String :=
  let o := Options.ofArgs args
  match o.input? with
  | none => []
  | some input =>
    let path := (cwd.resolve input).text
    path :: o.settingsPath?.toList ++ Settings.candidatesBeside cwd path

end CommandLine

end Spire

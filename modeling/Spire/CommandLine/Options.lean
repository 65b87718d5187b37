/-!
# Arguments of the command line

An argument that begins with two dashes is a flag; the argument behind `--config` is the
path of a settings file and no input. Every other argument is an input file, of which
the first is used. A flag counts wherever it stands.

## Main definitions

* `Options` — what the arguments ask for
* `Options.ofArgs` — the options of a list of arguments
-/

namespace Spire

/-- What the arguments of a run ask for. -/
structure Options where
  help : Bool := false
  lex : Bool := false
  json : Bool := false
  noise : Bool := false
  trace : Bool := false
  input? : Option String := none
  settingsPath? : Option String := none
deriving DecidableEq, Repr, Inhabited

namespace Options

/-- The flag whose next argument is its value. -/
def settingsFlag : String := "--config"

/-- Whether an argument is a flag. -/
def isFlag (arg : String) : Bool :=
  ['-', '-'].isPrefixOf arg.toList

/-- The arguments that name input files. -/
def inputs : List String → List String
  | [] => []
  | [arg] => if isFlag arg then [] else [arg]
  | arg :: value :: args =>
    if arg = settingsFlag then inputs args
    else if isFlag arg then inputs (value :: args)
    else arg :: inputs (value :: args)

/-- The argument behind the first occurrence of a flag. -/
def valueOf (flag : String) : List String → Option String
  | [] => none
  | arg :: args => if arg = flag then args.head? else valueOf flag args

/-- The options of a list of arguments. Without arguments help is asked for, and an empty
path names no settings file. -/
def ofArgs (args : List String) : Options where
  help := args.isEmpty || args.contains "--help" || args.contains "-h"
  lex := args.contains "--lex"
  json := args.contains "--json"
  noise := args.contains "--noise"
  trace := args.contains "--trace"
  input? := (inputs args).head?
  settingsPath? := (valueOf settingsFlag args).filter fun path => !path.isEmpty

end Options

end Spire

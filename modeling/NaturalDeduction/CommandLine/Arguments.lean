/-!
# Command line arguments

Two paths, with options before, between or behind them. An option may be given in any place up to
`--`, behind which all arguments are paths. A switch may be repeated; an option with a value may
not, and its value is the next argument, whatever that is.

`help` is asked for like an option, with or without dashes. It needs no paths, but the arguments
must still be ones that could stand there, and no option may follow.

## Main definitions

* `Arguments`, `Request`: what the program is asked to do
* `Request.ofArguments`: what arguments ask for, or the first fault in them
* `UsageError`: what is wrong with arguments
-/

namespace NaturalDeduction.CommandLine

/-- What is needed to grade. -/
structure Arguments where
  instructor : String
  student : String
  /-- The path of the settings to use, in place of those that are found nearby. -/
  settings : Option String
  similarity : Bool
  plain : Bool
deriving DecidableEq, Repr

/-- What the program is asked to do. -/
inductive Request where
  | help
  | grade (arguments : Arguments)
deriving DecidableEq, Repr

/-- What is wrong with arguments. -/
inductive UsageError where
  | unrecognized (argument : String)
  | valueMissing (option : String)
  | repeated (option value : String)
  | optionBehindHelp
  | pathsMissing (names : List String)
deriving DecidableEq, Repr

/-- The error in words. -/
def UsageError.message : UsageError → String
  | unrecognized argument => s!"Unrecognized argument: {argument}\n"
  | valueMissing option => s!"No value provided for option '{option}'.\n"
  | repeated option value =>
    s!"Error parsing option '{option}' with value '{value}': duplicate values provided\n"
  | optionBehindHelp => "Trailing arguments are not allowed after `help`."
  | pathsMissing names =>
    "Required positional arguments not provided:\n" ++
      String.join (names.map fun name => s!"    {name}\n")

/-! ### Options -/

/-- The options. -/
inductive Flag where
  | settings
  | similarity
  | plain
deriving DecidableEq, Repr

/-- The option that an argument names. -/
def Flag.ofArgument? : String → Option Flag
  | "-c" | "--config" => some settings
  | "-s" | "--similarity" => some similarity
  | "--plain" => some plain
  | _ => none

/-- The arguments that ask for help. -/
def helpWords : List String := ["--help", "help"]

/-! ### Scanning -/

/-- The names of the paths, in order. -/
def pathNames : List String := ["instructor", "student"]

/-- What the arguments up to some place say. -/
structure Scan where
  paths : List String
  settings : Option String
  similarity : Bool
  plain : Bool
  help : Bool
deriving DecidableEq, Repr

namespace Scan

/-- What no arguments say. -/
def empty : Scan := ⟨[], none, false, false, false⟩

/-- The scan with one more path, of which there are two. -/
def addPath (scan : Scan) (path : String) : Except UsageError Scan :=
  if scan.paths.length < pathNames.length then .ok { scan with paths := scan.paths ++ [path] }
  else .error (.unrecognized path)

/-- What all arguments say, if the last ones are paths only. -/
def addPaths : List String → Scan → Except UsageError Scan
  | [], scan => .ok scan
  | path :: paths, scan =>
    match scan.addPath path with
    | .error error => .error error
    | .ok scan => addPaths paths scan

/-- What all arguments say, after those that are scanned already. -/
def add : List String → Scan → Except UsageError Scan
  | [], scan => .ok scan
  | argument :: others, scan =>
    if argument ∈ helpWords then add others { scan with help := true }
    else if argument = "--" then addPaths others scan
    else if argument.startsWith "-" then
      if scan.help then .error .optionBehindHelp
      else
        match Flag.ofArgument? argument with
        | none => .error (.unrecognized argument)
        | some .similarity => add others { scan with similarity := true }
        | some .plain => add others { scan with plain := true }
        | some .settings =>
          match others with
          | [] => .error (.valueMissing argument)
          | value :: others =>
            if scan.settings.isSome then .error (.repeated argument value)
            else add others { scan with settings := some value }
    else
      match scan.addPath argument with
      | .error error => .error error
      | .ok scan => add others scan

/-- The request that scanned arguments make. -/
def request (scan : Scan) : Except UsageError Request :=
  if scan.help then .ok .help
  else
    match scan.paths with
    | instructor :: student :: _ =>
      .ok (.grade ⟨instructor, student, scan.settings, scan.similarity, scan.plain⟩)
    | paths => .error (.pathsMissing (pathNames.drop paths.length))

end Scan

/-- What arguments ask for. -/
def Request.ofArguments (arguments : List String) : Except UsageError Request :=
  match Scan.add arguments Scan.empty with
  | .error error => .error error
  | .ok scan => scan.request

/-! ### Help -/

/-- The help text. -/
def helpText : String :=
  "Usage: fitch [-c <config>] [-s] [--plain] [--] <instructor> <student>\n\n" ++
  "Grade natural-deduction proofs against an instructor's reference proofs.\n\n" ++
  "Positional Arguments:\n" ++
  "  instructor        the instructor's assignment file.\n" ++
  "  student           the student's assignment file.\n\n" ++
  "Options:\n" ++
  "  -c, --config      path to fitch.toml config file.\n" ++
  "  -s, --similarity  score how closely each proof follows the reference.\n" ++
  "  --plain           disable colored output.\n" ++
  "  --help, help      display usage information\n\n"

/-- What is printed behind every usage error. -/
def helpHint : String := "\nRun fitch --help for more information.\n"

end NaturalDeduction.CommandLine

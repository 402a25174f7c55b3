import NaturalDeduction.CommandLine.Arguments
import NaturalDeduction.Files.Access
import NaturalDeduction.Grading.AssignmentText
import NaturalDeduction.Grading.Summary
import NaturalDeduction.Settings

/-!
# The program

The program finds its settings, reads the two assignments, grades them and prints the report. The
first thing that cannot be read ends it: first the settings are read, then the instructor's
assignment, then the student's.

The exit status tells how it went: 0 if nothing failed, 1 if the grading found failures or the
arguments are wrong, 2 if something could not be read.

## Main definitions

* `Failure`: what can keep the program from grading
* `CommandLine.run`: what the program prints for its arguments, and its exit status
-/

namespace NaturalDeduction.CommandLine

/-- What can keep the program from grading. -/
inductive Failure where
  | settingsFile (path : String) (error : FileError)
  | settings (path : String) (refusal : Toml.Refusal)
  | assignmentFile (path : String) (error : FileError)
  | assignment (path : String) (error : AssignmentError)
deriving DecidableEq, Repr

/-- The failure in words. -/
def Failure.message : Failure → String
  | settingsFile path error => s!"could not read config file `{path}`: {error.message}"
  | settings path refusal => s!"invalid config file `{path}`: {refusal.message}"
  | assignmentFile path error => s!"could not read `{path}`: {error.message}"
  | assignment path error => error.message path

variable {m : Type → Type} [Monad m]

/-- The settings in a file. -/
def readSettings (files : FileAccess m) (path : String) : m (Except Failure Settings) := do
  match ← files.readText path with
  | .error error => return .error (.settingsFile path error)
  | .ok text => return (Settings.parse text).mapError (.settings path)

/-- The settings to use: those in the file that is asked for, or else in the nearest one that is
found, or else the default. -/
def findSettings (files : FileAccess m) (path : Option String) : m (Except Failure Settings) := do
  match path with
  | some path => readSettings files path
  | none =>
    match ← files.nearest? Settings.fileName (← files.directories) with
    | some path => readSettings files path
    | none => return .ok Settings.default

/-- The assignment in a file. -/
def readAssignment (files : FileAccess m) (path : String) : m (Except Failure Assignment) := do
  match ← files.readText path with
  | .error error => return .error (.assignmentFile path error)
  | .ok text => return (Assignment.parse text).mapError (.assignment path)

/-- The results for the assignments in two files. -/
def gradeFiles (files : FileAccess m) (options : GradingOptions) (instructor student : String) :
    m (Except Failure GradingReport) := do
  match ← readAssignment files instructor with
  | .error failure => return .error failure
  | .ok reference =>
    match ← readAssignment files student with
    | .error failure => return .error failure
    | .ok answers => return .ok (grade options reference answers)

/-- The printed report for what the arguments ask to grade, and whether the grading failed. -/
def gradeArguments (files : FileAccess m) (arguments : Arguments) :
    m (Except Failure (String × Bool)) := do
  match ← findSettings files arguments.settings with
  | .error failure => return .error failure
  | .ok found =>
    let settings := (found.withSimilarity arguments.similarity).withPlain arguments.plain
    match ← gradeFiles files settings.grading arguments.instructor arguments.student with
    | .error failure => return .error failure
    | .ok report => return .ok (report.render settings.color, report.isFailure)

/-- What the program leaves behind. -/
structure Response where
  status : UInt32
  output : String
  errors : String
deriving DecidableEq, Repr

/-- The line that tells of a failure. -/
def failureLine (palette : Palette) (failure : Failure) : String :=
  s!"{palette.red}{palette.bold}error:{palette.reset} {failure.message}\n"

/-- The exit status when grading could be done. -/
def gradingStatus (isFailure : Bool) : UInt32 := if isFailure then 1 else 0

/-- What the program does with its arguments. -/
def run (files : FileAccess m) (arguments : List String) : m Response := do
  match Request.ofArguments arguments with
  | .error error => return ⟨1, "", error.message ++ helpHint⟩
  | .ok .help => return ⟨0, helpText, ""⟩
  | .ok (.grade arguments) =>
    match ← gradeArguments files arguments with
    | .error failure => return ⟨2, "", failureLine (Palette.choose !arguments.plain) failure⟩
    | .ok (text, isFailure) => return ⟨gradingStatus isFailure, text, ""⟩

end NaturalDeduction.CommandLine

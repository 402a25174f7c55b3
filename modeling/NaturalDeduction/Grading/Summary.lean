import NaturalDeduction.Grading.Assignment
import NaturalDeduction.Text.Plural
import NaturalDeduction.Text.Rows

/-!
# The printed summary

A grading report is printed as one block per problem, in order, and then the number of problems with
each result. A block names the problem and its result and shows what there is to tell about it; for
a solved problem only warnings are shown.

In color, a style begins and ends with a terminal escape sequence. Without color the same places are
empty.
-/

namespace NaturalDeduction

/-- The escape sequences of the styles in use, or empty texts. -/
structure Palette where
  reset : String
  red : String
  green : String
  yellow : String
  gray : String
  bold : String
deriving DecidableEq, Repr

namespace Palette

/-- The styles of a terminal. -/
def colored : Palette where
  reset := "\x1b[0m"
  red := "\x1b[31m"
  green := "\x1b[32m"
  yellow := "\x1b[33m"
  gray := "\x1b[90m"
  bold := "\x1b[1m"

/-- No styles. -/
def plain : Palette := ⟨"", "", "", "", "", ""⟩

/-- The styles of a terminal, if they are wanted. -/
def choose (color : Bool) : Palette := if color then colored else plain

end Palette

namespace GradingReport

/-- The sign and the style of a result. -/
def mark (palette : Palette) : Outcome → String × String
  | .correct => ("✓", palette.green)
  | .incorrectConclusion => ("✗", palette.yellow)
  | .invalidProof _ | .unreadable _ => ("✗", palette.red)
  | .unmatched => ("?", palette.gray)

/-- Whether a row of the diagnostic is shown. -/
def isShown (outcome : Outcome) (row : String) : Bool :=
  outcome ≠ .correct || row.startsWith "warning"

/-- The heading of a problem's block. -/
def heading (palette : Palette) (problem : ProblemReport) : String :=
  let (sign, tint) := mark palette problem.report.outcome
  let similarity :=
    match problem.report.similarity with
    | none => ""
    | some share => s!" {palette.gray}(similarity {percentText share}){palette.reset}"
  s!" {tint}{sign}{palette.reset} problem {palette.bold}{problem.id}{palette.reset}: " ++
    problem.report.outcome.text ++ similarity

/-- The lines of a problem's block. -/
def block (palette : Palette) (problem : ProblemReport) : List String :=
  heading palette problem ::
    ((Text.rowTexts problem.report.diagnostic).filter (isShown problem.report.outcome)).map
      fun row => s!"     {palette.gray}{row}{palette.reset}"

/-- The line that counts the problems with one result. -/
def tally (palette : Palette) (sign tint : String) (n : Nat) (rest : String) : String :=
  s!" {tint}{sign}{palette.reset} {palette.bold}{n}{palette.reset} {rest}"

/-- The same, if there are any. -/
def tallyIfAny (palette : Palette) (sign tint : String) (n : Nat) (rest : String) : List String :=
  if n = 0 then [] else [tally palette sign tint n rest]

/-- How many problems have each result other than correct. -/
structure Tallies where
  incorrect : Nat
  invalid : Nat
  unreadable : Nat
  unmatched : Nat
deriving DecidableEq, Repr

/-- Nothing counted yet. -/
def Tallies.none : Tallies := ⟨0, 0, 0, 0⟩

/-- One more problem with a result. -/
def Tallies.count (tallies : Tallies) : Outcome → Tallies
  | .correct => tallies
  | .incorrectConclusion => { tallies with incorrect := tallies.incorrect + 1 }
  | .invalidProof _ => { tallies with invalid := tallies.invalid + 1 }
  | .unreadable _ => { tallies with unreadable := tallies.unreadable + 1 }
  | .unmatched => { tallies with unmatched := tallies.unmatched + 1 }

/-- The blocks of the problems in order. The results are counted on the way. -/
def blocks (palette : Palette) : List ProblemReport → Tallies → List String × Tallies
  | [], tallies => ([], tallies)
  | problem :: problems, tallies =>
    let (rows, tallies) := blocks palette problems (tallies.count problem.report.outcome)
    (block palette problem ++ rows, tallies)

/-- The lines of the summary. -/
def summary (report : GradingReport) (palette : Palette) (tallies : Tallies) : List String :=
  let total := report.problems.length
  ["",
    "Graded " ++ Text.count total "problem" ++ ":",
    tally palette "✓" palette.green report.passed "correct."] ++
  tallyIfAny palette "✗" palette.yellow tallies.incorrect "with the wrong conclusion." ++
  tallyIfAny palette "✗" palette.red tallies.invalid "with invalid steps." ++
  tallyIfAny palette "✗" palette.red tallies.unreadable "that could not be read." ++
  tallyIfAny palette "?" palette.gray tallies.unmatched "without a counterpart." ++
  if total ≠ 0 ∧ report.passed = total then ["", "🎉 All problems correct! 🎉"] else []

/-- The lines that are printed for a report. -/
def lines (report : GradingReport) (color : Bool) : List String :=
  let palette := Palette.choose color
  let (rows, tallies) := blocks palette report.problems .none
  rows ++ report.summary palette tallies

/-- The printed text of a report, each line closed by a line end. -/
def render (report : GradingReport) (color : Bool) : String :=
  String.join ((report.lines color).map (· ++ "\n"))

end GradingReport

end NaturalDeduction

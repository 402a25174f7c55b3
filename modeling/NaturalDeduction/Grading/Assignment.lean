import NaturalDeduction.Grading.Comparison
import NaturalDeduction.Grading.Problem

/-!
# Grading assignments

Problems of the two assignments belong together if they have the same id. Every problem of the
instructor is reported in the instructor's order, and after them the problems that only the student
has. The instructor's calculus and statement govern both proofs of a problem; what the instructor
does not declare is taken from the student.

## Main definitions

* `Assignment`, `GradingOptions`
* `gradeProblem`: the result for two proofs of a problem
* `grade`, `GradingReport`: the results for two assignments
-/

namespace NaturalDeduction

/-- The problems of an instructor or a student. -/
structure Assignment where
  problems : List Problem
deriving DecidableEq, Repr

/-- How to grade. -/
structure GradingOptions where
  /-- Whether to measure the similarity of proofs. -/
  similarity : Bool
  /-- Whether problems may be graded at the same time. -/
  parallel : Bool
deriving DecidableEq, Repr

/-- Unless told otherwise, similarity is not measured, and problems are graded at the same time. -/
def GradingOptions.default : GradingOptions := ⟨false, true⟩

/-- In which assignments a problem occurs. -/
inductive Pairing where
  | matched
  | instructorOnly
  | studentOnly
deriving DecidableEq, Repr

/-- The pairing in words. -/
def Pairing.text : Pairing → String
  | matched => "matched"
  | instructorOnly => "instructor only"
  | studentOnly => "student only"

/-- The result for a problem, by its id. -/
structure ProblemReport where
  id : String
  pairing : Pairing
  report : Report
deriving DecidableEq

/-- Whether this problem makes the grading as a whole fail. A wrong conclusion does not. -/
def ProblemReport.isFailure (problem : ProblemReport) : Bool :=
  match problem.report.outcome with
  | .invalidProof _ | .unreadable _ => true
  | .unmatched => problem.pairing = .instructorOnly
  | .correct | .incorrectConclusion => false

/-- The results for all problems. -/
structure GradingReport where
  problems : List ProblemReport
deriving DecidableEq

namespace GradingReport

/-- The number of problems with a given outcome, up to what the outcome carries. -/
def countWhere (report : GradingReport) (test : Outcome → Bool) : Nat :=
  report.problems.countP fun problem => test problem.report.outcome

/-- The number of problems that were solved. -/
def passed (report : GradingReport) : Nat := report.countWhere (· = .correct)

/-- Whether the grading as a whole fails. -/
def isFailure (report : GradingReport) : Bool := report.problems.any ProblemReport.isFailure

end GradingReport

/-! ### One problem -/

/-- A statement, with what it leaves open taken from another. -/
def Statement.orElse {α : Type} (statement other : Statement α) : Statement α :=
  ⟨statement.premises <|> other.premises, statement.goal <|> other.goal⟩

/-- The report on a problem one of whose proofs cannot be read. -/
def Report.unreadable (message diagnostic : String) : Report :=
  ⟨.unreadable message, none, diagnostic⟩

/-- The report on a problem that occurs in one assignment only. -/
def Report.unmatched (diagnostic : String) : Report := ⟨.unmatched, none, diagnostic⟩

/-- The result for a student's proof of an instructor's problem. -/
def gradeProblem (options : GradingOptions) (instructor student : Problem) : Report :=
  let calculus := instructor.calculus
  match instructor.read calculus with
  | .error error =>
    .unreadable ("the reference proof does not parse: " ++ error.message)
      (error.report instructor.id)
  | .ok (statement, reference) =>
    match student.read calculus with
    | .error error => .unreadable error.message (error.report instructor.id)
    | .ok (ownStatement, answer) =>
      let reference := VerifiedProof.of calculus statement reference
      let answer := VerifiedProof.of calculus (statement.orElse ownStatement) answer
      (VerifiedProof.assess options.similarity reference answer).report

/-! ### All problems -/

/-- A problem that is to be reported on. -/
inductive Pair where
  | matched (instructor student : Problem)
  | instructorOnly (problem : Problem)
  | studentOnly (problem : Problem)
deriving DecidableEq, Repr

/-- The report on a problem. -/
def Pair.report (options : GradingOptions) : Pair → ProblemReport
  | matched instructor student =>
    ⟨instructor.id, .matched, gradeProblem options instructor student⟩
  | instructorOnly problem =>
    ⟨problem.id, .instructorOnly, .unmatched "no answer in the student assignment"⟩
  | studentOnly problem =>
    ⟨problem.id, .studentOnly, .unmatched "not part of the instructor assignment"⟩

/-- What is to be reported on, in order. If a student answers a problem more than once, the last
answer counts. -/
def Assignment.pairs (instructor student : Assignment) : List Pair :=
  (instructor.problems.map fun problem =>
    match student.problems.findRev? (·.id = problem.id) with
    | some answer => .matched problem answer
    | none => .instructorOnly problem) ++
  (student.problems.filter fun problem => !instructor.problems.any (·.id = problem.id)).map
    .studentOnly

/-- The results for the problems of two assignments. -/
def grade (options : GradingOptions) (instructor student : Assignment) : GradingReport where
  problems :=
    let pairs := instructor.pairs student
    if options.parallel then
      (pairs.map fun pair => Task.spawn fun _ => pair.report options).map Task.get
    else pairs.map fun pair => pair.report options

end NaturalDeduction

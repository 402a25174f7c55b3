import Mathlib.Data.List.Forall2
import NaturalDeduction.CommandLine.Program
import NaturalDeduction.Proofs.Document.Layout

/-!
# Which problems are reported on, and what a report depends on

The problems of two assignments are matched by their ids. Nothing keeps an assignment from holding
several problems with one id when it has not been read from a text; then every one of the
instructor's is reported on, and it is the last of the student's that is graded.

## Why reports do not get in each other's way

Cut both assignments down to the problems with one id, and the grading of what is left
consists of the reports with that id (`filter_grade`). So what happens to the other problems,
their order included, cannot be seen in these reports; and neither can whether problems are
graded at the same time.

## Main definitions

* `Assignment.LastWith`, `Assignment.only`: the last problem with an id, all problems with an id
* `Reported`: what is reported on a problem of the instructor

## Main results

* `reports_eq`, `filter_grade`: the reports, and those with one id
* `nodup_ids_grade`: no two reports have the same id, if no two problems of an assignment have
* `grade_accounts`: all of it, and what it makes of the exit status
-/

namespace NaturalDeduction

variable {options options' : GradingOptions} {instructor student : Assignment} {id : String}

/-! ### Problems with an id -/

namespace Assignment

/-- The problem has this id, and no problem behind it has. -/
def LastWith (assignment : Assignment) (id : String) (problem : Problem) : Prop :=
  ∃ before after, assignment.problems = before ++ problem :: after ∧ problem.id = id ∧
    ∀ other ∈ after, other.id ≠ id

theorem LastWith.mem_ids {assignment : Assignment} {problem : Problem}
    (h : assignment.LastWith id problem) : id ∈ assignment.ids := by
  obtain ⟨before, after, hproblems, rfl, -⟩ := h
  exact List.mem_map_of_mem (hproblems ▸ List.mem_append_right before List.mem_cons_self)

/-- The assignment without the problems that have another id. -/
def only (assignment : Assignment) (id : String) : Assignment :=
  ⟨assignment.problems.filter (·.id = id)⟩

end Assignment

/-- What is reported on a problem of the instructor: the result for the student's last answer to it,
or that there is none. -/
inductive Reported (options : GradingOptions) (student : Assignment) (problem : Problem) :
    ProblemReport → Prop
  | matched {answer : Problem} (last : student.LastWith problem.id answer) :
    Reported options student problem ⟨problem.id, .matched, gradeProblem options problem answer⟩
  | missing (absent : ∀ answer ∈ student.problems, answer.id ≠ problem.id) :
    Reported options student problem
      ⟨problem.id, .instructorOnly, .unmatched "no answer in the student assignment"⟩

/-! ### The reports -/

/-- Grading at the same time gives the reports that grading one by one gives. -/
theorem grade_problems (options : GradingOptions) (instructor student : Assignment) :
    (grade options instructor student).problems =
      (instructor.pairs student).map (Pair.report options) := by
  rw [grade]
  cases options.parallel with
  | false => rfl
  | true => simp [Function.comp_def, Task.spawn]

/-- The pair that a problem of the instructor is part of. -/
def Assignment.pair (student : Assignment) (problem : Problem) : Pair :=
  match student.problems.findRev? (·.id = problem.id) with
  | some answer => .matched problem answer
  | none => .instructorOnly problem

theorem Assignment.pairs_eq (instructor student : Assignment) :
    instructor.pairs student = instructor.problems.map student.pair ++
      (student.problems.filter (·.id ∉ instructor.ids)).map .studentOnly := by
  have hextra :
      (student.problems.filter fun problem => !instructor.problems.any (·.id = problem.id)) =
      student.problems.filter (·.id ∉ instructor.ids) :=
    List.filter_congr fun problem _ => by
      rw [Bool.eq_iff_iff]
      simp [ids]
  rw [← hextra]
  rfl

/-- The reports on the instructor's problems, and behind them those on the others. -/
theorem reports_eq (options : GradingOptions) (instructor student : Assignment) :
    (grade options instructor student).problems =
      instructor.problems.map (Pair.report options ∘ student.pair) ++
        (student.problems.filter (·.id ∉ instructor.ids)).map
          (Pair.report options ∘ .studentOnly) := by
  rw [grade_problems, Assignment.pairs_eq, List.map_append, List.map_map, List.map_map]

theorem reported_pair (options : GradingOptions) (student : Assignment) (problem : Problem) :
    Reported options student problem ((student.pair problem).report options) := by
  rw [Assignment.pair]
  cases hfound : student.problems.findRev? (·.id = problem.id) with
  | some answer =>
    obtain ⟨before, after, hproblems, hid, hafter⟩ := findRev?_eq_some_iff.mp hfound
    exact .matched ⟨before, after, hproblems, by simpa using hid, by simpa using hafter⟩
  | none =>
    rw [List.findRev?_eq_find?_reverse, List.find?_eq_none] at hfound
    exact .missing fun answer hanswer => by simpa using hfound answer (List.mem_reverse.mpr hanswer)

@[simp] theorem id_report_pair (options : GradingOptions) (student : Assignment)
    (problem : Problem) :
    ((student.pair problem).report options).id = problem.id := by
  rw [Assignment.pair]
  split <;> rfl

/-! ### The reports with one id -/

theorem findRev?_filter {α : Type} {p q : α → Bool} (l : List α)
    (h : ∀ a, q a = true → p a = true) :
    (l.filter p).findRev? q = l.findRev? q := by
  rw [List.findRev?_eq_find?_reverse, List.findRev?_eq_find?_reverse, ← List.filter_reverse,
    List.find?_filter]
  congr 1
  funext a
  cases hq : q a <;> simp [hq, h a]

/-- The answer to a problem is found among the problems with its id. -/
theorem Assignment.pair_only (student : Assignment) {problem : Problem} (hid : problem.id = id) :
    (student.only id).pair problem = student.pair problem := by
  rw [pair, pair, only, findRev?_filter _ fun other hother => ?_]
  simpa [hid] using hother

/-- The problems with an id that only the student has are found among the problems with that id. -/
theorem filter_extra_only (instructor student : Assignment) (id : String) :
    (student.problems.filter (·.id ∉ instructor.ids)).filter (·.id = id) =
      (student.only id).problems.filter (·.id ∉ (instructor.only id).ids) := by
  rw [Assignment.only, Assignment.only, List.filter_filter, List.filter_filter]
  refine List.filter_congr fun problem _ => ?_
  by_cases hid : problem.id = id
  · simp [hid, Assignment.ids]
  · simp [hid]

/-- **The reports with an id** are those on the problems with that id. -/
theorem filter_grade (options : GradingOptions) (instructor student : Assignment) (id : String) :
    (grade options instructor student).problems.filter (·.id = id) =
      (grade options (instructor.only id) (student.only id)).problems := by
  have hasked : (instructor.problems.map (Pair.report options ∘ student.pair)).filter (·.id = id) =
      (instructor.only id).problems.map (Pair.report options ∘ (student.only id).pair) := by
    rw [List.filter_map, Assignment.only]
    simp only [Function.comp_def, id_report_pair]
    refine List.map_congr_left fun problem hproblem => ?_
    have hid : problem.id = id := by simpa using (List.mem_filter.mp hproblem).2
    exact congrArg (Pair.report options) (student.pair_only hid).symm
  have hextra : ((student.problems.filter (·.id ∉ instructor.ids)).map
        (Pair.report options ∘ .studentOnly)).filter (·.id = id) =
      ((student.only id).problems.filter (·.id ∉ (instructor.only id).ids)).map
        (Pair.report options ∘ .studentOnly) := by
    rw [List.filter_map, ← filter_extra_only]
    rfl
  rw [reports_eq, reports_eq, List.filter_append, hasked, hextra]

/-- Of the options, the result for a problem depends on whether similarity is measured. -/
theorem gradeProblem_congr (h : options'.similarity = options.similarity)
    (problem answer : Problem) :
    gradeProblem options' problem answer = gradeProblem options problem answer := by
  simp only [gradeProblem, h]

theorem report_congr (h : options'.similarity = options.similarity) :
    Pair.report options' = Pair.report options := by
  funext pair
  cases pair with
  | matched problem answer => simp only [Pair.report, gradeProblem_congr h]
  | instructorOnly problem => rfl
  | studentOnly problem => rfl

/-- The reports with an id depend on the problems with that id and on whether
similarity is measured. -/
theorem filter_grade_congr (h : options'.similarity = options.similarity)
    {instructor' student' : Assignment} (hinstructor : instructor'.only id = instructor.only id)
    (hstudent : student'.only id = student.only id) :
    (grade options' instructor' student').problems.filter (·.id = id) =
      (grade options instructor student).problems.filter (·.id = id) := by
  rw [filter_grade, filter_grade, hinstructor, hstudent, grade_problems, grade_problems,
    report_congr h]

/-! ### Distinct ids -/

theorem ids_grade (options : GradingOptions) (instructor student : Assignment) :
    (grade options instructor student).problems.map (·.id) =
      instructor.ids ++ (student.problems.filter (·.id ∉ instructor.ids)).map Problem.id := by
  rw [reports_eq, List.map_append, List.map_map, List.map_map]
  simp only [Function.comp_def, id_report_pair]
  rfl

/-- No two reports have the same id, if no two problems of an assignment have. -/
theorem nodup_ids_grade (hinstructor : instructor.ids.Nodup) (hstudent : student.ids.Nodup) :
    ((grade options instructor student).problems.map (·.id)).Nodup := by
  rw [ids_grade, List.nodup_append]
  refine ⟨hinstructor, hstudent.sublist (List.filter_sublist.map _), ?_⟩
  rintro _ hasked id hextra rfl
  obtain ⟨problem, hproblem, rfl⟩ := List.mem_map.mp hextra
  have hunasked : problem.id ∉ instructor.ids := by simpa using (List.mem_filter.mp hproblem).2
  exact hunasked hasked

/-! ### The exit status -/

/-- A report makes the grading fail if the answer is invalid, cannot be read, or is missing. -/
theorem isFailure_report_iff (pair : Pair) :
    (pair.report options).isFailure = true ↔
      (∃ faults, (pair.report options).report.outcome = .invalidProof faults) ∨
        (∃ message, (pair.report options).report.outcome = .unreadable message) ∨
        (pair.report options).pairing = .instructorOnly := by
  cases pair with
  | matched problem answer =>
    simp only [Pair.report, ProblemReport.isFailure]
    cases (gradeProblem options problem answer).outcome <;> simp
  | instructorOnly problem => simp [Pair.report, ProblemReport.isFailure, Report.unmatched]
  | studentOnly problem => simp [Pair.report, ProblemReport.isFailure, Report.unmatched]

theorem isFailure_grade_iff :
    (grade options instructor student).isFailure = true ↔
      ∃ report ∈ (grade options instructor student).problems,
        (∃ faults, report.report.outcome = .invalidProof faults) ∨
          (∃ message, report.report.outcome = .unreadable message) ∨
          report.pairing = .instructorOnly := by
  simp only [GradingReport.isFailure, List.any_eq_true, grade_problems, List.mem_map,
    exists_exists_and_eq_and, isFailure_report_iff]

/-! ### All of it -/

/-- **Pairing loses and invents nothing.** Every problem of the instructor is reported on in order,
with the result for the last answer to it or else as missing, and behind them the student's other
problems, in order. A result depends on the two problems, and the reports with an id on the problems
with that id; besides, only on whether similarity is measured. Reports have distinct ids if the
assignments were read from texts. The problems that are counted as solved are the correct ones, and
the exit status is 1 if an answer is invalid, unreadable or missing, and else 0. -/
theorem grade_accounts (options : GradingOptions) (instructor student : Assignment) :
    let reports := (grade options instructor student).problems
    let Failed := ∃ report ∈ reports, (∃ faults, report.report.outcome = .invalidProof faults) ∨
      (∃ message, report.report.outcome = .unreadable message) ∨ report.pairing = .instructorOnly
    (∃ asked extra, reports = asked ++ extra ∧
        List.Forall₂ (Reported options student) instructor.problems asked ∧
        List.Forall₂
          (fun problem report => report =
            ⟨problem.id, .studentOnly, .unmatched "not part of the instructor assignment"⟩)
          (student.problems.filter (·.id ∉ instructor.ids)) extra) ∧
      (∀ options', options'.similarity = options.similarity →
        (∀ problem answer, gradeProblem options' problem answer =
          gradeProblem options problem answer) ∧
        ∀ instructor' student' id,
          instructor'.only id = instructor.only id → student'.only id = student.only id →
          (grade options' instructor' student').problems.filter (·.id = id) =
            reports.filter (·.id = id)) ∧
      (∀ text text', Assignment.parse text = .ok instructor → Assignment.parse text' = .ok student →
        (reports.map (·.id)).Nodup) ∧
      (grade options instructor student).passed =
        (reports.filter (·.report.outcome = .correct)).length ∧
      (CommandLine.gradingStatus (grade options instructor student).isFailure = 1 ↔ Failed) ∧
      (CommandLine.gradingStatus (grade options instructor student).isFailure = 0 ↔ ¬Failed) := by
  intro reports Failed
  have hfailed : (grade options instructor student).isFailure = true ↔ Failed := isFailure_grade_iff
  refine ⟨⟨instructor.problems.map (Pair.report options ∘ student.pair),
    (student.problems.filter (·.id ∉ instructor.ids)).map (Pair.report options ∘ .studentOnly),
    reports_eq options instructor student, ?_, ?_⟩, ?_, ?_, ?_, ?_, ?_⟩
  · exact List.forall₂_map_right_iff.mpr
      (List.forall₂_same.mpr fun problem _ => reported_pair options student problem)
  · exact List.forall₂_map_right_iff.mpr (List.forall₂_same.mpr fun _ _ => rfl)
  · intro options' hsimilarity
    exact ⟨gradeProblem_congr hsimilarity, fun instructor' student' id hinstructor hstudent =>
      filter_grade_congr hsimilarity hinstructor hstudent⟩
  · intro text text' hinstructor hstudent
    exact nodup_ids_grade (Assignment.nodup_of_parse hinstructor)
      (Assignment.nodup_of_parse hstudent)
  · rw [GradingReport.passed, GradingReport.countWhere, List.countP_eq_length_filter]
  · rw [← hfailed]
    cases (grade options instructor student).isFailure <;> decide
  · rw [← hfailed]
    cases (grade options instructor student).isFailure <;> decide

/-- Two exercises. -/
def exercises : String :=
  "[[problem]]\nid = \"a\"\n[[problem]]\nid = \"b\"\n"

/-- Answers to the second exercise and to one that was not set. -/
def handIn : String :=
  "[[problem]]\nid = \"c\"\n[[problem]]\nid = \"b\"\n"

/-- The missing answer makes the grading fail, and of the rest the result for the second exercise
knows nothing. -/
theorem handIn_accounts :
    let a : Problem := ⟨"a", .propositional, none, none, []⟩
    let b : Problem := ⟨"b", .propositional, none, none, []⟩
    let c : Problem := ⟨"c", .propositional, none, none, []⟩
    let graded := grade .default ⟨[a, b]⟩ ⟨[c, b]⟩
    Assignment.parse exercises = .ok ⟨[a, b]⟩ ∧ Assignment.parse handIn = .ok ⟨[c, b]⟩ ∧
      (graded.problems.map (·.id)).Nodup ∧
      (grade ⟨false, false⟩ ⟨[b, a]⟩ ⟨[b]⟩).problems.filter (·.id = "b") =
        graded.problems.filter (·.id = "b") ∧
      CommandLine.gradingStatus graded.isFailure = 1 := by
  intro a b c graded
  have hexercises : Assignment.parse exercises = .ok ⟨[a, b]⟩ := by decide +kernel
  have hhandIn : Assignment.parse handIn = .ok ⟨[c, b]⟩ := by decide +kernel
  obtain ⟨⟨asked, extra, hreports, hasked, -⟩, hagree, hnodup, -, hstatus, -⟩ :=
    grade_accounts .default ⟨[a, b]⟩ ⟨[c, b]⟩
  refine ⟨hexercises, hhandIn, hnodup _ _ hexercises hhandIn,
    (hagree ⟨false, false⟩ rfl).2 ⟨[b, a]⟩ ⟨[b]⟩ "b" (by decide) (by decide), hstatus.mpr ?_⟩
  cases hasked with
  | @cons _ missing _ others hfirst _ =>
    have hmem : missing ∈ graded.problems := hreports ▸ List.mem_cons_self
    cases hfirst with
    | matched last => exact absurd last.mem_ids (by decide)
    | missing absent => exact ⟨_, hmem, .inr (.inr rfl)⟩

end NaturalDeduction

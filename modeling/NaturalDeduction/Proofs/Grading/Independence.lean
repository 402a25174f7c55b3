import NaturalDeduction.Grading.Assignment
import NaturalDeduction.Proofs.Formula.Rendering
import NaturalDeduction.Proofs.Grading.Reading

/-!
# What a student can change about a result

The instructor's calculus and statement govern both proofs of a problem, and a student's own
statement is only asked for what the instructor leaves open. So two answers with the same lines get
the same report, whatever id, calculus, premises and goal they carry, as long as they do not carry
something that the instructor left open.

One thing is left to the student. A statement is read even where it is not used, and a premise that
is no formula makes the answer unreadable. That is why the results below ask that what an answer
declares can be read.

## Main definitions

* `Problem.DeclaresFormulas`: the statement of a problem can be read in a calculus

## Main results

* `Problem.DeclaresFormulas.exists_statement`: reading such a statement succeeds
* `gradeProblem_eq_of_lines_eq`: the report depends on the lines of an answer
-/

namespace NaturalDeduction

variable {calculus : Calculus}

/-! ### Statements that can be read -/

/-- If every member of a list can be read, then so can the list. -/
theorem exists_readEach_eq_ok {α β ε : Type} {f : Nat → α → Except ε β} {as : List α}
    (h : ∀ a ∈ as, ∀ n, ∃ b, f n a = .ok b) (number : Nat) :
    ∃ bs, readEach f number as = .ok bs := by
  induction as generalizing number with
  | nil => exact ⟨[], rfl⟩
  | cons a as ih =>
    obtain ⟨hfirst, hothers⟩ := List.forall_mem_cons.mp h
    obtain ⟨b, hb⟩ := hfirst number
    obtain ⟨bs, hbs⟩ := ih hothers (number + 1)
    exact ⟨b :: bs, by simp only [readEach, hb, hbs]⟩

namespace Problem

/-- Whatever the problem declares as a premise or as its goal is a formula of the calculus. -/
structure DeclaresFormulas (calculus : Calculus) (problem : Problem) : Prop where
  premises : ∀ texts ∈ problem.premises, ∀ text ∈ texts, ∃ φ, Formula.parse calculus text = .ok φ
  goal : ∀ text ∈ problem.goal, ∃ φ, Formula.parse calculus text = .ok φ

variable {problem problem' : Problem}

theorem DeclaresFormulas.exists_premises (h : problem.DeclaresFormulas calculus) :
    ∃ premises, readPremises calculus problem.premises = .ok premises := by
  cases hpremises : problem.premises with
  | none => exact ⟨none, rfl⟩
  | some texts =>
    have hread (text : String) (htext : text ∈ texts) (n : Nat) :
        ∃ φ, readFormula calculus (.premise n) text = .ok φ := by
      obtain ⟨φ, hφ⟩ := h.premises texts hpremises text htext
      exact ⟨φ, readFormula_eq_ok_iff.mpr hφ⟩
    obtain ⟨φs, hφs⟩ := exists_readEach_eq_ok hread 1
    exact ⟨some φs, map_eq_ok_iff.mpr ⟨φs, hφs, rfl⟩⟩

theorem DeclaresFormulas.exists_goal (h : problem.DeclaresFormulas calculus) :
    ∃ goal, readGoal calculus problem.goal = .ok goal := by
  cases hgoal : problem.goal with
  | none => exact ⟨none, rfl⟩
  | some text =>
    obtain ⟨φ, hφ⟩ := h.goal text hgoal
    exact ⟨some φ, map_eq_ok_iff.mpr ⟨φ, readFormula_eq_ok_iff.mpr hφ, rfl⟩⟩

/-- What the problem declares can be read. -/
theorem DeclaresFormulas.exists_statement (h : problem.DeclaresFormulas calculus) :
    ∃ statement, problem.statement calculus = .ok statement := by
  obtain ⟨premises, hpremises⟩ := h.exists_premises
  obtain ⟨goal, hgoal⟩ := h.exists_goal
  exact ⟨⟨premises, goal⟩, statement_eq_ok_iff.mpr ⟨hpremises, hgoal⟩⟩

/-- A proof is read from the lines alone. -/
theorem document_congr (h : problem.lines = problem'.lines) :
    problem.document calculus = problem'.document calculus := by
  rw [document, document, h]

/-- Behind a statement that can be read, what remains of reading a problem is reading its proof. -/
theorem read_eq_map_document {statement : Statement Formula}
    (h : problem.statement calculus = .ok statement) :
    problem.read calculus = (problem.document calculus).map fun document =>
      (statement, document) := by
  rw [read, h]

/-- Statements that agree where another leaves something open complete it in the same way. -/
theorem orElse_eq_orElse {instructor : Problem} {statement own own' : Statement Formula}
    (hstatement : instructor.statement calculus = .ok statement)
    (hown : problem.statement calculus = .ok own) (hown' : problem'.statement calculus = .ok own')
    (hpremises : instructor.premises = none → problem.premises = problem'.premises)
    (hgoal : instructor.goal = none → problem.goal = problem'.goal) :
    statement.orElse own = statement.orElse own' := by
  rw [statement_eq_ok_iff] at hstatement hown hown'
  have premises : (statement.premises <|> own.premises) =
      (statement.premises <|> own'.premises) := by
    cases hdeclared : statement.premises with
    | some premises => rfl
    | none =>
      rw [hdeclared] at hstatement
      have hsame := hpremises (eq_none_of_readPremises hstatement.1)
      rw [hsame, hown'.1] at hown
      rw [Except.ok.inj hown.1]
  have goal : (statement.goal <|> own.goal) = (statement.goal <|> own'.goal) := by
    cases hdeclared : statement.goal with
    | some goal => rfl
    | none =>
      rw [hdeclared] at hstatement
      have hsame := hgoal (eq_none_of_readGoal hstatement.2)
      rw [hsame, hown'.2] at hown
      rw [Except.ok.inj hown.2]
  rw [Statement.orElse, Statement.orElse, premises, goal]

end Problem

/-! ### Two answers to one problem -/

/-- **A student cannot change a result by editing the statement.** Two answers with the same lines
get the same report if they agree on what the instructor does not declare. -/
theorem gradeProblem_eq_of_lines_eq (options : GradingOptions) {instructor answer answer' : Problem}
    (hlines : answer.lines = answer'.lines)
    (hpremises : instructor.premises = none → answer.premises = answer'.premises)
    (hgoal : instructor.goal = none → answer.goal = answer'.goal)
    (hread : answer.DeclaresFormulas instructor.calculus)
    (hread' : answer'.DeclaresFormulas instructor.calculus) :
    gradeProblem options instructor answer = gradeProblem options instructor answer' := by
  obtain ⟨own, hown⟩ := hread.exists_statement
  obtain ⟨own', hown'⟩ := hread'.exists_statement
  have hanswer := Problem.read_eq_map_document hown
  have hanswer' := Problem.read_eq_map_document hown'
  rw [← Problem.document_congr hlines] at hanswer'
  simp only [gradeProblem, hanswer, hanswer']
  cases hinstructor : instructor.read instructor.calculus with
  | error error => rfl
  | ok read =>
    obtain ⟨statement, reference⟩ := read
    have hstatement := (Problem.read_eq_ok_iff.mp hinstructor).1
    have hcompleted := Problem.orElse_eq_orElse hstatement hown hown' hpremises hgoal
    cases answer.document instructor.calculus with
    | error error => rfl
    | ok document => simp only [Except.map, hcompleted]

/-- A problem that declares what is given and what is to be shown. -/
def swapProblem : Problem where
  id := "swap"
  calculus := .propositional
  premises := some ["A ∧ B"]
  goal := some "B ∧ A"
  lines := []

/-- An answer that fails to use its premise. -/
def swapAnswer : Problem where
  id := "swap"
  calculus := .propositional
  premises := none
  goal := none
  lines := [⟨"B ∧ A", "premise", 0, []⟩]

/-- The same lines under a statement of the student's own, which would make them a proof. -/
def swapForgery : Problem where
  id := "my swap"
  calculus := .predicate
  premises := some ["B ∧ A"]
  goal := some "B ∧ A"
  lines := swapAnswer.lines

theorem swapForgery_in_vain :
    swapAnswer.DeclaresFormulas .propositional ∧ swapForgery.DeclaresFormulas .propositional ∧
      gradeProblem .default swapProblem swapAnswer =
        gradeProblem .default swapProblem swapForgery := by
  have hread : swapAnswer.DeclaresFormulas .propositional := ⟨nofun, nofun⟩
  have hparse : ∃ φ, Formula.parse .propositional "B ∧ A" = .ok φ := by
    let φ : Formula := .and (.atom "B" []) (.atom "A" [])
    have hrender : φ.render = "B ∧ A" := by decide +kernel
    rw [← hrender]
    refine ⟨φ, Formula.parse_render_eq ⟨?_, ?_⟩ fun _ => ⟨rfl, rfl⟩⟩
    · exact ⟨⟨'B', [], by decide, by decide, nofun⟩, by decide, by decide, nofun⟩
    · exact ⟨⟨'A', [], by decide, by decide, nofun⟩, by decide, by decide, nofun⟩
  have hread' : swapForgery.DeclaresFormulas .propositional := by
    constructor
    · rintro texts ⟨⟩ text htext
      obtain rfl := List.mem_singleton.mp htext
      exact hparse
    · rintro text ⟨⟩
      exact hparse
  exact ⟨hread, hread', gradeProblem_eq_of_lines_eq .default rfl nofun nofun hread hread'⟩

end NaturalDeduction

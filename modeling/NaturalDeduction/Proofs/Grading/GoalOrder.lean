import NaturalDeduction.Grading.Assignment
import NaturalDeduction.Proofs.Formula.Reordering
import NaturalDeduction.Proofs.Grading.Reading

/-!
# How an instructor writes the goal

An instructor may write the operands of `∧` and of `∨` in a goal in any order, at any depth: the
result for an answer is the same, its faults included, and so is its similarity to the reference.

## Where the goal goes

The goal is read into the statement that both proofs are verified with, and there it is compared
to the letter. But no verdict on a line depends on it (`verdicts_verify_congr`). What becomes of
it is noted in the report, beside the result. The result itself comes from comparing the
conclusion with the goal up to the order of operands, and such a comparison cannot tell two orders
of the goal apart.

## Main results

* `Problem.read_of_goal`: where the declared goal appears in what is read
* `VerifiedProof.assess_reordered`: a comparison, with the goal in two orders
* `gradeProblem_reordered`: the result for a problem
-/

namespace NaturalDeduction

variable {calculus : Calculus} {φ ψ : Formula}

/-! ### Reading a problem with a goal -/

/-- A problem whose goal is a formula declares its premises and this formula. -/
theorem Problem.read_of_goal {problem : Problem} {text : String} (hgoal : problem.goal = some text)
    (hφ : Formula.parse calculus text = .ok φ) :
    problem.read calculus = (readPremises calculus problem.premises).bind fun premises =>
      (problem.document calculus).map fun document => (⟨premises, some φ⟩, document) := by
  have hread : readGoal calculus problem.goal = .ok (some φ) := by
    rw [hgoal]
    exact map_eq_ok_iff.mpr ⟨φ, readFormula_eq_ok_iff.mpr hφ, rfl⟩
  rw [read, statement, hread]
  cases readPremises calculus problem.premises <;> rfl

/-! ### Comparing proofs -/

/-- The verdicts on lines do not depend on the goal. -/
theorem verdicts_verify_congr (premises : Option (List Formula)) (goal goal' : Option Formula)
    (document : Document Formula) :
    (verify calculus ⟨premises, goal⟩ document).verdicts =
      (verify calculus ⟨premises, goal'⟩ document).verdicts := rfl

/-- A conclusion meets a goal or does not, in whatever order the goal is written. -/
theorem judgeConclusion_reordered (h : φ.reorders ψ = true) (conclusion : Option Formula) :
    (judgeConclusion (some φ) conclusion).1 = (judgeConclusion (some ψ) conclusion).1 := by
  cases conclusion with
  | none => rfl
  | some χ =>
    rw [judgeConclusion, judgeConclusion, Formula.reorders_eq_of_reorders h χ]
    split <;> rfl

namespace VerifiedProof

theorem faults_of_congr (premises : Option (List Formula)) (goal goal' : Option Formula)
    (document : Document Formula) :
    (VerifiedProof.of calculus ⟨premises, goal⟩ document).faults =
      (VerifiedProof.of calculus ⟨premises, goal'⟩ document).faults := by
  simp only [faults, VerifiedProof.of, Verification.invalidLines,
    verdicts_verify_congr premises goal goal']

theorem validLines_of_congr (premises : Option (List Formula)) (goal goal' : Option Formula)
    (document : Document Formula) :
    (VerifiedProof.of calculus ⟨premises, goal⟩ document).validLines =
      (VerifiedProof.of calculus ⟨premises, goal'⟩ document).validLines := by
  have hverdict (n : Nat) : (verify calculus ⟨premises, goal⟩ document).verdict? n =
      (verify calculus ⟨premises, goal'⟩ document).verdict? n := by
    cases n with
    | zero => rfl
    | succ n =>
      rw [Verification.verdict?, Verification.verdict?, verdicts_verify_congr premises goal goal']
  simp only [validLines, VerifiedProof.of, hverdict]

/-- A proof is judged and measured alike against two orders of one goal. -/
theorem assess_reordered (h : φ.reorders ψ = true) (withSimilarity : Bool)
    (premises ownPremises : Option (List Formula)) (reference answer : Document Formula) :
    let compare (goal : Formula) : Comparison := assess withSimilarity
      (.of calculus ⟨premises, some goal⟩ reference) (.of calculus ⟨ownPremises, some goal⟩ answer)
    (compare φ).outcome = (compare ψ).outcome ∧
    (compare φ).similarity = (compare ψ).similarity := by
  intro compare
  constructor
  · have hconclusion :=
      judgeConclusion_reordered h (answer.conclusion?.map (·.formula))
    simp only [compare, assess, judgeProof, faults_of_congr ownPremises (some φ) (some ψ)]
    split
    · exact hconclusion
    · rfl
  · simp only [compare, assess, similarity, matchedLines,
      validLines_of_congr ownPremises (some φ) (some ψ)]
    rfl

end VerifiedProof

/-! ### Grading -/

/-- **The order of operands in the goal does not matter.** An instructor who writes a goal in
another order gets the same results, with the same faults, and the same similarities. -/
theorem gradeProblem_reordered (options : GradingOptions) (instructor student : Problem)
    {text text' : String} (hφ : Formula.parse instructor.calculus text = .ok φ)
    (hψ : Formula.parse instructor.calculus text' = .ok ψ) (h : φ.reorders ψ = true) :
    let report := gradeProblem options { instructor with goal := some text } student
    let report' := gradeProblem options { instructor with goal := some text' } student
    report.outcome = report'.outcome ∧ report.similarity = report'.similarity := by
  intro report report'
  -- the goals themselves are read; whatever else can fail, fails for both
  have hread : ({ instructor with goal := some text } : Problem).read instructor.calculus =
      (Problem.readPremises instructor.calculus instructor.premises).bind fun premises =>
        (instructor.document instructor.calculus).map fun document =>
          (⟨premises, some φ⟩, document) :=
    Problem.read_of_goal rfl hφ
  have hread' : ({ instructor with goal := some text' } : Problem).read instructor.calculus =
      (Problem.readPremises instructor.calculus instructor.premises).bind fun premises =>
        (instructor.document instructor.calculus).map fun document =>
          (⟨premises, some ψ⟩, document) :=
    Problem.read_of_goal rfl hψ
  simp only [report, report', gradeProblem, hread, hread']
  cases Problem.readPremises instructor.calculus instructor.premises with
  | error error => exact ⟨rfl, rfl⟩
  | ok premises =>
    cases instructor.document instructor.calculus with
    | error error => exact ⟨rfl, rfl⟩
    | ok reference =>
      cases student.read instructor.calculus with
      | error error => exact ⟨rfl, rfl⟩
      | ok read =>
        obtain ⟨own, answer⟩ := read
        obtain ⟨houtcome, hsimilarity⟩ :=
          VerifiedProof.assess_reordered h options.similarity premises
          (premises <|> own.premises) reference answer
        exact ⟨houtcome, congrArg (Option.map Binary64.ofRat) hsimilarity⟩

/-- A problem whose reference is left unfinished. -/
def weakeningProblem : Problem where
  id := "weakening"
  calculus := .propositional
  premises := some ["R & P"]
  goal := none
  lines := [⟨"R & P", "premise", 0, []⟩, ⟨"P", "and-elim", 0, ["1"]⟩]

/-- An answer that concludes the goal in an order of its own. -/
def weakeningAnswer : Problem where
  id := "weakening"
  calculus := .propositional
  premises := none
  goal := none
  lines :=
    [⟨"R & P", "premise", 0, []⟩, ⟨"R", "and-elim", 0, ["1"]⟩, ⟨"P", "and-elim", 0, ["1"]⟩,
      ⟨"P | Q", "or-intro", 0, ["3"]⟩, ⟨"R & (P | Q)", "and-intro", 0, ["2", "4"]⟩]

/-- With operands exchanged at two levels of the goal, the answer is as correct as before. -/
theorem weakening_reordered :
    let p : Formula := .atom "P" []
    let q : Formula := .atom "Q" []
    let r : Formula := .atom "R" []
    let graded (text : String) :=
      gradeProblem ⟨true, false⟩ { weakeningProblem with goal := some text } weakeningAnswer
    Formula.parse .propositional "(Q | P) & R" = .ok (.and (.or q p) r) ∧
      Formula.parse .propositional "R & (P | Q)" = .ok (.and r (.or p q)) ∧
      (Formula.and (.or q p) r).reorders (.and r (.or p q)) = true ∧
      (graded "R & (P | Q)").outcome = .correct ∧ (graded "(Q | P) & R").outcome = .correct ∧
      (graded "(Q | P) & R").similarity = (graded "R & (P | Q)").similarity := by
  intro p q r graded
  have hφ : Formula.parse .propositional "(Q | P) & R" = .ok (.and (.or q p) r) := by decide +kernel
  have hψ : Formula.parse .propositional "R & (P | Q)" = .ok (.and r (.or p q)) := by decide +kernel
  have hreorders : (Formula.and (.or q p) r).reorders (.and r (.or p q)) = true := by decide
  have hcorrect : (gradeProblem ⟨true, false⟩ { weakeningProblem with goal := some "R & (P | Q)" }
      weakeningAnswer).outcome = .correct := by decide +kernel
  obtain ⟨houtcome, hsimilarity⟩ :=
    gradeProblem_reordered ⟨true, false⟩ weakeningProblem weakeningAnswer hφ hψ hreorders
  exact ⟨hφ, hψ, hreorders, hcorrect, houtcome.trans hcorrect, hsimilarity⟩

end NaturalDeduction

import Mathlib.Algebra.Field.Rat
import NaturalDeduction.Proofs.Grading.Outcome
import NaturalDeduction.Proofs.Grading.Pairing

/-!
# An assignment graded against itself

An instructor who hands in the reference solutions gets full marks. Every problem is matched with
itself, and where the reference is valid and a goal is declared, the result is that the proof is
correct, without any reservation, and similarity is 1.

## The two ways to the same proof

A problem that is graded against itself is read twice, and its proof is verified twice: as a
reference, with its own statement, and as an answer, with its statement completed by itself. A
statement has nothing to add to itself (`Statement.orElse_self`), so both are one verified proof,
and what remains is what comparing a valid proof with itself comes to (`VerifiedProof.assess_self`).
The conclusion is then the goal to the letter, which is more than a result asks for and is why
nothing is noted on the order of operands.

## Main definitions

* `VerifiedProof.Reproduces`: a proof has a valid line for a line of another

## Main results

* `grade_problems_self`: the pairs
* `VerifiedProof.similarity_eq_one_iff`: similarity is 1 if every line is reproduced, and only then
* `VerifiedProof.assess_self`: a valid proof compared with itself
* `grade_self`: an assignment graded against itself
-/

namespace NaturalDeduction

variable {calculus : Calculus}

/-! ### Pairs -/

/-- If no two problems have the same id, the answer to a problem that its own assignment gives
is the problem. -/
theorem Assignment.pair_self {assignment : Assignment} (hids : assignment.ids.Nodup)
    {problem : Problem} (hproblem : problem ∈ assignment.problems) :
    assignment.pair problem = .matched problem problem := by
  obtain ⟨before, after, hproblems⟩ := List.append_of_mem hproblem
  have hafter : ∀ other ∈ after, other.id ≠ problem.id := by
    rw [ids, hproblems, List.map_append, List.map_cons] at hids
    intro other hother heq
    exact (List.nodup_cons.mp (List.nodup_append.mp hids).2.1).1
      (heq ▸ List.mem_map_of_mem hother)
  have hfound : assignment.problems.findRev? (·.id = problem.id) = some problem :=
    findRev?_eq_some_iff.mpr ⟨before, after, hproblems, by simp, by simpa using hafter⟩
  rw [pair, hfound]

/-- Every problem is matched with itself, and none is left over. -/
theorem grade_problems_self (options : GradingOptions) {assignment : Assignment}
    (hids : assignment.ids.Nodup) :
    (grade options assignment assignment).problems = assignment.problems.map fun problem =>
      ⟨problem.id, .matched, gradeProblem options problem problem⟩ := by
  have hextra : assignment.problems.filter (·.id ∉ assignment.ids) = [] := by
    rw [List.filter_eq_nil_iff]
    intro problem hproblem
    have hid : problem.id ∈ assignment.ids := List.mem_map_of_mem hproblem
    simp [hid]
  rw [reports_eq, hextra, List.map_nil, List.append_nil]
  refine List.map_congr_left fun problem hproblem => ?_
  rw [Function.comp_apply, Assignment.pair_self hids hproblem]
  rfl

/-! ### Valid proofs -/

theorem Verification.isValid_iff {verification : Verification} :
    verification.isValid = true ↔
      verification.goal ≠ .unreached ∧ ∀ verdict ∈ verification.verdicts, verdict = .valid := by
  simp [isValid, Verdict.isValid_iff]

theorem Verification.mem_of_verdict? {verification : Verification} {n : Nat} {verdict : Verdict}
    (h : verification.verdict? n = some verdict) : verdict ∈ verification.verdicts := by
  cases n with
  | zero => cases h
  | succ n => exact List.mem_of_getElem? h

/-- A goal that a proof does not miss is what the proof concludes. -/
theorem conclusion?_of_goalStatus {goal : Formula} {document : Document Formula}
    (h : goalStatus (some goal) document ≠ .unreached) :
    document.conclusion?.map (·.formula) = some goal := by
  by_contra hne
  exact h (if_neg hne)

namespace VerifiedProof

variable {statement : Statement Formula} {document : Document Formula}

/-- A valid proof has no faults. -/
theorem faults_eq_nil {proof : VerifiedProof Formula} (hvalid : proof.verification.isValid = true) :
    proof.faults = [] := by
  rw [faults, List.filterMap_eq_nil_iff]
  rintro ⟨n, verdict⟩ hinvalid
  obtain ⟨hverdict, hne⟩ := Verification.mem_invalidLines.mp hinvalid
  exact absurd
    ((Verification.isValid_iff.mp hvalid).2 _ (Verification.mem_of_verdict? hverdict)) hne

/-- All lines of a valid proof stand. -/
theorem validLines_eq (h : LaidOut 1 .root document.lines)
    (hvalid : (verify calculus statement document).isValid = true) :
    (VerifiedProof.of calculus statement document).validLines = document.lines := by
  refine List.filter_eq_self.mpr fun line hline => ?_
  obtain ⟨verdict, hverdict⟩ := @exists_verdict?_verify calculus _ statement h line hline
  obtain rfl := (Verification.isValid_iff.mp hvalid).2 _ (Verification.mem_of_verdict? hverdict)
  simp only [VerifiedProof.of, hverdict]
  rfl

/-! ### Similarity -/

/-- The proof has a valid line with the rule of the given one and its formula, up to the order of
operands. -/
def Reproduces (proof : VerifiedProof Formula) (wanted : Line Formula) : Prop :=
  ∃ line ∈ proof.validLines, line.rule = wanted.rule ∧ line.formula.reorders wanted.formula = true

/-- **Similarity is 1** exactly if every line of the reference is reproduced. -/
theorem similarity_eq_one_iff {reference proof : VerifiedProof Formula} :
    similarity reference proof = 1 ↔
      ∀ wanted ∈ reference.document.lines, proof.Reproduces wanted := by
  rw [similarity]
  split
  · next hempty => simp [List.isEmpty_iff.mp hempty]
  · next hlines =>
    have hlength : (reference.document.lines.length : ℚ) ≠ 0 := by simpa using hlines
    rw [Rat.mkRat_eq_div, Int.cast_natCast, div_eq_one_iff_eq hlength, Nat.cast_inj, matchedLines,
      List.countP_eq_length]
    simp [Reproduces]

/-- A proof reproduces those of its lines that stand. -/
theorem reproduces_of_mem {proof : VerifiedProof Formula} {line : Line Formula}
    (h : line ∈ proof.validLines) :
    proof.Reproduces line :=
  ⟨line, h, rfl, Formula.reorders_refl _⟩

/-- **A valid proof compared with itself** is correct, and all there is to note is
what it proves. -/
theorem assess_self {goal : Formula} (h : LaidOut 1 .root document.lines)
    (hvalid : (verify calculus statement document).isValid = true)
    (hgoal : statement.goal = some goal) (withSimilarity : Bool) :
    let proof := VerifiedProof.of calculus statement document
    assess withSimilarity proof proof =
      ⟨.correct, if withSimilarity then some 1 else none, [.proves goal]⟩ := by
  intro proof
  have hreached : goalStatus statement.goal document ≠ .unreached :=
    (Verification.isValid_iff.mp hvalid).1
  have hstatus : proof.verification.goal ≠ .unreached := hreached
  rw [hgoal] at hreached
  have hconclusion := conclusion?_of_goalStatus hreached
  have hjudged : judgeProof proof proof = (.correct, .proves goal) := by
    rw [judgeProof, faults_eq_nil hvalid]
    simp [proof, VerifiedProof.of, hgoal, hconclusion, judgeConclusion, Formula.reorders_refl]
  have hsimilarity : similarity proof proof = 1 := by
    refine similarity_eq_one_iff.mpr fun line hline => reproduces_of_mem ?_
    rwa [validLines_eq h hvalid]
  rw [assess, hjudged, hsimilarity]
  simp [remarks, hstatus, show proof.verification.isValid = true from hvalid]

end VerifiedProof

/-! ### Grading -/

/-- A statement has nothing to add to itself. -/
theorem Statement.orElse_self {α : Type} (statement : Statement α) :
    statement.orElse statement = statement := by
  obtain ⟨premises, goal⟩ := statement
  cases premises <;> cases goal <;> rfl

/-- A problem that can be read is compared with itself. -/
theorem gradeProblem_self (options : GradingOptions) {problem : Problem}
    {statement : Statement Formula} {document : Document Formula}
    (h : problem.Reads problem.calculus statement document) :
    let proof := VerifiedProof.of problem.calculus statement document
    gradeProblem options problem problem =
      (VerifiedProof.assess options.similarity proof proof).report := by
  intro proof
  rw [gradeProblem_of_reads h h, Statement.orElse_self]

theorem value?_ofRat_one : (Binary64.ofRat 1).value? = some 1 := by decide +kernel

/-- **An assignment graded against itself.** If no two problems have the same id, every problem is
matched with itself. A problem that can be read, declares a goal and has a proof that is valid for
its own statement is solved: the only note is on what it proves, neither that the reference is
invalid nor that the order of operands differs; every line is reproduced; and similarity, if it is
measured, is 1. -/
theorem grade_self (options : GradingOptions) {assignment : Assignment}
    (hids : assignment.ids.Nodup) :
    ((grade options assignment assignment).problems = assignment.problems.map fun problem =>
        ⟨problem.id, .matched, gradeProblem options problem problem⟩) ∧
      ∀ problem ∈ assignment.problems, ∀ statement document,
        problem.Reads problem.calculus statement document → problem.goal ≠ none →
        (verify problem.calculus statement document).isValid = true →
        let proof := VerifiedProof.of problem.calculus statement document
        let comparison := VerifiedProof.assess options.similarity proof proof
        let report := gradeProblem options problem problem
        report = comparison.report ∧ report.outcome = .correct ∧
          (∃ goal, statement.goal = some goal ∧ comparison.notes = [.proves goal] ∧
            report.diagnostic = "proves " ++ goal.render) ∧
          (∀ line ∈ document.lines, proof.Reproduces line) ∧
          (options.similarity = true →
            ∃ score, report.similarity = some score ∧ score.value? = some 1) := by
  refine ⟨grade_problems_self options hids, ?_⟩
  intro problem _ statement document hreads hgoal hvalid proof comparison report
  obtain ⟨goal, hstated⟩ : ∃ goal, statement.goal = some goal := by
    have hread := (Problem.statement_eq_ok_iff.mp hreads.1).2
    refine Option.ne_none_iff_exists'.mp fun hnone => ?_
    rw [hnone] at hread
    exact hgoal (Problem.eq_none_of_readGoal hread)
  have hreport : report = comparison.report := gradeProblem_self options hreads
  have hcomparison : comparison =
      ⟨.correct, if options.similarity then some 1 else none, [.proves goal]⟩ :=
    VerifiedProof.assess_self hreads.laidOut hvalid hstated options.similarity
  refine ⟨hreport, ?_, ⟨goal, hstated, ?_, ?_⟩, ?_, ?_⟩
  · rw [hreport, hcomparison]
    rfl
  · rw [hcomparison]
  · rw [hreport, hcomparison]
    rfl
  · intro line hline
    refine VerifiedProof.reproduces_of_mem ?_
    rwa [VerifiedProof.validLines_eq hreads.laidOut hvalid]
  · intro hmeasured
    refine ⟨.ofRat 1, ?_, value?_ofRat_one⟩
    rw [hreport, hcomparison, hmeasured]
    rfl

/-- A reference solution with a subproof. -/
def identityProblem : Problem where
  id := "identity"
  calculus := .propositional
  premises := some []
  goal := some "P -> P"
  lines :=
    [⟨"P", "assume", 1, []⟩, ⟨"P", "reit", 1, ["1"]⟩, ⟨"P -> P", "implies-intro", 0, ["1-2"]⟩]

/-- A problem whose reference solution has not been written yet. -/
def unfinishedProblem : Problem where
  id := "unfinished"
  calculus := .predicate
  premises := none
  goal := some "P"
  lines := []

/-- The finished problem is solved, whatever is missing in the other. -/
theorem identity_graded_against_itself :
    let assignment : Assignment := ⟨[unfinishedProblem, identityProblem]⟩
    let p : Formula := .atom "P" []
    let statement : Statement Formula := ⟨some [], some (.implies p p)⟩
    let document : Document Formula :=
      ⟨[⟨⟨p, .assumption, [], 1⟩, 1, [1]⟩, ⟨⟨p, .reiteration, [.line 1], 1⟩, 2, [1]⟩,
        ⟨⟨.implies p p, .impliesIntro, [.subproof 1 2], 0⟩, 3, []⟩]⟩
    let report := gradeProblem ⟨true, true⟩ identityProblem identityProblem
    assignment.ids.Nodup ∧ identityProblem.Reads .propositional statement document ∧
      (verify .propositional statement document).isValid = true ∧
      (grade ⟨true, true⟩ assignment assignment).problems.length = 2 ∧
      report.outcome = .correct ∧ report.diagnostic = "proves P → P" ∧
      ∃ score, report.similarity = some score ∧ score.value? = some 1 := by
  intro assignment p statement document report
  have hids : assignment.ids.Nodup := by decide
  have hreads : identityProblem.Reads .propositional statement document := by
    constructor <;> decide +kernel
  have hvalid : (verify .propositional statement document).isValid = true := by decide
  obtain ⟨hproblems, hsolved⟩ := grade_self ⟨true, true⟩ hids
  have hmem : identityProblem ∈ assignment.problems := by simp [assignment]
  obtain ⟨-, hcorrect, ⟨goal, hstated, -, hdiagnostic⟩, -, hsimilarity⟩ :=
    hsolved identityProblem hmem _ _ hreads (Option.some_ne_none _) hvalid
  obtain rfl : .implies p p = goal := Option.some.inj hstated
  have hrender : (Formula.implies p p).render = "P → P" := by decide +kernel
  rw [hrender] at hdiagnostic
  refine ⟨hids, hreads, hvalid, ?_, hcorrect, hdiagnostic, hsimilarity rfl⟩
  rw [hproblems]
  rfl

end NaturalDeduction

import NaturalDeduction.Grading.Assignment

/-!
# The note on the order of operands

A comparison notes that the conclusion matches the goal only up to the order of operands. The result
says which goal that is: the one of the reference, or the proof's own if the reference declares
none. The note goes by what became of the proof's own goal when it was verified, and that may have
been another one.

## When the note is right

Only a correct result is noted on. There the note is right if the conclusion misses the proof's own
goal just when it misses the goal that it was judged by (`operandOrder_mem_iff`), which is so
whenever the two goals are one. Grading sees to that, since it verifies an answer with the statement
of the problem. Compared as they are, two proofs with goals of their own can be noted on wrongly in
either way (`operandOrder_misplaced`).

## Main definitions

* `VerifiedProof.goalFor`: the goal that a proof is judged by
* `VerifiedProof.conclusion?`: what a proof concludes

## Main results

* `VerifiedProof.operandOrder_mem_iff`: when the note is made, and when it is right
-/

namespace NaturalDeduction

namespace VerifiedProof

/-- The goal that a proof is judged by. -/
def goalFor (reference proof : VerifiedProof Formula) : Option Formula :=
  reference.statement.goal <|> proof.statement.goal

/-- The formula that a proof concludes. -/
def conclusion? (proof : VerifiedProof Formula) : Option Formula :=
  proof.document.conclusion?.map (·.formula)

variable {calculus : Calculus} {statement : Statement Formula} {document : Document Formula}
  {reference proof : VerifiedProof Formula} {withSimilarity : Bool}

/-- Nothing else that is said about a proof is this note. -/
theorem judgeProof_ne_operandOrder (reference proof : VerifiedProof Formula) :
    (judgeProof reference proof).2 ≠ .operandOrder := by
  rw [judgeProof]
  split
  · unfold judgeConclusion
    repeat' split
    all_goals exact nofun
  · exact nofun

/-- The note is made on correct proofs that miss their own goals. -/
theorem operandOrder_mem_notes_iff :
    Note.operandOrder ∈ (assess withSimilarity reference proof).notes ↔
    (assess withSimilarity reference proof).outcome = .correct ∧
    proof.verification.goal = .unreached := by
  have hnote := (judgeProof_ne_operandOrder reference proof).symm
  rw [assess]
  simp [remarks, hnote]

/-- A goal is missed if it is declared and the conclusion is another formula. -/
theorem goalStatus_eq_unreached_iff {goal : Option Formula} {document : Document Formula} :
    goalStatus goal document = .unreached ↔
      ∃ own, goal = some own ∧ document.conclusion?.map (·.formula) ≠ some own := by
  cases goal with
  | none => simp [goalStatus]
  | some own => simp [goalStatus]

/-- A correct proof concludes something, and it is judged by some goal. -/
theorem exists_of_judgeProof_eq_correct (h : (judgeProof reference proof).1 = .correct) :
    ∃ goal conclusion, goalFor reference proof = some goal ∧ proof.conclusion? = some conclusion ∧
      goal.reorders conclusion = true := by
  rw [judgeProof] at h
  split at h
  · rw [goalFor, conclusion?]
    unfold judgeConclusion at h
    split at h
    · cases h
    · cases h
    · next goal conclusion hgoal hconclusion =>
      split at h
      · next hreorders => exact ⟨goal, conclusion, hgoal, hconclusion, hreorders⟩
      · cases h
  · cases h

/-- The note is right if the goal that a proof is judged by is the one that it was verified with. -/
theorem operandOrder_mem_iff_of_goal_eq
    (hgoal : statement.goal = goalFor reference (of calculus statement document)) :
    let proof := of calculus statement document
    let comparison := assess withSimilarity reference proof
    .operandOrder ∈ comparison.notes ↔
      comparison.outcome = .correct ∧ proof.conclusion? ≠ goalFor reference proof := by
  intro proof comparison
  rw [operandOrder_mem_notes_iff]
  refine and_congr_right fun hcorrect => ?_
  obtain ⟨goal, conclusion, hjudged, hconclusion, -⟩ := exists_of_judgeProof_eq_correct hcorrect
  have hstatus : proof.verification.goal = .unreached ↔
      ∃ own, statement.goal = some own ∧ proof.conclusion? ≠ some own := goalStatus_eq_unreached_iff
  rw [hstatus, hgoal, hjudged]
  simp

/-- **When the order of operands is noted.** The note is made if the proof is correct and misses the
goal that it declares itself. So it is right just when a correct proof that misses this goal is one
that misses the goal it is judged by. Grading makes it right: it completes the statement of the
reference from that of the proof, and verifies the proof with what comes out. -/
theorem operandOrder_mem_iff (calculus : Calculus) (withSimilarity : Bool)
    (reference : VerifiedProof Formula) (statement : Statement Formula)
    (document : Document Formula) :
    let proof := of calculus statement document
    let comparison := assess withSimilarity reference proof
    let completed := of calculus (reference.statement.orElse statement) document
    let graded := assess withSimilarity reference completed
    let MissesOwn := ∃ own, statement.goal = some own ∧ proof.conclusion? ≠ some own
    (.operandOrder ∈ comparison.notes ↔ comparison.outcome = .correct ∧ MissesOwn) ∧
      ((.operandOrder ∈ comparison.notes ↔
          comparison.outcome = .correct ∧ proof.conclusion? ≠ goalFor reference proof) ↔
        (comparison.outcome = .correct →
          (MissesOwn ↔ proof.conclusion? ≠ goalFor reference proof))) ∧
      (.operandOrder ∈ graded.notes ↔
        graded.outcome = .correct ∧ completed.conclusion? ≠ goalFor reference completed) := by
  intro proof comparison completed graded MissesOwn
  have hmade : .operandOrder ∈ comparison.notes ↔ comparison.outcome = .correct ∧ MissesOwn :=
    operandOrder_mem_notes_iff.trans (and_congr_right' goalStatus_eq_unreached_iff)
  refine ⟨hmade, ?_, operandOrder_mem_iff_of_goal_eq ?_⟩
  · rw [hmade, and_congr_right_iff]
  · show (reference.statement.goal <|> statement.goal) =
      (reference.statement.goal <|> reference.statement.goal <|> statement.goal)
    cases reference.statement.goal <;> rfl

/-- Two proofs of the premise `P`, of which the second declares the goal `Q`. It is correct and
concludes the very goal that it is judged by, and yet the order of operands is noted. -/
theorem operandOrder_misplaced :
    let p : Formula := .atom "P" []
    let q : Formula := .atom "Q" []
    let document : Document Formula := ⟨[⟨⟨p, .premise, [], 0⟩, 1, []⟩]⟩
    let reference := of .propositional ⟨none, some p⟩ document
    let proof := of .propositional ⟨none, some q⟩ document
    let comparison := assess false reference proof
    Document.build [⟨p, .premise, [], 0⟩] = .ok document ∧ reference.verification.isValid = true ∧
      comparison.outcome = .correct ∧ goalFor reference proof = some p ∧
      proof.conclusion? = some p ∧
      comparison.report.diagnostic =
        "proves P\nthe conclusion matches the goal only up to operand order" ∧
      ¬(.operandOrder ∈ comparison.notes ↔
        comparison.outcome = .correct ∧ proof.conclusion? ≠ goalFor reference proof) := by
  intro p q document reference proof comparison
  have hnotes : comparison.notes = [.proves p, .operandOrder] := by decide
  refine ⟨rfl, by decide, by decide, rfl, rfl, by decide +kernel, fun h => ?_⟩
  exact (h.mp (by simp [hnotes])).2 rfl

end VerifiedProof

end NaturalDeduction

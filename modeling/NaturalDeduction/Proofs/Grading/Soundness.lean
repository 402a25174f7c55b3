import NaturalDeduction.Grading.Assignment
import NaturalDeduction.Proofs.Grading.Outcome
import NaturalDeduction.Proofs.Verification.Soundness

/-!
# Grading gives no undeserved pass

If a student's proof is graded as correct, then the goal follows from what the student may assume:
the premises of the instructor, else those that the student declares, else the formulas of the
student's own premise lines.

## Implementation notes

A proof without faults is one whose lines are all valid, so soundness applies to the set of all
lines. What the proof concludes is its last line outside every subproof, which no assumption is open
at, and it may differ from the goal in the order of operands.

## Main definitions

* `Problem.hypotheses`: what the student may assume, as formulas

## Main results

* `gradeProblem_sound`: soundness of grading
-/

universe u

namespace NaturalDeduction

/-! ### Proofs without faults -/

section Faults

variable {calculus : Calculus} {statement : Statement Formula} {document : Document Formula}

/-- A proof has no faults only if all of its lines are valid. -/
theorem validOn_of_faults_eq_nil (h : LaidOut 1 .root document.lines)
    (hfaults : (VerifiedProof.of calculus statement document).faults = []) :
    document.ValidOn calculus statement Set.univ := by
  intro line hline _
  obtain ⟨before, rest, hl⟩ := List.append_of_mem hline
  have hverdict : (verify calculus statement document).verdict? line.number = some _ :=
    verdict?_verify h hl
  rw [hverdict, Option.some_inj]
  by_contra hne
  -- the line would be found, and so would be a fault
  have hinvalid := Verification.mem_invalidLines.mpr ⟨hverdict, hne⟩
  have hfault := List.filterMap_eq_nil_iff.mp hfaults _ hinvalid
  have hfound := (Document.line?_eq_some_iff h).mpr ⟨hline, rfl⟩
  simp [VerifiedProof.of, hfound] at hfault

/-- What a proof concludes is stated outside every subproof. -/
theorem scope_of_conclusion? (h : LaidOut 1 .root document.lines) {line : Line Formula}
    (hline : document.conclusion? = some line) : line ∈ document.lines ∧ line.scope = .root := by
  obtain ⟨before, after, hl, hdepth, -⟩ := Document.conclusion?_eq_some_iff.mp hline
  have hmem : line ∈ document.lines := by simp [hl]
  exact ⟨hmem, List.length_eq_zero_iff.mp ((h.length_scope hmem).trans hdepth)⟩

/-- **Soundness of faultless proofs.** The conclusion follows from the premises. -/
theorem entails_of_faults_eq_nil (h : LaidOut 1 .root document.lines)
    (hfaults : (VerifiedProof.of calculus statement document).faults = []) {line : Line Formula}
    (hline : document.conclusion? = some line) :
    Entails.{u} (document.premisesIn Set.univ) line.formula := by
  obtain ⟨hmem, hscope⟩ := scope_of_conclusion? h hline
  have hclosed : document.ClosedUnderCitation Set.univ := by
    intro _ _ _ citation _
    cases citation <;> simp [Citation.Within]
  have hentails := Document.entails_of_validOn h hclosed (validOn_of_faults_eq_nil h hfaults) hmem
    (Set.mem_univ _)
  rw [hscope] at hentails
  intro D M v hv
  refine hentails D M v fun γ hγ => hv γ (hγ.resolve_right ?_)
  rintro ⟨opening, -, -, hopen, -⟩
  cases hopen

end Faults

/-! ### What the student may assume -/

namespace Problem

/-- The formulas of the lines that are marked as premises. -/
def ownPremises (calculus : Calculus) (problem : Problem) : Set Formula :=
  {φ | ∃ entry ∈ problem.lines,
    Rule.ofName? entry.rule = some .premise ∧ Formula.parse calculus entry.formula = .ok φ}

/-- What a student may assume: the declared premises of the instructor, else those of the student,
else the student's premise lines. All of them are read in the calculus of the instructor. -/
def hypotheses (instructor student : Problem) : Set Formula :=
  match instructor.premises <|> student.premises with
  | some texts => {φ | ∃ text ∈ texts, Formula.parse instructor.calculus text = .ok φ}
  | none => student.ownPremises instructor.calculus

end Problem

/-! ### Grading -/

section Grading

variable {calculus : Calculus} {instructor student : Problem}

/-- A proof that is judged correct has no faults and concludes the goal, up to the
order of operands. -/
theorem of_judgeProof_eq_correct {reference proof : VerifiedProof Formula}
    (h : (judgeProof reference proof).1 = .correct) :
    proof.faults = [] ∧ ∃ goal line,
      (reference.statement.goal <|> proof.statement.goal) = some goal ∧
      proof.document.conclusion? = some line ∧ goal.reorders line.formula = true := by
  rw [judgeProof] at h
  split at h
  · next hfaults =>
    obtain ⟨goal, line, hgoal, hconclusion, hreorders⟩ := judgeConclusion_eq_correct_iff.mp h
    exact ⟨hfaults, goal, line, hgoal, Document.conclusion?_eq_some_iff.mpr hconclusion, hreorders⟩
  · cases h

/-- The goal that counts comes from the text that declares it. -/
theorem exists_of_goal {statement own : Statement Formula} {goal : Formula}
    (hinstructor : instructor.statement calculus = .ok statement)
    (hstudent : student.statement calculus = .ok own)
    (hgoal : (statement.goal <|> (statement.orElse own).goal) = some goal) :
    ∃ text, (instructor.goal <|> student.goal) = some text ∧
      Formula.parse calculus text = .ok goal := by
  have hread := (Problem.statement_eq_ok_iff.mp hinstructor).2
  cases hs : statement.goal with
  | some own =>
    obtain rfl : own = goal := by simpa [hs] using hgoal
    rw [hs] at hread
    obtain ⟨text, htext, hparse⟩ := Problem.exists_of_readGoal hread
    exact ⟨text, by rw [htext]; rfl, hparse⟩
  | none =>
    have hown : own.goal = some goal := by simpa [hs, Statement.orElse] using hgoal
    rw [hs] at hread
    have hread' := (Problem.statement_eq_ok_iff.mp hstudent).2
    rw [hown] at hread'
    obtain ⟨text, htext, hparse⟩ := Problem.exists_of_readGoal hread'
    exact ⟨text, by rw [Problem.eq_none_of_readGoal hread, htext]; rfl, hparse⟩

/-- The premises of a faultless proof are among the hypotheses. -/
theorem premisesIn_subset_hypotheses {statement own : Statement Formula}
    {document : Document Formula}
    (hinstructor : instructor.statement instructor.calculus = .ok statement)
    (hstudent : student.read instructor.calculus = .ok (own, document))
    (hvalid : document.ValidOn instructor.calculus (statement.orElse own) Set.univ) :
    document.premisesIn Set.univ ⊆ Problem.hypotheses instructor student := by
  obtain ⟨hown, hdocument⟩ := Problem.read_eq_ok_iff.mp hstudent
  have hlaid : LaidOut 1 .root document.lines := Problem.Reads.laidOut ⟨hown, hdocument⟩
  rintro _ ⟨line, hline, -, hrule, rfl⟩
  obtain ⟨before, rest, hl⟩ := List.append_of_mem hline
  obtain ⟨-, -, hdeclared⟩ :=
    Document.valid_premise hlaid hl (hvalid line hline (Set.mem_univ _)) hrule
  have hinstructorPremises := (Problem.statement_eq_ok_iff.mp hinstructor).1
  have hownPremises := (Problem.statement_eq_ok_iff.mp hown).1
  cases hs : statement.premises with
  | some premises =>
    rw [hs] at hinstructorPremises
    obtain ⟨texts, htexts, hparsed⟩ := Problem.exists_of_readPremises hinstructorPremises
    have hmem : line.formula ∈ premises := hdeclared premises (by simp [Statement.orElse, hs])
    rw [Problem.hypotheses, htexts]
    exact hparsed _ hmem
  | none =>
    rw [hs] at hinstructorPremises
    have hnone := Problem.eq_none_of_readPremises hinstructorPremises
    cases ho : own.premises with
    | some premises =>
      rw [ho] at hownPremises
      obtain ⟨texts, htexts, hparsed⟩ := Problem.exists_of_readPremises hownPremises
      have hmem : line.formula ∈ premises := hdeclared premises (by simp [Statement.orElse, hs, ho])
      rw [Problem.hypotheses, hnone, htexts]
      exact hparsed _ hmem
    | none =>
      rw [ho] at hownPremises
      rw [Problem.hypotheses, hnone, Problem.eq_none_of_readPremises hownPremises]
      obtain ⟨entry, hentry, hparse, hname⟩ := Problem.exists_entry_of_mem hdocument hline
      exact ⟨entry, hentry, hrule ▸ hname, hparse⟩

end Grading

/-- **Soundness of grading.** If a student's proof is graded as correct, there is a goal, and it
follows from what the student may assume. -/
theorem gradeProblem_sound (options : GradingOptions) {instructor student : Problem}
    (h : (gradeProblem options instructor student).outcome = .correct) :
    ∃ text goal, (instructor.goal <|> student.goal) = some text ∧
      Formula.parse instructor.calculus text = .ok goal ∧
      Entails.{u} (Problem.hypotheses instructor student) goal := by
  simp only [gradeProblem] at h
  split at h
  · cases h
  · next statement reference hinstructor =>
    split at h
    · cases h
    · next own answer hstudent =>
      obtain ⟨hstatement, -⟩ := Problem.read_eq_ok_iff.mp hinstructor
      obtain ⟨hown, hdocument⟩ := Problem.read_eq_ok_iff.mp hstudent
      obtain ⟨hfaults, goal, line, hgoal, hline, hreorders⟩ := of_judgeProof_eq_correct h
      obtain ⟨text, htext, hparse⟩ := exists_of_goal hstatement hown hgoal
      obtain ⟨drafts, -, hbuild⟩ := Problem.document_eq_ok_iff.mp hdocument
      have hlaid := (Document.build_eq_ok_iff.mp hbuild).1
      have hsubset := premisesIn_subset_hypotheses hstatement hstudent
        (validOn_of_faults_eq_nil hlaid hfaults)
      refine ⟨text, goal, htext, hparse, fun D M v hv => ?_⟩
      have hconclusion := entails_of_faults_eq_nil hlaid hfaults hline D M v fun γ hγ =>
          hv γ (hsubset hγ)
      exact (Formula.holds_iff_of_reorders hreorders).mpr hconclusion

/-- A problem without declared premises. -/
def conjunctionProblem : Problem where
  id := "conjunction"
  calculus := .propositional
  premises := none
  goal := some "Q & P"
  lines := []

/-- An answer that concludes the goal in the other order, and goes on in a subproof. -/
def conjunctionAnswer : Problem where
  id := "conjunction"
  calculus := .propositional
  premises := none
  goal := none
  lines :=
    [⟨"P & Q", "premise", 0, []⟩, ⟨"P & Q", "reit", 0, ["1"]⟩, ⟨"R", "assume", 1, []⟩]

theorem conjunctionAnswer_sound :
    ∃ text goal, (conjunctionProblem.goal <|> conjunctionAnswer.goal) = some text ∧
      Formula.parse .propositional text = .ok goal ∧
      Entails.{0} (Problem.hypotheses conjunctionProblem conjunctionAnswer) goal :=
  gradeProblem_sound .default (by decide +kernel)

end NaturalDeduction

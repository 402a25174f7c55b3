import NaturalDeduction.Grading.Assignment
import NaturalDeduction.Proofs.Grading.Reading
import NaturalDeduction.Proofs.Verification.Context

/-!
# What decides the result for a problem

The result for a student's proof is decided in three stages. Both problems have to be read in the
instructor's calculus. Then every line of the student's proof has to be valid, under the premises of
the instructor or else the student's. And then its last line outside every subproof has to be the
goal, again the instructor's or else the student's, up to the order of operands.

## Two notions of a proof that fails

The verifier calls a proof invalid if a line is, or if it does not end in the goal to the letter. A
result is stricter about neither and laxer about both: the goal is compared up to the order of
operands, and of the reference only its lines and its goal are looked at. So a reference that does
not verify costs the student nothing, which `gradeProblem_outcome` states by putting any verdicts at
all in the place of the reference's.

## Main definitions

* `Problem.Reads`, `Problem.FailsWith`: what reading a problem comes to
* `IsFault`, `MeetsGoal`: what the second and the third stage ask

## Main results

* `mem_faults_iff`, `pairwise_faults`: the faults that are reported are those that
  there are, in order
* `judgeProof_decided`: the second and the third stage
* `gradeProblem_outcome`: all three
-/

namespace NaturalDeduction

variable {calculus : Calculus}

/-! ### Reading both problems -/

namespace Problem

/-- The problem declares this statement, and its lines make up this document. -/
def Reads (calculus : Calculus) (problem : Problem) (statement : Statement Formula)
    (document : Document Formula) : Prop :=
  problem.statement calculus = .ok statement ∧ problem.document calculus = .ok document

/-- The problem cannot be read: its statement cannot, or only its proof cannot. -/
def FailsWith (calculus : Calculus) (problem : Problem) (error : ReadError) : Prop :=
  problem.statement calculus = .error error ∨
    (∃ statement, problem.statement calculus = .ok statement) ∧
    problem.document calculus = .error error

variable {problem : Problem} {statement : Statement Formula} {document : Document Formula}
  {error : ReadError}

theorem read_eq_ok_iff_reads :
    problem.read calculus = .ok (statement, document) ↔ problem.Reads calculus statement document :=
  read_eq_ok_iff

theorem read_eq_error_iff :
    problem.read calculus = .error error ↔ problem.FailsWith calculus error := by
  rw [read, FailsWith]
  cases problem.statement calculus with
  | error e => simp
  | ok statement => cases problem.document calculus <;> simp [Except.map]

/-- A problem either can be read or cannot. -/
theorem reads_or_failsWith (calculus : Calculus) (problem : Problem) :
    (∃ statement document, problem.Reads calculus statement document) ∨
      ∃ error, problem.FailsWith calculus error := by
  cases hread : problem.read calculus with
  | error error => exact .inr ⟨error, read_eq_error_iff.mp hread⟩
  | ok read => exact .inl ⟨read.1, read.2, read_eq_ok_iff_reads.mp hread⟩

/-- Of two problems the first that cannot be read settles what happens. -/
theorem reading_cases (calculus : Calculus) (problem other : Problem) :
    (∃ error, problem.FailsWith calculus error) ∨
      ∃ statement document, problem.Reads calculus statement document ∧
        ((∃ error, other.FailsWith calculus error) ∨
          ∃ statement document, other.Reads calculus statement document) := by
  rcases reads_or_failsWith calculus problem with ⟨statement, document, h⟩ | h
  · exact .inr ⟨statement, document, h, (reads_or_failsWith calculus other).symm⟩
  · exact .inl h

theorem Reads.not_failsWith (h : problem.Reads calculus statement document) :
    ¬problem.FailsWith calculus error := by
  rw [← read_eq_error_iff, read_eq_ok_iff_reads.mpr h]
  exact nofun

/-- The lines of a proof that was read are laid out. -/
theorem Reads.laidOut (h : problem.Reads calculus statement document) :
    LaidOut 1 .root document.lines := by
  obtain ⟨drafts, -, hbuild⟩ := document_eq_ok_iff.mp h.2
  exact (Document.build_eq_ok_iff.mp hbuild).1

end Problem

/-! ### Judging the lines -/

/-- A line of the proof has this number and rule, and another verdict than `valid`. -/
def IsFault (calculus : Calculus) (premises : Option (List Formula)) (document : Document Formula)
    (fault : LineFault) : Prop :=
  ∃ line ∈ document.lines, line.number = fault.number ∧ line.rule = fault.rule ∧
    (verify calculus ⟨premises, none⟩ document).verdict? line.number = some fault.verdict ∧
    fault.verdict ≠ .valid

section Faults

variable {statement : Statement Formula} {document : Document Formula}

/-- The faults of a proof are its lines that are not valid. -/
theorem mem_faults_iff (h : LaidOut 1 .root document.lines) {fault : LineFault} :
    fault ∈ (VerifiedProof.of calculus statement document).faults ↔
      IsFault calculus statement.premises document fault := by
  obtain ⟨number, rule, verdict⟩ := fault
  simp only [VerifiedProof.faults, VerifiedProof.of, List.mem_filterMap, Prod.exists,
    Verification.mem_invalidLines, Option.map_eq_some_iff, Document.line?_eq_some_iff h,
    LineFault.mk.injEq, IsFault]
  constructor
  · rintro ⟨n, v, ⟨hverdict, hne⟩, line, ⟨hline, rfl⟩, hnumber, rfl, rfl⟩
    exact ⟨line, hline, hnumber, rfl, hverdict, hne⟩
  · rintro ⟨line, hline, rfl, rfl, hverdict, hne⟩
    exact ⟨line.number, verdict, ⟨hverdict, hne⟩, line, ⟨hline, rfl⟩, rfl, rfl, rfl⟩

/-- Lines that are not valid are listed in the order of their numbers. -/
theorem Verification.pairwise_invalidLines (verification : Verification) :
    verification.invalidLines.Pairwise (·.1 < ·.1) := by
  have hnumbers : (verification.verdicts.zipIdx 1).Pairwise (·.2 < ·.2) := by
    have hrange := List.pairwise_lt_range' (s := 1) (n := verification.verdicts.length) 1
    rw [← List.zipIdx_map_snd] at hrange
    exact List.pairwise_map.mp hrange
  exact List.pairwise_map.mpr (hnumbers.filter _)

/-- The faults of a proof are listed in the order of their numbers. -/
theorem pairwise_faults (proof : VerifiedProof Formula) :
    proof.faults.Pairwise (·.number < ·.number) := by
  refine List.Pairwise.filterMap _ ?_ proof.verification.pairwise_invalidLines
  rintro ⟨n, v⟩ ⟨n', v'⟩ hlt fault hfault fault' hfault'
  obtain ⟨line, -, rfl⟩ := Option.map_eq_some_iff.mp hfault
  obtain ⟨line', -, rfl⟩ := Option.map_eq_some_iff.mp hfault'
  exact hlt

end Faults

/-! ### Judging the conclusion -/

/-- There is a goal, and the last line outside every subproof states it up to the
order of operands. -/
def MeetsGoal (goal : Option Formula) (document : Document Formula) : Prop :=
  ∃ φ line, goal = some φ ∧ document.IsConclusion line ∧ φ.reorders line.formula = true

theorem judgeConclusion_eq_correct_iff {goal : Option Formula} {document : Document Formula} :
    (judgeConclusion goal (document.conclusion?.map (·.formula))).1 = .correct ↔
      MeetsGoal goal document := by
  simp only [MeetsGoal, ← Document.conclusion?_eq_some_iff]
  cases goal with
  | none => simp [judgeConclusion]
  | some φ =>
    cases document.conclusion? with
    | none => simp [judgeConclusion]
    | some line => cases hreorders : φ.reorders line.formula <;> simp [judgeConclusion, hreorders]

/-- A conclusion is right or wrong. -/
theorem judgeConclusion_eq_or (goal conclusion : Option Formula) :
    (judgeConclusion goal conclusion).1 = .correct ∨
      (judgeConclusion goal conclusion).1 = .incorrectConclusion := by
  unfold judgeConclusion
  repeat' split
  all_goals simp

/-! ### The result -/

/-- The list holds the faults of a proof and nothing else, in order. -/
def ListsFaults (calculus : Calculus) (premises : Option (List Formula))
    (document : Document Formula) (faults : List LineFault) : Prop :=
  faults.Pairwise (·.number < ·.number) ∧
    ∀ fault, fault ∈ faults ↔ IsFault calculus premises document fault

/-- What a proof that could be read comes to: it has faults, or it has none and meets the goal, or
it has none and misses the goal. -/
inductive Decided (calculus : Calculus) (premises : Option (List Formula)) (goal : Option Formula)
    (document : Document Formula) : Outcome → Prop
  | invalidProof {faults : List LineFault}
      (faulty : ∃ fault, IsFault calculus premises document fault)
    (lists : ListsFaults calculus premises document faults) :
    Decided calculus premises goal document (.invalidProof faults)
  | correct (faultless : ¬∃ fault, IsFault calculus premises document fault)
    (meets : MeetsGoal goal document) : Decided calculus premises goal document .correct
  | incorrectConclusion (faultless : ¬∃ fault, IsFault calculus premises document fault)
    (misses : ¬MeetsGoal goal document) :
    Decided calculus premises goal document .incorrectConclusion

namespace Decided

variable {premises : Option (List Formula)} {goal : Option Formula} {document : Document Formula}
  {outcome : Outcome}

theorem exists_invalidProof_iff (h : Decided calculus premises goal document outcome) :
    (∃ faults, outcome = .invalidProof faults) ↔
      ∃ fault, IsFault calculus premises document fault := by
  cases h with
  | invalidProof faulty lists => exact iff_of_true ⟨_, rfl⟩ faulty
  | correct faultless meets => exact iff_of_false nofun faultless
  | incorrectConclusion faultless misses => exact iff_of_false nofun faultless

theorem listsFaults (h : Decided calculus premises goal document outcome) {faults : List LineFault}
    (houtcome : outcome = .invalidProof faults) :
    ListsFaults calculus premises document faults := by
  cases h with
  | invalidProof faulty lists =>
    cases houtcome
    exact lists
  | correct faultless meets => cases houtcome
  | incorrectConclusion faultless misses => cases houtcome

theorem eq_correct_iff (h : Decided calculus premises goal document outcome) :
    outcome = .correct ↔
      (¬∃ fault, IsFault calculus premises document fault) ∧ MeetsGoal goal document := by
  cases h with
  | invalidProof faulty lists => exact iff_of_false nofun fun hcorrect => hcorrect.1 faulty
  | correct faultless meets => exact iff_of_true rfl ⟨faultless, meets⟩
  | incorrectConclusion faultless misses =>
    exact iff_of_false nofun fun hcorrect => misses hcorrect.2

theorem eq_incorrectConclusion_iff (h : Decided calculus premises goal document outcome) :
    outcome = .incorrectConclusion ↔
      (¬∃ fault, IsFault calculus premises document fault) ∧ ¬MeetsGoal goal document := by
  cases h with
  | invalidProof faulty lists => exact iff_of_false nofun fun hincorrect => hincorrect.1 faulty
  | correct faultless meets => exact iff_of_false nofun fun hincorrect => hincorrect.2 meets
  | incorrectConclusion faultless misses => exact iff_of_true rfl ⟨faultless, misses⟩

theorem ne_unreadable (h : Decided calculus premises goal document outcome) (message : String) :
    outcome ≠ .unreadable message := by
  cases h <;> exact nofun

end Decided

/-- A proof is judged by its faults if it has any, and otherwise by its conclusion. -/
theorem judgeProof_decided (calculus : Calculus) (reference : VerifiedProof Formula)
    (statement : Statement Formula) {document : Document Formula}
    (h : LaidOut 1 .root document.lines) :
    Decided calculus statement.premises (reference.statement.goal <|> statement.goal) document
      (judgeProof reference (.of calculus statement document)).1 := by
  have hlists : ListsFaults calculus statement.premises document
      (VerifiedProof.of calculus statement document).faults :=
    ⟨pairwise_faults _, fun fault => mem_faults_iff h⟩
  rw [judgeProof]
  cases hfaults : (VerifiedProof.of calculus statement document).faults with
  | cons fault others =>
    rw [hfaults] at hlists
    exact .invalidProof ⟨fault, (hlists.2 fault).mp List.mem_cons_self⟩ hlists
  | nil =>
    rw [hfaults] at hlists
    have hfaultless : ¬∃ fault, IsFault calculus statement.premises document fault :=
      fun ⟨fault, hfault⟩ => nomatch (hlists.2 fault).mpr hfault
    by_cases hmeets : MeetsGoal (reference.statement.goal <|> statement.goal) document
    · have hcorrect := judgeConclusion_eq_correct_iff.mpr hmeets
      exact hcorrect ▸ .correct hfaultless hmeets
    · have hincorrect := (judgeConclusion_eq_or (reference.statement.goal <|> statement.goal)
        (document.conclusion?.map (·.formula))).resolve_left
          fun hcorrect => hmeets (judgeConclusion_eq_correct_iff.mp hcorrect)
      exact hincorrect ▸ .incorrectConclusion hfaultless hmeets

/-! ### Two problems -/

section Report

variable {options : GradingOptions} {instructor student : Problem} {error : ReadError}
  {statement own : Statement Formula} {reference answer : Document Formula}

/-- An instructor's problem that cannot be read is reported first. -/
theorem gradeProblem_of_reference_failsWith (h : instructor.FailsWith instructor.calculus error) :
    gradeProblem options instructor student =
      .unreadable ("the reference proof does not parse: " ++ error.message)
        (error.report instructor.id) := by
  simp only [gradeProblem, Problem.read_eq_error_iff.mpr h]

/-- A student's problem that cannot be read is reported next. -/
theorem gradeProblem_of_answer_failsWith
    (h : instructor.Reads instructor.calculus statement reference)
    (hstudent : student.FailsWith instructor.calculus error) :
    gradeProblem options instructor student =
      .unreadable error.message (error.report instructor.id) := by
  simp only [gradeProblem, Problem.read_eq_ok_iff_reads.mpr h,
    Problem.read_eq_error_iff.mpr hstudent]

/-- If both can be read, the proofs are compared. -/
theorem gradeProblem_of_reads (h : instructor.Reads instructor.calculus statement reference)
    (hstudent : student.Reads instructor.calculus own answer) :
    gradeProblem options instructor student =
      (VerifiedProof.assess options.similarity (.of instructor.calculus statement reference)
        (.of instructor.calculus (statement.orElse own) answer)).report := by
  simp only [gradeProblem, Problem.read_eq_ok_iff_reads.mpr h,
    Problem.read_eq_ok_iff_reads.mpr hstudent]

/-- If both can be read, the student's lines decide, and their conclusion. -/
theorem gradeProblem_decided (h : instructor.Reads instructor.calculus statement reference)
    (hstudent : student.Reads instructor.calculus own answer) :
    Decided instructor.calculus (statement.premises <|> own.premises)
      (statement.goal <|> own.goal) answer
      (gradeProblem options instructor student).outcome := by
  -- the comparison looks for the instructor's goal once more in the student's statement
  have hgoal : (statement.goal <|> (statement.orElse own).goal) =
      (statement.goal <|> own.goal) := by
    cases hdeclared : statement.goal <;> simp [Statement.orElse, hdeclared]
  rw [gradeProblem_of_reads h hstudent, ← hgoal]
  exact judgeProof_decided instructor.calculus (.of instructor.calculus statement reference)
    (statement.orElse own) hstudent.laidOut

/-- Only what can be read is compared. -/
theorem gradeProblem_unreadable_iff :
    (∃ message, (gradeProblem options instructor student).outcome = .unreadable message) ↔
      (∃ error, instructor.FailsWith instructor.calculus error) ∨
        ∃ error, student.FailsWith instructor.calculus error := by
  rcases Problem.reading_cases instructor.calculus instructor student with
    ⟨error, h⟩ | ⟨statement, reference, h, ⟨error, hstudent⟩ | ⟨own, answer, hstudent⟩⟩
  · rw [gradeProblem_of_reference_failsWith h]
    exact iff_of_true ⟨_, rfl⟩ (.inl ⟨error, h⟩)
  · rw [gradeProblem_of_answer_failsWith h hstudent]
    exact iff_of_true ⟨_, rfl⟩ (.inr ⟨error, hstudent⟩)
  · refine iff_of_false ?_ ?_
    · rintro ⟨message, hmessage⟩
      exact (gradeProblem_decided h hstudent).ne_unreadable message hmessage
    · rintro (⟨_, hfails⟩ | ⟨_, hfails⟩)
      · exact h.not_failsWith hfails
      · exact hstudent.not_failsWith hfails

/-- Similarity is measured if it is asked for and there is something to compare. -/
theorem isSome_similarity_gradeProblem_iff :
    (gradeProblem options instructor student).similarity.isSome = true ↔ options.similarity = true ∧
      ¬∃ message, (gradeProblem options instructor student).outcome = .unreadable message := by
  rcases Problem.reading_cases instructor.calculus instructor student with
    ⟨error, h⟩ | ⟨statement, reference, h, ⟨error, hstudent⟩ | ⟨own, answer, hstudent⟩⟩
  · rw [gradeProblem_of_reference_failsWith h]
    exact iff_of_false nofun fun hasked => hasked.2 ⟨_, rfl⟩
  · rw [gradeProblem_of_answer_failsWith h hstudent]
    exact iff_of_false nofun fun hasked => hasked.2 ⟨_, rfl⟩
  · have hreadable : ¬∃ message,
        (gradeProblem options instructor student).outcome = .unreadable message :=
      fun ⟨message, hmessage⟩ => (gradeProblem_decided h hstudent).ne_unreadable message hmessage
    rw [and_iff_left hreadable, gradeProblem_of_reads h hstudent]
    cases hasked : options.similarity <;> simp [VerifiedProof.assess, Comparison.report]

end Report

/-- **What decides the result for a problem.** An instructor's problem that cannot be read comes
first, then a student's. If both can be read, the result is that the proof is invalid, with its
faults, if it has any under the premises of the instructor or else the student's; that it is correct
if it has none and meets the goal of the instructor or else the student's; and otherwise that it
concludes something else. Similarity is there if it was asked for and both could be read. No verdict
on the reference, nor whether it reaches its own goal, changes the result or the similarity. -/
theorem gradeProblem_outcome (options : GradingOptions) (instructor student : Problem) :
    let calculus := instructor.calculus
    let report := gradeProblem options instructor student
    (∀ error, instructor.FailsWith calculus error →
        report.outcome = .unreadable ("the reference proof does not parse: " ++ error.message)) ∧
      (∀ statement reference error, instructor.Reads calculus statement reference →
        student.FailsWith calculus error → report.outcome = .unreadable error.message) ∧
      ((∃ message, report.outcome = .unreadable message) ↔
        (∃ error, instructor.FailsWith calculus error) ∨
        ∃ error, student.FailsWith calculus error) ∧
      (report.similarity.isSome = true ↔
        options.similarity = true ∧ ¬∃ message, report.outcome = .unreadable message) ∧
      ∀ statement reference own answer, instructor.Reads calculus statement reference →
        student.Reads calculus own answer →
        let premises := statement.premises <|> own.premises
        let goal := statement.goal <|> own.goal
        let Faulty := ∃ fault, IsFault calculus premises answer fault
        ((∃ faults, report.outcome = .invalidProof faults) ↔ Faulty) ∧
          (∀ faults, report.outcome = .invalidProof faults →
            ListsFaults calculus premises answer faults) ∧
          (report.outcome = .correct ↔ ¬Faulty ∧ MeetsGoal goal answer) ∧
          (report.outcome = .incorrectConclusion ↔ ¬Faulty ∧ ¬MeetsGoal goal answer) ∧
          ∀ verification : Verification,
            let other :=
              (VerifiedProof.assess options.similarity ⟨statement, reference, verification⟩
              (.of calculus ⟨premises, goal⟩ answer)).report
            report.outcome = other.outcome ∧ report.similarity = other.similarity := by
  refine ⟨fun error h => ?_, fun statement reference error h hstudent => ?_,
    gradeProblem_unreadable_iff, isSome_similarity_gradeProblem_iff,
    fun statement reference own answer h hstudent => ?_⟩
  · rw [gradeProblem_of_reference_failsWith h]
    rfl
  · rw [gradeProblem_of_answer_failsWith h hstudent]
    rfl
  · have hdecided := @gradeProblem_decided options _ _ _ _ _ _ h hstudent
    refine ⟨hdecided.exists_invalidProof_iff, fun _ => hdecided.listsFaults,
      hdecided.eq_correct_iff, hdecided.eq_incorrectConclusion_iff, fun verification => ?_⟩
    -- of the reference's verdicts only a note is made
    rw [gradeProblem_of_reads h hstudent]
    exact ⟨rfl, rfl⟩

/-- A problem whose reference jumps to the goal. -/
def carelessProblem : Problem where
  id := "swap"
  calculus := .propositional
  premises := some ["P & Q"]
  goal := some "Q & P"
  lines := [⟨"Q & P", "reit", 0, []⟩]

/-- An answer that repeats the premise. -/
def carefulAnswer : Problem where
  id := "swap"
  calculus := .propositional
  premises := none
  goal := none
  lines := [⟨"P & Q", "premise", 0, []⟩]

/-- The reference is invalid, the answer is the goal only up to the order of operands, and
it is correct. -/
theorem carefulAnswer_outcome :
    let p : Formula := .atom "P" []
    let q : Formula := .atom "Q" []
    let statement : Statement Formula := ⟨some [.and p q], some (.and q p)⟩
    let reference : Document Formula := ⟨[⟨⟨.and q p, .reiteration, [], 0⟩, 1, []⟩]⟩
    let answer : Document Formula := ⟨[⟨⟨.and p q, .premise, [], 0⟩, 1, []⟩]⟩
    carelessProblem.Reads .propositional statement reference ∧
      carefulAnswer.Reads .propositional ⟨none, none⟩ answer ∧
      (verify .propositional statement reference).isValid = false ∧
      (gradeProblem .default carelessProblem carefulAnswer).outcome = .correct := by
  intro p q statement reference answer
  have hinstructor : carelessProblem.Reads .propositional statement reference := by
    constructor <;> decide +kernel
  have hstudent : carefulAnswer.Reads .propositional ⟨none, none⟩ answer := by
    constructor <;> decide +kernel
  have hvalid : (verify .propositional ⟨some [.and p q], none⟩ answer).verdict? 1 =
      some .valid := by
    decide
  refine ⟨hinstructor, hstudent, by decide, ?_⟩
  obtain ⟨-, -, -, -, hdecided⟩ := gradeProblem_outcome .default carelessProblem carefulAnswer
  obtain ⟨-, -, hcorrect, -⟩ :=
    hdecided statement reference ⟨none, none⟩ answer hinstructor hstudent
  refine hcorrect.mpr ⟨?_, ?_⟩
  · rintro ⟨fault, line, hline, -, -, hverdict, hne⟩
    obtain rfl := List.mem_singleton.mp hline
    exact hne (Option.some.inj (hverdict.symm.trans hvalid))
  · exact ⟨.and q p, _, rfl, ⟨[], [], rfl, rfl, by simp⟩, by decide⟩

end NaturalDeduction

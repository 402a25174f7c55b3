import NaturalDeduction.Grading.Assignment
import NaturalDeduction.Proofs.Forest.Reading

/-!
# Grading in one forest

A problem is graded in one forest. The instructor's problem is read into it, and then the student's,
so formulas that the two have in common are stored once and have one handle. From then on nothing is
read: both proofs are verified by handles, the conclusion is compared with the goal by walking
through both, and so are the lines where similarity is measured. A formula is built only where a
remark shows it.

Grading in a forest gives the report that grading by itself gives, whatever the forest held before.
It is what reading into a forest comes to (`Problem.follows_store`), then what verification by
handles comes to (`Forest.WellFormed.verify?_eq`), and then a comparison of the two proofs, for
which no more is needed than the walk for the order of operands.

What the instructor's problem stands for is found in the forest that it has left behind, and has to
hold in the larger one in which the proofs are verified. So correspondences have to persist while
the forest grows (`Document.persists_document?`).

## Main definitions

* `Forest.judgeProof?`, `Forest.similarity?`, `Forest.assess?`: comparing two stored proofs
* `Forest.gradeProblem?`: the result for two proofs of a problem, found in a forest

## Main results

* `Forest.WellFormed.assess?_eq`: a comparison of stored proofs is one of what they stand for
* `Forest.WellFormed.gradeProblem?_eq`: grading in a forest is grading
-/

namespace NaturalDeduction

namespace Forest

/-! ### Comparing stored proofs -/

section Comparing

variable (forest : Forest)

/-- Whether a conclusion meets the goal, and a remark on it. -/
def judgeConclusion? (goal conclusion : Option Handle) : Option (Outcome × Note) :=
  match goal, conclusion with
  | none, _ => some (.incorrectConclusion, .noGoal)
  | some _, none => some (.incorrectConclusion, .noConclusion)
  | some goal, some conclusion => do
    let shown ← forest.formula? conclusion
    if ← forest.walkReorders? goal conclusion then return (.correct, .proves shown)
    else
      let wanted ← forest.formula? goal
      return (.incorrectConclusion, .misses shown wanted)

/-- The outcome for a proof and a remark on it. -/
def judgeProof? (reference proof : VerifiedProof Handle) : Option (Outcome × Note) :=
  match proof.faults with
  | [] =>
    forest.judgeConclusion? (reference.statement.goal <|> proof.statement.goal)
      (proof.document.conclusion?.map (·.formula))
  | faults => some (.invalidProof faults, .faultyLines faults)

/-- Whether one of the lines reproduces a line of the reference. Formulas are compared only where
the rule is the same. -/
def reproduces? (lines : List (Line Handle)) (wanted : Line Handle) : Option Bool :=
  lines.anyM fun line =>
    some (line.rule = wanted.rule) <&&> forest.walkReorders? line.formula wanted.formula

/-- The number of lines of `reference` that `proof` reproduces. -/
def matchedLines? (reference proof : VerifiedProof Handle) : Option Nat := do
  let answers ← reference.document.lines.mapM (forest.reproduces? proof.validLines)
  return answers.countP id

/-- The share of the lines of `reference` that `proof` reproduces; 1 if there is nothing
to reproduce. -/
def similarity? (reference proof : VerifiedProof Handle) : Option Rat :=
  if reference.document.lines.isEmpty then some 1
  else do
    let matched ← forest.matchedLines? reference proof
    return mkRat matched reference.document.lines.length

/-- Compares a stored proof with the reference, and measures their similarity if asked to. -/
def assess? (withSimilarity : Bool) (reference proof : VerifiedProof Handle) :
    Option Comparison := do
  let (outcome, note) ← forest.judgeProof? reference proof
  let similarity ←
    if withSimilarity then (forest.similarity? reference proof).map some else some none
  let notes := remarks reference.verification proof.verification outcome note
  return { outcome, similarity, notes }

/-- The result for a student's proof of an instructor's problem. Both are read into the forest, one
after the other, and are compared in the forest that comes of it. -/
def gradeProblem? (options : GradingOptions) (instructor student : Problem) : Option Report :=
  let calculus := instructor.calculus
  match instructor.store calculus forest with
  | (.error error, _) =>
    some (.unreadable ("the reference proof does not parse: " ++ error.message)
      (error.report instructor.id))
  | (.ok (statement, reference), grown) =>
    match student.store calculus grown with
    | (.error error, _) => some (.unreadable error.message (error.report instructor.id))
    | (.ok (ownStatement, answer), grown) => do
      let completed := statement.orElse ownStatement
      let onReference ← grown.verify? calculus statement reference
      let onAnswer ← grown.verify? calculus completed answer
      let comparison ← grown.assess? options.similarity ⟨statement, reference, onReference⟩
        ⟨completed, answer, onAnswer⟩
      return comparison.report

end Comparing

end Forest

/-! ### Proofs over other formulas -/

section Maps

variable {α β : Type} {f : α → β}

namespace VerifiedProof

/-- The same proof over other formulas, with the same verdicts. -/
def map (f : α → β) (proof : VerifiedProof α) : VerifiedProof β :=
  ⟨proof.statement.map f, proof.document.map f, proof.verification⟩

variable {proof : VerifiedProof α}

theorem faults_map : (proof.map f).faults = proof.faults := by
  simp only [faults, map, Document.line?_map, Option.map_map]
  rfl

theorem validLines_map : (proof.map f).validLines = proof.validLines.map (Line.map f) := by
  simp only [validLines, map, Document.lines_map, List.filter_map]
  rfl

end VerifiedProof

end Maps

namespace Forest

/-! ### Comparisons of stored proofs -/

section Agreement

open Reference

variable {forest : Forest} (reference proof : VerifiedProof forest.Reference)

theorem WellFormed.walkReorders?_handle (wf : forest.WellFormed) (a b : forest.Reference) :
    forest.walkReorders? a.handle b.handle = some (a.formula.reorders b.formula) :=
  wf.walkReorders?_eq a.reads b.reads

theorem WellFormed.judgeConclusion?_eq (wf : forest.WellFormed)
    (goal conclusion : Option forest.Reference) :
    forest.judgeConclusion? (goal.map handle) (conclusion.map handle) =
      some (judgeConclusion (goal.map formula) (conclusion.map formula)) := by
  cases goal with
  | none => rfl
  | some goal =>
    cases conclusion with
    | none => rfl
    | some conclusion =>
      simp only [judgeConclusion?, judgeConclusion, Option.map_some, conclusion.reads, goal.reads,
        wf.walkReorders?_handle, Option.bind_eq_bind, Option.bind_some, Option.pure_def]
      cases goal.formula.reorders conclusion.formula <;> rfl

theorem WellFormed.judgeProof?_eq (wf : forest.WellFormed) :
    forest.judgeProof? (reference.map handle) (proof.map handle) =
      some (judgeProof (reference.map formula) (proof.map formula)) := by
  rw [judgeProof?, judgeProof, VerifiedProof.faults_map, VerifiedProof.faults_map]
  cases proof.faults with
  | cons fault faults => rfl
  | nil =>
    have hgoal {α : Type} (f : forest.Reference → α) :
        ((reference.map f).statement.goal <|> (proof.map f).statement.goal) =
          (reference.statement.goal <|> proof.statement.goal).map f := by
      simp only [VerifiedProof.map, Statement.map]
      cases reference.statement.goal <;> rfl
    have hconclusion {α : Type} (f : forest.Reference → α) :
        (proof.map f).document.conclusion?.map (·.formula) =
          (proof.document.conclusion?.map (·.formula)).map f := by
      simp only [VerifiedProof.map, Document.conclusion?_map, Option.map_map]
      rfl
    simp only [hgoal, hconclusion]
    exact wf.judgeConclusion?_eq _ _

/-- A question that always has an answer tells whether a member of a list has the property. -/
theorem anyM_map_eq_some {α γ : Type} {f : γ → α} {ask : α → Option Bool} {answer : γ → Bool}
    (h : ∀ c, ask (f c) = some (answer c)) (cs : List γ) :
    (cs.map f).anyM ask = some (cs.any answer) := by
  induction cs with
  | nil => rfl
  | cons c cs ih =>
    simp only [List.map_cons, List.anyM, h, ih, List.any_cons]
    cases answer c <;> rfl

theorem WellFormed.matchedLines?_eq (wf : forest.WellFormed) :
    forest.matchedLines? (reference.map handle) (proof.map handle) =
      some (VerifiedProof.matchedLines (reference.map formula) (proof.map formula)) := by
  let reproduces (wanted line : Line Formula) : Bool :=
    line.rule = wanted.rule && line.formula.reorders wanted.formula
  have hline (wanted line : Line forest.Reference) :
      (some (decide (line.rule = wanted.rule)) <&&>
          forest.walkReorders? line.formula.handle wanted.formula.handle) =
        some (reproduces (wanted.map formula) (line.map formula)) := by
    rw [wf.walkReorders?_handle, some_andM]
    rfl
  have hlines (wanted : Line forest.Reference) :
      forest.reproduces? (proof.map handle).validLines (wanted.map handle) =
        some ((proof.map formula).validLines.any (reproduces (wanted.map formula))) := by
    rw [reproduces?, VerifiedProof.validLines_map, VerifiedProof.validLines_map, List.any_map]
    exact anyM_map_eq_some (hline wanted) _
  have hanswers : (reference.map handle).document.lines.mapM
      (forest.reproduces? (proof.map handle).validLines) = some _ :=
    mapM_map_eq_some hlines reference.document.lines
  rw [matchedLines?, hanswers, VerifiedProof.matchedLines]
  simp only [Option.bind_eq_bind, Option.bind_some, Option.pure_def, List.countP_map,
    show (reference.map formula).document.lines = reference.document.lines.map (Line.map formula)
      from rfl]
  rfl

theorem WellFormed.similarity?_eq (wf : forest.WellFormed) :
    forest.similarity? (reference.map handle) (proof.map handle) =
      some (VerifiedProof.similarity (reference.map formula) (proof.map formula)) := by
  rw [similarity?, VerifiedProof.similarity, wf.matchedLines?_eq]
  simp only [VerifiedProof.map, Document.lines_map, List.isEmpty_map, List.length_map]
  split <;> rfl

theorem WellFormed.assess?_map (wf : forest.WellFormed) (withSimilarity : Bool) :
    forest.assess? withSimilarity (reference.map handle) (proof.map handle) =
      some (VerifiedProof.assess withSimilarity (reference.map formula) (proof.map formula)) := by
  rw [assess?, VerifiedProof.assess, wf.judgeProof?_eq, wf.similarity?_eq]
  cases withSimilarity <;> rfl

/-- **A comparison of stored proofs is one of what they stand for.** -/
theorem WellFormed.assess?_eq (wf : forest.WellFormed) (withSimilarity : Bool)
    {stated stated' : Statement Handle} {document document' : Document Handle}
    {statement statement' : Statement Formula} {reference proof : Document Formula}
    (hstatement : forest.statement? stated = some statement)
    (hreference : forest.document? document = some reference)
    (hstatement' : forest.statement? stated' = some statement')
    (hproof : forest.document? document' = some proof) (onReference onProof : Verification) :
    forest.assess? withSimilarity ⟨stated, document, onReference⟩ ⟨stated', document', onProof⟩ =
      some (VerifiedProof.assess withSimilarity ⟨statement, reference, onReference⟩
        ⟨statement', proof, onProof⟩) := by
  obtain ⟨stated, rfl, rfl⟩ := exists_statement_map hstatement
  obtain ⟨document, rfl, rfl⟩ := exists_document_map hreference
  obtain ⟨stated', rfl, rfl⟩ := exists_statement_map hstatement'
  obtain ⟨document', rfl, rfl⟩ := exists_document_map hproof
  exact wf.assess?_map ⟨stated, document, onReference⟩ ⟨stated', document', onProof⟩ withSimilarity

theorem rel_orElse {α β : Type} {R : α → β → Prop} {a a' : Option α} {b b' : Option β}
    (h : Option.Rel R a b) (h' : Option.Rel R a' b') : Option.Rel R (a <|> a') (b <|> b') := by
  cases h with
  | none => exact h'
  | some hab => exact .some hab

/-- What a statement leaves open is taken from the same place on both sides. -/
theorem statement?_orElse {stated own : Statement Handle}
    {statement ownStatement : Statement Formula}
    (hstatement : forest.statement? stated = some statement)
    (hown : forest.statement? own = some ownStatement) :
    forest.statement? (stated.orElse own) = some (statement.orElse ownStatement) := by
  obtain ⟨hpremises, hgoal⟩ := statement?_eq_some_iff.mp hstatement
  obtain ⟨hpremises', hgoal'⟩ := statement?_eq_some_iff.mp hown
  exact statement?_eq_some_iff.mpr ⟨rel_orElse hpremises hpremises', rel_orElse hgoal hgoal'⟩

end Agreement

/-! ### Grading -/

theorem persists_line? : Persists fun forest line read => forest.line? line = some read := by
  intro forest grown wf wf' hext line read h
  obtain ⟨φ, hφ, rfl⟩ := Option.map_eq_some_iff.mp h
  rw [line?, hext.formula?_eq wf wf' hφ, Option.map_some]

theorem persists_document? :
    Persists fun forest document proof => forest.document? document = some proof := by
  intro forest grown wf wf' hext document proof h
  rw [document?_eq_some_iff] at h ⊢
  exact persists_list persists_line? wf wf' hext h

theorem persists_statement? :
    Persists fun forest statement stated => forest.statement? statement = some stated := by
  intro forest grown wf wf' hext statement stated h
  rw [statement?_eq_some_iff] at h ⊢
  exact Statement.persists_standsFor wf wf' hext h

/-- **Grading in a forest is grading.** Whatever a well-formed forest holds, the report on a problem
that is graded in it is the one that the texts alone give: the same error if a proof cannot be read,
and otherwise the same outcome, similarity and remarks. -/
theorem WellFormed.gradeProblem?_eq {forest : Forest} (wf : forest.WellFormed)
    (options : GradingOptions) (instructor student : Problem) :
    forest.gradeProblem? options instructor student =
      some (gradeProblem options instructor student) := by
  obtain ⟨hgrown, -, hagrees⟩ := instructor.follows_store wf instructor.calculus
  rw [gradeProblem?, gradeProblem]
  revert hgrown hagrees
  generalize instructor.store instructor.calculus forest = run
  generalize instructor.read instructor.calculus = result
  obtain ⟨outcome, grown⟩ := run
  rintro hgrown (error | ⟨hstatement, hreference⟩)
  · rfl
  obtain ⟨hlater, hext, hagrees⟩ := student.follows_store hgrown instructor.calculus
  revert hlater hext hagrees
  simp only
  generalize student.store instructor.calculus grown = run
  generalize student.read instructor.calculus = result
  obtain ⟨outcome, later⟩ := run
  rintro hlater hext (error | ⟨hown, hanswer⟩)
  · rfl
  -- what was read first is now in a larger forest
  have hstatement' := persists_statement? hgrown hlater hext hstatement
  have hreference' := persists_document? hgrown hlater hext hreference
  have hcompleted := statement?_orElse hstatement' hown
  simp only [hlater.verify?_eq instructor.calculus hstatement' hreference',
    hlater.verify?_eq instructor.calculus hcompleted hanswer,
    hlater.assess?_eq options.similarity hstatement' hreference' hcompleted hanswer,
    Option.bind_eq_bind, Option.bind_some, Option.pure_def]
  rfl

end Forest

end NaturalDeduction

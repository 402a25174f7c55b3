import NaturalDeduction.Proofs.Forest.Verification
import NaturalDeduction.Proofs.Grading.FirstFault

/-!
# Reading problems into a forest

When a problem is read into a forest, every formula is stored as soon as its text has been read, and
lines and statements refer to formulas by their handles. The forest grows also when the reading
fails in the end: what was stored before the fault stays.

None of this can be seen in the outcome. Reading into a forest fails where reading by itself
fails, with the same error, and otherwise its handles stand for what reading by itself gives;
the contents of the forest before play no part. So what is known about the first fault of a
problem holds for both.

## Main definitions

* `Problem.store`: reading a problem into a forest
* `Follows`: a reader on a forest comes to the same as a reader without one

## Main results

* `Problem.follows_store`: reading into a forest comes to the same
* `Problem.store_reports_first_fault`: a problem is stored if nothing is wrong with it, and
  otherwise its first fault is reported
-/

namespace NaturalDeduction

/-! ### Readers that store formulas -/

/-- Reading that stores formulas in a forest. The forest has grown also where the
reading has failed. -/
abbrev Storing (α : Type) := ExceptT ReadError (StateM Forest) α

/-- Stores the formula at a location. -/
def storeFormula (calculus : Calculus) (location : Location) (text : String) : Storing Handle :=
  fun forest =>
    ((forest.parse calculus text).1.mapError (.formula location text),
      (forest.parse calculus text).2)

/-- Reads the members of a list one after the other, counting from `number`. -/
def storeEach {α β : Type} (f : Nat → α → Storing β) (number : Nat) : List α → Storing (List β)
  | [] => return []
  | a :: others => do
    let b ← f number a
    let bs ← storeEach f (number + 1) others
    return b :: bs

/-- A line before it is put in its place. -/
def Entry.store (calculus : Calculus) (number : Nat) (entry : Entry) : Storing (Draft Handle) := do
  let formula ← storeFormula calculus (.line number) entry.formula
  let rule ← readRule number entry.rule
  let citations ← readCitations number entry.citations
  return { formula, rule, citations, depth := entry.depth }

namespace Problem

/-- Stores the declared premises. -/
def storePremises (calculus : Calculus) : Option (List String) → Storing (Option (List Handle))
  | none => return none
  | some texts => do
    let premises ← storeEach (fun n text => storeFormula calculus (.premise n) text) 1 texts
    return some premises

/-- Stores the declared goal. -/
def storeGoal (calculus : Calculus) : Option String → Storing (Option Handle)
  | none => return none
  | some text => do
    let goal ← storeFormula calculus .goal text
    return some goal

/-- Stores the premises and the goal that a problem declares. -/
def storeStatement (calculus : Calculus) (problem : Problem) : Storing (Statement Handle) := do
  let premises ← storePremises calculus problem.premises
  let goal ← storeGoal calculus problem.goal
  return ⟨premises, goal⟩

/-- Stores the proof of a problem. -/
def storeDocument (calculus : Calculus) (problem : Problem) : Storing (Document Handle) := do
  let drafts ← storeEach (fun n entry => entry.store calculus n) 1 problem.lines
  (Document.build drafts).mapError ReadError.nesting

/-- Stores what a problem declares, and then its proof. -/
def store (calculus : Calculus) (problem : Problem) :
    Storing (Statement Handle × Document Handle) := do
  let statement ← problem.storeStatement calculus
  let document ← problem.storeDocument calculus
  return (statement, document)

end Problem

/-! ### Comparing readers -/

section Follows

variable {α α' β β' ε : Type} {forest : Forest}

/-- The same error, or values that correspond. -/
inductive Agrees (R : α → β → Prop) : Except ε α → Except ε β → Prop
  | error (e : ε) : Agrees R (.error e) (.error e)
  | ok {a : α} {b : β} (h : R a b) : Agrees R (.ok a) (.ok b)

/-- Run on a forest, the reader comes to the same as the result, in the forest that has
grown meanwhile. -/
structure Follows (forest : Forest) (reader : Storing α) (result : Except ReadError β)
    (R : Forest → α → β → Prop) : Prop where
  wellFormed : (reader forest).2.WellFormed
  extends_before : forest.Extends (reader forest).2
  agrees : Agrees (R (reader forest).2) (reader forest).1 result

variable {R : Forest → α → β → Prop} {S : Forest → α' → β' → Prop} {reader : Storing α}
  {result : Except ReadError β}

theorem follows_pure (wf : forest.WellFormed) {a : α} {b : β} (h : R forest a b) :
    Follows forest (pure a) (.ok b) R :=
  ⟨wf, .refl forest, .ok h⟩

/-- What does not touch the forest goes on as it would without one. -/
theorem follows_lift (wf : forest.WellFormed) {result : Except ReadError α}
    {result' : Except ReadError β} (h : Agrees (R forest) result result') :
    Follows forest (liftM result) result' R :=
  ⟨wf, .refl forest, h⟩

theorem Storing.bind_apply (reader : Storing α) (f : α → Storing α') (forest : Forest) :
    (reader >>= f) forest = match reader forest with
      | (.error e, grown) => (.error e, grown)
      | (.ok a, grown) => f a grown := by
  change StateT.bind reader (ExceptT.bindCont f) forest = _
  rw [StateT.bind]
  rcases reader forest with ⟨_ | a, grown⟩ <;> rfl

/-- One reader behind another finds the forest that the first has left. -/
theorem Follows.bind {f : α → Storing α'} {g : β → Except ReadError β'}
    (h : Follows forest reader result R)
    (hf : ∀ a b grown, forest.Extends grown → grown.WellFormed → R grown a b →
      Follows grown (f a) (g b) S) : Follows forest (reader >>= f) (result.bind g) S := by
  obtain ⟨hwf, hext, hagrees⟩ := h
  have hbind := Storing.bind_apply reader f forest
  rcases hrun : reader forest with ⟨outcome, grown⟩
  rw [hrun] at hwf hext hagrees hbind
  cases hagrees with
  | error e =>
    refine ⟨?_, ?_, ?_⟩
    · rwa [hbind]
    · rwa [hbind]
    · rw [hbind]
      exact .error e
  | ok hR =>
    obtain ⟨hwf', hext', hagrees'⟩ := hf _ _ grown hext hwf hR
    refine ⟨?_, ?_, ?_⟩
    · rwa [hbind]
    · rw [hbind]
      exact hext.trans hext'
    · rwa [hbind]

/-- Another value is made of what has been read. -/
theorem Follows.map {f : α → α'} {g : β → β'} (h : Follows forest reader result R)
    (hf : ∀ a b grown, forest.Extends grown → grown.WellFormed → R grown a b →
      S grown (f a) (g b)) :
    Follows forest (reader >>= fun a => pure (f a)) (result.map g) S := by
  have hmap : result.map g = result.bind fun b => .ok (g b) := by cases result <;> rfl
  rw [hmap]
  exact h.bind fun a b grown hext hwf hR => follows_pure hwf (hf a b grown hext hwf hR)

/-- What corresponds does so in every later forest. -/
def Persists (R : Forest → α → β → Prop) : Prop :=
  ∀ ⦃forest grown : Forest⦄, forest.WellFormed → grown.WellFormed → forest.Extends grown →
    ∀ ⦃a b⦄, R forest a b → R grown a b

/-- The members of a list correspond one by one. -/
theorem follows_storeEach (hR : Persists R) {γ : Type} {f : Nat → γ → Storing α}
    {g : Nat → γ → Except ReadError β}
    (h : ∀ forest, forest.WellFormed → ∀ number c, Follows forest (f number c) (g number c) R)
    (wf : forest.WellFormed) (number : Nat) (cs : List γ) :
    Follows forest (storeEach f number cs) (readEach g number cs) fun grown =>
      List.Forall₂ (R grown) := by
  induction cs generalizing forest number with
  | nil => exact follows_pure wf .nil
  | cons c cs ih =>
    rw [storeEach, readEach_cons_eq_bind]
    refine (h forest wf number c).bind fun a b grown _ hwf hab => ?_
    exact (ih hwf (number + 1)).map fun _ _ _ hext hwf' hothers =>
      .cons (hR hwf hwf' hext hab) hothers

end Follows

/-! ### What handles stand for -/

/-- The line is the same, with a handle that stands for its formula. -/
structure Draft.StandsFor (forest : Forest) (draft : Draft Handle)
    (read : Draft Formula) : Prop where
  formula : forest.StandsFor draft.formula read.formula
  rule : draft.rule = read.rule
  citations : draft.citations = read.citations
  depth : draft.depth = read.depth

theorem Forest.persists_standsFor : Persists Forest.StandsFor :=
  fun _ _ wf wf' hext _ _ h => hext.formula?_eq wf wf' h

theorem Draft.persists_standsFor : Persists Draft.StandsFor :=
  fun _ _ wf wf' hext _ _ h => { h with formula := Forest.persists_standsFor wf wf' hext h.formula }

variable {α β : Type} {R : Forest → α → β → Prop} {forest : Forest} {calculus : Calculus}

theorem follows_storeFormula (wf : forest.WellFormed) (calculus : Calculus) (location : Location)
    (text : String) : Follows forest (storeFormula calculus location text)
      (readFormula calculus location text) Forest.StandsFor := by
  obtain ⟨hwf, hext⟩ := wf.parse calculus text
  refine ⟨hwf, hext, ?_⟩
  rw [storeFormula, readFormula, Formula.parse, Forest.parse]
  cases Formula.read calculus text.toList with
  | error stuck => exact .error _
  | ok φ => exact .ok (wf.stored_intern φ).formula?_eq

theorem Agrees.refl {ε α : Type} (result : Except ε α) : Agrees Eq result result := by
  cases result with
  | error e => exact .error e
  | ok a => exact .ok rfl

theorem Entry.follows_store (wf : forest.WellFormed) (calculus : Calculus) (number : Nat)
    (entry : Entry) :
    Follows forest (entry.store calculus number) (entry.draft calculus number) Draft.StandsFor := by
  rw [Entry.store, Entry.draft_eq_bind]
  refine (follows_storeFormula wf calculus (.line number) entry.formula).bind
    fun h φ grown _ hwf hformula => ?_
  refine (follows_lift (R := fun _ => Eq) hwf (.refl (readRule number entry.rule))).bind
    fun _ rule later hext hwf' hrule => ?_
  refine (follows_lift (R := fun _ => Eq) hwf' (.refl (readCitations number entry.citations))).map
    fun _ citations last hext' hwf'' hcitations => ?_
  exact ⟨Forest.persists_standsFor hwf hwf'' (hext.trans hext') hformula, hrule, hcitations, rfl⟩

/-! ### Statements and documents -/

theorem Draft.StandsFor.line? {draft : Draft Handle} {read : Draft Formula}
    (h : draft.StandsFor forest read) (number : Nat) (scope : Scope) :
    forest.line? ⟨draft, number, scope⟩ = some ⟨read, number, scope⟩ := by
  obtain ⟨handle, rule, citations, depth⟩ := draft
  obtain ⟨hformula, rfl, rfl, rfl⟩ := h
  rw [Forest.line?, show forest.formula? handle = some read.formula from hformula]
  rfl

/-- Lines that correspond are laid out alike. -/
theorem Document.agrees_layOut {drafts : List (Draft Handle)} {read : List (Draft Formula)}
    (h : List.Forall₂ (Draft.StandsFor forest) drafts read) (number : Nat) (current : Scope) :
    Agrees (fun lines lines' => lines.mapM forest.line? = some lines')
      (layOut number current drafts) (layOut number current read) := by
  induction h generalizing number current with
  | nil => exact .ok rfl
  | @cons draft draft' drafts read hdraft _ ih =>
    have hplace : draft.place number current = draft'.place number current := by
      rw [Draft.place, Draft.place, hdraft.rule, hdraft.depth]
    rw [layOut, layOut, hplace]
    cases draft'.place number current with
    | error error => exact .error error
    | ok scope =>
      have hothers := ih (number + 1) scope
      revert hothers
      simp only
      generalize layOut (number + 1) scope drafts = lines
      generalize layOut (number + 1) scope read = lines'
      rintro (error | hlines)
      · exact .error error
      · exact .ok (by simp [hdraft.line?, hlines])

theorem Document.agrees_build {drafts : List (Draft Handle)} {read : List (Draft Formula)}
    (h : List.Forall₂ (Draft.StandsFor forest) drafts read) :
    Agrees (fun document document' => forest.document? document = some document')
      ((build drafts).mapError ReadError.nesting) ((build read).mapError ReadError.nesting) := by
  have hlines := agrees_layOut h 1 .root
  rw [build, build]
  revert hlines
  generalize layOut 1 .root drafts = lines
  generalize layOut 1 .root read = lines'
  rintro (error | hlines)
  · exact .error _
  · exact .ok (by simp [Forest.document?, hlines])

theorem persists_option (hR : Persists R) :
    Persists fun forest : Forest => Option.Rel (R forest) := by
  intro forest grown wf wf' hext a b h
  cases h with
  | none => exact .none
  | some h => exact .some (hR wf wf' hext h)

theorem persists_list (hR : Persists R) : Persists fun forest : Forest => List.Forall₂ (R forest) :=
  fun _ _ wf wf' hext _ _ h => h.imp fun _ _ h => hR wf wf' hext h

theorem Statement.persists_standsFor : Persists Statement.StandsFor :=
  fun _ _ wf wf' hext _ _ h =>
    ⟨persists_option (persists_list Forest.persists_standsFor) wf wf' hext h.premises,
      persists_option Forest.persists_standsFor wf wf' hext h.goal⟩

/-! ### Problems -/

namespace Problem

theorem follows_storeStatement (wf : forest.WellFormed) (calculus : Calculus) (problem : Problem) :
    Follows forest (problem.storeStatement calculus)
      (problem.statement calculus) Statement.StandsFor := by
  have hpremises : Follows forest (storePremises calculus problem.premises)
      (readPremises calculus problem.premises)
      fun grown => Option.Rel (List.Forall₂ grown.StandsFor) := by
    cases problem.premises with
    | none => exact follows_pure wf .none
    | some texts =>
      exact (follows_storeEach Forest.persists_standsFor
        (fun forest wf n text => follows_storeFormula wf calculus (.premise n) text) wf 1 texts).map
        fun _ _ _ _ _ h => .some h
  have hgoal {grown : Forest} (wf : grown.WellFormed) :
      Follows grown (storeGoal calculus problem.goal)
      (readGoal calculus problem.goal) fun later => Option.Rel later.StandsFor := by
    cases problem.goal with
    | none => exact follows_pure wf .none
    | some text =>
      exact (follows_storeFormula wf calculus .goal text).map fun _ _ _ _ _ h => .some h
  rw [storeStatement, statement_eq_bind]
  refine hpremises.bind fun _ _ grown _ hwf hstored =>
    (hgoal hwf).map fun _ _ _ hext hwf' h => ⟨?_, h⟩
  exact persists_option (persists_list Forest.persists_standsFor) hwf hwf' hext hstored

theorem follows_storeDocument (wf : forest.WellFormed) (calculus : Calculus) (problem : Problem) :
    Follows forest (problem.storeDocument calculus) (problem.document calculus)
      fun grown document read => grown.document? document = some read := by
  rw [storeDocument, document_eq_bind]
  refine (follows_storeEach Draft.persists_standsFor
    (fun forest wf n entry => entry.follows_store wf calculus n) wf 1 problem.lines).bind ?_
  exact fun _ _ _ _ hwf hdrafts => follows_lift hwf (Document.agrees_build hdrafts)

/-- Reading a problem into a forest comes to the same as reading it. -/
theorem follows_store (wf : forest.WellFormed) (calculus : Calculus) (problem : Problem) :
    Follows forest (problem.store calculus) (problem.read calculus) fun grown stored read =>
      grown.statement? stored.1 = some read.1 ∧ grown.document? stored.2 = some read.2 := by
  have hread : problem.read calculus = (problem.statement calculus).bind fun statement =>
      (problem.document calculus).map fun document => (statement, document) := by
    rw [Problem.read]
    cases problem.statement calculus <;> rfl
  rw [store, hread]
  refine (follows_storeStatement wf calculus problem).bind fun _ _ grown _ hwf hstatement => ?_
  refine (follows_storeDocument hwf calculus problem).map fun _ _ _ hext hwf' hdocument => ?_
  exact ⟨Forest.statement?_eq_some_iff.mpr (Statement.persists_standsFor hwf hwf' hext hstatement),
    hdocument⟩

/-- **A problem that is read into a forest reports its first fault.** It is stored if all its texts
can be read and the depths of its lines nest. Otherwise the error is the first fault in the
premises, the goal and the lines, or if they have none that of the first line that does not nest.
The forest plays no part in this, nor in what the handles stand for, which is what the problem comes
to without a forest. -/
theorem store_reports_first_fault (wf : forest.WellFormed) (calculus : Calculus)
    (problem : Problem) :
    let run := problem.store calculus forest
    ((∃ stored, run.1 = .ok stored) ↔ problem.Readable calculus) ∧
      (∀ error, run.1 = .error error ↔ problem.FirstFault calculus error) ∧
      ∀ statement document, run.1 = .ok (statement, document) →
        ∃ read proof, problem.read calculus = .ok (read, proof) ∧
          run.2.statement? statement = some read ∧ run.2.document? document = some proof := by
  intro run
  have hagrees := (follows_store wf calculus problem).agrees
  rw [← exists_read_iff]
  simp only [← read_eq_error_iff_firstFault]
  revert hagrees
  change Agrees _ run.1 _ → _
  generalize run.1 = outcome
  generalize problem.read calculus = result
  rintro (error | ⟨hstatement, hdocument⟩)
  · simp
  · refine ⟨by simp, by simp, ?_⟩
    rintro statement document ⟨⟩
    exact ⟨_, _, rfl, hstatement, hdocument⟩

/-- A problem with four faults: the goal and the first line are in order, the second line names no
rule, cites a range that decreases and is too deep, and the third breaks off. -/
def carelessNotes : Problem where
  id := "notes"
  calculus := .propositional
  premises := some ["P"]
  goal := some "Q"
  lines := [⟨"P", "premise", 0, []⟩, ⟨"P", "modus tollens", 2, ["5-2"]⟩, ⟨"P &", "reit", 0, []⟩]

/-- The unknown rule is the first of these faults. -/
theorem carelessNotes_reports_first_fault : Forest.empty.WellFormed ∧
    (carelessNotes.store .propositional .empty).1 = .error (.unknownRule 2 "modus tollens") := by
  have hp : Formula.parse .propositional "P" = .ok (.atom "P" []) := by decide +kernel
  have hq : Formula.parse .propositional "Q" = .ok (.atom "Q" []) := by decide +kernel
  have hpremise : ruleFaults 1 "premise" = [] := by decide
  have htollens : ruleFaults 2 "modus tollens" = [.unknownRule 2 "modus tollens"] := by decide
  have hfirst : (carelessNotes.faults .propositional).head? =
      some (.unknownRule 2 "modus tollens") := by
    simp [faults, statementFaults, lineFaults, Entry.faults, carelessNotes, formulaFaults, hp,
      hq, hpremise, htollens]
  obtain ⟨-, herror, -⟩ := store_reports_first_fault .empty .propositional carelessNotes
  exact ⟨.empty, (herror _).mpr (.inl hfirst)⟩

end Problem

end NaturalDeduction

import Mathlib.Data.List.Forall2
import NaturalDeduction.Proofs.Forest.Steps
import NaturalDeduction.Proofs.Verification.Relaxation
import NaturalDeduction.Proofs.Verification.Renaming

/-!
# Verifying proofs whose formulas are stored in a forest

A proof in a forest refers to its formulas by handles, and so do the premises and the goal of its
statement. It is verified without ever building a formula: citations are resolved to handles,
rules are checked on handles, and the goal is reached if the last line outside every subproof has
the handle of the goal. Only for the names that a premise or an assumption brings along is a
formula walked through.

In a well-formed forest the verdicts are those on the formulas that the handles stand for. This is a
refinement, and its one reason is that a formula has at most one handle. It fails in a forest that
stores a formula twice: there a line may cite the formula that it states and yet be refused, since
the two handles differ.

## What the two verifications share

Scopes, citations and the order of the lines do not depend on formulas at all, so both verifications
run through the same ones. What may differ are the lists of names that are fixed in a scope, which
the one collects from nodes and the other from formulas: their members are the same, and no rule
looks at more (`Progress.Alike`).

## Main definitions

* `Forest.statement?`, `Forest.document?`: what stored statements and proofs stand for
* `Forest.verify?`: the verdicts on a stored proof, found by handles
* `Progress.Alike`: the same scopes are open, with the same names fixed in them

## Main results

* `Forest.WellFormed.judge?_eq`, `Forest.WellFormed.judgeLines?_eq`: one line, and all lines
  from any point on
* `Forest.WellFormed.verify?_eq`: verification by handles is verification of what they stand for
-/

namespace NaturalDeduction

namespace Forest

/-! ### What handles stand for -/

section Meaning

variable (forest : Forest)

/-- The statement that a statement of handles stands for. -/
def statement? (statement : Statement Handle) : Option (Statement Formula) :=
  match statement.premises.mapM (List.mapM forest.formula?),
    statement.goal.mapM forest.formula? with
  | some premises, some goal => some ⟨premises, goal⟩
  | _, _ => none

/-- The line that a line with a handle stands for. -/
def line? (line : Line Handle) : Option (Line Formula) :=
  (forest.formula? line.formula).map fun φ => line.map fun _ => φ

/-- The document that a document of handles stands for. -/
def document? (document : Document Handle) : Option (Document Formula) :=
  (document.lines.mapM forest.line?).map Document.mk

/-- The handle stands for the formula. -/
def StandsFor (h : Handle) (φ : Formula) : Prop := forest.formula? h = some φ

end Meaning

end Forest

/-- The handles of a statement stand for the formulas of another. -/
structure Statement.StandsFor (forest : Forest) (statement : Statement Handle)
    (stated : Statement Formula) : Prop where
  premises : Option.Rel (List.Forall₂ forest.StandsFor) statement.premises stated.premises
  goal : Option.Rel forest.StandsFor statement.goal stated.goal

namespace Forest

section Reading

variable {α β : Type} {read : α → Option β} {forest : Forest}

theorem mapM_eq_some_iff {as : List α} {bs : List β} :
    as.mapM read = some bs ↔ List.Forall₂ (fun a b => read a = some b) as bs := by
  induction as generalizing bs with
  | nil => simp [eq_comm]
  | cons a as ih =>
    rw [List.forall₂_cons_left_iff, List.mapM_cons]
    simp only [Option.bind_eq_bind, Option.bind_eq_some_iff, Option.pure_def, Option.some.injEq, ih]
    constructor
    · rintro ⟨b, hb, others, hothers, rfl⟩
      exact ⟨b, others, hb, hothers, rfl⟩
    · rintro ⟨b, others, hb, hothers, rfl⟩
      exact ⟨b, hb, others, hothers, rfl⟩

theorem option_mapM_eq_some_iff {a : Option α} {b : Option β} :
    a.mapM read = some b ↔ Option.Rel (fun a b => read a = some b) a b := by
  cases a <;> cases b <;> simp

/-- A statement is read formula by formula. -/
theorem statement?_eq_some_iff {statement : Statement Handle} {stated : Statement Formula} :
    forest.statement? statement = some stated ↔ statement.StandsFor forest stated := by
  obtain ⟨premises, goal⟩ := stated
  have hpremises (premises : Option (List Formula)) :
      statement.premises.mapM (List.mapM forest.formula?) = some premises ↔
        Option.Rel (List.Forall₂ forest.StandsFor) statement.premises premises := by
    rw [option_mapM_eq_some_iff]
    simp only [mapM_eq_some_iff]
    rfl
  have hgoal (goal : Option Formula) : statement.goal.mapM forest.formula? = some goal ↔
      Option.Rel forest.StandsFor statement.goal goal := option_mapM_eq_some_iff
  constructor
  · intro hread
    rw [statement?] at hread
    split at hread
    next premises' goal' hpremises' hgoal' =>
      cases hread
      exact ⟨(hpremises _).mp hpremises', (hgoal _).mp hgoal'⟩
    next => cases hread
  · rintro ⟨hpremises', hgoal'⟩
    rw [statement?, (hpremises _).mpr hpremises', (hgoal _).mpr hgoal']

/-- A document is read line by line. -/
theorem document?_eq_some_iff {document : Document Handle} {proof : Document Formula} :
    forest.document? document = some proof ↔
      List.Forall₂ (fun line read => forest.line? line = some read) document.lines proof.lines := by
  rw [document?, Option.map_eq_some_iff, ← mapM_eq_some_iff]
  obtain ⟨lines⟩ := proof
  simp

end Reading

/-! ### Verification by handles -/

section Verifier

variable (forest : Forest)

/-- Before the first line the names of the declared premises are fixed. -/
def start? (premises : Option (List Handle)) : Option Progress := do
  let names ← (premises.getD []).mapM forest.walkNames?
  return .startWith names.flatten

/-- What a line opens and closes before it is judged. Only for an assumption are the names of its
formula looked up. -/
def enter? (progress : Progress) (line : Line Handle) : Option Progress :=
  if line.rule = .assumption then do
    let names ← forest.walkNames? line.formula
    return progress.enterWith names line
  else some (progress.enterWith [] line)

/-- What a line leaves behind after it has been judged. Only for a premise outside every subproof
are the names of its formula looked up. -/
def leave? (progress : Progress) (line : Line Handle) : Option Progress :=
  if line.rule = .premise ∧ line.depth = 0 then do
    let names ← forest.walkNames? line.formula
    return progress.leaveWith names line
  else some (progress.leaveWith [] line)

/-- The verdict on a line that the reading has entered. -/
def judge? (calculus : Calculus) (premises : Option (List Handle)) (document : Document Handle)
    (progress : Progress) (line : Line Handle) : Option Verdict :=
  match resolveAll document progress line line.citations with
  | .error verdict => some verdict
  | .ok cited =>
    (forest.check (line.step calculus premises progress cited)).map fun
      | .ok () => .valid
      | .error mismatch => .mismatch mismatch

/-- The verdicts on lines that follow the reading so far. -/
def judgeLines? (calculus : Calculus) (premises : Option (List Handle))
    (document : Document Handle) : Progress → List (Line Handle) → Option (List Verdict)
  | _, [] => some []
  | progress, line :: others => do
    let here ← forest.enter? progress line
    let verdict ← forest.judge? calculus premises document here line
    let next ← forest.leave? here line
    let verdicts ← judgeLines? calculus premises document next others
    return verdict :: verdicts

/-- Judges a stored proof of a stored statement. -/
def verify? (calculus : Calculus) (statement : Statement Handle) (document : Document Handle) :
    Option Verification := do
  let progress ← forest.start? statement.premises
  let verdicts ← forest.judgeLines? calculus statement.premises document progress document.lines
  return ⟨verdicts, goalStatus statement.goal document⟩

end Verifier

end Forest

/-! ### The same names in the same scopes -/

/-- The same scope with the same names, perhaps in another order or more often. -/
structure Frame.Alike (frame frame' : Frame) : Prop where
  scope : frame.scope = frame'.scope
  names : ∀ n, n ∈ frame.names ↔ n ∈ frame'.names

namespace Progress

/-- The same scopes are open, with the same names fixed in them, and the reading has come as far. -/
structure Alike (progress progress' : Progress) : Prop where
  frames : List.Forall₂ Frame.Alike progress.frames progress'.frames
  afterDerivation : progress.afterDerivation = progress'.afterDerivation

variable {α β : Type} {progress progress' : Progress} {names names' : List Name} {line : Line α}
  {line' : Line β}

theorem alike_startWith (hnames : ∀ n, n ∈ names ↔ n ∈ names') :
    (startWith names).Alike (startWith names') :=
  ⟨.cons ⟨rfl, hnames⟩ .nil, rfl⟩

theorem Alike.mem_contextNames_iff (h : progress.Alike progress') (n : Name) :
    n ∈ progress.contextNames ↔ n ∈ progress'.contextNames := by
  obtain ⟨frames, afterDerivation⟩ := progress
  obtain ⟨frames', afterDerivation'⟩ := progress'
  obtain ⟨_ | ⟨hframe, -⟩, -⟩ := h
  · rfl
  · exact hframe.names n

theorem Alike.isVisible_eq (h : progress.Alike progress') (s : Scope) :
    progress.isVisible s = progress'.isVisible s := by
  obtain ⟨frames, afterDerivation⟩ := progress
  obtain ⟨frames', afterDerivation'⟩ := progress'
  obtain ⟨hframes, -⟩ := h
  simp only [isVisible] at hframes ⊢
  induction hframes with
  | nil => rfl
  | cons hframe _ ih => simp only [List.any_cons, hframe.scope, ih]

/-- Closing scopes from the inside leaves the outer ones as they are. -/
theorem Alike.outermost (h : progress.Alike progress') (n : Nat) :
    ({ progress with frames := Scope.outermost n progress.frames } : Progress).Alike
      { progress' with frames := Scope.outermost n progress'.frames } := by
  refine ⟨?_, h.afterDerivation⟩
  rw [Scope.outermost, Scope.outermost, h.frames.length_eq]
  exact List.forall₂_drop _ h.frames

/-- An assumption brings the same names on both sides. -/
theorem Alike.enterWith (h : progress.Alike progress') (hrule : line.rule = line'.rule)
    (hdepth : line.depth = line'.depth) (hscope : line.scope = line'.scope)
    (hnames : line'.rule = .assumption → ∀ n, n ∈ names ↔ n ∈ names') :
    (progress.enterWith names line).Alike (progress'.enterWith names' line') := by
  rw [Progress.enterWith, Progress.enterWith, hrule, hdepth, hscope]
  by_cases hassumption : line'.rule = .assumption
  · have houter := h.outermost line'.depth
    rw [if_pos hassumption, if_pos hassumption]
    refine ⟨.cons ⟨rfl, fun n => ?_⟩ houter.frames, houter.afterDerivation⟩
    rw [List.mem_append, List.mem_append, houter.mem_contextNames_iff n, hnames hassumption n]
  · rw [if_neg hassumption, if_neg hassumption]
    exact h.outermost _

theorem forall₂_addToRoot (hnames : ∀ n, n ∈ names ↔ n ∈ names') {frames frames' : List Frame}
    (h : List.Forall₂ Frame.Alike frames frames') :
    List.Forall₂ Frame.Alike (addToRoot names frames) (addToRoot names' frames') := by
  induction h with
  | nil => exact .nil
  | cons hframe hothers ih =>
    cases hothers with
    | nil => exact .cons ⟨hframe.scope, fun n => by simp [hframe.names, hnames]⟩ .nil
    | cons hnext hothers => exact .cons hframe ih

/-- A premise brings the same names on both sides. -/
theorem Alike.leaveWith (h : progress.Alike progress') (hrule : line.rule = line'.rule)
    (hdepth : line.depth = line'.depth)
    (hnames : line'.rule = .premise ∧ line'.depth = 0 → ∀ n, n ∈ names ↔ n ∈ names') :
    (progress.leaveWith names line).Alike (progress'.leaveWith names' line') := by
  rw [Progress.leaveWith, Progress.leaveWith, hrule, hdepth]
  by_cases hpremise : line'.rule = .premise
  · rw [if_pos hpremise, if_pos hpremise]
    by_cases hzero : line'.depth = 0
    · rw [if_pos hzero, if_pos hzero]
      exact ⟨forall₂_addToRoot (hnames ⟨hpremise, hzero⟩) h.frames, h.afterDerivation⟩
    · rw [if_neg hzero, if_neg hzero]
      exact h
  · rw [if_neg hpremise, if_neg hpremise]
    exact ⟨h.frames, rfl⟩

end Progress

namespace Forest

/-! ### One line and all lines -/

section Agreement

open Reference

variable {forest : Forest} {progress progress' : Progress} {document : Document forest.Reference}
  {line : Line forest.Reference} {premises : Option (List forest.Reference)}

/-- The names that a walk finds are those of the formula. -/
theorem Reference.walkNames?_handle (a : forest.Reference) :
    forest.walkNames? a.handle = some a.formula.sortedFreeNames := by
  rw [Forest.walkNames?_eq, freeNames?, a.reads, Option.map_some]

theorem exists_start? (premises : Option (List forest.Reference)) :
    ∃ progress, forest.start? (premises.map (List.map handle)) = some progress ∧
      progress.Alike (.start (premises.map (List.map formula))) := by
  refine ⟨.startWith ((premises.getD []).map fun a => a.formula.sortedFreeNames).flatten, ?_, ?_⟩
  · cases premises with
    | none => rfl
    | some references => simp [start?, mapM_map_eq_some walkNames?_handle]
  · refine Progress.alike_startWith fun n => ?_
    cases premises <;> simp [Formula.mem_sortedFreeNames]

theorem exists_enter? (h : progress.Alike progress') (line : Line forest.Reference) :
    ∃ here, forest.enter? progress (line.map handle) = some here ∧
      here.Alike (progress'.enter (line.map formula)) := by
  by_cases hrule : line.rule = .assumption
  · refine ⟨progress.enterWith line.formula.formula.sortedFreeNames (line.map handle), ?_, ?_⟩
    · rw [enter?, if_pos (show (line.map handle).rule = .assumption from hrule),
        show (line.map handle).formula = line.formula.handle from rfl, walkNames?_handle]
      rfl
    · exact h.enterWith rfl rfl rfl fun _ _ => Formula.mem_sortedFreeNames
  · refine ⟨progress.enterWith [] (line.map handle), if_neg hrule, ?_⟩
    exact h.enterWith rfl rfl rfl fun h => absurd h hrule

theorem exists_leave? (h : progress.Alike progress') (line : Line forest.Reference) :
    ∃ next, forest.leave? progress (line.map handle) = some next ∧
      next.Alike (progress'.leave (line.map formula)) := by
  by_cases hpremise : line.rule = .premise ∧ line.depth = 0
  · refine ⟨progress.leaveWith line.formula.formula.sortedFreeNames (line.map handle), ?_, ?_⟩
    · have hpremise' : (line.map handle).rule = .premise ∧ (line.map handle).depth = 0 := hpremise
      rw [leave?, if_pos hpremise', show (line.map handle).formula = line.formula.handle from rfl,
        walkNames?_handle]
      rfl
    · exact h.leaveWith rfl rfl fun _ _ => Formula.mem_sortedFreeNames
  · refine ⟨progress.leaveWith [] (line.map handle), if_neg hpremise, ?_⟩
    exact h.leaveWith rfl rfl fun h => absurd h hpremise

/-- **One line.** What a line cites is the same on both sides, and its rule answers alike. -/
theorem WellFormed.judge?_eq (wf : forest.WellFormed) (h : progress.Alike progress')
    (calculus : Calculus) :
    forest.judge? calculus (premises.map (List.map handle)) (document.map handle) progress
        (line.map handle) =
      some (judge calculus (premises.map (List.map formula)) (document.map formula) progress'
        (line.map formula)) := by
  have hvisible (s : Scope) : progress'.isVisible s = progress.isVisible s :=
    (h.isVisible_eq s).symm
  rw [judge?, judge, show (line.map handle).citations = line.citations from rfl,
    show (line.map formula).citations = line.citations from rfl, resolveAll_map,
    resolveAll_congr fun c _ => resolve_congr_of_isVisible hvisible c, resolveAll_map]
  cases resolveAll document progress line line.citations with
  | error verdict => rfl
  | ok cited =>
    let step := line.step calculus premises progress cited
    have hhandles : forest.check (step.map handle) = some (step.map formula).check :=
      wf.check_eq step
    -- on the other side the fixed names come in another list, and nothing else differs
    have hformulas : (line.map formula).step calculus (premises.map (List.map formula)) progress'
        (cited.map (Cited.map formula)) =
          { step.map formula with contextNames := progress'.contextNames } := by
      rw [Line.step, ← h.afterDerivation]
      rfl
    have hcheck : ((line.map formula).step calculus (premises.map (List.map formula)) progress'
        (cited.map (Cited.map formula))).check = (step.map formula).check := by
      rw [hformulas]
      exact Step.check_congr_of_mem_contextNames fun n => (h.mem_contextNames_iff n).symm
    change (forest.check (step.map handle)).map _ = _
    simp only [Line.step] at hcheck
    cases hanswer : (step.map formula).check with
    | ok answer => simp only [hhandles, Except.map, hcheck, hanswer, Option.map_some]
    | error mismatch => simp only [hhandles, Except.map, hcheck, hanswer, Option.map_some]

/-- **All lines**, from any point of the proof on. -/
theorem WellFormed.judgeLines?_eq (wf : forest.WellFormed) (h : progress.Alike progress')
    (calculus : Calculus) (lines : List (Line forest.Reference)) :
    forest.judgeLines? calculus (premises.map (List.map handle)) (document.map handle) progress
        (lines.map (Line.map handle)) =
      some (judgeLines calculus (premises.map (List.map formula)) (document.map formula) progress'
        (lines.map (Line.map formula))) := by
  induction lines generalizing progress progress' with
  | nil => rfl
  | cons line others ih =>
    obtain ⟨here, henter, hhere⟩ := exists_enter? h line
    obtain ⟨next, hleave, hnext⟩ := exists_leave? hhere line
    simp only [List.map_cons, judgeLines?, judgeLines, henter, hleave, wf.judge?_eq hhere, ih hnext,
      Option.bind_eq_bind, Option.bind_some, Option.pure_def]

/-! ### Whole proofs -/

/-- Verification over references, by handles and by formulas. -/
theorem WellFormed.verify?_map (wf : forest.WellFormed) (calculus : Calculus)
    (statement : Statement forest.Reference) (document : Document forest.Reference) :
    forest.verify? calculus (statement.map handle) (document.map handle) =
      some (verify calculus (statement.map formula) (document.map formula)) := by
  obtain ⟨progress, hstart, h⟩ := exists_start? statement.premises
  have hgoal : goalStatus (statement.goal.map handle) (document.map handle) =
      goalStatus (statement.goal.map formula) (document.map formula) :=
    goalStatus_map (fun a b => wf.eq_iff a.reads b.reads) statement.goal document
  simp only [verify?, verify, Statement.map, Document.lines_map, hstart, wf.judgeLines?_eq h, hgoal,
    Option.bind_eq_bind, Option.bind_some, Option.pure_def]

/-- The formulas that handles stand for can be kept together with the handles. -/
theorem exists_map_of_forall₂ {α β γ : Type} {R : α → β → Prop} {f : γ → α} {g : γ → β}
    (h : ∀ {a b}, R a b → ∃ c, f c = a ∧ g c = b) {as : List α} {bs : List β}
    (hall : List.Forall₂ R as bs) : ∃ cs : List γ, cs.map f = as ∧ cs.map g = bs := by
  induction hall with
  | nil => exact ⟨[], rfl, rfl⟩
  | cons hhead _ ih =>
    obtain ⟨c, rfl, rfl⟩ := h hhead
    obtain ⟨cs, rfl, rfl⟩ := ih
    exact ⟨c :: cs, rfl, rfl⟩

theorem exists_map_of_rel {α β γ : Type} {R : α → β → Prop} {f : γ → α} {g : γ → β}
    (h : ∀ {a b}, R a b → ∃ c, f c = a ∧ g c = b) {a : Option α} {b : Option β}
    (hrel : Option.Rel R a b) : ∃ c : Option γ, c.map f = a ∧ c.map g = b := by
  cases hrel with
  | none => exact ⟨none, rfl, rfl⟩
  | some hab =>
    obtain ⟨c, rfl, rfl⟩ := h hab
    exact ⟨some c, rfl, rfl⟩

theorem exists_reference {a : Handle} {φ : Formula} (h : forest.StandsFor a φ) :
    ∃ reference : forest.Reference, reference.handle = a ∧ reference.formula = φ :=
  ⟨⟨a, φ, h⟩, rfl, rfl⟩

theorem exists_line_map {line : Line Handle} {read : Line Formula}
    (h : forest.line? line = some read) :
    ∃ references : Line forest.Reference, references.map handle = line ∧
      references.map formula = read := by
  obtain ⟨φ, hφ, rfl⟩ := Option.map_eq_some_iff.mp h
  exact ⟨line.map fun _ => ⟨line.formula, φ, hφ⟩, rfl, rfl⟩

theorem exists_document_map {document : Document Handle} {proof : Document Formula}
    (h : forest.document? document = some proof) :
    ∃ references : Document forest.Reference,
      references.map handle = document ∧ references.map formula = proof := by
  obtain ⟨lines, hhandles, hformulas⟩ :=
    exists_map_of_forall₂ exists_line_map (document?_eq_some_iff.mp h)
  exact ⟨⟨lines⟩, congrArg Document.mk hhandles, congrArg Document.mk hformulas⟩

theorem exists_statement_map {statement : Statement Handle} {stated : Statement Formula}
    (h : forest.statement? statement = some stated) :
    ∃ references : Statement forest.Reference,
      references.map handle = statement ∧ references.map formula = stated := by
  have hstands := statement?_eq_some_iff.mp h
  obtain ⟨premises, hpremises, hpremises'⟩ :=
    exists_map_of_rel (exists_map_of_forall₂ exists_reference) hstands.premises
  obtain ⟨goal, hgoal, hgoal'⟩ := exists_map_of_rel exists_reference hstands.goal
  exact ⟨⟨premises, goal⟩, by rw [Statement.map, hpremises, hgoal], by
    rw [Statement.map, hpremises', hgoal']⟩

/-- **Verification by handles is verification of what they stand for.** In a well-formed forest a
stored proof of a stored statement gets the verdicts that the formulas get, and reaches its goal
exactly if they do: that a formula is compared by its handle cannot be seen from outside. -/
theorem WellFormed.verify?_eq (wf : forest.WellFormed) (calculus : Calculus)
    {statement : Statement Handle} {document : Document Handle} {stated : Statement Formula}
    {proof : Document Formula} (hstatement : forest.statement? statement = some stated)
    (hdocument : forest.document? document = some proof) :
    forest.verify? calculus statement document = some (verify calculus stated proof) := by
  obtain ⟨statement, rfl, rfl⟩ := exists_statement_map hstatement
  obtain ⟨document, rfl, rfl⟩ := exists_document_map hdocument
  exact wf.verify?_map calculus statement document

/-- In a forest that holds `P` twice, a line that repeats the premise is refused if it does so by
the other handle, although on formulas it stands. -/
example : (⟨#[.atom "P" [], .atom "P" []], ∅⟩ : Forest).verify? .propositional ⟨none, none⟩
    ⟨[⟨⟨0, .premise, [], 0⟩, 1, []⟩, ⟨⟨1, .reiteration, [.line 1], 0⟩, 2, []⟩]⟩ =
      some ⟨[.valid, .mismatch (.requirement .conclusionRepeatsLine)], .undeclared⟩ := by
  decide +kernel

end Agreement

end Forest

end NaturalDeduction

import Mathlib.Data.List.Forall2
import NaturalDeduction.Proofs.Document.Laminarity
import NaturalDeduction.Proofs.Grading.Reading

/-!
# The first fault of a problem

A problem may have many faults at once. Reading it stops at the first, and that is the one reported.
To say which one that is, all faults are listed here, without stopping at any, in the order in which
their texts stand: the premises, the goal, and line by line the formula, the rule and the citations.

Nesting comes after all this. Whether depths nest can only be asked of lines whose rules are
known, so it counts only if the list is empty; and then the line that is reported is the first
that does not fit.

## Main definitions

* `Reports`: a result is that of a reader which stops at the first of some faults
* `Problem.faults`: all faults in the texts of a problem, in order
* `Problem.Readable`: nothing is wrong with a problem
* `Problem.FirstFault`: what is wrong with a problem first

## Main results

* `Problem.exists_read_iff`: a problem is read if nothing is wrong with it
* `Problem.read_eq_error_iff_firstFault`: otherwise its first fault is reported
-/

namespace NaturalDeduction

/-! ### Readers that stop at the first fault -/

section Reports

variable {ε ε' α β : Type} {result : Except ε α} {faults others : List ε}

/-- The result is that of a reader which stops at the first of the faults. -/
def Reports (result : Except ε α) (faults : List ε) : Prop :=
  match result with
  | .ok _ => faults = []
  | .error e => faults.head? = some e

theorem Reports.map (h : Reports result faults) (f : α → β) : Reports (result.map f) faults := by
  cases result <;> exact h

theorem Reports.mapError (h : Reports result faults) (f : ε → ε') :
    Reports (result.mapError f) (faults.map f) := by
  cases result with
  | error e =>
    have hhead : faults.head? = some e := h
    simp [Reports, Except.mapError, hhead]
  | ok a =>
    have hnil : faults = [] := h
    simp [Reports, Except.mapError, hnil]

theorem bind_ok_iff {f : α → Except ε β} {b : β} :
    result.bind f = .ok b ↔ ∃ a, result = .ok a ∧ f a = .ok b := by
  cases result <;> simp [Except.bind]

/-- The faults of two readers, one behind the other, are those of the first and then those
of the second. -/
theorem Reports.bind {f : α → Except ε β} (h : Reports result faults)
    (hf : ∀ a, result = .ok a → Reports (f a) others) :
    Reports (result.bind f) (faults ++ others) := by
  cases result with
  | error e =>
    have hhead : faults.head? = some e := h
    simp [Reports, Except.bind, List.head?_append, hhead]
  | ok a =>
    obtain rfl : faults = [] := h
    exact hf a rfl

theorem Reports.exists_eq_ok_iff (h : Reports result faults) :
    (∃ a, result = .ok a) ↔ faults = [] := by
  cases result with
  | error e =>
    have hhead : faults.head? = some e := h
    refine iff_of_false nofun ?_
    rintro rfl
    cases hhead
  | ok a => exact iff_of_true ⟨a, rfl⟩ h

theorem Reports.eq_error_iff (h : Reports result faults) {e : ε} :
    result = .error e ↔ faults.head? = some e := by
  cases result with
  | error e' =>
    have hhead : faults.head? = some e' := h
    rw [hhead, Except.error.injEq, Option.some.injEq]
  | ok a =>
    obtain rfl : faults = [] := h
    exact iff_of_false nofun nofun

theorem readEach_cons_eq_bind (f : Nat → α → Except ε β) (number : Nat) (a : α) (as : List α) :
    readEach f number (a :: as) =
      (f number a).bind fun b => (readEach f (number + 1) as).map (b :: ·) := by
  rw [readEach]
  cases f number a with
  | error => rfl
  | ok b => cases readEach f (number + 1) as <;> rfl

/-- The faults in a list are those of its members, from left to right. -/
theorem reports_readEach {f : Nat → α → Except ε β} {faults : Nat → α → List ε}
    (h : ∀ number a, Reports (f number a) (faults number a)) (number : Nat) (as : List α) :
    Reports (readEach f number as) ((as.zipIdx number).flatMap fun (a, n) => faults n a) := by
  induction as generalizing number with
  | nil => rfl
  | cons a as ih =>
    rw [readEach_cons_eq_bind, List.zipIdx_cons, List.flatMap_cons]
    exact (h number a).bind fun b _ => (ih (number + 1)).map (b :: ·)

end Reports

/-! ### All faults -/

/-- What is wrong with the formula at a location. -/
def formulaFaults (calculus : Calculus) (location : Location) (text : String) : List ReadError :=
  match Formula.parse calculus text with
  | .ok _ => []
  | .error error => [.formula location text error]

/-- What is wrong with the name of a rule in a line. -/
def ruleFaults (number : Nat) (name : String) : List ReadError :=
  match Rule.ofName? name with
  | some _ => []
  | none => [.unknownRule number name]

/-- What is wrong with a text as a citation. -/
def citationErrors (text : String) : List CitationError :=
  match Citation.parse text with
  | .ok _ => []
  | .error error => [error]

/-- All faults in a line, from left to right. -/
def Entry.faults (calculus : Calculus) (number : Nat) (entry : Entry) : List ReadError :=
  formulaFaults calculus (.line number) entry.formula ++ ruleFaults number entry.rule ++
    (entry.citations.flatMap citationErrors).map (.citation number)

namespace Problem

/-- All faults in the premises and the goal, in order; premises are numbered from 1. -/
def statementFaults (calculus : Calculus) (problem : Problem) : List ReadError :=
  (((problem.premises.getD []).zipIdx 1).flatMap fun (text, n) =>
    formulaFaults calculus (.premise n) text) ++
  problem.goal.toList.flatMap (formulaFaults calculus .goal)

/-- All faults in the lines, in order; lines are numbered from 1. -/
def lineFaults (calculus : Calculus) (problem : Problem) : List ReadError :=
  (problem.lines.zipIdx 1).flatMap fun (entry, n) => entry.faults calculus n

/-- All faults in the texts of a problem, in order. -/
def faults (calculus : Calculus) (problem : Problem) : List ReadError :=
  problem.statementFaults calculus ++ problem.lineFaults calculus

end Problem

variable {calculus : Calculus}

theorem reports_readFormula (calculus : Calculus) (location : Location) (text : String) :
    Reports (readFormula calculus location text) (formulaFaults calculus location text) := by
  rw [readFormula, formulaFaults]
  cases Formula.parse calculus text <;> rfl

/-! ### Readers one behind the other -/

/-- The citations of a line. -/
def readCitations (number : Nat) (texts : List String) : Except ReadError (List Citation) :=
  (readEach (fun _ text => Citation.parse text) 0 texts).mapError (.citation number)

/-- The rule of a line. -/
def readRule (number : Nat) (name : String) : Except ReadError Rule :=
  match Rule.ofName? name with
  | none => .error (.unknownRule number name)
  | some rule => .ok rule

theorem Entry.draft_eq_bind (calculus : Calculus) (number : Nat) (entry : Entry) :
    entry.draft calculus number =
      (readFormula calculus (.line number) entry.formula).bind fun formula =>
        (readRule number entry.rule).bind fun rule =>
          (readCitations number entry.citations).map fun citations =>
            { formula, rule, citations, depth := entry.depth } := by
  rw [Entry.draft, readRule, readCitations]
  cases readFormula calculus (.line number) entry.formula with
  | error => rfl
  | ok formula =>
    cases Rule.ofName? entry.rule with
    | none => rfl
    | some rule => cases readEach (fun _ text => Citation.parse text) 0 entry.citations <;> rfl

theorem reports_readCitations (number : Nat) (texts : List String) :
    Reports (readCitations number texts)
      ((texts.flatMap citationErrors).map (.citation number)) := by
  have hcitation (_ : Nat) (text : String) :
      Reports (Citation.parse text) (citationErrors text) := by
    rw [citationErrors]
    cases Citation.parse text <;> rfl
  have hall := (reports_readEach hcitation 0 texts).mapError (ReadError.citation number)
  rwa [← List.flatMap_map Prod.fst citationErrors, List.zipIdx_map_fst] at hall

theorem Entry.reports_draft (calculus : Calculus) (number : Nat) (entry : Entry) :
    Reports (entry.draft calculus number) (entry.faults calculus number) := by
  rw [Entry.draft_eq_bind, Entry.faults, List.append_assoc]
  refine (reports_readFormula calculus (.line number) entry.formula).bind fun formula _ => ?_
  refine Reports.bind ?_ fun rule _ => (reports_readCitations number entry.citations).map _
  rw [readRule, ruleFaults]
  cases Rule.ofName? entry.rule <;> rfl

namespace Problem

variable {problem : Problem}

theorem statement_eq_bind (calculus : Calculus) (problem : Problem) :
    problem.statement calculus =
      (readPremises calculus problem.premises).bind fun premises =>
        (readGoal calculus problem.goal).map fun goal => ⟨premises, goal⟩ := by
  rw [statement]
  cases readPremises calculus problem.premises <;> rfl

theorem document_eq_bind (calculus : Calculus) (problem : Problem) :
    problem.document calculus =
      (readEach (fun n entry => entry.draft calculus n) 1 problem.lines).bind fun drafts =>
        (Document.build drafts).mapError .nesting := by
  rw [document]
  cases readEach (fun n entry => entry.draft calculus n) 1 problem.lines <;> rfl

theorem reports_statement (calculus : Calculus) (problem : Problem) :
    Reports (problem.statement calculus) (problem.statementFaults calculus) := by
  rw [statement_eq_bind, statementFaults]
  refine Reports.bind ?_ fun premises _ => Reports.map ?_ _
  · cases problem.premises with
    | none => rfl
    | some texts =>
      exact (reports_readEach (fun n text => reports_readFormula calculus (.premise n) text) 1
        texts).map some
  · cases problem.goal with
    | none => rfl
    | some text =>
      rw [Option.toList_some, List.flatMap_singleton]
      exact (reports_readFormula calculus .goal text).map some

theorem reports_drafts (calculus : Calculus) (problem : Problem) :
    Reports (readEach (fun n entry => entry.draft calculus n) 1 problem.lines)
      (problem.lineFaults calculus) :=
  reports_readEach (fun n entry => entry.reports_draft calculus n) 1 problem.lines

end Problem

/-! ### Texts without faults -/

theorem formulaFaults_eq_nil_iff {location : Location} {text : String} :
    formulaFaults calculus location text = [] ↔ ∃ φ, Formula.parse calculus text = .ok φ := by
  rw [formulaFaults]
  cases Formula.parse calculus text <;> simp

theorem ruleFaults_eq_nil_iff {number : Nat} {name : String} :
    ruleFaults number name = [] ↔ ∃ rule, Rule.ofName? name = some rule := by
  rw [ruleFaults]
  cases Rule.ofName? name <;> simp

theorem citationErrors_eq_nil_iff {text : String} :
    citationErrors text = [] ↔ ∃ c, Citation.parse text = .ok c := by
  rw [citationErrors]
  cases Citation.parse text <;> simp

theorem forall_mem_zipIdx_iff {α : Type} (P : α → Prop) {as : List α} {n : Nat} :
    (∀ p ∈ as.zipIdx n, P p.1) ↔ ∀ a ∈ as, P a := by
  rw [← List.forall_mem_map (f := Prod.fst), List.zipIdx_map_fst]

/-- The draft is what an entry writes. -/
structure Entry.Writes (calculus : Calculus) (entry : Entry) (draft : Draft Formula) : Prop where
  formula : Formula.parse calculus entry.formula = .ok draft.formula
  rule : Rule.ofName? entry.rule = some draft.rule
  citations :
    List.Forall₂ (fun text c => Citation.parse text = .ok c) entry.citations draft.citations
  depth : draft.depth = entry.depth

/-- A list is read if all its members are. -/
theorem readEach_eq_ok_iff {α β ε : Type} {f : Nat → α → Except ε β} {R : α → β → Prop}
    (h : ∀ n a b, f n a = .ok b ↔ R a b) {number : Nat} {as : List α} {bs : List β} :
    readEach f number as = .ok bs ↔ List.Forall₂ R as bs := by
  induction as generalizing number bs with
  | nil => simp [readEach, eq_comm]
  | cons a as ih =>
    rw [readEach_cons_eq_bind, List.forall₂_cons_left_iff]
    simp only [bind_ok_iff, map_eq_ok_iff, h, ih]
    constructor
    · rintro ⟨b, hb, others, hothers, rfl⟩
      exact ⟨b, others, hb, hothers, rfl⟩
    · rintro ⟨b, others, hb, hothers, rfl⟩
      exact ⟨b, hb, others, hothers, rfl⟩

theorem readRule_eq_ok_iff {number : Nat} {name : String} {rule : Rule} :
    readRule number name = .ok rule ↔ Rule.ofName? name = some rule := by
  rw [readRule]
  cases Rule.ofName? name <;> simp

theorem Entry.draft_eq_ok_iff {number : Nat} {entry : Entry} {draft : Draft Formula} :
    entry.draft calculus number = .ok draft ↔ entry.Writes calculus draft := by
  have hcitations {citations : List Citation} :
      readCitations number entry.citations = .ok citations ↔
        List.Forall₂ (fun text c => Citation.parse text = .ok c) entry.citations citations := by
    rw [readCitations, mapError_eq_ok_iff]
    exact readEach_eq_ok_iff (R := fun text c => Citation.parse text = .ok c) fun _ _ _ => Iff.rfl
  simp only [draft_eq_bind, bind_ok_iff, map_eq_ok_iff, readFormula_eq_ok_iff, readRule_eq_ok_iff,
    hcitations]
  constructor
  · rintro ⟨formula, hformula, rule, hrule, citations, hcitations, rfl⟩
    exact ⟨hformula, hrule, hcitations, rfl⟩
  · obtain ⟨formula, rule, citations, depth⟩ := draft
    rintro ⟨hformula, hrule, hcitations, rfl⟩
    exact ⟨formula, hformula, rule, hrule, citations, hcitations, rfl⟩

namespace Problem

variable {problem : Problem}

/-- Nothing is wrong with a problem: all its texts can be read, and the depths of its lines nest. -/
structure Readable (calculus : Calculus) (problem : Problem) : Prop where
  premises : ∀ texts, problem.premises = some texts → ∀ text ∈ texts,
    ∃ φ, Formula.parse calculus text = .ok φ
  goal : ∀ text, problem.goal = some text → ∃ φ, Formula.parse calculus text = .ok φ
  formulas : ∀ entry ∈ problem.lines, ∃ φ, Formula.parse calculus entry.formula = .ok φ
  rules : ∀ entry ∈ problem.lines, ∃ rule, Rule.ofName? entry.rule = some rule
  citations : ∀ entry ∈ problem.lines, ∀ text ∈ entry.citations, ∃ c, Citation.parse text = .ok c
  nested : ∃ drafts, List.Forall₂ (Entry.Writes calculus) problem.lines drafts ∧ WellNested 0 drafts

/-- What is wrong with a problem first: the first fault in its texts or, if there is none, the first
line that may not follow the line before it. -/
def FirstFault (calculus : Calculus) (problem : Problem) (error : ReadError) : Prop :=
  (problem.faults calculus).head? = some error ∨
    problem.faults calculus = [] ∧
      ∃ drafts, List.Forall₂ (Entry.Writes calculus) problem.lines drafts ∧
        ∃ nesting, NaturalDeduction.FirstFault 1 0 drafts nesting ∧ error = .nesting nesting

theorem statementFaults_eq_nil_iff : problem.statementFaults calculus = [] ↔
    (∀ texts, problem.premises = some texts →
      ∀ text ∈ texts, ∃ φ, Formula.parse calculus text = .ok φ) ∧
      ∀ text, problem.goal = some text → ∃ φ, Formula.parse calculus text = .ok φ := by
  simp only [statementFaults, List.append_eq_nil_iff, List.flatMap_eq_nil_iff,
    formulaFaults_eq_nil_iff]
  rw [forall_mem_zipIdx_iff fun text => ∃ φ, Formula.parse calculus text = .ok φ]
  refine and_congr ?_ (by simp)
  cases problem.premises <;> simp

theorem lineFaults_eq_nil_iff : problem.lineFaults calculus = [] ↔
    ∀ entry ∈ problem.lines, ((∃ φ, Formula.parse calculus entry.formula = .ok φ) ∧
      ∃ rule, Rule.ofName? entry.rule = some rule) ∧
        ∀ text ∈ entry.citations, ∃ c, Citation.parse text = .ok c := by
  simp only [lineFaults, Entry.faults, List.append_eq_nil_iff, List.flatMap_eq_nil_iff,
    List.map_eq_nil_iff, formulaFaults_eq_nil_iff, ruleFaults_eq_nil_iff, citationErrors_eq_nil_iff]
  exact forall_mem_zipIdx_iff fun entry : Entry =>
    ((∃ φ, Formula.parse calculus entry.formula = .ok φ) ∧
    ∃ rule, Rule.ofName? entry.rule = some rule) ∧
      ∀ text ∈ entry.citations, ∃ c, Citation.parse text = .ok c

theorem faults_eq_nil_iff : problem.faults calculus = [] ↔
    problem.statementFaults calculus = [] ∧ problem.lineFaults calculus = [] :=
  List.append_eq_nil_iff

theorem readable_iff : problem.Readable calculus ↔ problem.faults calculus = [] ∧
    ∃ drafts, List.Forall₂ (Entry.Writes calculus) problem.lines drafts ∧ WellNested 0 drafts := by
  rw [faults_eq_nil_iff, statementFaults_eq_nil_iff, lineFaults_eq_nil_iff]
  constructor
  · intro h
    exact ⟨⟨⟨h.premises, h.goal⟩, fun entry hentry =>
      ⟨⟨h.formulas entry hentry, h.rules entry hentry⟩, h.citations entry hentry⟩⟩, h.nested⟩
  · rintro ⟨⟨⟨hpremises, hgoal⟩, hlines⟩, hnested⟩
    exact ⟨hpremises, hgoal, fun entry hentry => (hlines entry hentry).1.1,
      fun entry hentry => (hlines entry hentry).1.2, fun entry hentry =>
        (hlines entry hentry).2, hnested⟩

theorem readDrafts_eq_ok_iff {drafts : List (Draft Formula)} :
    readEach (fun n entry => entry.draft calculus n) 1 problem.lines = .ok drafts ↔
      List.Forall₂ (Entry.Writes calculus) problem.lines drafts :=
  readEach_eq_ok_iff (R := Entry.Writes calculus) fun _ _ _ => Entry.draft_eq_ok_iff

/-- The lines of a problem write one list of drafts at most. -/
theorem exists_drafts_iff {drafts : List (Draft Formula)} {P : List (Draft Formula) → Prop}
    (hdrafts : List.Forall₂ (Entry.Writes calculus) problem.lines drafts) :
    (∃ drafts, List.Forall₂ (Entry.Writes calculus) problem.lines drafts ∧ P drafts) ↔
      P drafts := by
  constructor
  · rintro ⟨others, hothers, hP⟩
    rw [← readDrafts_eq_ok_iff] at hdrafts hothers
    rwa [Except.ok.inj (hdrafts.symm.trans hothers)]
  · exact fun hP => ⟨drafts, hdrafts, hP⟩

/-- A problem is read up to its first fault, and if its texts have none, its nesting decides. -/
theorem read_cases (calculus : Calculus) (problem : Problem) :
    (∃ error, (problem.faults calculus).head? = some error ∧ problem.read calculus = .error error) ∨
      problem.faults calculus = [] ∧ ∃ statement drafts,
        List.Forall₂ (Entry.Writes calculus) problem.lines drafts ∧
          problem.read calculus =
            ((Document.build drafts).mapError ReadError.nesting).map (statement, ·) := by
  have htexts : Reports ((problem.statement calculus).bind fun _ =>
      readEach (fun n entry => entry.draft calculus n) 1 problem.lines) (problem.faults calculus) :=
    (reports_statement calculus problem).bind fun _ _ => reports_drafts calculus problem
  rw [read, document_eq_bind]
  cases hstatement : problem.statement calculus with
  | error error => exact .inl ⟨error, (hstatement ▸ htexts).eq_error_iff.mp rfl, rfl⟩
  | ok statement =>
    cases hdrafts : readEach (fun n entry => entry.draft calculus n) 1 problem.lines with
    | error error =>
      rw [hstatement, hdrafts] at htexts
      exact .inl ⟨error, htexts.eq_error_iff.mp rfl, rfl⟩
    | ok drafts =>
      rw [hstatement, hdrafts] at htexts
      exact .inr ⟨htexts.exists_eq_ok_iff.mp ⟨_, rfl⟩, statement, drafts,
        readDrafts_eq_ok_iff.mp hdrafts, rfl⟩

end Problem

/-! ### Nesting -/

theorem Document.exists_build_iff {drafts : List (Draft Formula)} :
    (∃ document, build drafts = .ok document) ↔ WellNested 0 drafts := by
  have hlaid : (∃ lines, layOut 1 .root drafts = .ok lines) ↔ WellNested 0 drafts :=
    exists_layOut_iff
  rw [← hlaid, build]
  cases layOut 1 .root drafts <;> simp [Except.map]

theorem Document.build_eq_error_iff {drafts : List (Draft Formula)} {error : NestingError} :
    build drafts = .error error ↔ FirstFault 1 0 drafts error := by
  have hfault : layOut 1 .root drafts = .error error ↔ FirstFault 1 0 drafts error :=
    layOut_eq_error_iff
  rw [← hfault, build]
  cases layOut 1 .root drafts <;> simp [Except.map]

namespace Problem

variable {problem : Problem}

/-- A problem is read if nothing is wrong with it. -/
theorem exists_read_iff :
    (∃ read, problem.read calculus = .ok read) ↔ problem.Readable calculus := by
  rw [readable_iff]
  rcases read_cases calculus problem with
    ⟨error, hfaults, hread⟩ | ⟨hfaults, statement, drafts, hdrafts, hread⟩
  · refine iff_of_false (by simp [hread]) fun ⟨hnil, _⟩ => ?_
    simp [hnil] at hfaults
  · rw [and_iff_right hfaults, exists_drafts_iff hdrafts, ← Document.exists_build_iff, hread]
    cases Document.build drafts <;> simp [Except.map, Except.mapError]

/-- Otherwise its first fault is reported. -/
theorem read_eq_error_iff_firstFault {error : ReadError} :
    problem.read calculus = .error error ↔ problem.FirstFault calculus error := by
  rw [FirstFault]
  rcases read_cases calculus problem with
    ⟨error', hfaults, hread⟩ | ⟨hfaults, statement, drafts, hdrafts, hread⟩
  · have hne : problem.faults calculus ≠ [] := fun hnil => by simp [hnil] at hfaults
    simp [hread, hfaults, hne]
  · rw [exists_drafts_iff hdrafts, hfaults, hread]
    simp only [← Document.build_eq_error_iff]
    cases Document.build drafts <;> simp [Except.map, Except.mapError, eq_comm]

end Problem

end NaturalDeduction

import NaturalDeduction.Grading.Problem
import NaturalDeduction.Proofs.Document.Layout

/-!
# What a problem that can be read consists of

Reading stops at the first fault. If there is none, every formula that comes out of a problem was
parsed from one of its texts, and every line of the document from one of its entries.

## Main results

* `Problem.read_eq_ok_iff`: reading succeeds if the statement and the document can be read
* `Problem.exists_of_readPremises`, `Problem.exists_of_readGoal`: where the statement comes from
* `Problem.exists_entry_of_mem`: where the lines come from
-/

namespace NaturalDeduction

/-! ### Successful steps -/

theorem map_eq_ok_iff {ε α β : Type} {f : α → β} {x : Except ε α} {b : β} :
    x.map f = .ok b ↔ ∃ a, x = .ok a ∧ f a = b := by
  cases x <;> simp [Except.map]

@[simp] theorem mapError_eq_ok_iff {ε ε' α : Type} {f : ε → ε'} {x : Except ε α} {a : α} :
    x.mapError f = .ok a ↔ x = .ok a := by
  cases x with
  | error e => exact iff_of_false nofun nofun
  | ok b =>
    constructor
    · intro h
      exact congrArg _ (Except.ok.inj h)
    · intro h
      exact congrArg _ (Except.ok.inj h)

/-- Everything that comes out of reading a list was read from one of its members. -/
theorem exists_of_mem_readEach {α β ε : Type} {f : Nat → α → Except ε β} {number : Nat}
    {as : List α} {bs : List β} (h : readEach f number as = .ok bs) {b : β} (hb : b ∈ bs) :
    ∃ n, ∃ a ∈ as, f n a = .ok b := by
  induction as generalizing number bs with
  | nil =>
    obtain rfl : [] = bs := Except.ok.inj h
    cases hb
  | cons a as ih =>
    rw [readEach] at h
    split at h
    · cases h
    · next first hfirst =>
      split at h
      · cases h
      · next others hothers =>
        obtain rfl : first :: others = bs := Except.ok.inj h
        rcases List.mem_cons.mp hb with rfl | hb
        · exact ⟨number, a, List.mem_cons_self, hfirst⟩
        · obtain ⟨n, a', ha', hf⟩ := ih hothers hb
          exact ⟨n, a', List.mem_cons_of_mem _ ha', hf⟩

variable {calculus : Calculus}

theorem readFormula_eq_ok_iff {location : Location} {text : String} {φ : Formula} :
    readFormula calculus location text = .ok φ ↔ Formula.parse calculus text = .ok φ :=
  mapError_eq_ok_iff

/-- An entry that can be read states its formula and names its rule. -/
theorem Entry.of_draft_eq_ok {number : Nat} {entry : Entry} {draft : Draft Formula}
    (h : entry.draft calculus number = .ok draft) :
    Formula.parse calculus entry.formula = .ok draft.formula ∧
      Rule.ofName? entry.rule = some draft.rule := by
  rw [Entry.draft] at h
  split at h
  · cases h
  · next φ hφ =>
    split at h
    · cases h
    · next rule hrule =>
      split at h
      · cases h
      · obtain rfl := Except.ok.inj h
        exact ⟨readFormula_eq_ok_iff.mp hφ, hrule⟩

namespace Problem

variable {problem : Problem}

/-! ### The statement -/

/-- Declared premises that were read come from declared texts. -/
theorem exists_of_readPremises {texts : Option (List String)} {premises : List Formula}
    (h : readPremises calculus texts = .ok (some premises)) :
    ∃ declared, texts = some declared ∧
      ∀ φ ∈ premises, ∃ text ∈ declared, Formula.parse calculus text = .ok φ := by
  cases texts with
  | none => cases h
  | some declared =>
    obtain ⟨read, hread, rfl⟩ : ∃ read, readEach _ 1 declared = .ok read ∧ read = premises := by
      simpa [readPremises, map_eq_ok_iff] using h
    refine ⟨declared, rfl, fun φ hφ => ?_⟩
    obtain ⟨n, text, htext, hparse⟩ := exists_of_mem_readEach hread hφ
    exact ⟨text, htext, readFormula_eq_ok_iff.mp hparse⟩

theorem eq_none_of_readPremises {texts : Option (List String)}
    (h : readPremises calculus texts = .ok none) : texts = none := by
  cases texts with
  | none => rfl
  | some declared => simp [readPremises, map_eq_ok_iff] at h

/-- A declared goal that was read comes from a declared text. -/
theorem exists_of_readGoal {text : Option String} {goal : Formula}
    (h : readGoal calculus text = .ok (some goal)) :
    ∃ declared, text = some declared ∧ Formula.parse calculus declared = .ok goal := by
  cases text with
  | none => cases h
  | some declared =>
    refine ⟨declared, rfl, ?_⟩
    simpa [readGoal, map_eq_ok_iff, readFormula_eq_ok_iff] using h

theorem eq_none_of_readGoal {text : Option String} (h : readGoal calculus text = .ok none) :
    text = none := by
  cases text with
  | none => rfl
  | some declared => simp [readGoal, map_eq_ok_iff] at h

theorem statement_eq_ok_iff {statement : Statement Formula} :
    problem.statement calculus = .ok statement ↔
      readPremises calculus problem.premises = .ok statement.premises ∧
        readGoal calculus problem.goal = .ok statement.goal := by
  obtain ⟨premises, goal⟩ := statement
  rw [Problem.statement]
  cases readPremises calculus problem.premises with
  | error => simp
  | ok read => simp [map_eq_ok_iff, and_comm, and_assoc]

/-! ### The document -/

theorem document_eq_ok_iff {document : Document Formula} :
    problem.document calculus = .ok document ↔
      ∃ drafts, readEach (fun n entry => entry.draft calculus n) 1 problem.lines = .ok drafts ∧
        Document.build drafts = .ok document := by
  rw [Problem.document]
  cases readEach (fun n entry => entry.draft calculus n) 1 problem.lines <;> simp

theorem read_eq_ok_iff {statement : Statement Formula} {document : Document Formula} :
    problem.read calculus = .ok (statement, document) ↔
      problem.statement calculus = .ok statement ∧ problem.document calculus = .ok document := by
  rw [Problem.read]
  cases problem.statement calculus with
  | error => simp
  | ok read => simp [map_eq_ok_iff, and_comm, and_assoc]

/-- Every line comes from an entry. -/
theorem exists_entry_of_mem {document : Document Formula}
    (h : problem.document calculus = .ok document) {line : Line Formula}
    (hline : line ∈ document.lines) :
    ∃ entry ∈ problem.lines, Formula.parse calculus entry.formula = .ok line.formula ∧
      Rule.ofName? entry.rule = some line.rule := by
  obtain ⟨drafts, hdrafts, hbuild⟩ := document_eq_ok_iff.mp h
  obtain ⟨-, hlines⟩ := Document.build_eq_ok_iff.mp hbuild
  have hdraft : line.toDraft ∈ drafts := hlines ▸ List.mem_map_of_mem hline
  obtain ⟨n, entry, hentry, hread⟩ := exists_of_mem_readEach hdrafts hdraft
  exact ⟨entry, hentry, Entry.of_draft_eq_ok hread⟩

end Problem

end NaturalDeduction

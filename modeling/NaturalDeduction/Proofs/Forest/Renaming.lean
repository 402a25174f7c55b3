import Mathlib.Data.List.Forall2
import Mathlib.Logic.Equiv.Basic
import NaturalDeduction.Proofs.Document.Layout
import NaturalDeduction.Proofs.Forest.Verification

/-!
# Renamed proofs in other forests

Two proofs in two forests correspond if their lines state the same formulas up to a renaming, by the
same rules and at the same depths. The handles of their formulas have nothing to do with each other:
the one forest may have stored the formulas in another order, and may hold others besides.

Such proofs get the same verdicts, although each is verified by comparing the handles of its own
forest. What is compared is settled by the formulas (`Forest.WellFormed.verify?_eq`), and among
formulas a renaming keeps apart what is different (`verify_rename`). So the verdicts depend on the
trees behind the handles and on nothing else, and not even on the names in these trees.

## Main definitions

* `Forest.Renames`: a handle stands for what another handle stands for elsewhere, renamed
* `Draft.Renames`: the same for the lines of a proof

## Main results

* `Document.build_renames`: lines that correspond are laid out alike
* `Forest.verify?_rename`: proofs that correspond get the same verdicts
-/

namespace NaturalDeduction

/-! ### Corresponding formulas, lines and statements -/

section Correspondence

variable {r : Renaming} {forest forest' : Forest}

/-- The second handle stands for the formula of the first, renamed. -/
def Forest.Renames (r : Renaming) (forest forest' : Forest) (h h' : Handle) : Prop :=
  ∃ φ, forest.formula? h = some φ ∧ forest'.formula? h' = some (φ.rename r)

/-- The second line states the formula of the first, renamed, by the same rule from the same lines
and at the same depth. -/
structure Draft.Renames (r : Renaming) (forest forest' : Forest) (draft draft' : Draft Handle) :
    Prop where
  formula : forest.Renames r forest' draft.formula draft'.formula
  rule : draft'.rule = draft.rule
  citations : draft'.citations = draft.citations
  depth : draft'.depth = draft.depth

/-- The same for lines in their places. -/
structure Line.Renames (r : Renaming) (forest forest' : Forest)
    (line line' : Line Handle) : Prop where
  draft : line.toDraft.Renames r forest forest' line'.toDraft
  number : line'.number = line.number
  scope : line'.scope = line.scope

/-- Premises and goals correspond, where they are declared. -/
structure Statement.Renames (r : Renaming) (forest forest' : Forest)
    (statement statement' : Statement Handle) : Prop where
  premises :
    Option.Rel (List.Forall₂ (forest.Renames r forest')) statement.premises statement'.premises
  goal : Option.Rel (forest.Renames r forest') statement.goal statement'.goal

/-! ### Laying out lines that correspond -/

theorem Draft.Renames.place_eq {draft draft' : Draft Handle}
    (h : draft.Renames r forest forest' draft') (number : Nat) (current : Scope) :
    draft'.place number current = draft.place number current := by
  rw [Draft.place, Draft.place, h.rule, h.depth]

theorem Document.layOut_renames {drafts drafts' : List (Draft Handle)}
    {lines lines' : List (Line Handle)} {number : Nat} {current : Scope}
    (h : List.Forall₂ (Draft.Renames r forest forest') drafts drafts')
    (hlines : layOut number current drafts = .ok lines)
    (hlines' : layOut number current drafts' = .ok lines') :
    List.Forall₂ (Line.Renames r forest forest') lines lines' := by
  induction h generalizing number current lines lines' with
  | nil =>
    obtain rfl := Except.ok.inj hlines
    obtain rfl := Except.ok.inj hlines'
    exact .nil
  | cons hdraft _ ih =>
    obtain ⟨scope, others, hplace, hothers, rfl⟩ := layOut_cons_eq_ok_iff.mp hlines
    obtain ⟨scope', others', hplace', hothers', rfl⟩ := layOut_cons_eq_ok_iff.mp hlines'
    -- a line is placed by its rule and its depth, which are the same on both sides
    obtain rfl : scope' = scope :=
      Except.ok.inj (hplace'.symm.trans ((hdraft.place_eq number current).trans hplace))
    exact .cons ⟨hdraft, rfl, rfl⟩ (ih hothers hothers')

/-- Documents of lines that correspond consist of lines that correspond. -/
theorem Document.build_renames {drafts drafts' : List (Draft Handle)}
    {document document' : Document Handle}
    (h : List.Forall₂ (Draft.Renames r forest forest') drafts drafts')
    (hbuild : build drafts = .ok document) (hbuild' : build drafts' = .ok document') :
    List.Forall₂ (Line.Renames r forest forest') document.lines document'.lines := by
  have hlines := layOut_eq_ok_iff.mpr (build_eq_ok_iff.mp hbuild)
  have hlines' := layOut_eq_ok_iff.mpr (build_eq_ok_iff.mp hbuild')
  exact layOut_renames h hlines hlines'

/-! ### What corresponding proofs stand for -/

/-- If the members of two lists are read as values that correspond, so are the lists. -/
theorem exists_mapM_of_forall₂ {α β : Type} {read read' : α → Option β} {f : β → β}
    {as as' : List α}
    (h : List.Forall₂ (fun a a' => ∃ b, read a = some b ∧ read' a' = some (f b)) as as') :
    ∃ bs, as.mapM read = some bs ∧ as'.mapM read' = some (bs.map f) := by
  induction h with
  | nil => exact ⟨[], rfl, rfl⟩
  | cons hhead _ ih =>
    obtain ⟨b, hb, hb'⟩ := hhead
    obtain ⟨bs, hbs, hbs'⟩ := ih
    exact ⟨b :: bs, by simp [hb, hbs], by simp [hb', hbs']⟩

theorem Line.Renames.exists_line {line line' : Line Handle}
    (h : line.Renames r forest forest' line') :
    ∃ read, forest.line? line = some read ∧
      forest'.line? line' = some (read.map (Formula.rename r)) := by
  obtain ⟨⟨handle, rule, citations, depth⟩, number, scope⟩ := line
  obtain ⟨⟨handle', rule', citations', depth'⟩, number', scope'⟩ := line'
  obtain ⟨⟨⟨φ, hφ, hφ'⟩, hrule, hcitations, hdepth⟩, hnumber, hscope⟩ := h
  simp only at hφ hφ' hrule hcitations hdepth hnumber hscope
  subst hrule hcitations hdepth hnumber hscope
  exact ⟨⟨⟨φ, rule', citations', depth'⟩, number', scope'⟩, by simp [Forest.line?, hφ, Line.map],
    by simp [Forest.line?, hφ', Line.map]⟩

theorem exists_document_of_renames {document document' : Document Handle}
    (h : List.Forall₂ (Line.Renames r forest forest') document.lines document'.lines) :
    ∃ read, forest.document? document = some read ∧
      forest'.document? document' = some (read.map (Formula.rename r)) := by
  obtain ⟨lines, hlines, hlines'⟩ :=
    exists_mapM_of_forall₂ (h.imp fun _ _ hline => hline.exists_line)
  exact ⟨⟨lines⟩, by rw [Forest.document?, hlines]; rfl, by rw [Forest.document?, hlines']; rfl⟩

theorem Statement.Renames.exists_statement {statement statement' : Statement Handle}
    (h : statement.Renames r forest forest' statement') :
    ∃ read, forest.statement? statement = some read ∧
      forest'.statement? statement' = some (read.map (Formula.rename r)) := by
  obtain ⟨premises, goal⟩ := statement
  obtain ⟨premises', goal'⟩ := statement'
  obtain ⟨hpremises, hgoal⟩ := h
  have readPremises : ∃ read, premises.mapM (List.mapM forest.formula?) = some read ∧
      premises'.mapM (List.mapM forest'.formula?) =
        some (read.map (List.map (Formula.rename r))) := by
    cases hpremises with
    | none => exact ⟨none, rfl, rfl⟩
    | some hall =>
      obtain ⟨φs, hφs, hφs'⟩ := exists_mapM_of_forall₂ hall
      exact ⟨some φs, by simp [hφs], by simp [hφs']⟩
  have readGoal : ∃ read, goal.mapM forest.formula? = some read ∧
      goal'.mapM forest'.formula? = some (read.map (Formula.rename r)) := by
    cases hgoal with
    | none => exact ⟨none, rfl, rfl⟩
    | some hφ =>
      obtain ⟨φ, hφ, hφ'⟩ := hφ
      exact ⟨some φ, by simp [hφ], by simp [hφ']⟩
  obtain ⟨φs, hφs, hφs'⟩ := readPremises
  obtain ⟨φ, hφ, hφ'⟩ := readGoal
  refine ⟨⟨φs, φ⟩, ?_, ?_⟩
  · simp only [Forest.statement?, hφs, hφ]
  · simp only [Forest.statement?, hφs', hφ', Statement.map]

/-- **Verdicts depend on formulas as trees, up to renaming.** Two proofs in two forests that
correspond line by line under a renaming get the same verdicts, in which at most a name is renamed,
and reach their goals alike, although each of them is verified by the handles of its own forest. -/
theorem Forest.verify?_rename (wf : forest.WellFormed) (wf' : forest'.WellFormed)
    (calculus : Calculus) {drafts drafts' : List (Draft Handle)}
    {document document' : Document Handle} {statement statement' : Statement Handle}
    (hbuild : Document.build drafts = .ok document)
    (hbuild' : Document.build drafts' = .ok document')
    (hdrafts : List.Forall₂ (Draft.Renames r forest forest') drafts drafts')
    (hstatement : statement.Renames r forest forest' statement') :
    ∃ verification, forest.verify? calculus statement document = some verification ∧
      forest'.verify? calculus statement' document' = some (verification.rename r) := by
  obtain ⟨proof, hproof, hproof'⟩ :=
    exists_document_of_renames (Document.build_renames hdrafts hbuild hbuild')
  obtain ⟨stated, hstated, hstated'⟩ := hstatement.exists_statement
  refine ⟨verify calculus stated proof, wf.verify?_eq calculus hstated hproof, ?_⟩
  rw [wf'.verify?_eq calculus hstated' hproof', verify_rename]

end Correspondence

/-- Exchanges `a` with `b` and `P` with `Q`. -/
def Renaming.exchange : Renaming where
  name := Equiv.swap "a" "b"
  predicate := Equiv.swap "P" "Q"
  name_injective := (Equiv.swap "a" "b").injective
  predicate_injective := (Equiv.swap "P" "Q").injective

/-- A generalization from `P(a)` to `∀x P(x)`, and the same from `Q(b)` to `∀x Q(x)` in a forest
that got the two formulas in the other order: `a` and `b` are not arbitrary. -/
theorem generalization_verify?_rename :
    let first := Forest.empty.intern (.atom "P" ["a"])
    let second := first.2.intern (.forAll "x" (.atom "P" ["x"]))
    let second' := Forest.empty.intern (.forAll "x" (.atom "Q" ["x"]))
    let first' := second'.2.intern (.atom "Q" ["b"])
    ∃ document document',
      Document.build [⟨first.1, .premise, [], 0⟩, ⟨second.1, .forAllIntro, [.line 1], 0⟩] =
        .ok document ∧
      Document.build [⟨first'.1, .premise, [], 0⟩, ⟨second'.1, .forAllIntro, [.line 1], 0⟩] =
        .ok document' ∧
      second.2.WellFormed ∧ first'.2.WellFormed ∧
      second.2.verify? .predicate ⟨none, some second.1⟩ document =
        some ⟨[.valid, .mismatch (.notFresh "a")], .reached⟩ ∧
      first'.2.verify? .predicate ⟨none, some second'.1⟩ document' =
        some ⟨[.valid, .mismatch (.notFresh "b")], .reached⟩ := by
  intro first second second' first'
  have hfirst := Forest.WellFormed.empty.stored_intern (.atom "P" ["a"])
  have hsecond := hfirst.wellFormed.stored_intern (.forAll "x" (.atom "P" ["x"]))
  have hsecond' := Forest.WellFormed.empty.stored_intern (.forAll "x" (.atom "Q" ["x"]))
  have hfirst' := hsecond'.wellFormed.stored_intern (.atom "Q" ["b"])
  have hinstance : second.2.formula? first.1 = some (.atom "P" ["a"]) :=
    hsecond.extends_before.formula?_eq hfirst.wellFormed hsecond.wellFormed hfirst.formula?_eq
  have huniversal : second.2.formula? second.1 = some (.forAll "x" (.atom "P" ["x"])) :=
    hsecond.formula?_eq
  have hinstance' : first'.2.formula? first'.1 = some (.atom "Q" ["b"]) := hfirst'.formula?_eq
  have huniversal' : first'.2.formula? second'.1 = some (.forAll "x" (.atom "Q" ["x"])) :=
    hfirst'.extends_before.formula?_eq hsecond'.wellFormed hfirst'.wellFormed hsecond'.formula?_eq
  have hrenames : second.2.Renames .exchange first'.2 first.1 first'.1 :=
    ⟨_, hinstance, by rw [hinstance']; decide⟩
  have hrenames' : second.2.Renames .exchange first'.2 second.1 second'.1 :=
    ⟨_, huniversal, by rw [huniversal']; decide⟩
  let drafts : List (Draft Handle) :=
    [⟨first.1, .premise, [], 0⟩, ⟨second.1, .forAllIntro, [.line 1], 0⟩]
  let drafts' : List (Draft Handle) :=
    [⟨first'.1, .premise, [], 0⟩, ⟨second'.1, .forAllIntro, [.line 1], 0⟩]
  have hdrafts : List.Forall₂ (Draft.Renames .exchange second.2 first'.2) drafts drafts' :=
    .cons ⟨hrenames, rfl, rfl, rfl⟩ (.cons ⟨hrenames', rfl, rfl, rfl⟩ .nil)
  have hstatement : Statement.Renames .exchange second.2 first'.2 ⟨none, some second.1⟩
      ⟨none, some second'.1⟩ := ⟨.none, .some hrenames'⟩
  have hbuild : Document.build drafts = .ok _ := rfl
  have hbuild' : Document.build drafts' = .ok _ := rfl
  have wf := hsecond.wellFormed
  have wf' := hfirst'.wellFormed
  obtain ⟨verification, hv, hv'⟩ :=
    Forest.verify?_rename wf wf' .predicate hbuild hbuild' hdrafts hstatement
  have hstated : second.2.statement? ⟨none, some second.1⟩ =
      some ⟨none, some (.forAll "x" (.atom "P" ["x"]))⟩ := by
    simp [Forest.statement?, huniversal]
  have hproof : second.2.document? ⟨[⟨⟨first.1, .premise, [], 0⟩, 1, []⟩,
        ⟨⟨second.1, .forAllIntro, [.line 1], 0⟩, 2, []⟩]⟩ =
      some ⟨[⟨⟨.atom "P" ["a"], .premise, [], 0⟩, 1, []⟩,
        ⟨⟨.forAll "x" (.atom "P" ["x"]), .forAllIntro, [.line 1], 0⟩, 2, []⟩]⟩ := by
    simp [Forest.document?, Forest.line?, Line.map, hinstance, huniversal]
  have hread : verify .predicate ⟨none, some (.forAll "x" (.atom "P" ["x"]))⟩
      ⟨[⟨⟨.atom "P" ["a"], .premise, [], 0⟩, 1, []⟩,
        ⟨⟨.forAll "x" (.atom "P" ["x"]), .forAllIntro, [.line 1], 0⟩, 2, []⟩]⟩ = verification :=
    Option.some.inj ((wf.verify?_eq .predicate hstated hproof).symm.trans hv)
  have hverdicts : verification = ⟨[.valid, .mismatch (.notFresh "a")], .reached⟩ :=
    hread.symm.trans (by decide)
  subst hverdicts
  exact ⟨_, _, hbuild, hbuild', wf, wf', hv, hv'⟩

end NaturalDeduction

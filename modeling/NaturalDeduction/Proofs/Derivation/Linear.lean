import NaturalDeduction.Proofs.Derivation.Basic
import NaturalDeduction.Proofs.Derivation.Writing

/-!
# Every derivation can be written line by line

A derivation is a tree, and a document is a list of lines. This file turns the one into the other:
the premises of an inference are written one after the other, each in the scope of its conclusion or
in a subproof of its own, and the conclusion behind them cites what it needs.

## Implementation notes

All rules but the two that start a proof go through one lemma, `Ready.infer`. It is given the parts
that an inference rests on, which are formulas and subproofs, and asks of the rule only to accept
them. So each case of the induction names its parts and uses the lemma on what its rule accepts.

## Main definitions

* `Part`: what an inference rests on

## Main results

* `Derives.writes`: a derivation can be written wherever its hypotheses are available
* `Derives.exists_document`: every derivation has an accepted proof
-/

namespace NaturalDeduction

variable {calculus : Calculus} {premises Γ : List Formula} {scope : Scope}
  {lines : List (Line Formula)} {φ : Formula}

/-! ### The parts of an inference -/

/-- A formula, or a formula under an assumption. -/
inductive Part where
  | line (φ : Formula)
  | subproof (φ ψ : Formula)

namespace Part

/-- The part can be cited in a scope. -/
def Available (scope : Scope) (lines : List (Line Formula)) : Part → Prop
  | line φ => States scope lines φ
  | subproof φ ψ => Discharges scope lines φ ψ

/-- The part can be written wherever the hypotheses are available. -/
def Writable (calculus : Calculus) (premises Γ : List Formula) : Part → Prop
  | line φ => ∀ {scope lines}, Ready calculus premises Γ scope lines →
    Writes calculus premises Γ scope lines φ
  | subproof φ ψ => ∀ {scope lines}, Ready calculus premises (φ :: Γ) scope lines →
    Writes calculus premises (φ :: Γ) scope lines ψ

/-- The part is what is cited. -/
inductive Describes : Part → Cited Formula → Prop
  | line (citation : Citation) (φ : Formula) : Describes (.line φ) (.line ⟨citation, φ⟩)
  | subproof (φ ψ : Formula) : Describes (.subproof φ ψ) (.subproof ⟨φ, ψ⟩)

theorem Available.of_continues {part : Part} {others : List (Line Formula)}
    (h : part.Available scope lines) (hlaid : LaidOut 1 .root lines)
    (hcontinues : Continues scope lines others) : part.Available scope others := by
  cases part with
  | line φ => exact States.of_continues h hcontinues
  | subproof φ ψ => exact Discharges.of_continues h hlaid hcontinues

theorem Available.exists_canCite {part : Part} (h : part.Available scope lines)
    (hlaid : LaidOut 1 .root lines) :
    ∃ citation cited, CanCite scope lines citation cited ∧ part.Describes cited := by
  cases part with
  | line φ =>
    obtain ⟨n, hn⟩ := States.canCite h hlaid
    exact ⟨_, _, hn, .line _ φ⟩
  | subproof φ ψ =>
    obtain ⟨first, last, hcan⟩ := Discharges.canCite h hlaid
    exact ⟨_, _, hcan, .subproof φ ψ⟩

/-- Parts that are available can all be cited. -/
theorem exists_citations {parts : List Part} (h : ∀ part ∈ parts, part.Available scope lines)
    (hlaid : LaidOut 1 .root lines) :
    ∃ citations cited, List.Forall₂ (CanCite scope lines) citations cited ∧
      List.Forall₂ Describes parts cited := by
  induction parts with
  | nil => exact ⟨[], [], .nil, .nil⟩
  | cons part parts ih =>
    obtain ⟨hpart, hparts⟩ := List.forall_mem_cons.mp h
    obtain ⟨citation, first, hcite, hdescribes⟩ := hpart.exists_canCite hlaid
    obtain ⟨citations, cited, hcites, hall⟩ := ih hparts
    exact ⟨citation :: citations, first :: cited, .cons hcite hcites, .cons hdescribes hall⟩

end Part

namespace Ready

theorem part (h : Ready calculus premises Γ scope lines) {part : Part}
    (hpart : part.Writable calculus premises Γ) :
    ∃ others, Ready calculus premises Γ scope others ∧ Continues scope lines others ∧
      part.Available scope others := by
  cases part with
  | line φ => exact h.line fun _ => hpart
  | subproof φ ψ => exact h.subproof fun _ _ => hpart

/-- **Writing parts one after the other.** -/
theorem parts (h : Ready calculus premises Γ scope lines) {parts : List Part}
    (hparts : ∀ part ∈ parts, part.Writable calculus premises Γ) :
    ∃ others, Ready calculus premises Γ scope others ∧ Continues scope lines others ∧
      ∀ part ∈ parts, part.Available scope others := by
  induction parts generalizing lines with
  | nil => exact ⟨lines, h, .refl scope lines, by simp⟩
  | cons part parts ih =>
    obtain ⟨hpart, hparts⟩ := List.forall_mem_cons.mp hparts
    obtain ⟨middle, hmiddle, hfirst, havailable⟩ := h.part hpart
    obtain ⟨others, hothers, hrest, hall⟩ := ih hmiddle hparts
    exact ⟨others, hothers, hfirst.trans hrest,
      List.forall_mem_cons.mpr ⟨havailable.of_continues hmiddle.accepted.laidOut hrest, hall⟩⟩

/-- **Writing an inference**: its parts, and behind them its conclusion. -/
theorem infer (h : Ready calculus premises Γ scope lines) (rule : Rule)
    (hrule : rule ≠ .premise ∧ rule ≠ .assumption) (parts : List Part)
    (hparts : ∀ part ∈ parts, part.Writable calculus premises Γ)
    (hcheck : ∀ cited context after, List.Forall₂ Part.Describes parts cited →
      (∀ n ∈ context, ∃ γ ∈ Γ, n ∈ γ.freeNames) →
      Step.check ⟨rule, φ, cited, scope.length, context, some premises, after,
        calculus.hasQuantifiers⟩ = .ok ()) :
    Writes calculus premises Γ scope lines φ := by
  obtain ⟨others, hready, hcontinues, havailable⟩ := h.parts hparts
  obtain ⟨citations, cited, hcites, hdescribes⟩ :=
    Part.exists_citations havailable hready.accepted.laidOut
  exact (hready.derive hrule hcites fun context after =>
    hcheck cited context after hdescribes).of_continues
    hcontinues

/-- An inference from one line. -/
theorem inferLine (h : Ready calculus premises Γ scope lines) (rule : Rule)
    (hrule : rule ≠ .premise ∧ rule ≠ .assumption) {ψ : Formula}
    (hψ : (Part.line ψ).Writable calculus premises Γ)
    (hcheck : ∀ n context after, (∀ n ∈ context, ∃ γ ∈ Γ, n ∈ γ.freeNames) →
      Step.check ⟨rule, φ, [.line ⟨n, ψ⟩], scope.length, context, some premises, after,
        calculus.hasQuantifiers⟩ = .ok ()) :
    Writes calculus premises Γ scope lines φ := by
  refine h.infer rule hrule [.line ψ] (List.forall_mem_singleton.mpr hψ)
    fun cited context after hcited hnames => ?_
  rcases hcited with _ | ⟨⟨n⟩, ⟨⟩⟩
  exact hcheck n context after hnames

/-- An inference from two lines. -/
theorem inferLines (h : Ready calculus premises Γ scope lines) (rule : Rule)
    (hrule : rule ≠ .premise ∧ rule ≠ .assumption) {ψ χ : Formula}
    (hψ : (Part.line ψ).Writable calculus premises Γ)
    (hχ : (Part.line χ).Writable calculus premises Γ)
    (hcheck : ∀ n m context after, Step.check ⟨rule, φ, [.line ⟨n, ψ⟩, .line ⟨m, χ⟩], scope.length,
      context, some premises, after, calculus.hasQuantifiers⟩ = .ok ()) :
    Writes calculus premises Γ scope lines φ := by
  refine h.infer rule hrule [.line ψ, .line χ]
    (List.forall_mem_cons.mpr ⟨hψ, List.forall_mem_singleton.mpr hχ⟩)
    fun cited context after hcited _ => ?_
  rcases hcited with _ | ⟨⟨n⟩, _ | ⟨⟨m⟩, ⟨⟩⟩⟩
  exact hcheck n m context after

/-- An inference from a subproof. -/
theorem inferSubproof (h : Ready calculus premises Γ scope lines) (rule : Rule)
    (hrule : rule ≠ .premise ∧ rule ≠ .assumption) {ψ χ : Formula}
    (hsubproof : (Part.subproof ψ χ).Writable calculus premises Γ)
    (hcheck : ∀ context after, Step.check ⟨rule, φ, [.subproof ⟨ψ, χ⟩], scope.length, context,
      some premises, after, calculus.hasQuantifiers⟩ = .ok ()) :
    Writes calculus premises Γ scope lines φ := by
  refine h.infer rule hrule [.subproof ψ χ] (List.forall_mem_singleton.mpr hsubproof)
    fun cited context after hcited _ => ?_
  rcases hcited with _ | ⟨⟨⟩, ⟨⟩⟩
  exact hcheck context after

end Ready

/-! ### Inferences that discharge or generalize -/

/-- A fresh name makes an instance arbitrary. -/
theorem Formula.isArbitrary_replace {x c : Name} {ψ : Formula} {context : List Name}
    {formulas : List Formula} (hfree : ψ.FreeFor c x)
    (hcontext : ∀ n ∈ context, ∃ γ ∈ Γ, n ∈ γ.freeNames) (hΓ : Fresh c Γ)
    (hformulas : Fresh c formulas) : ψ.IsArbitrary x (ψ.replace x c) context formulas := by
  by_cases hx : x ∈ ψ.freeNames
  · refine .inr ⟨c, hx, hfree, rfl, fun hc => ?_, hformulas⟩
    obtain ⟨γ, hγ, hfixed⟩ := hcontext c hc
    exact hΓ γ hγ hfixed
  · exact .inl ⟨hx, replace_of_notMem hx⟩

namespace Ready

variable {ψ χ : Formula} {x c : Name}

theorem orElim (h : Ready calculus premises Γ scope lines)
    (hor : (Part.line (.or ψ χ)).Writable calculus premises Γ)
    (hψ : (Part.subproof ψ φ).Writable calculus premises Γ)
    (hχ : (Part.subproof χ φ).Writable calculus premises Γ) :
    Writes calculus premises Γ scope lines φ := by
  refine h.infer .orElim (by decide) [.line (.or ψ χ), .subproof ψ φ, .subproof χ φ] ?_
    fun cited context after hcited _ => ?_
  · simp only [List.forall_mem_cons]
    exact ⟨hor, hψ, hχ, List.forall_mem_nil _⟩
  · rcases hcited with _ | ⟨⟨n⟩, _ | ⟨⟨⟩, _ | ⟨⟨⟩, ⟨⟩⟩⟩⟩
    show Step.checkOrElim φ [.line ⟨n, .or ψ χ⟩, .subproof ⟨ψ, φ⟩, .subproof ⟨χ, φ⟩] = .ok ()
    exact Step.checkOrElim_eq_ok_iff.mpr ⟨_, _, _, rfl, rfl, .inl rfl, rfl, rfl⟩

theorem iffIntro (h : Ready calculus premises Γ scope lines)
    (hψ : (Part.subproof ψ χ).Writable calculus premises Γ)
    (hχ : (Part.subproof χ ψ).Writable calculus premises Γ) :
    Writes calculus premises Γ scope lines (.iff ψ χ) := by
  refine h.infer .iffIntro (by decide) [.subproof ψ χ, .subproof χ ψ] ?_
    fun cited context after hcited _ => ?_
  · simp only [List.forall_mem_cons]
    exact ⟨hψ, hχ, List.forall_mem_nil _⟩
  · rcases hcited with _ | ⟨⟨⟩, _ | ⟨⟨⟩, ⟨⟩⟩⟩
    show Step.checkIffIntro (.iff ψ χ) [.subproof ⟨ψ, χ⟩, .subproof ⟨χ, ψ⟩] = .ok ()
    exact Step.checkIffIntro_eq_ok_iff.mpr ⟨_, _, rfl, rfl, rfl, .inl rfl⟩

theorem forAllIntro (h : Ready calculus premises Γ scope lines)
    (hq : calculus.hasQuantifiers = true) (hfree : ψ.FreeFor c x) (hc : Fresh c (.forAll x ψ :: Γ))
    (hψ : (Part.line (ψ.replace x c)).Writable calculus premises Γ) :
    Writes calculus premises Γ scope lines (.forAll x ψ) := by
  refine h.inferLine .forAllIntro (by decide) hψ fun n context _ hnames => ?_
  obtain ⟨hquantified, hΓ⟩ := List.forall_mem_cons.mp hc
  have hfresh : Fresh c [.forAll x ψ] := List.forall_mem_singleton.mpr hquantified
  rw [hq]
  show Step.checkForAllIntro (.forAll x ψ) context [.line ⟨n, ψ.replace x c⟩] = .ok ()
  exact Step.checkForAllIntro_eq_ok_iff.mpr
    ⟨_, rfl, rfl, x, ψ, rfl, Formula.isArbitrary_replace hfree hnames hΓ hfresh⟩

theorem forSomeElim (h : Ready calculus premises Γ scope lines)
    (hq : calculus.hasQuantifiers = true) (hfree : ψ.FreeFor c x)
    (hc : Fresh c (.forSome x ψ :: φ :: Γ))
    (hsome : (Part.line (.forSome x ψ)).Writable calculus premises Γ)
    (hφ : (Part.subproof (ψ.replace x c) φ).Writable calculus premises Γ) :
    Writes calculus premises Γ scope lines φ := by
  refine h.infer .forSomeElim (by decide) [.line (.forSome x ψ), .subproof (ψ.replace x c) φ] ?_
    fun cited context after hcited hnames => ?_
  · simp only [List.forall_mem_cons]
    exact ⟨hsome, hφ, List.forall_mem_nil _⟩
  · rcases hcited with _ | ⟨⟨n⟩, _ | ⟨⟨⟩, ⟨⟩⟩⟩
    obtain ⟨hquantified, hc⟩ := List.forall_mem_cons.mp hc
    obtain ⟨hconclusion, hΓ⟩ := List.forall_mem_cons.mp hc
    have hfresh : Fresh c [.forSome x ψ, φ] :=
      List.forall_mem_cons.mpr ⟨hquantified, List.forall_mem_singleton.mpr hconclusion⟩
    rw [hq]
    show Step.checkForSomeElim φ context
      [.line ⟨n, .forSome x ψ⟩, .subproof ⟨ψ.replace x c, φ⟩] = .ok ()
    exact Step.checkForSomeElim_eq_ok_iff.mpr
      ⟨_, _, rfl, rfl, x, ψ, rfl, Formula.isArbitrary_replace hfree hnames hΓ hfresh, rfl⟩

end Ready

/-! ### Derivations -/

/-- **Every derivation can be written** wherever its hypotheses are available. -/
theorem Derives.writes (h : Derives calculus Γ φ) (hready : Ready calculus premises Γ scope lines) :
    Writes calculus premises Γ scope lines φ := by
  induction h generalizing scope lines with
  | @hypothesis Γ φ hφ =>
    obtain ⟨n, hn⟩ := (hready.states φ hφ).canCite hready.accepted.laidOut
    refine hready.derive (by decide : Rule.reiteration ≠ _ ∧ _) (.cons hn .nil) fun _ _ _ => ?_
    show Step.checkReiteration φ [.line ⟨.line n, φ⟩] = .ok ()
    exact Step.checkReiteration_eq_ok_iff.mpr ⟨_, rfl, rfl, rfl⟩
  | @andIntro Γ φ ψ _ _ ihφ ihψ =>
    refine hready.inferLines .andIntro (by decide) ihφ ihψ fun n m _ _ => ?_
    show Step.checkAndIntro (.and φ ψ) [.line ⟨n, φ⟩, .line ⟨m, ψ⟩] = .ok ()
    exact Step.checkAndIntro_eq_ok_iff.mpr (.inr ⟨_, _, rfl, rfl, .inl rfl⟩)
  | @andLeft Γ φ ψ _ ih =>
    refine hready.inferLine .andElim (by decide) ih fun n _ _ _ => ?_
    show Step.checkAndElim φ [.line ⟨n, .and φ ψ⟩] = .ok ()
    exact Step.checkAndElim_eq_ok_iff.mpr ⟨_, rfl, rfl, ψ, .inl rfl⟩
  | @andRight Γ φ ψ _ ih =>
    refine hready.inferLine .andElim (by decide) ih fun n _ _ _ => ?_
    show Step.checkAndElim ψ [.line ⟨n, .and φ ψ⟩] = .ok ()
    exact Step.checkAndElim_eq_ok_iff.mpr ⟨_, rfl, rfl, φ, .inr rfl⟩
  | @orLeft Γ φ ψ _ ih =>
    refine hready.inferLine .orIntro (by decide) ih fun n _ _ _ => ?_
    show Step.checkOrIntro (.or φ ψ) [.line ⟨n, φ⟩] = .ok ()
    exact Step.checkOrIntro_eq_ok_iff.mpr ⟨_, rfl, rfl, ψ, .inl rfl⟩
  | @orRight Γ φ ψ _ ih =>
    refine hready.inferLine .orIntro (by decide) ih fun n _ _ _ => ?_
    show Step.checkOrIntro (.or φ ψ) [.line ⟨n, ψ⟩] = .ok ()
    exact Step.checkOrIntro_eq_ok_iff.mpr ⟨_, rfl, rfl, φ, .inr rfl⟩
  | orElim _ _ _ ih ihφ ihψ => exact hready.orElim ih ihφ ihψ
  | @impliesIntro Γ φ ψ _ ih =>
    refine hready.inferSubproof .impliesIntro (by decide) ih fun _ _ => ?_
    show Step.checkImpliesIntro (.implies φ ψ) [.subproof ⟨φ, ψ⟩] = .ok ()
    exact Step.checkImpliesIntro_eq_ok_iff.mpr ⟨_, rfl, rfl, rfl⟩
  | @impliesElim Γ φ ψ _ _ ih ihφ =>
    refine hready.inferLines .impliesElim (by decide) ih ihφ fun n m _ _ => ?_
    show Step.checkImpliesElim ψ [.line ⟨n, .implies φ ψ⟩, .line ⟨m, φ⟩] = .ok ()
    exact Step.checkImpliesElim_eq_ok_iff.mpr ⟨_, _, rfl, rfl, .inl rfl⟩
  | @notIntro Γ φ _ ih =>
    refine hready.inferSubproof .notIntro (by decide) ih fun _ _ => ?_
    show Step.checkNotIntro (.not φ) [.subproof ⟨φ, .bottom⟩] = .ok ()
    exact Step.checkNotIntro_eq_ok_iff.mpr ⟨_, rfl, rfl, rfl, rfl⟩
  | @notElim Γ φ _ ih =>
    refine hready.inferLine .notElim (by decide) ih fun n _ _ _ => ?_
    show Step.checkNotElim φ [.line ⟨n, .not (.not φ)⟩] = .ok ()
    exact Step.checkNotElim_eq_ok_iff.mpr ⟨_, rfl, rfl, rfl⟩
  | @bottomIntro Γ φ _ _ ihφ ihnot =>
    refine hready.inferLines .contradictionIntro (by decide) ihφ ihnot fun n m _ _ => ?_
    show Step.checkContradictionIntro .bottom [.line ⟨n, φ⟩, .line ⟨m, .not φ⟩] = .ok ()
    exact Step.checkContradictionIntro_eq_ok_iff.mpr ⟨_, _, rfl, rfl, rfl, .inr rfl⟩
  | @bottomElim Γ φ _ ih =>
    refine hready.inferLine .contradictionElim (by decide) ih fun n _ _ _ => ?_
    show Step.checkContradictionElim [.line ⟨n, .bottom⟩] = .ok ()
    exact Step.checkContradictionElim_eq_ok_iff.mpr ⟨_, rfl, rfl, rfl⟩
  | @topIntro Γ =>
    refine hready.derive (by decide : Rule.tautologyIntro ≠ _ ∧ _) .nil fun _ _ _ => ?_
    show Step.checkTautologyIntro .top [] = .ok ()
    exact Step.checkTautologyIntro_eq_ok_iff.mpr ⟨rfl, rfl, rfl⟩
  | iffIntro _ _ ihφ ihψ => exact hready.iffIntro ihφ ihψ
  | @iffLeft Γ φ ψ _ _ ih ihψ =>
    refine hready.inferLines .iffElim (by decide) ih ihψ fun n m _ _ => ?_
    show Step.checkIffElim φ [.line ⟨n, .iff φ ψ⟩, .line ⟨m, ψ⟩] = .ok ()
    exact Step.checkIffElim_eq_ok_iff.mpr ⟨_, _, rfl, rfl, .inl (.inr rfl)⟩
  | @iffRight Γ φ ψ _ _ ih ihφ =>
    refine hready.inferLines .iffElim (by decide) ih ihφ fun n m _ _ => ?_
    show Step.checkIffElim ψ [.line ⟨n, .iff φ ψ⟩, .line ⟨m, φ⟩] = .ok ()
    exact Step.checkIffElim_eq_ok_iff.mpr ⟨_, _, rfl, rfl, .inl (.inl rfl)⟩
  | forAllIntro hq hfree hc _ ih => exact hready.forAllIntro hq hfree hc ih
  | @forAllElim Γ φ x t hq hfree _ ih =>
    refine hready.inferLine .forAllElim (by decide) ih fun n _ _ _ => ?_
    rw [hq]
    show Step.checkForAllElim (φ.replace x t) [.line ⟨n, .forAll x φ⟩] = .ok ()
    exact Step.checkForAllElim_eq_ok_iff.mpr ⟨_, rfl, rfl, x, φ, rfl, t, hfree, rfl⟩
  | @forSomeIntro Γ φ x t hq hfree _ ih =>
    refine hready.inferLine .forSomeIntro (by decide) ih fun n _ _ _ => ?_
    rw [hq]
    show Step.checkForSomeIntro (.forSome x φ) [.line ⟨n, φ.replace x t⟩] = .ok ()
    exact Step.checkForSomeIntro_eq_ok_iff.mpr ⟨_, rfl, rfl, x, φ, rfl, t, hfree, rfl⟩
  | forSomeElim hq hfree hc _ _ ih ihχ => exact hready.forSomeElim hq hfree hc ih ihχ

/-! ### Whole proofs -/

/-- Below premises another premise can be written. -/
theorem Accepted.writePremise (h : Accepted calculus premises lines)
    (hlines : ∀ line ∈ lines, line.rule = .premise) (hφ : φ ∈ premises) :
    ∃ line : Line Formula, line.rule = .premise ∧ line.scope = .root ∧ line.formula = φ ∧
      Accepted calculus premises (lines ++ [line]) := by
  obtain ⟨line, hline⟩ : ∃ line : Line Formula,
      line = ⟨⟨φ, .premise, [], 0⟩, lines.length + 1, .root⟩ := ⟨_, rfl⟩
  have hplace : line.toDraft.place line.number (scopeAfter .root lines) = .ok line.scope := by
    rw [hline]
    exact Draft.place_of_suffix (by simp) rfl List.nil_suffix
  have hcites :
      List.Forall₂ (Refers (lines ++ [line]) line.number line.scope) line.citations [] := by
    rw [hline]
    exact .nil
  refine ⟨line, by rw [hline], by rw [hline], by rw [hline],
    h.write (by rw [hline]) hplace hcites fun progress hmirrors => ?_⟩
  have hafter : progress.afterDerivation = false := by
    rw [Bool.eq_false_iff, Ne, hmirrors.afterDerivation]
    rintro ⟨other, hother, hne⟩
    exact hne (hlines other hother)
  rw [hline]
  show Step.checkPremise ⟨_, φ, [], 0, _, some premises, progress.afterDerivation, _⟩ = .ok ()
  exact Step.checkPremise_eq_ok_iff.mpr ⟨rfl, rfl, rfl, hafter, by simpa using hφ⟩

/-- The premises of a problem can be written one below the other. -/
theorem exists_accepted_of_subset (hΓ : Γ ⊆ premises) :
    ∃ lines, Accepted calculus premises lines ∧
      (∀ line ∈ lines, line.rule = .premise ∧ line.scope = .root ∧ line.formula ∈ premises) ∧
      ∀ φ ∈ Γ, ∃ line ∈ lines, line.formula = φ := by
  induction Γ with
  | nil => exact ⟨[], .nil, by simp, by simp⟩
  | cons φ Γ ih =>
    obtain ⟨hφ, hΓ⟩ := List.cons_subset.mp hΓ
    obtain ⟨lines, haccepted, hlines, hstated⟩ := ih hΓ
    obtain ⟨line, hrule, hscope, rfl, hnext⟩ :=
      haccepted.writePremise (fun line hline => (hlines line hline).1) hφ
    refine ⟨lines ++ [line], hnext, ?_, List.forall_mem_cons.mpr ⟨⟨line, by simp, rfl⟩, ?_⟩⟩
    · rw [List.forall_mem_append, List.forall_mem_singleton]
      exact ⟨hlines, hrule, hscope, hφ⟩
    · intro ψ hψ
      obtain ⟨other, hother, hformula⟩ := hstated ψ hψ
      exact ⟨other, List.mem_append_left _ hother, hformula⟩

/-- A proof can begin with its premises. -/
theorem exists_ready (calculus : Calculus) (premises : List Formula) :
    ∃ lines, Ready calculus premises premises .root lines := by
  obtain ⟨lines, haccepted, hlines, hstated⟩ :=
    exists_accepted_of_subset (List.Subset.refl premises)
  refine ⟨lines, haccepted, List.nil_suffix, fun φ hφ => ?_, fun n hn => ?_⟩
  · obtain ⟨line, hline, hformula⟩ := hstated φ hφ
    exact ⟨line, hline, (hlines line hline).2.1 ▸ List.suffix_refl _, hformula⟩
  · rcases hn with hdeclared | ⟨line, hline, -, -, hn⟩ | ⟨line, -, hmem, -⟩
    · exact hdeclared
    · exact ⟨line.formula, (hlines line hline).2.2, hn⟩
    · cases hmem

/-- The last line of a proof is its conclusion if it lies outside every subproof. -/
theorem Document.conclusion?_concat {line : Line Formula} (hdepth : line.depth = 0) :
    (Document.mk (lines ++ [line])).conclusion? = some line := by
  simp [Document.conclusion?, List.findRev?_eq_find?_reverse, hdepth]

/-- A written proof is valid. -/
theorem Accepted.isValid_verify {line : Line Formula}
    (h : Accepted calculus premises (lines ++ [line])) (hscope : line.scope = .root) :
    (verify calculus ⟨some premises, some line.formula⟩ ⟨lines ++ [line]⟩).isValid = true := by
  have hdepth : line.depth = 0 := by
    rw [← h.laidOut.length_scope (by simp : line ∈ lines ++ [line]), hscope]
    rfl
  have hgoal : goalStatus (some line.formula) ⟨lines ++ [line]⟩ = .reached := by
    rw [goalStatus, Document.conclusion?_concat hdepth]
    exact if_pos rfl
  have hverdicts := h.all_isValid [] (by simpa using h.laidOut)
  rw [List.append_nil] at hverdicts
  simp [Verification.isValid, verify, hgoal, hverdicts]

theorem Derives.exists_valid (h : Derives calculus Γ φ) :
    ∃ drafts document, Document.build drafts = .ok document ∧
      (verify calculus ⟨some Γ, some φ⟩ document).isValid = true := by
  obtain ⟨start, hready⟩ := exists_ready calculus Γ
  obtain ⟨lines, line, hdone, -, hscope, rfl⟩ := h.writes hready
  exact ⟨(lines ++ [line]).map Line.toDraft, ⟨lines ++ [line]⟩,
    Document.build_eq_ok_iff.mpr ⟨hdone.accepted.laidOut, rfl⟩,
    hdone.accepted.isValid_verify hscope⟩

/-- **Every derivation has an accepted proof.** Whatever can be derived in natural deduction is the
goal of a proof that can be laid out in lines and is valid. -/
theorem Derives.exists_document (h : Derives .predicate Γ φ) :
    ∃ drafts document, Document.build drafts = .ok document ∧
      (verify .predicate ⟨some Γ, some φ⟩ document).isValid = true :=
  h.exists_valid

open Formula in
/-- From `∀x (P(x) → Q(x))` and `∃x P(x)` to `∃x Q(x)`. -/
theorem syllogism_exists_document :
    ∃ drafts document, Document.build drafts = .ok document ∧
      (verify .predicate
        ⟨some
          [forAll "x" (implies (atom "P" ["x"]) (atom "Q" ["x"])), forSome "x" (atom "P" ["x"])],
          some (forSome "x" (atom "Q" ["x"]))⟩ document).isValid = true := by
  have hsome : Derives .predicate
      [forAll "x" (implies (atom "P" ["x"]) (atom "Q" ["x"])), forSome "x" (atom "P" ["x"])]
      (forSome "x" (atom "P" ["x"])) := .hypothesis (by simp)
  have himplies : Derives .predicate ((atom "P" ["x"]).replace "x" "c" ::
      [forAll "x" (implies (atom "P" ["x"]) (atom "Q" ["x"])), forSome "x" (atom "P" ["x"])])
      ((implies (atom "P" ["x"]) (atom "Q" ["x"])).replace "x" "c") :=
    .forAllElim rfl ⟨trivial, trivial⟩ (.hypothesis (by simp))
  have hinstance := himplies.impliesElim (.hypothesis List.mem_cons_self)
  have hfresh : Fresh "c" [forSome "x" (atom "P" ["x"]), forSome "x" (atom "Q" ["x"]),
      forAll "x" (implies (atom "P" ["x"]) (atom "Q" ["x"])), forSome "x" (atom "P" ["x"])] := by
    rw [Fresh]
    decide
  have hP : (atom "P" ["x"]).FreeFor "c" "x" := trivial
  have hQ : (atom "Q" ["x"]).FreeFor "c" "x" := trivial
  exact Derives.exists_document
    (.forSomeElim rfl hP hfresh hsome (.forSomeIntro rfl hQ hinstance))

end NaturalDeduction

import NaturalDeduction.Proofs.Derivation.Linear

/-!
# Propositional completeness

Whatever follows propositionally from some premises has a proof that is accepted. Formulas without
quantifiers are read as Boolean combinations of their atoms, and two atoms are the same variable
exactly if they have the same name and the same arguments.

## Implementation notes

The derivation is the classical one. Where every atom or its negation is a hypothesis, each formula
is derivable or its negation is, as its truth value says (`decides_of_settled`). The hypotheses
about atoms are then removed one after the other by excluded middle (`Derives.of_settled`).

Derivability is only used at lists of hypotheses that contain the ones at hand, so that weakening
does not have to be proved.

## Main definitions

* `Formula.IsQuantifierFree`, `Formula.eval`: the propositional reading of formulas

## Main results

* `Derives.of_eval`: propositional consequences are derivable
* `verify_complete`: propositional consequences have accepted proofs
-/

namespace NaturalDeduction

/-! ### Truth assignments -/

/-- The truth function of a connective. -/
def Connective.eval : Connective → Bool → Bool → Bool
  | .and, p, q => p && q
  | .or, p, q => p || q
  | .implies, p, q => !p || q
  | .iff, p, q => p == q

namespace Formula

/-- No quantifier occurs in the formula. -/
def IsQuantifierFree : Formula → Prop
  | atom _ _ | bottom | top => True
  | not φ => φ.IsQuantifierFree
  | binary _ φ ψ => φ.IsQuantifierFree ∧ ψ.IsQuantifierFree
  | quantified _ _ _ => False

/-- The atoms of a formula, by name and arguments. -/
def atoms : Formula → List (Name × List Name)
  | atom p args => [(p, args)]
  | not φ => φ.atoms
  | binary _ φ ψ => φ.atoms ++ ψ.atoms
  | quantified _ _ φ => φ.atoms
  | bottom | top => []

/-- The truth value of a formula when its atoms have those that `τ` gives them. Quantifications
count as false, but only formulas without quantifiers are evaluated. -/
def eval (τ : Name → List Name → Bool) : Formula → Bool
  | atom p args => τ p args
  | not φ => !φ.eval τ
  | binary c φ ψ => c.eval (φ.eval τ) (ψ.eval τ)
  | quantified _ _ _ => false
  | bottom => false
  | top => true

end Formula

/-! ### Deriving by truth values -/

variable {calculus : Calculus} {τ : Name → List Name → Bool} {Γ Δ : List Formula} {φ ψ χ : Formula}

open Formula

/-- From a formula and its negation everything is derivable. -/
theorem Derives.absurd (hφ : Derives calculus Γ φ) (hnot : Derives calculus Γ (not φ)) :
    Derives calculus Γ χ :=
  (hφ.bottomIntro hnot).bottomElim

/-- The truth value of `φ` can be derived from `Δ` and from whatever contains `Δ`. -/
def Decides (calculus : Calculus) (τ : Name → List Name → Bool) (Δ : List Formula) (φ : Formula) :
    Prop :=
  ∀ ⦃Δ'⦄, Δ ⊆ Δ' →
    (φ.eval τ = true → Derives calculus Δ' φ) ∧ (φ.eval τ = false → Derives calculus Δ' (not φ))

/-- What has a true consequent or a false antecedent can be derived under the antecedent. -/
theorem Decides.consequent (hφ : Decides calculus τ Δ φ) (hψ : Decides calculus τ Δ ψ)
    (h : φ.eval τ = false ∨ ψ.eval τ = true) (hΔ : Δ ⊆ Γ) : Derives calculus (φ :: Γ) ψ := by
  have hinner := List.subset_cons_of_subset φ hΔ
  rcases h with h | h
  · exact .absurd (.hypothesis List.mem_cons_self) ((hφ hinner).2 h)
  · exact (hψ hinner).1 h

theorem decides_not (hφ : Decides calculus τ Δ φ) : Decides calculus τ Δ (not φ) := by
  intro Δ' hΔ
  have hinner := List.subset_cons_of_subset (not φ) hΔ
  rw [eval, Bool.not_eq_true', Bool.not_eq_false']
  refine ⟨(hφ hΔ).2, fun htrue => .notIntro ?_⟩
  exact ((hφ hinner).1 htrue).bottomIntro (.hypothesis List.mem_cons_self)

theorem decides_and (hφ : Decides calculus τ Δ φ) (hψ : Decides calculus τ Δ ψ) :
    Decides calculus τ Δ (and φ ψ) := by
  intro Δ' hΔ
  have hinner := List.subset_cons_of_subset (and φ ψ) hΔ
  have hboth : Derives calculus (and φ ψ :: Δ') (and φ ψ) := .hypothesis List.mem_cons_self
  rw [eval, Connective.eval, Bool.and_eq_true, Bool.and_eq_false_iff]
  refine ⟨fun ⟨hl, hr⟩ => .andIntro ((hφ hΔ).1 hl) ((hψ hΔ).1 hr), ?_⟩
  rintro (hl | hr)
  · exact .notIntro (hboth.andLeft.bottomIntro ((hφ hinner).2 hl))
  · exact .notIntro (hboth.andRight.bottomIntro ((hψ hinner).2 hr))

theorem decides_or (hφ : Decides calculus τ Δ φ) (hψ : Decides calculus τ Δ ψ) :
    Decides calculus τ Δ (or φ ψ) := by
  intro Δ' hΔ
  have hinner (χ : Formula) : Δ ⊆ χ :: or φ ψ :: Δ' :=
    List.subset_cons_of_subset χ (List.subset_cons_of_subset (or φ ψ) hΔ)
  rw [eval, Connective.eval, Bool.or_eq_true, Bool.or_eq_false_iff]
  refine ⟨?_, fun ⟨hl, hr⟩ => .notIntro (.orElim (.hypothesis List.mem_cons_self) ?_ ?_)⟩
  · rintro (hl | hr)
    · exact .orLeft ((hφ hΔ).1 hl)
    · exact .orRight ((hψ hΔ).1 hr)
  · exact .bottomIntro (.hypothesis List.mem_cons_self) ((hφ (hinner φ)).2 hl)
  · exact .bottomIntro (.hypothesis List.mem_cons_self) ((hψ (hinner ψ)).2 hr)

theorem decides_implies (hφ : Decides calculus τ Δ φ) (hψ : Decides calculus τ Δ ψ) :
    Decides calculus τ Δ (implies φ ψ) := by
  intro Δ' hΔ
  have hinner := List.subset_cons_of_subset (implies φ ψ) hΔ
  have himplies : Derives calculus (implies φ ψ :: Δ') (implies φ ψ) :=
    .hypothesis List.mem_cons_self
  rw [eval, Connective.eval, Bool.or_eq_true, Bool.or_eq_false_iff, Bool.not_eq_true',
    Bool.not_eq_false']
  refine ⟨fun h => .impliesIntro (hφ.consequent hψ h hΔ), fun ⟨hl, hr⟩ => .notIntro ?_⟩
  exact (himplies.impliesElim ((hφ hinner).1 hl)).bottomIntro ((hψ hinner).2 hr)

theorem decides_iff (hφ : Decides calculus τ Δ φ) (hψ : Decides calculus τ Δ ψ) :
    Decides calculus τ Δ (iff φ ψ) := by
  intro Δ' hΔ
  have hinner := List.subset_cons_of_subset (iff φ ψ) hΔ
  have hiff : Derives calculus (iff φ ψ :: Δ') (iff φ ψ) := .hypothesis List.mem_cons_self
  rw [eval, Connective.eval, beq_iff_eq, beq_eq_false_iff_ne]
  refine ⟨fun heq => ?_, fun hne => .notIntro ?_⟩
  · refine .iffIntro (hφ.consequent hψ ?_ hΔ) (hψ.consequent hφ ?_ hΔ)
    all_goals
      rw [heq]
      exact (Bool.eq_false_or_eq_true _).symm
  · cases hl : φ.eval τ with
    | true =>
      have hr : ψ.eval τ = false := Bool.eq_false_iff.mpr fun hr => hne (hl.trans hr.symm)
      exact (hiff.iffRight ((hφ hinner).1 hl)).bottomIntro ((hψ hinner).2 hr)
    | false =>
      have hr : ψ.eval τ = true := eq_true_of_ne_false fun hr => hne (hl.trans hr.symm)
      exact (hiff.iffLeft ((hψ hinner).1 hr)).bottomIntro ((hφ hinner).2 hl)

/-- The hypotheses contain every atom that is true under `τ`, and the negation of every other. -/
def Settles (τ : Name → List Name → Bool) (Δ : List Formula) (φ : Formula) : Prop :=
  ∀ a ∈ φ.atoms, (τ a.1 a.2 = true → atom a.1 a.2 ∈ Δ) ∧
    (τ a.1 a.2 = false → not (atom a.1 a.2) ∈ Δ)

/-- **Truth values can be derived** from those of the atoms. -/
theorem decides_of_settles (hφ : φ.IsQuantifierFree) (h : Settles τ Δ φ) :
    Decides calculus τ Δ φ := by
  induction φ with
  | atom p args =>
    intro Δ' hΔ
    obtain ⟨htrue, hfalse⟩ := h (p, args) List.mem_cons_self
    exact ⟨fun hp => .hypothesis (hΔ (htrue hp)), fun hp => .hypothesis (hΔ (hfalse hp))⟩
  | not φ ih => exact decides_not (ih hφ h)
  | binary c φ ψ ihφ ihψ =>
    have hl := ihφ hφ.1 fun a ha => h a (List.mem_append_left _ ha)
    have hr := ihψ hφ.2 fun a ha => h a (List.mem_append_right _ ha)
    cases c with
    | and => exact decides_and hl hr
    | or => exact decides_or hl hr
    | implies => exact decides_implies hl hr
    | iff => exact decides_iff hl hr
  | quantified => exact hφ.elim
  | bottom =>
    intro Δ' _
    exact ⟨fun h => Bool.noConfusion h, fun _ => .notIntro (.hypothesis List.mem_cons_self)⟩
  | top =>
    intro Δ' _
    exact ⟨fun _ => .topIntro, fun h => Bool.noConfusion h⟩

/-! ### Excluded middle -/

theorem Derives.excludedMiddle (φ : Formula) : Derives calculus Γ (or φ (not φ)) := by
  refine .notElim (.notIntro ?_)
  have hrefuted : Derives calculus (φ :: not (or φ (not φ)) :: Γ) (not (or φ (not φ))) :=
    .hypothesis (List.mem_cons_of_mem _ List.mem_cons_self)
  have hnot : Derives calculus (not (or φ (not φ)) :: Γ) (not φ) :=
    .notIntro (.bottomIntro (.orLeft (.hypothesis List.mem_cons_self)) hrefuted)
  exact .bottomIntro (.orRight hnot) (.hypothesis List.mem_cons_self)

/-- **Distinguishing cases.** What is derivable wherever every formula of a list or its negation is
a hypothesis is derivable. -/
theorem Derives.of_settled (formulas : List Formula)
    (h : ∀ Δ, Γ ⊆ Δ → (∀ φ ∈ formulas, φ ∈ Δ ∨ not φ ∈ Δ) → Derives calculus Δ χ) :
    Derives calculus Γ χ := by
  induction formulas generalizing Γ with
  | nil => exact h Γ (List.Subset.refl Γ) (by simp)
  | cons φ formulas ih =>
    refine .orElim (.excludedMiddle φ) (ih fun Δ hΔ hsettled => ?_) (ih fun Δ hΔ hsettled => ?_)
    · obtain ⟨hφ, hΓ⟩ := List.cons_subset.mp hΔ
      exact h Δ hΓ (List.forall_mem_cons.mpr ⟨.inl hφ, hsettled⟩)
    · obtain ⟨hφ, hΓ⟩ := List.cons_subset.mp hΔ
      exact h Δ hΓ (List.forall_mem_cons.mpr ⟨.inr hφ, hsettled⟩)

/-! ### Completeness -/

/-- **Propositional consequences are derivable.** -/
theorem Derives.of_eval (hΓ : ∀ γ ∈ Γ, γ.IsQuantifierFree) (hφ : φ.IsQuantifierFree)
    (h : ∀ τ, (∀ γ ∈ Γ, γ.eval τ = true) → φ.eval τ = true) : Derives calculus Γ φ := by
  refine .of_settled ((φ :: Γ).flatMap fun ψ => ψ.atoms.map fun a => atom a.1 a.2)
    fun Δ hΔ hsettled => ?_
  -- the hypotheses are read as a truth assignment
  obtain ⟨τ, hτ⟩ : ∃ τ : Name → List Name → Bool, ∀ p args, τ p args = decide (atom p args ∈ Δ) :=
    ⟨_, fun _ _ => rfl⟩
  have hsettles : ∀ ψ ∈ φ :: Γ, Settles τ Δ ψ := by
    intro ψ hψ a ha
    rw [hτ, decide_eq_true_eq, decide_eq_false_iff_not]
    have hmem : atom a.1 a.2 ∈ (φ :: Γ).flatMap fun ψ => ψ.atoms.map fun a => atom a.1 a.2 :=
      List.mem_flatMap.mpr ⟨ψ, hψ, List.mem_map.mpr ⟨a, ha, rfl⟩⟩
    exact ⟨id, (hsettled _ hmem).resolve_left⟩
  by_cases hall : ∀ γ ∈ Γ, γ.eval τ = true
  · have hdecides : Decides calculus τ Δ φ := decides_of_settles hφ (hsettles φ List.mem_cons_self)
    exact (hdecides (List.Subset.refl Δ)).1 (h τ hall)
  · obtain ⟨γ, hγ, hfalse⟩ : ∃ γ ∈ Γ, γ.eval τ = false := by
      simpa using hall
    have hdecides : Decides calculus τ Δ γ :=
      decides_of_settles (hΓ γ hγ) (hsettles γ (List.mem_cons_of_mem _ hγ))
    exact .absurd (.hypothesis (hΔ hγ)) ((hdecides (List.Subset.refl Δ)).2 hfalse)

/-- **Propositional completeness.** If every truth assignment that makes the premises true
makes the goal true, there is a proof that can be laid out in lines and is valid, without rules
for quantifiers. -/
theorem verify_complete (hΓ : ∀ γ ∈ Γ, γ.IsQuantifierFree) (hφ : φ.IsQuantifierFree)
    (h : ∀ τ, (∀ γ ∈ Γ, γ.eval τ = true) → φ.eval τ = true) :
    ∃ drafts document, Document.build drafts = .ok document ∧
      (verify .propositional ⟨some Γ, some φ⟩ document).isValid = true :=
  (Derives.of_eval hΓ hφ h).exists_valid

/-- Peirce's law has a proof. -/
theorem peirce_complete :
    ∃ drafts document, Document.build drafts = .ok document ∧
      (verify .propositional ⟨some [], some
        (implies (implies (implies (atom "P" []) (atom "Q" [])) (atom "P" [])) (atom "P" []))⟩
        document).isValid = true := by
  refine verify_complete (by simp) (by simp [IsQuantifierFree]) fun τ _ => ?_
  simp only [eval, Connective.eval]
  cases τ "P" [] <;> cases τ "Q" [] <;> rfl

end NaturalDeduction

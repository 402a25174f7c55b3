import NaturalDeduction.Proofs.Formula.Substitution
import NaturalDeduction.Verification.Step

/-!
# What each rule accepts

`Step.check` and the functions behind it answer with the first thing that is wrong. Here is what it
means that nothing is wrong, rule by rule: what is cited, and how the conclusion comes from it.
Whoever uses a rule, from outside, uses the lemma about it and does not open the function.

## Implementation notes

All lemmas have one shape. First comes what is cited, as the two lists that the rules look at, and
then the inference. The order of the tests, on which the reported mismatch depends, leaves no trace.

## Main definitions

* `Formula.IsInstance`: a body with some name in place of the variable
* `Formula.IsArbitrary`: the same, with a name that stands for an arbitrary individual

## Main results

* `Step.checkAndIntro_eq_ok_iff` and the lemmas of that form: what each rule accepts
-/

namespace NaturalDeduction

/-! ### Instances -/

namespace Formula

/-- `ψ` is `φ` with some name in place of `x`. If `x` is not free in `φ`, that is `φ` itself. -/
def IsInstance (x : Name) (φ ψ : Formula) : Prop :=
  ∃ t, φ.FreeFor t x ∧ ψ = φ.replace x t

/-- `ψ` is `φ` with `x` replaced by a name that is fixed neither by the context nor by the given
formulas. If `x` is not free in `φ`, there is no such name, and `ψ` is `φ` itself. -/
def IsArbitrary (x : Name) (φ ψ : Formula) (context : List Name) (formulas : List Formula) : Prop :=
  (x ∉ φ.freeNames ∧ ψ = φ) ∨
    ∃ t, x ∈ φ.freeNames ∧ φ.FreeFor t x ∧ ψ = φ.replace x t ∧ t ∉ context ∧
      ∀ χ ∈ formulas, t ∉ χ.freeNames

variable {x : Name} {φ ψ : Formula}

theorem instanceOf?_isSome_iff : (φ.instanceOf? x ψ).isSome = true ↔ φ.IsInstance x ψ := by
  rw [Option.isSome_iff_exists]
  constructor
  · rintro ⟨_ | t, h⟩
    · obtain ⟨hx, rfl⟩ := instanceOf?_eq_vacuous_iff.mp h
      exact ⟨x, freeFor_of_notMem hx, (replace_of_notMem hx).symm⟩
    · obtain ⟨-, hfree, hψ⟩ := instanceOf?_eq_name_iff.mp h
      exact ⟨t, hfree, hψ⟩
  · rintro ⟨t, hfree, hψ⟩
    by_cases hx : x ∈ φ.freeNames
    · exact ⟨.name t, instanceOf?_eq_name_iff.mpr ⟨hx, hfree, hψ⟩⟩
    · exact ⟨.vacuous, instanceOf?_eq_vacuous_iff.mpr ⟨hx, hψ.trans (replace_of_notMem hx)⟩⟩

end Formula

namespace Cited

variable {cited : List (Cited Formula)} {l : CitedLine Formula} {s : CitedSubproof Formula}

theorem mem_lines : l ∈ lines cited ↔ .line l ∈ cited := by
  rw [lines, List.mem_filterMap]
  constructor
  · rintro ⟨_ | _, hc, ⟨⟩⟩
    exact hc
  · exact fun hl => ⟨_, hl, rfl⟩

theorem mem_subproofs : s ∈ subproofs cited ↔ .subproof s ∈ cited := by
  rw [subproofs, List.mem_filterMap]
  constructor
  · rintro ⟨_ | _, hc, ⟨⟩⟩
    exact hc
  · exact fun hs => ⟨_, hs, rfl⟩

end Cited

namespace Step

/-! ### The parts of the checks -/

@[simp] theorem ensure_eq_ok_iff {p : Prop} [Decidable p] {requirement : Requirement} :
    ensure p requirement = .ok () ↔ p := by
  by_cases hp : p <;> simp [ensure, hp]

theorem wants_ne_ok {lines subproofs : Nat} {cited : List (Cited Formula)} :
    wants lines subproofs cited ≠ .ok () := by
  simp [wants]

@[simp] theorem bind_eq_ok_iff {first second : Except Mismatch Unit} :
    (first >>= fun _ => second) = .ok () ↔ first = .ok () ∧ second = .ok () := by
  cases first <;> simp [bind, Except.bind]

theorem ensureFresh_eq_ok_iff {name : Name} {context : List Name} {formulas : List Formula} :
    ensureFresh name context formulas = .ok () ↔
      name ∉ context ∧ ∀ φ ∈ formulas, name ∉ φ.freeNames := by
  simp [ensureFresh]

theorem ensureArbitrary_eq_ok_iff {x : Name} {φ ψ : Formula} {requirement : Requirement}
    {context : List Name} {formulas : List Formula} :
    ensureArbitrary (φ.instanceOf? x ψ) requirement context formulas = .ok () ↔
      φ.IsArbitrary x ψ context formulas := by
  constructor
  · intro h
    cases hfound : φ.instanceOf? x ψ with
    | none =>
      rw [hfound] at h
      cases h
    | some found =>
      rw [hfound] at h
      cases found with
      | vacuous => exact .inl (Formula.instanceOf?_eq_vacuous_iff.mp hfound)
      | name t =>
        obtain ⟨hcontext, hformulas⟩ := ensureFresh_eq_ok_iff.mp h
        obtain ⟨hx, hfree, hψ⟩ := Formula.instanceOf?_eq_name_iff.mp hfound
        exact .inr ⟨t, hx, hfree, hψ, hcontext, hformulas⟩
  · rintro (hvacuous | ⟨t, hx, hfree, hψ, hfresh⟩)
    · rw [Formula.instanceOf?_eq_vacuous_iff.mpr hvacuous]
      rfl
    · rw [Formula.instanceOf?_eq_name_iff.mpr ⟨hx, hfree, hψ⟩]
      exact ensureFresh_eq_ok_iff.mpr hfresh

theorem eitherOrder_eq_ok_iff {requirement : Requirement}
    {first second : Option (Except Mismatch Unit)} :
    eitherOrder requirement first second = .ok () ↔
      first = some (.ok ()) ∨ second = some (.ok ()) := by
  rcases first with _ | _ | ⟨⟨⟩⟩ <;> rcases second with _ | _ | ⟨⟨⟩⟩ <;> simp [eitherOrder]

theorem detach_eq_some_ok_iff {c major minor : Formula} :
    detach c major minor = some (.ok ()) ↔ major = .implies minor c := by
  unfold detach
  split
  · rw [Option.some_inj, bind_eq_ok_iff, ensure_eq_ok_iff, ensure_eq_ok_iff]
    simp [eq_comm]
  · next hmajor => simpa using hmajor minor c

theorem exchange_eq_some_ok_iff {c major minor : Formula} :
    exchange c major minor = some (.ok ()) ↔ major = .iff minor c ∨ major = .iff c minor := by
  unfold exchange
  split
  · rw [Option.some_inj, ensure_eq_ok_iff]
    simp [eq_comm, and_comm]
  · next hmajor => simpa using ⟨hmajor minor c, hmajor c minor⟩

/-! ### Premises, assumptions and repetition -/

open Cited (lines subproofs)

variable {c : Formula} {cited : List (Cited Formula)}

theorem checkPremise_eq_ok_iff {step : Step Formula} :
    checkPremise step = .ok () ↔
      lines step.cited = [] ∧ subproofs step.cited = [] ∧ step.depth = 0 ∧
        step.afterDerivation = false ∧ ∀ premises ∈ step.premises, step.conclusion ∈ premises := by
  rw [checkPremise]
  split
  · next hl hs =>
    by_cases hdepth : step.depth = 0
    · by_cases hafter : step.afterDerivation = true
      · simp [hdepth, hafter]
      · cases step.premises <;> simp [hl, hs, hdepth, hafter]
    · simp [hdepth]
  · next hcited => exact iff_of_false wants_ne_ok fun ⟨hl, hs, _⟩ => hcited hl hs

theorem checkAssumption_eq_ok_iff :
    checkAssumption cited = .ok () ↔ lines cited = [] ∧ subproofs cited = [] := by
  rw [checkAssumption]
  split
  · next hl hs => simp [hl, hs]
  · next hcited => exact iff_of_false wants_ne_ok fun ⟨hl, hs⟩ => hcited hl hs

theorem checkReiteration_eq_ok_iff :
    checkReiteration c cited = .ok () ↔
      ∃ a, lines cited = [a] ∧ subproofs cited = [] ∧ a.formula = c := by
  rw [checkReiteration]
  split
  · next a hl hs => simp [hl, hs]
  · next hcited => exact iff_of_false wants_ne_ok fun ⟨a, hl, hs, _⟩ => hcited a hl hs

/-! ### Conjunction and disjunction -/

theorem checkAndIntro_eq_ok_iff :
    checkAndIntro c cited = .ok () ↔
      (∃ a, lines cited = [a] ∧ subproofs cited = [] ∧ c = .and a.formula a.formula) ∨
        ∃ a b, lines cited = [a, b] ∧ subproofs cited = [] ∧
          (c = .and a.formula b.formula ∨ c = .and b.formula a.formula) := by
  unfold checkAndIntro
  split
  · next left right =>
    split
    · next a hl hs =>
      have hboth : (left = right ∧ a.formula = left) ↔ left = a.formula ∧ right = a.formula :=
        ⟨fun ⟨h, ha⟩ => ⟨ha.symm, (ha.trans h).symm⟩, fun ⟨hl, hr⟩ => ⟨hl.trans hr.symm, hl.symm⟩⟩
      rw [ensure_eq_ok_iff, hboth]
      simp [hl, hs]
    · next a b hl hs =>
      rw [ensure_eq_ok_iff]
      simp [hl, hs, eq_comm, and_comm]
    · next hone htwo =>
      refine iff_of_false wants_ne_ok ?_
      rintro (⟨a, hl, hs, -⟩ | ⟨a, b, hl, hs, -⟩)
      · exact hone a hl hs
      · exact htwo a b hl hs
  · next hc =>
    refine iff_of_false nofun ?_
    rintro (⟨a, -, -, rfl⟩ | ⟨a, b, -, -, rfl | rfl⟩) <;> exact hc _ _ rfl

theorem checkAndElim_eq_ok_iff :
    checkAndElim c cited = .ok () ↔ ∃ a, lines cited = [a] ∧ subproofs cited = [] ∧
      ∃ φ, a.formula = .and c φ ∨ a.formula = .and φ c := by
  rw [checkAndElim]
  split
  · next a hl hs =>
    split
    · next ha =>
      rw [ensure_eq_ok_iff]
      simp [hl, hs, ha, exists_or, eq_comm]
    · next ha => simpa [hl, hs] using fun φ => ⟨ha c φ, ha φ c⟩
  · next hcited => exact iff_of_false wants_ne_ok fun ⟨a, hl, hs, _⟩ => hcited a hl hs

theorem checkOrIntro_eq_ok_iff :
    checkOrIntro c cited = .ok () ↔ ∃ a, lines cited = [a] ∧ subproofs cited = [] ∧
      ∃ φ, c = .or a.formula φ ∨ c = .or φ a.formula := by
  rw [checkOrIntro]
  split
  · next a hl hs =>
    split
    · rw [ensure_eq_ok_iff]
      simp [hl, hs, exists_or, eq_comm]
    · next hc => simpa [hl, hs] using fun φ => ⟨hc a.formula φ, hc φ a.formula⟩
  · next hcited => exact iff_of_false wants_ne_ok fun ⟨a, hl, hs, _⟩ => hcited a hl hs

theorem checkOrElim_eq_ok_iff :
    checkOrElim c cited = .ok () ↔ ∃ a s t, lines cited = [a] ∧ subproofs cited = [s, t] ∧
      (a.formula = .or s.assumption t.assumption ∨ a.formula = .or t.assumption s.assumption) ∧
      s.conclusion = c ∧ t.conclusion = c := by
  rw [checkOrElim]
  split
  · next a s t hl hs =>
    split
    · next ha =>
      rw [bind_eq_ok_iff, ensure_eq_ok_iff, ensure_eq_ok_iff]
      simp [hl, hs, ha, and_assoc, eq_comm, and_comm]
    · next ha => simpa [hl, hs, and_assoc] using fun h => (h.elim (ha _ _) (ha _ _)).elim
  · next hcited => exact iff_of_false wants_ne_ok fun ⟨a, s, t, hl, hs, _⟩ => hcited a s t hl hs

/-! ### Implication and negation -/

theorem checkImpliesIntro_eq_ok_iff :
    checkImpliesIntro c cited = .ok () ↔ ∃ s, lines cited = [] ∧ subproofs cited = [s] ∧
      c = .implies s.assumption s.conclusion := by
  rw [checkImpliesIntro]
  split
  · next s hl hs =>
    split
    · rw [bind_eq_ok_iff, ensure_eq_ok_iff, ensure_eq_ok_iff]
      simp [hl, hs, eq_comm]
    · next hc => simpa [hl, hs] using hc s.assumption s.conclusion
  · next hcited => exact iff_of_false wants_ne_ok fun ⟨s, hl, hs, _⟩ => hcited s hl hs

theorem checkImpliesElim_eq_ok_iff :
    checkImpliesElim c cited = .ok () ↔ ∃ a b, lines cited = [a, b] ∧ subproofs cited = [] ∧
      (a.formula = .implies b.formula c ∨ b.formula = .implies a.formula c) := by
  rw [checkImpliesElim]
  split
  · next a b hl hs =>
    rw [eitherOrder_eq_ok_iff, detach_eq_some_ok_iff, detach_eq_some_ok_iff]
    simp [hl, hs, and_assoc]
  · next hcited => exact iff_of_false wants_ne_ok fun ⟨a, b, hl, hs, _⟩ => hcited a b hl hs

theorem checkNotIntro_eq_ok_iff :
    checkNotIntro c cited = .ok () ↔ ∃ s, lines cited = [] ∧ subproofs cited = [s] ∧
      s.conclusion = .bottom ∧ c = .not s.assumption := by
  rw [checkNotIntro]
  split
  · next s hl hs =>
    split
    · rw [bind_eq_ok_iff, ensure_eq_ok_iff, ensure_eq_ok_iff]
      simp [hl, hs, eq_comm, and_comm]
    · next hc => simpa [hl, hs] using fun _ => hc s.assumption
  · next hcited => exact iff_of_false wants_ne_ok fun ⟨s, hl, hs, _⟩ => hcited s hl hs

theorem checkNotElim_eq_ok_iff :
    checkNotElim c cited = .ok () ↔ ∃ a, lines cited = [a] ∧ subproofs cited = [] ∧
      a.formula = .not (.not c) := by
  rw [checkNotElim]
  split
  · next a hl hs =>
    split
    · next ha =>
      rw [ensure_eq_ok_iff]
      simp [hl, hs, ha]
    · next ha => simpa [hl, hs] using ha c
  · next hcited => exact iff_of_false wants_ne_ok fun ⟨a, hl, hs, _⟩ => hcited a hl hs

/-! ### Contradiction and tautology -/

theorem checkContradictionIntro_eq_ok_iff :
    checkContradictionIntro c cited = .ok () ↔
      ∃ a b, lines cited = [a, b] ∧ subproofs cited = [] ∧ c = .bottom ∧
        (a.formula = .not b.formula ∨ b.formula = .not a.formula) := by
  rw [checkContradictionIntro]
  split
  · next a b hl hs =>
    split
    · rw [ensure_eq_ok_iff]
      simp [hl, hs, and_assoc]
    · next hc => simpa [hl, hs, and_assoc] using fun h => (hc h).elim
  · next hcited => exact iff_of_false wants_ne_ok fun ⟨a, b, hl, hs, _⟩ => hcited a b hl hs

theorem checkContradictionElim_eq_ok_iff :
    checkContradictionElim cited = .ok () ↔
      ∃ a, lines cited = [a] ∧ subproofs cited = [] ∧ a.formula = .bottom := by
  rw [checkContradictionElim]
  split
  · next a hl hs =>
    split
    · next ha => simp [hl, hs, ha]
    · next ha => simpa [hl, hs] using ha
  · next hcited => exact iff_of_false wants_ne_ok fun ⟨a, hl, hs, _⟩ => hcited a hl hs

theorem checkTautologyIntro_eq_ok_iff :
    checkTautologyIntro c cited = .ok () ↔
      lines cited = [] ∧ subproofs cited = [] ∧ c = .top := by
  unfold checkTautologyIntro
  split
  · next hl hs =>
    split
    · simp [hl, hs]
    · next hc => simpa [hl, hs] using hc
  · next hcited => exact iff_of_false wants_ne_ok fun ⟨hl, hs, _⟩ => hcited hl hs

/-! ### Biconditional -/

theorem checkIffIntro_eq_ok_iff :
    checkIffIntro c cited = .ok () ↔ ∃ s t, lines cited = [] ∧ subproofs cited = [s, t] ∧
      t = ⟨s.conclusion, s.assumption⟩ ∧
      (c = .iff s.assumption s.conclusion ∨ c = .iff s.conclusion s.assumption) := by
  rw [checkIffIntro]
  split
  · next s t hl hs =>
    split
    · next l r =>
      obtain ⟨p, q⟩ := s
      obtain ⟨p', q'⟩ := t
      rw [ensure_eq_ok_iff]
      simp only [hl, hs, List.cons.injEq, CitedSubproof.mk.injEq, Formula.binary.injEq]
      constructor
      · rintro (⟨⟨rfl, rfl⟩, rfl, rfl⟩ | ⟨⟨rfl, rfl⟩, rfl, rfl⟩)
        · exact ⟨_, _, trivial, ⟨rfl, rfl, trivial⟩, rfl, .inl ⟨trivial, rfl, rfl⟩⟩
        · exact ⟨_, _, trivial, ⟨rfl, rfl, trivial⟩, rfl, .inr ⟨trivial, rfl, rfl⟩⟩
      · rintro ⟨_, _, -, ⟨rfl, rfl, -⟩, ⟨⟨⟩⟩, ⟨-, rfl, rfl⟩ | ⟨-, rfl, rfl⟩⟩
        · exact .inl ⟨⟨rfl, rfl⟩, rfl, rfl⟩
        · exact .inr ⟨⟨rfl, rfl⟩, rfl, rfl⟩
    · next hc => simpa [hl, hs, and_assoc] using fun _ => ⟨hc _ _, hc _ _⟩
  · next hcited => exact iff_of_false wants_ne_ok fun ⟨s, t, hl, hs, _⟩ => hcited s t hl hs

theorem checkIffElim_eq_ok_iff :
    checkIffElim c cited = .ok () ↔ ∃ a b, lines cited = [a, b] ∧ subproofs cited = [] ∧
      ((a.formula = .iff b.formula c ∨ a.formula = .iff c b.formula) ∨
        b.formula = .iff a.formula c ∨ b.formula = .iff c a.formula) := by
  rw [checkIffElim]
  split
  · next a b hl hs =>
    rw [eitherOrder_eq_ok_iff, exchange_eq_some_ok_iff, exchange_eq_some_ok_iff]
    simp [hl, hs, and_assoc]
  · next hcited => exact iff_of_false wants_ne_ok fun ⟨a, b, hl, hs, _⟩ => hcited a b hl hs

/-! ### Quantifiers -/

variable {context : List Name}

theorem checkForAllIntro_eq_ok_iff :
    checkForAllIntro c context cited = .ok () ↔
      ∃ a, lines cited = [a] ∧ subproofs cited = [] ∧
        ∃ x φ, c = .forAll x φ ∧ φ.IsArbitrary x a.formula context [c] := by
  rw [checkForAllIntro]
  split
  · next a hl hs =>
    split
    · rw [ensureArbitrary_eq_ok_iff]
      simp [hl, hs, and_assoc]
    · next hc => simpa [hl, hs] using fun x φ h => (hc x φ h).elim
  · next hcited => exact iff_of_false wants_ne_ok fun ⟨a, hl, hs, _⟩ => hcited a hl hs

theorem checkForAllElim_eq_ok_iff :
    checkForAllElim c cited = .ok () ↔ ∃ a, lines cited = [a] ∧ subproofs cited = [] ∧
      ∃ x φ, a.formula = .forAll x φ ∧ φ.IsInstance x c := by
  rw [checkForAllElim]
  split
  · next a hl hs =>
    split
    · next ha =>
      rw [ensure_eq_ok_iff, Formula.instanceOf?_isSome_iff]
      simp [hl, hs, ha, and_assoc]
    · next ha => simpa [hl, hs] using fun x φ h => (ha x φ h).elim
  · next hcited => exact iff_of_false wants_ne_ok fun ⟨a, hl, hs, _⟩ => hcited a hl hs

theorem checkForSomeIntro_eq_ok_iff :
    checkForSomeIntro c cited = .ok () ↔ ∃ a, lines cited = [a] ∧ subproofs cited = [] ∧
      ∃ x φ, c = .forSome x φ ∧ φ.IsInstance x a.formula := by
  rw [checkForSomeIntro]
  split
  · next a hl hs =>
    split
    · rw [ensure_eq_ok_iff, Formula.instanceOf?_isSome_iff]
      simp [hl, hs, and_assoc]
    · next hc => simpa [hl, hs] using fun x φ h => (hc x φ h).elim
  · next hcited => exact iff_of_false wants_ne_ok fun ⟨a, hl, hs, _⟩ => hcited a hl hs

theorem checkForSomeElim_eq_ok_iff :
    checkForSomeElim c context cited = .ok () ↔
      ∃ a s, lines cited = [a] ∧ subproofs cited = [s] ∧
        ∃ x φ, a.formula = .forSome x φ ∧
          φ.IsArbitrary x s.assumption context [a.formula, c] ∧ s.conclusion = c := by
  rw [checkForSomeElim]
  split
  · next a s hl hs =>
    split
    · next ha =>
      rw [bind_eq_ok_iff, ensureArbitrary_eq_ok_iff, ensure_eq_ok_iff]
      simp [hl, hs, ha, and_assoc]
    · next ha => simpa [hl, hs, and_assoc] using fun x φ h => (ha x φ h).elim
  · next hcited => exact iff_of_false wants_ne_ok fun ⟨a, s, hl, hs, _⟩ => hcited a s hl hs

end Step

end NaturalDeduction

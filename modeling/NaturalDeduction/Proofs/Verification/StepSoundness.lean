import NaturalDeduction.Proofs.Verification.Rules

/-!
# Soundness of single steps

A step that passes leads from truths to truths: from the formulas of the lines that it cites, and
from the conclusions of the subproofs that it cites wherever their assumptions are true.

## Why fresh names are arbitrary

Most rules can be read at a single valuation. The two that ask for an arbitrary name need what they
cite at others too, but only at valuations that agree on the names of the context. Which value a
fresh name must have for an instance to say what the body says of an individual is the content of
`Formula.IsArbitrary.exists_valuation`.

## Main definitions

* `Cited.Holds`: what a step may rely on

## Main results

* `Step.sound`: a step that passes is sound
-/

universe u

namespace NaturalDeduction

variable {D : Type u} {M : Structure D} {v : Name → D}

/-! ### What is cited -/

namespace Cited

/-- What a citation contributes at a valuation: a line its formula, a subproof its conclusion
provided that its assumption is true. -/
def Holds (M : Structure D) (v : Name → D) : Cited Formula → Prop
  | line l => l.formula.Holds M v
  | subproof s => s.assumption.Holds M v → s.conclusion.Holds M v

variable {cited : List (Cited Formula)}

theorem holds_line (h : ∀ x ∈ cited, x.Holds M v) {ls : List (CitedLine Formula)}
    (hls : lines cited = ls) {l : CitedLine Formula} (hl : l ∈ ls) : l.formula.Holds M v :=
  h (line l) (mem_lines.mp (hls ▸ hl))

theorem holds_subproof (h : ∀ x ∈ cited, x.Holds M v) {ss : List (CitedSubproof Formula)}
    (hss : subproofs cited = ss) {s : CitedSubproof Formula} (hs : s ∈ ss)
    (hassumed : s.assumption.Holds M v) :
    s.conclusion.Holds M v :=
  h (subproof s) (mem_subproofs.mp (hss ▸ hs)) hassumed

end Cited

/-! ### Changing the value of a fresh name -/

namespace Formula

variable {x t : Name} {φ ψ : Formula}

/-- An instance with a fresh name says of the value of that name what the body says of the value of
its variable. -/
theorem holds_replace_update {q : Quantifier} {d : D} (hfree : φ.FreeFor t x)
    (ht : t ∉ (quantified q x φ).freeNames) :
    (φ.replace x t).Holds M (Function.update v t d) ↔ φ.Holds M (Function.update v x d) := by
  rw [holds_replace hfree, Function.update_self]
  refine holds_congr fun n hn => ?_
  by_cases hx : n = x
  · rw [hx, Function.update_self, Function.update_self]
  · have hnt : n ≠ t := fun h => ht (h ▸ mem_freeNames_quantified.mpr ⟨hn, hx⟩)
    rw [Function.update_of_ne hx, Function.update_of_ne hx, Function.update_of_ne hnt]

/-- **An arbitrary name can be given any value.** There is a valuation, the same on all names that
are fixed, under which the instance says what the body says of `d`. -/
theorem IsArbitrary.exists_valuation {q : Quantifier} {context : List Name}
    {formulas : List Formula} (h : φ.IsArbitrary x ψ context formulas)
    (hq : quantified q x φ ∈ formulas) (M : Structure D) (v : Name → D) (d : D) :
    ∃ w, (ψ.Holds M w ↔ φ.Holds M (Function.update v x d)) ∧ (∀ n ∈ context, w n = v n) ∧
      ∀ χ ∈ formulas, (χ.Holds M w ↔ χ.Holds M v) := by
  rcases h with ⟨hx, rfl⟩ | ⟨t, -, hfree, rfl, hcontext, hformulas⟩
  · exact ⟨v, (holds_update_of_notMem hx d).symm, fun _ _ => rfl, fun _ _ => Iff.rfl⟩
  · exact ⟨Function.update v t d, holds_replace_update hfree (hformulas _ hq),
      fun n hn => Function.update_of_ne (ne_of_mem_of_not_mem hn hcontext) _ _,
      fun χ hχ => holds_update_of_notMem (hformulas χ hχ) d⟩

end Formula

/-! ### The rules -/

namespace Step

open Cited (holds_line holds_subproof)

variable {c : Formula} {cited : List (Cited Formula)}

theorem checkReiteration_sound (h : checkReiteration c cited = .ok ())
    (hcited : ∀ x ∈ cited, x.Holds M v) : c.Holds M v := by
  obtain ⟨a, hl, -, rfl⟩ := checkReiteration_eq_ok_iff.mp h
  exact holds_line hcited hl (by simp)

theorem checkAndIntro_sound (h : checkAndIntro c cited = .ok ())
    (hcited : ∀ x ∈ cited, x.Holds M v) : c.Holds M v := by
  rcases checkAndIntro_eq_ok_iff.mp h with ⟨a, hl, -, rfl⟩ | ⟨a, b, hl, -, hc⟩
  · have ha : a.formula.Holds M v := holds_line hcited hl (by simp)
    exact ⟨ha, ha⟩
  · have ha : a.formula.Holds M v := holds_line hcited hl (by simp)
    have hb : b.formula.Holds M v := holds_line hcited hl (by simp)
    rcases hc with rfl | rfl
    · exact ⟨ha, hb⟩
    · exact ⟨hb, ha⟩

theorem checkAndElim_sound (h : checkAndElim c cited = .ok ())
    (hcited : ∀ x ∈ cited, x.Holds M v) : c.Holds M v := by
  obtain ⟨a, hl, -, φ, hboth⟩ := checkAndElim_eq_ok_iff.mp h
  have ha : a.formula.Holds M v := holds_line hcited hl (by simp)
  rcases hboth with hboth | hboth <;> rw [hboth] at ha
  · exact ha.1
  · exact ha.2

theorem checkOrIntro_sound (h : checkOrIntro c cited = .ok ())
    (hcited : ∀ x ∈ cited, x.Holds M v) : c.Holds M v := by
  obtain ⟨a, hl, -, φ, rfl | rfl⟩ := checkOrIntro_eq_ok_iff.mp h
  · exact .inl (holds_line hcited hl (by simp))
  · exact .inr (holds_line hcited hl (by simp))

theorem checkOrElim_sound (h : checkOrElim c cited = .ok ())
    (hcited : ∀ x ∈ cited, x.Holds M v) : c.Holds M v := by
  obtain ⟨a, s, t, hl, hs, heither, hsc, htc⟩ := checkOrElim_eq_ok_iff.mp h
  have ha : a.formula.Holds M v := holds_line hcited hl (by simp)
  have hleft : s.assumption.Holds M v → c.Holds M v :=
    hsc ▸ holds_subproof hcited hs (by simp)
  have hright : t.assumption.Holds M v → c.Holds M v :=
    htc ▸ holds_subproof hcited hs (by simp)
  rcases heither with heither | heither <;> rw [heither] at ha
  · exact ha.elim hleft hright
  · exact ha.elim hright hleft

theorem checkImpliesIntro_sound (h : checkImpliesIntro c cited = .ok ())
    (hcited : ∀ x ∈ cited, x.Holds M v) : c.Holds M v := by
  obtain ⟨s, -, hs, rfl⟩ := checkImpliesIntro_eq_ok_iff.mp h
  exact holds_subproof hcited hs (by simp)

theorem checkImpliesElim_sound (h : checkImpliesElim c cited = .ok ())
    (hcited : ∀ x ∈ cited, x.Holds M v) : c.Holds M v := by
  obtain ⟨a, b, hl, -, himplies⟩ := checkImpliesElim_eq_ok_iff.mp h
  have ha : a.formula.Holds M v := holds_line hcited hl (by simp)
  have hb : b.formula.Holds M v := holds_line hcited hl (by simp)
  rcases himplies with himplies | himplies
  · rw [himplies] at ha
    exact ha hb
  · rw [himplies] at hb
    exact hb ha

theorem checkNotIntro_sound (h : checkNotIntro c cited = .ok ())
    (hcited : ∀ x ∈ cited, x.Holds M v) : c.Holds M v := by
  obtain ⟨s, -, hs, hbottom, rfl⟩ := checkNotIntro_eq_ok_iff.mp h
  intro hassumed
  have hconclusion : s.conclusion.Holds M v := holds_subproof hcited hs (by simp) hassumed
  rwa [hbottom] at hconclusion

theorem checkNotElim_sound (h : checkNotElim c cited = .ok ())
    (hcited : ∀ x ∈ cited, x.Holds M v) : c.Holds M v := by
  obtain ⟨a, hl, -, hnot⟩ := checkNotElim_eq_ok_iff.mp h
  have ha : a.formula.Holds M v := holds_line hcited hl (by simp)
  rw [hnot] at ha
  exact not_not.mp ha

theorem checkContradictionIntro_sound (h : checkContradictionIntro c cited = .ok ())
    (hcited : ∀ x ∈ cited, x.Holds M v) : c.Holds M v := by
  obtain ⟨a, b, hl, -, rfl, hnot⟩ := checkContradictionIntro_eq_ok_iff.mp h
  have ha : a.formula.Holds M v := holds_line hcited hl (by simp)
  have hb : b.formula.Holds M v := holds_line hcited hl (by simp)
  rcases hnot with hnot | hnot
  · rw [hnot] at ha
    exact ha hb
  · rw [hnot] at hb
    exact hb ha

theorem checkContradictionElim_sound (h : checkContradictionElim cited = .ok ())
    (hcited : ∀ x ∈ cited, x.Holds M v) : c.Holds M v := by
  obtain ⟨a, hl, -, hbottom⟩ := checkContradictionElim_eq_ok_iff.mp h
  have ha : a.formula.Holds M v := holds_line hcited hl (by simp)
  rw [hbottom] at ha
  exact False.elim ha

theorem checkTautologyIntro_sound (h : checkTautologyIntro c cited = .ok ()) : c.Holds M v := by
  obtain ⟨-, -, rfl⟩ := checkTautologyIntro_eq_ok_iff.mp h
  trivial

theorem checkIffIntro_sound (h : checkIffIntro c cited = .ok ())
    (hcited : ∀ x ∈ cited, x.Holds M v) : c.Holds M v := by
  obtain ⟨s, t, -, hs, rfl, hc⟩ := checkIffIntro_eq_ok_iff.mp h
  have hthere : s.assumption.Holds M v → s.conclusion.Holds M v :=
    holds_subproof hcited hs (by simp)
  have hback : s.conclusion.Holds M v → s.assumption.Holds M v :=
    holds_subproof hcited hs (List.mem_cons_of_mem _ List.mem_cons_self)
  rcases hc with rfl | rfl
  · exact ⟨hthere, hback⟩
  · exact ⟨hback, hthere⟩

theorem checkIffElim_sound (h : checkIffElim c cited = .ok ())
    (hcited : ∀ x ∈ cited, x.Holds M v) : c.Holds M v := by
  obtain ⟨a, b, hl, -, hiff⟩ := checkIffElim_eq_ok_iff.mp h
  have ha : a.formula.Holds M v := holds_line hcited hl (by simp)
  have hb : b.formula.Holds M v := holds_line hcited hl (by simp)
  rcases hiff with (hiff | hiff) | hiff | hiff
  · rw [hiff] at ha
    exact ha.mp hb
  · rw [hiff] at ha
    exact ha.mpr hb
  · rw [hiff] at hb
    exact hb.mp ha
  · rw [hiff] at hb
    exact hb.mpr ha

/-! ### The rules for quantifiers -/

theorem checkForAllElim_sound (h : checkForAllElim c cited = .ok ())
    (hcited : ∀ x ∈ cited, x.Holds M v) : c.Holds M v := by
  obtain ⟨a, hl, -, x, φ, hall, t, hfree, rfl⟩ := checkForAllElim_eq_ok_iff.mp h
  have ha : a.formula.Holds M v := holds_line hcited hl (by simp)
  rw [hall] at ha
  exact (Formula.holds_replace hfree).mpr (ha (v t))

theorem checkForSomeIntro_sound (h : checkForSomeIntro c cited = .ok ())
    (hcited : ∀ x ∈ cited, x.Holds M v) : c.Holds M v := by
  obtain ⟨a, hl, -, x, φ, rfl, t, hfree, hinstance⟩ := checkForSomeIntro_eq_ok_iff.mp h
  have ha : a.formula.Holds M v := holds_line hcited hl (by simp)
  rw [hinstance] at ha
  exact ⟨v t, (Formula.holds_replace hfree).mp ha⟩

variable {context : List Name}

theorem checkForAllIntro_sound (h : checkForAllIntro c context cited = .ok ())
    (hcited : ∀ w : Name → D, (∀ n ∈ context, w n = v n) → ∀ x ∈ cited, x.Holds M w) :
    c.Holds M v := by
  obtain ⟨a, hl, -, x, φ, rfl, harbitrary⟩ := checkForAllIntro_eq_ok_iff.mp h
  intro d
  obtain ⟨w, hbody, hagree, -⟩ := harbitrary.exists_valuation (List.mem_singleton_self _) M v d
  exact hbody.mp (holds_line (hcited w hagree) hl (by simp))

theorem checkForSomeElim_sound (h : checkForSomeElim c context cited = .ok ())
    (hcited : ∀ w : Name → D, (∀ n ∈ context, w n = v n) → ∀ x ∈ cited, x.Holds M w) :
    c.Holds M v := by
  obtain ⟨a, s, hl, hs, x, φ, hsome, harbitrary, hc⟩ := checkForSomeElim_eq_ok_iff.mp h
  have ha : a.formula.Holds M v := holds_line (hcited v fun _ _ => rfl) hl (by simp)
  rw [hsome] at ha harbitrary
  obtain ⟨d, hd⟩ := ha
  obtain ⟨w, hbody, hagree, hsame⟩ := harbitrary.exists_valuation List.mem_cons_self M v d
  have hconclusion : s.conclusion.Holds M w :=
    holds_subproof (hcited w hagree) hs (by simp) (hbody.mpr hd)
  -- the conclusion cannot tell `w` from `v`
  rw [hc] at hconclusion
  exact (hsame c (by simp)).mp hconclusion

/-! ### All rules -/

/-- **A step that passes is sound.** If what it cites is true under every valuation that agrees on
the names of the context, then so is what it concludes. -/
theorem sound {step : Step Formula} (h : step.check = .ok ()) (hpremise : step.rule ≠ .premise)
    (hassumption : step.rule ≠ .assumption)
    (hcited : ∀ w : Name → D, (∀ n ∈ step.contextNames, w n = v n) →
      ∀ x ∈ step.cited, x.Holds M w) :
    step.conclusion.Holds M v := by
  have hcited' := hcited v fun _ _ => rfl
  obtain ⟨rule, c, cited, depth, context, premises, after, quantifiers⟩ := step
  rw [check] at h
  split at h
  · cases h
  · cases rule with
    | premise => exact absurd rfl hpremise
    | assumption => exact absurd rfl hassumption
    | reiteration => exact checkReiteration_sound h hcited'
    | andIntro => exact checkAndIntro_sound h hcited'
    | andElim => exact checkAndElim_sound h hcited'
    | orIntro => exact checkOrIntro_sound h hcited'
    | orElim => exact checkOrElim_sound h hcited'
    | impliesIntro => exact checkImpliesIntro_sound h hcited'
    | impliesElim => exact checkImpliesElim_sound h hcited'
    | notIntro => exact checkNotIntro_sound h hcited'
    | notElim => exact checkNotElim_sound h hcited'
    | contradictionIntro => exact checkContradictionIntro_sound h hcited'
    | contradictionElim => exact checkContradictionElim_sound h hcited'
    | tautologyIntro => exact checkTautologyIntro_sound h
    | iffIntro => exact checkIffIntro_sound h hcited'
    | iffElim => exact checkIffElim_sound h hcited'
    | forAllIntro => exact checkForAllIntro_sound h hcited
    | forAllElim => exact checkForAllElim_sound h hcited'
    | forSomeIntro => exact checkForSomeIntro_sound h hcited'
    | forSomeElim => exact checkForSomeElim_sound h hcited

end Step

end NaturalDeduction

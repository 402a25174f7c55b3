import Mathlib.Logic.Function.Basic
import NaturalDeduction.Proofs.Formula.FreeNames

/-!
# First-order semantics

What it means for a formula to be true. A structure interprets every predicate name as a relation on
finite tuples; a valuation says which individual each name stands for. The connectives are the
classical ones, and a quantifier lets its variable stand for any individual and leaves every other
name as it is.

## Implementation notes

There is no separate assumption that the domain is inhabited: there are names, so a valuation
already picks an individual.

One predicate name can be used with argument lists of several lengths. The relation is
therefore on lists, and the sentence letter `P` and the predicate `P(a)` share a name without
sharing a truth value.

## Main definitions

* `Structure`, `Formula.Holds`: truth in a structure under a valuation
* `Entails`: truth wherever a set of formulas is true

## Main results

* `Formula.holds_congr`: only the free names of a formula matter
* `Formula.holds_iff_of_reorders`: the order of the operands of `∧` and of `∨` does not matter
-/

universe u

namespace NaturalDeduction

/-- An interpretation of the predicate names over the domain `D`. -/
structure Structure (D : Type u) where
  /-- Whether a predicate is true of a tuple of individuals. -/
  relates : Name → List D → Prop

variable {D : Type u}

/-- What a connective says about the truth of its operands. -/
def Connective.Holds : Connective → Prop → Prop → Prop
  | .and, p, q => p ∧ q
  | .or, p, q => p ∨ q
  | .implies, p, q => p → q
  | .iff, p, q => p ↔ q

/-- What a quantifier says about the individuals that satisfy its body. -/
def Quantifier.Holds : Quantifier → (D → Prop) → Prop
  | .forAll, p => ∀ d, p d
  | .forSome, p => ∃ d, p d

namespace Formula

/-- Truth of a formula in a structure, when the names stand for individuals as `v` says. -/
def Holds (M : Structure D) (v : Name → D) : Formula → Prop
  | atom p args => M.relates p (args.map v)
  | not φ => ¬ φ.Holds M v
  | binary c φ ψ => c.Holds (φ.Holds M v) (ψ.Holds M v)
  | quantified q x φ => q.Holds fun d => φ.Holds M (Function.update v x d)
  | bottom => False
  | top => True

end Formula

/-- `φ` is true in every structure and under every valuation that make all of `Γ` true. -/
def Entails (Γ : Set Formula) (φ : Formula) : Prop :=
  ∀ (D : Type u) (M : Structure D) (v : Name → D), (∀ γ ∈ Γ, γ.Holds M v) → φ.Holds M v

theorem Connective.holds_comm {c : Connective} (hc : c.overlooksOrder = true) {p q : Prop} :
    c.Holds p q ↔ c.Holds q p := by
  cases c with
  | and => exact and_comm
  | or => exact or_comm
  | implies | iff => simp [Connective.overlooksOrder] at hc

namespace Formula

variable {M : Structure D}

/-- **Coincidence.** A formula cannot tell two valuations apart that agree on its free names. -/
theorem holds_congr {φ : Formula} {v w : Name → D} (h : ∀ n ∈ φ.freeNames, v n = w n) :
    φ.Holds M v ↔ φ.Holds M w := by
  induction φ generalizing v w with
  | atom p args =>
    have hargs : args.map v = args.map w :=
      List.map_congr_left fun n hn => h n (mem_freeNames_atom.mpr hn)
    rw [Holds, Holds, hargs]
  | not φ ih => exact not_congr (ih h)
  | binary c φ ψ ihφ ihψ =>
    rw [Holds, Holds, ihφ fun n hn => h n (List.mem_append_left _ hn),
      ihψ fun n hn => h n (List.mem_append_right _ hn)]
  | quantified q x φ ih =>
    have hbody : ∀ d, φ.Holds M (Function.update v x d) ↔ φ.Holds M (Function.update w x d) := by
      intro d
      refine ih fun n hn => ?_
      by_cases hx : n = x
      · rw [hx, Function.update_self, Function.update_self]
      · rw [Function.update_of_ne hx, Function.update_of_ne hx]
        exact h n (mem_freeNames_quantified.mpr ⟨hn, hx⟩)
    rw [Holds, Holds, funext fun d => propext (hbody d)]
  | bottom | top => exact Iff.rfl

/-- The value of a name that is not free can be changed. -/
theorem holds_update_of_notMem {φ : Formula} {v : Name → D} {n : Name} (hn : n ∉ φ.freeNames)
    (d : D) : φ.Holds M (Function.update v n d) ↔ φ.Holds M v :=
  holds_congr fun _ hm => Function.update_of_ne (ne_of_mem_of_not_mem hm hn) _ _

/-- **Reordering operands keeps the meaning.** -/
theorem holds_iff_of_reorders {φ ψ : Formula} (h : φ.reorders ψ = true) {v : Name → D} :
    φ.Holds M v ↔ ψ.Holds M v := by
  fun_induction reorders φ ψ generalizing v with
  | case1 φ ψ ih => exact not_congr (ih h)
  | case2 c l r c' l' r' ihl ihr ihlr ihrl =>
    simp only [Bool.and_eq_true, decide_eq_true_eq, Bool.or_eq_true] at h
    obtain ⟨rfl, ⟨hl, hr⟩ | ⟨⟨hc, hl⟩, hr⟩⟩ := h
    · rw [Holds, Holds, ihl hl, ihr hr]
    · rw [Holds, Holds, ihlr hl, ihrl hr, Connective.holds_comm hc]
  | case3 q x φ q' x' φ' ih =>
    simp only [Bool.and_eq_true, decide_eq_true_eq] at h
    obtain ⟨⟨rfl, rfl⟩, h⟩ := h
    rw [Holds, Holds, funext fun d => propext (ih h (v := Function.update v x d))]
  | case4 φ ψ => rw [of_decide_eq_true h]

end Formula

end NaturalDeduction

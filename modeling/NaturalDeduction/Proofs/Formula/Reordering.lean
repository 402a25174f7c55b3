import Mathlib.Data.List.Sort
import Mathlib.Data.String.Basic
import NaturalDeduction.Proofs.Formula.FreeNames

/-!
# Reordering operands is an equivalence

`Formula.reorders` walks through two formulas at once and may exchange the operands of `∧` and of
`∨` at every step. What it decides is an equivalence relation, so formulas that differ in the order
of operands only can stand for each other wherever a conclusion is compared with a goal.

The walk always takes the same operand first, so nothing in it is symmetric to begin with. An
exchange is undone by an exchange, and two exchanges in a row are none: these are the two
cases to look at.

## The congruence that is meant

The walk meets every pair of operands once and cannot take a step back. `Formula.Reordered` puts no
such limits on reordering: operands may be exchanged one pair after the other, anywhere in a formula
and any number of times. That the walk finds everything that can be reached in this way is what
symmetry and transitivity of the walk amount to.

## Main definitions

* `Formula.Reordered`: the least congruence that exchanges the operands of `∧` and of `∨`

## Main results

* `Formula.reorders_symm`, `Formula.reorders_trans`: with `Formula.reorders_refl`, an equivalence
* `Formula.reorders_eq_of_reorders`: formulas that reorder each other reorder the same formulas
* `Formula.reorders_iff_reordered`: the walk decides the congruence
* `Formula.Reordered.mem_freeNames_iff`: the free names do not depend on the order of operands
-/

namespace NaturalDeduction

namespace Formula

variable {φ ψ χ : Formula}

/-! ### The other formula has the same outermost sign -/

theorem reorders_not_iff : (not φ).reorders ψ = true ↔ ∃ φ', ψ = not φ' ∧ φ.reorders φ' = true := by
  cases ψ <;> simp [reorders]

theorem reorders_binary_iff {c : Connective} {l r : Formula} :
    (binary c l r).reorders ψ = true ↔ ∃ l' r', ψ = binary c l' r' ∧
      ((l.reorders l' = true ∧ r.reorders r' = true) ∨
        c.overlooksOrder = true ∧ l.reorders r' = true ∧ r.reorders l' = true) := by
  cases ψ with
  | binary c' l' r' =>
    by_cases hc : c = c'
    · subst hc
      simp [reorders, and_assoc]
    · simp [reorders, hc, Ne.symm hc]
  | _ => simp [reorders]

theorem reorders_quantified_iff {q : Quantifier} {x : Name} :
    (quantified q x φ).reorders ψ = true ↔
      ∃ φ', ψ = quantified q x φ' ∧ φ.reorders φ' = true := by
  cases ψ with
  | quantified q' x' φ' =>
    by_cases hq : q = q' ∧ x = x'
    · obtain ⟨rfl, rfl⟩ := hq
      simp [reorders]
    · simp only [reorders, Bool.and_eq_true, decide_eq_true_eq, hq, false_and, false_iff]
      rintro ⟨_, ⟨⟩, -⟩
      exact hq ⟨rfl, rfl⟩
  | _ => simp [reorders]

/-! ### An equivalence -/

theorem reorders_symm (hψ : φ.reorders ψ = true) : ψ.reorders φ = true := by
  induction φ generalizing ψ with
  | atom | bottom | top => cases ψ <;> simp_all [reorders]
  | not φ ih =>
    obtain ⟨φ', rfl, h⟩ := reorders_not_iff.mp hψ
    exact reorders_not_iff.mpr ⟨φ, rfl, ih h⟩
  | binary c l r ihl ihr =>
    obtain ⟨l', r', rfl, ⟨hl, hr⟩ | ⟨hc, hl, hr⟩⟩ := reorders_binary_iff.mp hψ
    · exact reorders_binary_iff.mpr ⟨l, r, rfl, .inl ⟨ihl hl, ihr hr⟩⟩
    · exact reorders_binary_iff.mpr ⟨l, r, rfl, .inr ⟨hc, ihr hr, ihl hl⟩⟩
  | quantified q x φ ih =>
    obtain ⟨φ', rfl, h⟩ := reorders_quantified_iff.mp hψ
    exact reorders_quantified_iff.mpr ⟨φ, rfl, ih h⟩

theorem reorders_trans (hψ : φ.reorders ψ = true) (hχ : ψ.reorders χ = true) :
    φ.reorders χ = true := by
  induction φ generalizing ψ χ with
  | atom | bottom | top => cases ψ <;> simp_all [reorders]
  | not φ ih =>
    obtain ⟨φ', rfl, h⟩ := reorders_not_iff.mp hψ
    obtain ⟨φ'', rfl, h'⟩ := reorders_not_iff.mp hχ
    exact reorders_not_iff.mpr ⟨φ'', rfl, ih h h'⟩
  | binary c l r ihl ihr =>
    obtain ⟨l', r', rfl, h⟩ := reorders_binary_iff.mp hψ
    obtain ⟨l'', r'', rfl, h'⟩ := reorders_binary_iff.mp hχ
    refine reorders_binary_iff.mpr ⟨l'', r'', rfl, ?_⟩
    rcases h with ⟨hl, hr⟩ | ⟨hc, hl, hr⟩ <;> rcases h' with ⟨hl', hr'⟩ | ⟨hc', hl', hr'⟩
    · exact .inl ⟨ihl hl hl', ihr hr hr'⟩
    · exact .inr ⟨hc', ihl hl hl', ihr hr hr'⟩
    · exact .inr ⟨hc, ihl hl hr', ihr hr hl'⟩
    · exact .inl ⟨ihl hl hr', ihr hr hl'⟩
  | quantified q x φ ih =>
    obtain ⟨φ', rfl, h⟩ := reorders_quantified_iff.mp hψ
    obtain ⟨φ'', rfl, h'⟩ := reorders_quantified_iff.mp hχ
    exact reorders_quantified_iff.mpr ⟨φ'', rfl, ih h h'⟩

/-- Formulas that differ in the order of operands only are compared alike with any other. -/
theorem reorders_eq_of_reorders (h : φ.reorders ψ = true) (χ : Formula) :
    φ.reorders χ = ψ.reorders χ :=
  Bool.eq_iff_iff.mpr ⟨reorders_trans (reorders_symm h), reorders_trans h⟩

/-! ### The least congruence -/

/-- The least congruence on formulas under which the operands of `∧` and of `∨` can be exchanged. -/
inductive Reordered : Formula → Formula → Prop
  | refl (φ : Formula) : Reordered φ φ
  | symm {φ ψ : Formula} (h : Reordered φ ψ) : Reordered ψ φ
  | trans {φ ψ χ : Formula} (h : Reordered φ ψ) (h' : Reordered ψ χ) : Reordered φ χ
  | not {φ ψ : Formula} (h : Reordered φ ψ) : Reordered (not φ) (not ψ)
  | binary (c : Connective) {l l' r r' : Formula} (hl : Reordered l l') (hr : Reordered r r') :
    Reordered (binary c l r) (binary c l' r')
  | quantified (q : Quantifier) (x : Name) {φ ψ : Formula} (h : Reordered φ ψ) :
    Reordered (quantified q x φ) (quantified q x ψ)
  | and_comm (φ ψ : Formula) : Reordered (and φ ψ) (and ψ φ)
  | or_comm (φ ψ : Formula) : Reordered (or φ ψ) (or ψ φ)

/-- The operands of a connective can be exchanged if their order is overlooked. -/
theorem Reordered.comm {c : Connective} (hc : c.overlooksOrder = true) (φ ψ : Formula) :
    Reordered (.binary c φ ψ) (.binary c ψ φ) := by
  cases c with
  | and => exact and_comm φ ψ
  | or => exact or_comm φ ψ
  | implies | iff => simp [Connective.overlooksOrder] at hc

/-- What the walk accepts comes about by exchanges: those of the operands, and then
one of its own. -/
theorem reordered_of_reorders (hψ : φ.reorders ψ = true) : Reordered φ ψ := by
  induction φ generalizing ψ with
  | atom p args =>
    obtain rfl : atom p args = ψ := by cases ψ <;> simp_all [reorders]
    exact .refl _
  | bottom =>
    obtain rfl : bottom = ψ := by cases ψ <;> simp_all [reorders]
    exact .refl _
  | top =>
    obtain rfl : top = ψ := by cases ψ <;> simp_all [reorders]
    exact .refl _
  | not φ ih =>
    obtain ⟨φ', rfl, h⟩ := reorders_not_iff.mp hψ
    exact .not (ih h)
  | binary c l r ihl ihr =>
    obtain ⟨l', r', rfl, ⟨hl, hr⟩ | ⟨hc, hl, hr⟩⟩ := reorders_binary_iff.mp hψ
    · exact .binary c (ihl hl) (ihr hr)
    · exact .trans (.binary c (ihl hl) (ihr hr)) (.comm hc r' l')
  | quantified q x φ ih =>
    obtain ⟨φ', rfl, h⟩ := reorders_quantified_iff.mp hψ
    exact .quantified q x (ih h)

/-- The walk finds every chain of exchanges. -/
theorem Reordered.reorders (h : Reordered φ ψ) : φ.reorders ψ = true := by
  induction h with
  | refl φ => exact reorders_refl φ
  | symm _ ih => exact reorders_symm ih
  | trans _ _ ih ih' => exact reorders_trans ih ih'
  | not _ ih => exact reorders_not_iff.mpr ⟨_, rfl, ih⟩
  | binary c _ _ ihl ihr => exact reorders_binary_iff.mpr ⟨_, _, rfl, .inl ⟨ihl, ihr⟩⟩
  | quantified q x _ ih => exact reorders_quantified_iff.mpr ⟨_, rfl, ih⟩
  | and_comm φ ψ | or_comm φ ψ =>
    exact reorders_binary_iff.mpr ⟨_, _, rfl, .inr ⟨rfl, reorders_refl φ, reorders_refl ψ⟩⟩

/-- **The walk decides the congruence.** -/
theorem reorders_iff_reordered : φ.reorders ψ = true ↔ Reordered φ ψ :=
  ⟨reordered_of_reorders, Reordered.reorders⟩

/-! ### Free names -/

/-- Exchanging operands keeps the free names. -/
theorem Reordered.mem_freeNames_iff (h : Reordered φ ψ) {n : Name} :
    n ∈ φ.freeNames ↔ n ∈ ψ.freeNames := by
  induction h with
  | refl => rfl
  | symm _ ih => exact ih.symm
  | trans _ _ ih ih' => exact ih.trans ih'
  | not _ ih => exact ih
  | binary c _ _ ihl ihr =>
    rw [freeNames_binary, freeNames_binary, List.mem_append, List.mem_append, ihl, ihr]
  | quantified q x _ ih => rw [mem_freeNames_quantified, mem_freeNames_quantified, ih]
  | and_comm φ ψ | or_comm φ ψ =>
    rw [freeNames_binary, freeNames_binary, List.mem_append, List.mem_append]
    exact Or.comm

theorem nodup_eraseDups : ∀ names : List Name, names.eraseDups.Nodup
  | [] => List.nodup_nil
  | n :: names => by
    rw [List.eraseDups_cons, List.nodup_cons, List.mem_eraseDups]
    exact ⟨by simp, nodup_eraseDups _⟩
termination_by names => names.length
decreasing_by exact Nat.lt_succ_of_le (List.length_filter_le _ _)

/-- Sorted and without repetitions, a list is known by its members. -/
theorem sortedFreeNames_eq_iff :
    φ.sortedFreeNames = ψ.sortedFreeNames ↔ ∀ n, n ∈ φ.freeNames ↔ n ∈ ψ.freeNames := by
  constructor
  · intro h n
    rw [← mem_sortedFreeNames, h, mem_sortedFreeNames]
  · intro h
    refine List.Perm.eq_of_sortedLE List.sortedLE_mergeSort List.sortedLE_mergeSort ?_
    have hperm : φ.freeNames.eraseDups.Perm ψ.freeNames.eraseDups :=
      (List.perm_ext_iff_of_nodup (nodup_eraseDups _) (nodup_eraseDups _)).mpr fun n => by
        rw [List.mem_eraseDups, List.mem_eraseDups, h]
    exact (List.mergeSort_perm _ _).trans (hperm.trans (List.mergeSort_perm _ _).symm)

end Formula

end NaturalDeduction

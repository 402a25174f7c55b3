import NaturalDeduction.Formula.Basic

/-!
# Free names, layer by layer

`Formula.freeNames` carries the variables of the quantifiers it has entered as a list. The lemmas
here say what that amounts to one layer at a time: the list only ever removes names, so a
quantification has the free names of its body without its variable. After them nothing has to
know about the list.
-/

namespace NaturalDeduction

namespace Formula

variable {n : Name}

/-- Variables bound from outside remove names, and do nothing else. -/
theorem mem_freeNamesUnder {bound : List Name} {φ : Formula} :
    n ∈ freeNamesUnder bound φ ↔ n ∈ φ.freeNames ∧ n ∉ bound := by
  induction φ generalizing bound with
  | atom p args => simp [freeNames, freeNamesUnder]
  | not φ ih => exact ih
  | binary c φ ψ ihφ ihψ =>
    simp only [freeNames, freeNamesUnder, List.mem_append] at ihφ ihψ ⊢
    rw [ihφ, ihψ]
    exact or_and_right.symm
  | quantified q x φ ih =>
    -- the body is met with a longer list on both sides
    simp only [freeNames, freeNamesUnder] at ih ⊢
    rw [ih, @ih [x]]
    simp [and_assoc]
  | bottom | top => simp [freeNames, freeNamesUnder]

@[simp] theorem mem_freeNames_atom {p : Name} {args : List Name} :
    n ∈ (atom p args).freeNames ↔ n ∈ args := by
  simp [freeNames, freeNamesUnder]

@[simp] theorem freeNames_not (φ : Formula) : (not φ).freeNames = φ.freeNames := rfl

@[simp] theorem freeNames_binary (c : Connective) (φ ψ : Formula) :
    (binary c φ ψ).freeNames = φ.freeNames ++ ψ.freeNames := rfl

@[simp] theorem mem_freeNames_quantified {q : Quantifier} {x : Name} {φ : Formula} :
    n ∈ (quantified q x φ).freeNames ↔ n ∈ φ.freeNames ∧ n ≠ x := by
  rw [show (quantified q x φ).freeNames = freeNamesUnder [x] φ from rfl, mem_freeNamesUnder,
    List.mem_singleton]

@[simp] theorem freeNames_bottom : bottom.freeNames = [] := rfl

@[simp] theorem freeNames_top : top.freeNames = [] := rfl

/-- Sorting keeps the names that there are. -/
theorem mem_sortedFreeNames {φ : Formula} : n ∈ φ.sortedFreeNames ↔ n ∈ φ.freeNames := by
  rw [sortedFreeNames, List.mem_mergeSort, List.mem_eraseDups]

end Formula

end NaturalDeduction

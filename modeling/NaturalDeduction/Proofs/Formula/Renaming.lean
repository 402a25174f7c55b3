import Mathlib.Logic.Function.Basic
import NaturalDeduction.Formula.Instance

/-!
# Renaming the names of a formula

A renaming replaces every name, be it an argument or a bound variable, and every predicate, and
never makes two of them one. Free and bound names are not told apart: both are renamed by the same
map, so a name that is bound stays bound and a name that is free stays free.

What the verifier asks about formulas does not depend on what the names are: whether two formulas
are equal, which names occur free, and how one formula is an instance of another. Each of these
questions gets one lemma here, which says that the answer is renamed along.

## Main definitions

* `Renaming`, `Formula.rename`

## Main results

* `Formula.rename_inj`, `Formula.freeNames_rename`, `Formula.instanceOf?_rename`
-/

namespace NaturalDeduction

/-- New names for names and for predicates. -/
structure Renaming where
  /-- Arguments and variables. -/
  name : Name → Name
  predicate : Name → Name
  name_injective : Function.Injective name
  predicate_injective : Function.Injective predicate

variable {r : Renaming}

namespace Renaming

theorem name_inj {m n : Name} : r.name m = r.name n ↔ m = n := r.name_injective.eq_iff

theorem predicate_inj {p q : Name} : r.predicate p = r.predicate q ↔ p = q :=
  r.predicate_injective.eq_iff

theorem map_name_inj {ms ns : List Name} : ms.map r.name = ns.map r.name ↔ ms = ns :=
  List.map_inj_right fun _ _ => name_inj.mp

theorem name_mem_map {n : Name} {names : List Name} : r.name n ∈ names.map r.name ↔ n ∈ names := by
  simp [name_inj]

end Renaming

/-- An instance with its name renamed. -/
def Instance.rename (r : Renaming) : Instance → Instance
  | vacuous => vacuous
  | name n => name (r.name n)

namespace Formula

variable {φ ψ : Formula} {x : Name} {bound : List Name} {found : Option Name}

/-- The formula with all names and predicates renamed. -/
def rename (r : Renaming) : Formula → Formula
  | atom p args => atom (r.predicate p) (args.map r.name)
  | not φ => not (φ.rename r)
  | binary c φ ψ => binary c (φ.rename r) (ψ.rename r)
  | quantified q x φ => quantified q (r.name x) (φ.rename r)
  | bottom => bottom
  | top => top

theorem rename_inj : φ.rename r = ψ.rename r ↔ φ = ψ := by
  induction φ generalizing ψ with
  | atom p args => cases ψ <;> simp [rename, Renaming.predicate_inj, Renaming.map_name_inj]
  | not φ ih => cases ψ <;> simp [rename, ih]
  | binary c φ φ' ih ih' => cases ψ <;> simp [rename, ih, ih']
  | quantified q x φ ih => cases ψ <;> simp [rename, ih, Renaming.name_inj]
  | bottom | top => cases ψ <;> simp [rename]

/-! ### Free names -/

theorem freeNamesUnder_rename (bound : List Name) :
    freeNamesUnder (bound.map r.name) (φ.rename r) = (freeNamesUnder bound φ).map r.name := by
  induction φ generalizing bound with
  | atom p args =>
    simp [rename, freeNamesUnder, List.filter_map, Function.comp_def, Renaming.name_inj]
  | not φ ih => exact ih bound
  | binary c φ ψ ihφ ihψ => simp only [rename, freeNamesUnder, ihφ, ihψ, List.map_append]
  | quantified q x φ ih => exact ih (x :: bound)
  | bottom | top => rfl

theorem freeNames_rename : (φ.rename r).freeNames = φ.freeNames.map r.name :=
  freeNamesUnder_rename []

/-! ### Instances -/

theorem matchName_rename {pattern target : Name} :
    matchName (r.name x) (bound.map r.name) (found.map r.name) (r.name pattern) (r.name target) =
      (matchName x bound found pattern target).map (Option.map r.name) := by
  simp only [matchName, Renaming.name_inj, Renaming.name_mem_map]
  split
  · split
    · rfl
    · cases found with
      | none => rfl
      | some name =>
        simp only [Option.map_some, Renaming.name_inj]
        split <;> rfl
  · split <;> rfl

theorem matchNames_rename {patterns targets : List Name} :
    matchNames (r.name x) (bound.map r.name) (found.map r.name) (patterns.map r.name)
        (targets.map r.name) =
      (matchNames x bound found patterns targets).map (Option.map r.name) := by
  induction patterns generalizing found targets with
  | nil => cases targets <;> rfl
  | cons p ps ih =>
    cases targets with
    | nil => rfl
    | cons t ts =>
      simp only [List.map_cons, matchNames, matchName_rename]
      cases matchName x bound found p t with
      | none => rfl
      | some found => exact ih

theorem matchBody_rename (bound : List Name) (found : Option Name) :
    matchBody (r.name x) (bound.map r.name) (found.map r.name) (φ.rename r) (ψ.rename r) =
      (matchBody x bound found φ ψ).map (Option.map r.name) := by
  induction φ generalizing bound found ψ with
  | atom p args =>
    cases ψ with
    | atom =>
      simp only [rename, matchBody, Renaming.predicate_inj]
      split
      · exact matchNames_rename
      · rfl
    | _ => rfl
  | not φ ih =>
    cases ψ with
    | not => exact ih bound found
    | _ => rfl
  | binary c φ φ' ih ih' =>
    cases ψ with
    | binary c' ψ ψ' =>
      simp only [rename, matchBody]
      split
      · rw [ih]
        cases matchBody x bound found φ ψ with
        | none => rfl
        | some found => exact ih' bound found
      · rfl
    | _ => rfl
  | quantified q y φ ih =>
    cases ψ with
    | quantified q' y' ψ =>
      simp only [rename, matchBody, Renaming.name_inj]
      split
      · exact ih (y :: bound) found
      · rfl
    | _ => rfl
  | bottom | top => cases ψ <;> rfl

/-- One formula is an instance of another in the same way after renaming. -/
theorem instanceOf?_rename :
    (φ.rename r).instanceOf? (r.name x) (ψ.rename r) = (φ.instanceOf? x ψ).map (·.rename r) := by
  simp only [instanceOf?, Option.map_map]
  rw [show matchBody (r.name x) [] none (φ.rename r) (ψ.rename r) = _ from matchBody_rename [] none,
    Option.map_map]
  congr 1
  funext found
  cases found <;> rfl

end Formula

end NaturalDeduction

import Mathlib.Data.Finset.Lattice.Lemmas
import Mathlib.Data.Finset.SDiff
import NaturalDeduction.Proofs.Forest.Interning
import NaturalDeduction.Proofs.Formula.Reordering
import NaturalDeduction.Proofs.Formula.Semantics
import NaturalDeduction.Proofs.Verification.Rules

/-!
# The free names of a stored formula

A name is free in a formula by its layers: an atom has its arguments, a connective has what its
operands have, and a quantifier takes its variable away from what its body has. A forest can be
asked for these names without building the formula. The walk goes down from node to node with
one stack of variables and one set of names for the whole formula: a quantifier puts its
variable on the stack and takes it off again behind its body, and an atom adds the arguments
that are not on the stack.

## Why the two agree

The layers take a variable away on the way up, and the walk remembers it on the way down. What makes
them comparable is what a walk does in the middle of another one: whatever is on the stack and
whatever has been found, the stack comes back as it was, and the names that are added are those of
the formula which the stack does not hold. This is `Forest.run_collect`, and it is the whole
induction. A variable that is on the stack twice is still there after the inner quantifier has
ended, so shadowing needs no case of its own; and a variable that is bound in the left operand only
is off the stack when the right one begins.

A free name need not make a difference: `a` is free in `P(a) → P(a)`. What counts for the quantifier
rules is the other direction, that a name which is not free makes none.

## Main definitions

* `Formula.freeSet`: the free names by layers
* `Collector`, `Forest.collect`: the walk, with its stack and its set
* `Forest.collectNames?`: what the walk finds

## Main results

* `Forest.run_collect`: what a walk does to any stack and any set
* `Forest.freeNames?_exact`: the free names of a stored formula are those by layers, and
  no others matter
-/

universe u

namespace NaturalDeduction

variable {n : Name}

/-! ### By layers -/

namespace Formula

variable {φ : Formula}

/-- The set of the names that occur free: the arguments of an atom, the names of the operands
together, and the names of a body without the variable. -/
def freeSet : Formula → Finset Name
  | atom _ args => args.toFinset
  | not φ => φ.freeSet
  | binary _ φ ψ => φ.freeSet ∪ ψ.freeSet
  | quantified _ x φ => φ.freeSet \ {x}
  | bottom | top => ∅

theorem mem_freeSet : n ∈ φ.freeSet ↔ n ∈ φ.freeNames := by
  induction φ with
  | atom p args => rw [freeSet, List.mem_toFinset, mem_freeNames_atom]
  | not φ ih => exact ih
  | binary c φ ψ ihφ ihψ =>
    rw [freeSet, Finset.mem_union, ihφ, ihψ, freeNames_binary, List.mem_append]
  | quantified q x φ ih =>
    rw [freeSet, Finset.mem_sdiff, Finset.mem_singleton, ih, mem_freeNames_quantified]
  | bottom | top => simp [freeSet]

theorem toFinset_freeNames (φ : Formula) : φ.freeNames.toFinset = φ.freeSet := by
  ext n
  rw [List.mem_toFinset, mem_freeSet]

theorem toFinset_sortedFreeNames (φ : Formula) : φ.sortedFreeNames.toFinset = φ.freeSet := by
  ext n
  rw [List.mem_toFinset, mem_sortedFreeNames, mem_freeSet]

theorem nodup_sortedFreeNames (φ : Formula) : φ.sortedFreeNames.Nodup :=
  (List.mergeSort_perm _ _).nodup_iff.mpr (nodup_eraseDups _)

end Formula

/-! ### By a walk with a stack -/

/-- What a walk through a formula carries along. -/
structure Collector where
  /-- The variables of the quantifiers that have been entered and not been left, the
  innermost first. -/
  bound : List Name
  /-- The names that have been found. -/
  found : Finset Name

namespace Collector

variable (c : Collector)

/-- Add the arguments of an atom that no quantifier binds. -/
def note (args : List Name) : Collector :=
  { c with found := c.found ∪ (args.filter fun name => !c.bound.contains name).toFinset }

/-- A quantifier begins. -/
def enter (x : Name) : Collector := { c with bound := x :: c.bound }

/-- The innermost quantifier ends. -/
def leave : Collector := { c with bound := c.bound.tail }

/-- Add the names that no quantifier binds: what a whole formula with these free names comes to. -/
def gather (names : Finset Name) : Collector :=
  { c with found := c.found ∪ (names \ c.bound.toFinset) }

theorem note_eq_gather (args : List Name) : c.note args = c.gather args.toFinset := by
  have hadded : (args.filter fun name => !c.bound.contains name).toFinset =
      args.toFinset \ c.bound.toFinset := by
    ext n
    simp
  rw [note, gather, hadded]

@[simp] theorem gather_empty : c.gather ∅ = c := by
  rw [gather, Finset.empty_sdiff, Finset.union_empty]

theorem gather_gather (names names' : Finset Name) :
    (c.gather names).gather names' = c.gather (names ∪ names') := by
  simp only [gather, Finset.union_sdiff_distrib, Finset.union_assoc]

/-- Around its body a quantifier takes away its variable and leaves no other trace. -/
theorem leave_gather_enter (x : Name) (names : Finset Name) :
    ((c.enter x).gather names).leave = c.gather (names \ {x}) := by
  have hadded : names \ (x :: c.bound).toFinset = (names \ {x}) \ c.bound.toFinset := by
    ext n
    simp [and_assoc]
  simp only [enter, gather, leave, List.tail_cons, hadded]

end Collector

namespace Forest

variable {forest : Forest} {h : Handle}

/-- Collect the free names of the formula at a handle. As in `Forest.formula?`, a child that is not
older than its parent is nothing that can be walked through. -/
def collect (forest : Forest) (h : Handle) : StateT Collector Option Unit :=
  match forest.node? h with
  | none => failure
  | some (.atom _ args) => modify (·.note args)
  | some (.not i) => if _older : i < h then forest.collect i else failure
  | some (.binary _ l r) =>
    if _older : l < h ∧ r < h then do
      forest.collect l
      forest.collect r
    else failure
  | some (.quantified _ x b) =>
    if _older : b < h then do
      modify (·.enter x)
      forest.collect b
      modify (·.leave)
    else failure
  | some .bottom | some .top => pure ()
termination_by h
decreasing_by
  · exact _older
  · exact _older.1
  · exact _older.2
  · exact _older

/-- The names that a walk from the root of a formula finds. -/
def collectNames? (forest : Forest) (h : Handle) : Option (Finset Name) :=
  ((forest.collect h).run ⟨[], ∅⟩).map fun (_, c) => c.found

/-- **A walk gathers the free names and leaves the stack as it was**, wherever it begins; it breaks
off exactly where the handle stands for no formula. -/
theorem run_collect (forest : Forest) (h : Handle) (c : Collector) :
    (forest.collect h).run c = (forest.formula? h).map fun φ => ((), c.gather φ.freeSet) := by
  induction h using Nat.strongRecOn generalizing c with
  | _ h ih =>
    rw [collect, formula?]
    cases forest.node? h with
    | none => rfl
    | some node =>
      cases node with
      | atom p args => exact congrArg (fun c => some ((), c)) (c.note_eq_gather args)
      | not i =>
        by_cases older : i < h
        · simp only [dif_pos older, ih i older, Option.map_map]
          rfl
        · simp only [dif_neg older]
          rfl
      | binary k l r =>
        by_cases older : l < h ∧ r < h
        · simp only [dif_pos older, StateT.run_bind, ih l older.1]
          cases forest.formula? l with
          | none => rfl
          | some φ =>
            -- the right operand begins with what the left one has found
            simp only [Option.map_some, Option.bind_eq_bind, Option.bind_some, ih r older.2,
              Collector.gather_gather]
            cases forest.formula? r with
            | none => rfl
            | some ψ => rfl
        · simp only [dif_neg older]
          rfl
      | quantified q x b =>
        by_cases older : b < h
        · simp only [dif_pos older, StateT.run_bind, StateT.run_modify, Option.pure_def,
            Option.bind_eq_bind, Option.bind_some, ih b older]
          cases forest.formula? b with
          | none => rfl
          | some φ => exact congrArg (fun c => some ((), c)) (c.leave_gather_enter x φ.freeSet)
        · simp only [dif_neg older]
          rfl
      | bottom => exact congrArg (fun c => some ((), c)) c.gather_empty.symm
      | top => exact congrArg (fun c => some ((), c)) c.gather_empty.symm

theorem collectNames?_eq (forest : Forest) (h : Handle) :
    forest.collectNames? h = (forest.formula? h).map Formula.freeSet := by
  rw [collectNames?, run_collect, Option.map_map]
  congr 1
  funext φ
  simp [Collector.gather]

/-- **The free names of a stored formula are those by layers, and no other names matter.** A forest
has an answer for every handle that has been given out. The answer names each name once; the set of
them is the one by layers, which is also what the walk finds and what the verifier takes from the
formula. A name is fresh for the formula if it is not among them, and in every structure two
valuations that agree on them give the formula one truth value. -/
theorem freeNames?_exact (wf : forest.WellFormed) (hlt : h < forest.nodes.size) :
    ∃ φ names,
      forest.formula? h = some φ ∧ forest.freeNames? h = some names ∧
      names.Nodup ∧ names.toFinset = φ.freeSet ∧
      forest.collectNames? h = some φ.freeSet ∧ φ.freeNames.toFinset = φ.freeSet ∧
      (∀ n context formulas, Step.ensureFresh n context (φ :: formulas) = .ok () ↔
        n ∉ names ∧ Step.ensureFresh n context formulas = .ok ()) ∧
      ∀ (D : Type u) (M : Structure D) (v w : Name → D),
        (∀ n ∈ names, v n = w n) → (φ.Holds M v ↔ φ.Holds M w) := by
  obtain ⟨φ, hφ⟩ := wf.exists_formula hlt
  refine ⟨φ, φ.sortedFreeNames, hφ, ?_, φ.nodup_sortedFreeNames, φ.toFinset_sortedFreeNames, ?_,
    φ.toFinset_freeNames, fun n context formulas => ?_, fun D M v w hagree => ?_⟩
  · rw [freeNames?, hφ, Option.map_some]
  · rw [collectNames?_eq, hφ, Option.map_some]
  · rw [Step.ensureFresh_eq_ok_iff, Step.ensureFresh_eq_ok_iff, List.forall_mem_cons,
      Formula.mem_sortedFreeNames]
    exact and_left_comm
  · exact Formula.holds_congr fun n hn => hagree n (Formula.mem_sortedFreeNames.mpr hn)

open Formula in
/-- In `∃y ((∀x ((∃x R(x, y)) ∧ P(x, a))) → P(x, a))` the two occurrences of `P(x, a)` are one
node. It is met first under `∀x`, behind a quantifier that binds `x` as well and has ended, and
then where `x` is free. -/
theorem shadowed_freeNames? :
    let shared := atom "P" ["x", "a"]
    let φ :=
      forSome "y" (implies (forAll "x" (and (forSome "x" (atom "R" ["x", "y"])) shared)) shared)
    let stored := empty.intern φ
    stored.2.WellFormed ∧ stored.1 < stored.2.nodes.size ∧
      stored.2.freeNames? stored.1 = some ["a", "x"] ∧
      stored.2.collectNames? stored.1 = some {"a", "x"} ∧
      ∀ (D : Type) (M : Structure D) (v w : Name → D),
        v "a" = w "a" → v "x" = w "x" → (φ.Holds M v ↔ φ.Holds M w) := by
  intro shared φ stored
  have hstored : Stored empty φ stored.1 stored.2 := WellFormed.empty.stored_intern φ
  have wf := hstored.wellFormed
  have hlt := wf.lt_size hstored.formula?_eq
  obtain ⟨φ', names, hφ', hnames, -, -, hwalk, -, -, hcoincide⟩ := freeNames?_exact.{0} wf hlt
  obtain rfl : φ = φ' := Option.some.inj (hstored.formula?_eq.symm.trans hφ')
  have honce : φ.freeNames.eraseDups = ["a", "x"] := by decide
  have hsorted : φ.sortedFreeNames = ["a", "x"] := by
    rw [sortedFreeNames, honce]
    exact List.mergeSort_of_pairwise (by decide)
  have hanswer : stored.2.freeNames? stored.1 = some ["a", "x"] := by
    rw [freeNames?, hφ', Option.map_some, hsorted]
  obtain rfl : names = ["a", "x"] := Option.some.inj (hnames.symm.trans hanswer)
  refine ⟨wf, hlt, hanswer, ?_, fun D M v w ha hx => hcoincide D M v w ?_⟩
  · rw [hwalk]
    decide
  · simp [ha, hx]

end Forest

end NaturalDeduction

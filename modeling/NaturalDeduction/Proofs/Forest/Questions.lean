import NaturalDeduction.Proofs.Forest.Interning
import NaturalDeduction.Proofs.Formula.Reordering
import NaturalDeduction.Proofs.Formula.Substitution

/-!
# Questions about stored formulas

A forest is asked about formulas by their handles. In a well-formed forest every handle
that has been given out gets an answer, and the answer says about the formulas behind the
handles what it should.

## Instances

How one stored formula is an instance of another is found by walking through both.
`instanceOf?_exact` says what is found in terms of substitution: a vacuous instance is the body
itself, by its handle too, and an instance with a name is the body with this name in place of the
variable. No formula is both, since the variable is free in the body or is not; and a formula that
puts a name where a quantifier captures it is neither, although as a tree it may be what replacing
the variable yields.

## The order of operands

Whether two stored formulas are equal up to the order of operands is found in one walk through both.
`reorders?_exact` says that the walk decides the least congruence that exchanges the operands of `∧`
and of `∨`. Equality of this kind is therefore an equivalence on handles, and cannot be told from
free names or from truth.

## Main results

* `Forest.instanceOf?_exact`: instances of stored formulas
* `Forest.reorders?_exact`: stored formulas up to the order of operands
-/

universe u

namespace NaturalDeduction

namespace Forest

variable {forest : Forest} {body target : Handle}

/-- **Instances are found exactly.** A stored formula is a vacuous instance of another if the
variable is not free there and the two are the same; it is an instance with a name if the variable
is free there and it comes from replacing the variable by the name, which no quantifier captures;
and otherwise it is no instance. An instance with a name has the free names of the body without the
variable, and the name. -/
theorem instanceOf?_exact (wf : forest.WellFormed) (hbody : body < forest.nodes.size)
    (htarget : target < forest.nodes.size) (x : Name) :
    ∃ φ ψ names names' found,
      forest.formula? body = some φ ∧ forest.formula? target = some ψ ∧
      forest.freeNames? body = some names ∧ forest.freeNames? target = some names' ∧
      forest.instanceOf? body x target = some found ∧
      (found = some .vacuous ↔ x ∉ names ∧ target = body) ∧
      (∀ n, found = some (.name n) ↔ x ∈ names ∧ φ.FreeFor n x ∧ ψ = φ.replace x n) ∧
      (found = none ↔ ¬(x ∉ names ∧ target = body) ∧
        ∀ n, ¬(x ∈ names ∧ φ.FreeFor n x ∧ ψ = φ.replace x n)) ∧
      ∀ n, found = some (.name n) → ∀ m, m ∈ names' ↔ m ∈ names ∧ m ≠ x ∨ m = n := by
  obtain ⟨φ, hφ⟩ := wf.exists_formula hbody
  obtain ⟨ψ, hψ⟩ := wf.exists_formula htarget
  -- the same formula is the same handle
  have hsame : ψ = φ ↔ target = body :=
    ⟨fun heq => wf.handle_unique hψ (heq ▸ hφ),
      fun heq => Option.some.inj (hψ.symm.trans (heq ▸ hφ))⟩
  have hvacuous : φ.instanceOf? x ψ = some .vacuous ↔ x ∉ φ.sortedFreeNames ∧ target = body := by
    rw [Formula.instanceOf?_eq_vacuous_iff, Formula.mem_sortedFreeNames, hsame]
  have hname (n : Name) : φ.instanceOf? x ψ = some (.name n) ↔
      x ∈ φ.sortedFreeNames ∧ φ.FreeFor n x ∧ ψ = φ.replace x n := by
    rw [Formula.instanceOf?_eq_name_iff, Formula.mem_sortedFreeNames]
  refine ⟨φ, ψ, φ.sortedFreeNames, ψ.sortedFreeNames, φ.instanceOf? x ψ, hφ, hψ, ?_, ?_,
    ?_, hvacuous, hname, ?_, ?_⟩
  · rw [freeNames?, hφ, Option.map_some]
  · rw [freeNames?, hψ, Option.map_some]
  · rw [instanceOf?, hφ, hψ]
  · rw [← hvacuous, ← forall_congr' fun n => not_congr (hname n)]
    rcases φ.instanceOf? x ψ with _ | _ | n
    · simp
    · simp
    · simp
  · intro n hfound m
    obtain ⟨hx, hfree, rfl⟩ := (hname n).mp hfound
    rw [Formula.mem_sortedFreeNames, Formula.mem_sortedFreeNames,
      Formula.mem_freeNames_replace hfree, and_iff_right (Formula.mem_sortedFreeNames.mp hx)]

/-- In a forest that holds `∃y R(x, y)`, the formula `∃y R(a, y)` is an instance of it, and
`∃y R(y, y)`, where the quantifier captures the new name, is none. -/
theorem captured_instanceOf? :
    let first := empty.intern (.forSome "y" (.atom "R" ["x", "y"]))
    let second := first.2.intern (.forSome "y" (.atom "R" ["a", "y"]))
    let third := second.2.intern (.forSome "y" (.atom "R" ["y", "y"]))
    third.2.WellFormed ∧ third.2.instanceOf? first.1 "x" second.1 = some (some (.name "a")) ∧
      third.2.instanceOf? first.1 "x" third.1 = some none := by
  intro first second third
  let φ : Formula := .forSome "y" (.atom "R" ["x", "y"])
  have hfirst := WellFormed.empty.stored_intern φ
  have hsecond := hfirst.wellFormed.stored_intern (.forSome "y" (.atom "R" ["a", "y"]))
  have hthird := hsecond.wellFormed.stored_intern (.forSome "y" (.atom "R" ["y", "y"]))
  have wf : third.2.WellFormed := hthird.wellFormed
  have hbody : third.2.formula? first.1 = some φ :=
    (hsecond.extends_before.trans hthird.extends_before).formula?_eq hfirst.wellFormed wf
      hfirst.formula?_eq
  have hinstance : third.2.formula? second.1 = some (.forSome "y" (.atom "R" ["a", "y"])) :=
    hthird.extends_before.formula?_eq hsecond.wellFormed wf hsecond.formula?_eq
  have hcaptured : third.2.formula? third.1 = some (.forSome "y" (.atom "R" ["y", "y"])) :=
    hthird.formula?_eq
  have hfree : "x" ∈ φ.sortedFreeNames := Formula.mem_sortedFreeNames.mpr (by decide)
  have hnames : third.2.freeNames? first.1 = some φ.sortedFreeNames := by
    rw [freeNames?, hbody, Option.map_some]
  refine ⟨wf, ?_, ?_⟩
  · obtain ⟨φ', ψ, names, -, found, hφ', hψ, hnames', -, hfound, -, hname, -⟩ :=
      instanceOf?_exact wf (wf.lt_size hbody) (wf.lt_size hinstance) "x"
    obtain rfl : φ = φ' := Option.some.inj (hbody.symm.trans hφ')
    obtain rfl := Option.some.inj (hinstance.symm.trans hψ)
    obtain rfl := Option.some.inj (hnames.symm.trans hnames')
    rw [hfound, (hname "a").mpr ⟨hfree, by simp [φ, Formula.FreeFor], by decide⟩]
  · obtain ⟨φ', ψ, names, -, found, hφ', hψ, hnames', -, hfound, -, -, hnone, -⟩ :=
      instanceOf?_exact wf (wf.lt_size hbody) (wf.lt_size hcaptured) "x"
    obtain rfl : φ = φ' := Option.some.inj (hbody.symm.trans hφ')
    obtain rfl := Option.some.inj (hcaptured.symm.trans hψ)
    obtain rfl := Option.some.inj (hnames.symm.trans hnames')
    rw [hfound, hnone.mpr ⟨fun h => h.1 hfree, ?_⟩]
    rintro n ⟨-, hcapture, hreplaced⟩
    obtain rfl : n = "y" := by
      simpa [φ, Formula.replace, Formula.replaceName, eq_comm] using hreplaced
    exact (hcapture (by decide) (by decide)).1 rfl

/-! ### The order of operands -/

variable {a b c : Handle}

/-- A forest that holds both formulas compares them. -/
theorem reorders?_eq {φ ψ : Formula} (hφ : forest.formula? a = some φ)
    (hψ : forest.formula? b = some ψ) :
    forest.reorders? a b = some (φ.reorders ψ) := by
  rw [reorders?, hφ, hψ]

theorem WellFormed.reorders?_self (wf : forest.WellFormed) (ha : a < forest.nodes.size) :
    forest.reorders? a a = some true := by
  obtain ⟨φ, hφ⟩ := wf.exists_formula ha
  rw [reorders?_eq hφ hφ, Formula.reorders_refl]

/-- Two handles are related if they stand for formulas that are. -/
theorem reorders?_eq_true_iff : forest.reorders? a b = some true ↔
    ∃ φ ψ, forest.formula? a = some φ ∧ forest.formula? b = some ψ ∧ φ.Reordered ψ := by
  rw [reorders?]
  cases forest.formula? a with
  | none => simp
  | some φ =>
    cases forest.formula? b with
    | none => simp
    | some ψ => simp [Formula.reorders_iff_reordered]

theorem reorders?_symm (h : forest.reorders? a b = some true) :
    forest.reorders? b a = some true := by
  obtain ⟨φ, ψ, hφ, hψ, h⟩ := reorders?_eq_true_iff.mp h
  exact reorders?_eq_true_iff.mpr ⟨ψ, φ, hψ, hφ, h.symm⟩

theorem reorders?_trans (h : forest.reorders? a b = some true)
    (h' : forest.reorders? b c = some true) :
    forest.reorders? a c = some true := by
  obtain ⟨φ, ψ, hφ, hψ, h⟩ := reorders?_eq_true_iff.mp h
  obtain ⟨ψ', χ, hψ', hχ, h'⟩ := reorders?_eq_true_iff.mp h'
  obtain rfl : ψ = ψ' := Option.some.inj (hψ.symm.trans hψ')
  exact reorders?_eq_true_iff.mpr ⟨φ, χ, hφ, hχ, h.trans h'⟩

/-- **Equality up to the order of operands is decided exactly.** A forest says of two stored
formulas that they are equal up to the order of operands if and only if they are related by the
least congruence that exchanges the operands of `∧` and of `∨`. This is an equivalence on the
handles, and formulas that are so related have the same free names and the same truth value. -/
theorem reorders?_exact (wf : forest.WellFormed) :
    (∀ a b, a < forest.nodes.size → b < forest.nodes.size → ∃ φ ψ answer,
      forest.formula? a = some φ ∧ forest.formula? b = some ψ ∧
      forest.reorders? a b = some answer ∧ (answer = true ↔ φ.Reordered ψ) ∧
      (answer = true → forest.freeNames? a = forest.freeNames? b ∧
        ∀ (D : Type u) (M : Structure D) (v : Name → D), φ.Holds M v ↔ ψ.Holds M v)) ∧
    Equivalence fun a b : Fin forest.nodes.size => forest.reorders? a b = some true := by
  refine ⟨fun a b ha hb => ?_, fun a => wf.reorders?_self a.isLt, reorders?_symm, reorders?_trans⟩
  obtain ⟨φ, hφ⟩ := wf.exists_formula ha
  obtain ⟨ψ, hψ⟩ := wf.exists_formula hb
  refine ⟨φ, ψ, φ.reorders ψ, hφ, hψ, reorders?_eq hφ hψ, Formula.reorders_iff_reordered,
    fun h => ?_⟩
  have hnames : φ.sortedFreeNames = ψ.sortedFreeNames := Formula.sortedFreeNames_eq_iff.mpr
    fun _ => (Formula.reorders_iff_reordered.mp h).mem_freeNames_iff
  refine ⟨?_, fun D M v => Formula.holds_iff_of_reorders h⟩
  rw [freeNames?, freeNames?, hφ, hψ, Option.map_some, Option.map_some, hnames]

open Formula in
/-- In a forest that holds `∀x ((P(x) ∧ Q) ∨ R(a))` and `∀x (R(a) ∨ (Q ∧ P(x)))`, the two
have handles of their own and are equal up to the order of operands; `Q → R(a)` and
`R(a) → Q` are not. -/
theorem exchanged_reorders? :
    let p := atom "P" ["x"]
    let q := atom "Q" []
    let r := atom "R" ["a"]
    let first := empty.intern (forAll "x" (or (and p q) r))
    let second := first.2.intern (forAll "x" (or r (and q p)))
    let third := second.2.intern (implies q r)
    let fourth := third.2.intern (implies r q)
    fourth.2.WellFormed ∧ first.1 ≠ second.1 ∧ fourth.2.reorders? first.1 second.1 = some true ∧
      fourth.2.freeNames? first.1 = fourth.2.freeNames? second.1 ∧
      fourth.2.reorders? third.1 fourth.1 = some false := by
  intro p q r first second third fourth
  have hfirst := WellFormed.empty.stored_intern (forAll "x" (or (and p q) r))
  have hsecond := hfirst.wellFormed.stored_intern (forAll "x" (or r (and q p)))
  have hthird := hsecond.wellFormed.stored_intern (implies q r)
  have hfourth := hthird.wellFormed.stored_intern (implies r q)
  have wf : fourth.2.WellFormed := hfourth.wellFormed
  have hextends : second.2.Extends fourth.2 := hthird.extends_before.trans hfourth.extends_before
  have h₁ : fourth.2.formula? first.1 = some _ :=
    (hsecond.extends_before.trans hextends).formula?_eq hfirst.wellFormed wf hfirst.formula?_eq
  have h₂ : fourth.2.formula? second.1 = some _ :=
    hextends.formula?_eq hsecond.wellFormed wf hsecond.formula?_eq
  have h₃ : fourth.2.formula? third.1 = some _ :=
    hfourth.extends_before.formula?_eq hthird.wellFormed wf hthird.formula?_eq
  have hne : first.1 ≠ second.1 := by
    intro heq
    rw [heq, h₂] at h₁
    exact absurd h₁ (by decide)
  obtain ⟨φ, ψ, answer, hφ, hψ, hanswer, hreordered, hsame⟩ :=
    (reorders?_exact.{0} wf).1 first.1 second.1 (wf.lt_size h₁) (wf.lt_size h₂)
  obtain rfl := Option.some.inj (h₁.symm.trans hφ)
  obtain rfl := Option.some.inj (h₂.symm.trans hψ)
  have htrue : answer = true := hreordered.mpr
    (.quantified .forAll "x" (.trans (.or_comm _ _) (.binary .or (.refl r) (.and_comm p q))))
  refine ⟨wf, hne, htrue ▸ hanswer, (hsame htrue).1, ?_⟩
  exact reorders?_eq h₃ hfourth.formula?_eq

end Forest

end NaturalDeduction

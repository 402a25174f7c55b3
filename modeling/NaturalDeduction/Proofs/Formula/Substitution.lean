import NaturalDeduction.Formula.Instance
import NaturalDeduction.Proofs.Formula.Semantics

/-!
# Substitution

`Formula.instanceOf?` recognises the instances of a quantified body without substituting anything.
Here is the substitution that it recognises: `φ.replace x t` puts the name `t` wherever `x` occurs
free, and `FreeFor t x φ` says that no such place lies under a quantifier that would capture `t`.

## Implementation notes

`replace` does not rename bound variables. Where `FreeFor` fails it yields a formula all the same,
only not an instance; every statement that depends on the difference has `FreeFor` as a hypothesis.

The walk behind `instanceOf?` has two phases, before and after the first free occurrence of the
variable. They are kept apart in the lemmas: a part of the body without such an occurrence is met by
itself alone (`matchBody_eq_some_iff_of_fixed`), and a part with one fixes the name
(`matchBody_eq_some_iff_of_free`).

## Main definitions

* `Formula.replace`, `Formula.FreeFor`

## Main results

* `Formula.mem_freeNames_replace`: the free names of an instance
* `Formula.holds_replace`: replacing a name in a formula is changing its value
* `Formula.instanceOf?_eq_vacuous_iff`, `Formula.instanceOf?_eq_name_iff`: what is recognised
-/

universe u

namespace NaturalDeduction

namespace Formula

/-- `t` in place of `x`, and every other name in place of itself. -/
def replaceName (x t n : Name) : Name := if n = x then t else n

/-- The formula with `t` in place of every free occurrence of `x`. -/
def replace (x t : Name) : Formula → Formula
  | atom p args => atom p (args.map (replaceName x t))
  | not φ => not (φ.replace x t)
  | binary c φ ψ => binary c (φ.replace x t) (ψ.replace x t)
  | quantified q y φ => if y = x then quantified q y φ else quantified q y (φ.replace x t)
  | bottom => bottom
  | top => top

/-- No free occurrence of `x` lies under a quantifier whose variable is `t`. -/
def FreeFor (t x : Name) : Formula → Prop
  | atom _ _ | bottom | top => True
  | not φ => φ.FreeFor t x
  | binary _ φ ψ => φ.FreeFor t x ∧ ψ.FreeFor t x
  | quantified _ y φ => x ∈ φ.freeNames → y ≠ x → y ≠ t ∧ φ.FreeFor t x

/-! ### Formulas in which the variable is not free -/

variable {x t : Name}

theorem map_replaceName_of_notMem {ps : List Name} (hx : x ∉ ps) :
    ps.map (replaceName x t) = ps := by
  refine (List.map_congr_left fun n hn => ?_).trans (List.map_id ps)
  exact if_neg (ne_of_mem_of_not_mem hn hx)

/-- A body without the variable is its own instance. -/
theorem replace_of_notMem {φ : Formula} (hx : x ∉ φ.freeNames) : φ.replace x t = φ := by
  induction φ with
  | atom p args => rw [replace, map_replaceName_of_notMem (mt mem_freeNames_atom.mpr hx)]
  | not φ ih => rw [replace, ih hx]
  | binary c φ ψ ihφ ihψ =>
    rw [freeNames_binary, List.mem_append, not_or] at hx
    rw [replace, ihφ hx.1, ihψ hx.2]
  | quantified q y φ ih =>
    by_cases hy : y = x
    · exact if_pos hy
    · rw [replace, if_neg hy, ih fun h => hx (mem_freeNames_quantified.mpr ⟨h, Ne.symm hy⟩)]
  | bottom | top => rfl

theorem freeFor_of_notMem {φ : Formula} (hx : x ∉ φ.freeNames) : φ.FreeFor t x := by
  induction φ with
  | atom | bottom | top => trivial
  | not φ ih => exact ih hx
  | binary c φ ψ ihφ ihψ =>
    rw [freeNames_binary, List.mem_append, not_or] at hx
    exact ⟨ihφ hx.1, ihψ hx.2⟩
  | quantified q y φ ih =>
    exact fun h hy => absurd (mem_freeNames_quantified.mpr ⟨h, Ne.symm hy⟩) hx

/-! ### Free names of an instance -/

/-- An instance has the free names of the body but for the variable, and the new name if the
variable was free. -/
theorem mem_freeNames_replace {φ : Formula} (h : φ.FreeFor t x) {n : Name} :
    n ∈ (φ.replace x t).freeNames ↔ n ∈ φ.freeNames ∧ n ≠ x ∨ x ∈ φ.freeNames ∧ n = t := by
  induction φ with
  | atom p args =>
    simp only [replace, mem_freeNames_atom, List.mem_map, replaceName]
    constructor
    · rintro ⟨m, hm, rfl⟩
      by_cases hmx : m = x
      · exact .inr ⟨hmx ▸ hm, if_pos hmx⟩
      · rw [if_neg hmx]
        exact .inl ⟨hm, hmx⟩
    · rintro (⟨hn, hnx⟩ | ⟨hx, rfl⟩)
      · exact ⟨n, hn, if_neg hnx⟩
      · exact ⟨x, hx, if_pos rfl⟩
  | not φ ih => exact ih h
  | binary c φ ψ ihφ ihψ =>
    simp only [replace, freeNames_binary, List.mem_append, ihφ h.1, ihψ h.2]
    rw [or_and_right, or_and_right, or_or_or_comm]
  | quantified q y φ ih =>
    by_cases hx : x ∈ (quantified q y φ).freeNames
    · obtain ⟨hxφ, hxy⟩ := mem_freeNames_quantified.mp hx
      obtain ⟨hyt, hφ⟩ := h hxφ hxy.symm
      simp only [replace, if_neg hxy.symm, mem_freeNames_quantified, ih hφ]
      -- the quantifier binds neither the variable nor the new name
      constructor
      · rintro ⟨⟨hn, hnx⟩ | ⟨-, hnt⟩, hny⟩
        · exact .inl ⟨⟨hn, hny⟩, hnx⟩
        · exact .inr ⟨⟨hxφ, hxy⟩, hnt⟩
      · rintro (⟨⟨hn, hny⟩, hnx⟩ | ⟨-, rfl⟩)
        · exact ⟨.inl ⟨hn, hnx⟩, hny⟩
        · exact ⟨.inr ⟨hxφ, rfl⟩, hyt.symm⟩
    · rw [replace_of_notMem hx, and_iff_left_of_imp fun hn => ne_of_mem_of_not_mem hn hx,
        or_iff_left fun hn => hx hn.1]
  | bottom | top => simp [replace]

/-! ### Meaning -/

/-- **Substitution lemma.** What a formula says with `t` in place of `x` is what it says when `x`
has the value of `t`. -/
theorem holds_replace {D : Type u} {M : Structure D} {φ : Formula} {v : Name → D}
    (h : φ.FreeFor t x) : (φ.replace x t).Holds M v ↔ φ.Holds M (Function.update v x (v t)) := by
  induction φ generalizing v with
  | atom p args =>
    have hval : v ∘ replaceName x t = Function.update v x (v t) := by
      funext n
      by_cases hn : n = x <;> simp [replaceName, hn]
    rw [replace, Holds, Holds, List.map_map, hval]
  | not φ ih => exact not_congr (ih h)
  | binary c φ ψ ihφ ihψ => rw [replace, Holds, Holds, ihφ h.1, ihψ h.2]
  | quantified q y φ ih =>
    by_cases hx : x ∈ (quantified q y φ).freeNames
    · obtain ⟨hx, hxy⟩ := mem_freeNames_quantified.mp hx
      obtain ⟨hyt, hφ⟩ := h hx hxy.symm
      have hbody (d : D) : (φ.replace x t).Holds M (Function.update v y d) ↔
          φ.Holds M (Function.update (Function.update v x (v t)) y d) := by
        -- the quantifier does not bind `t`, so it may take its value first or last
        rw [ih hφ, Function.update_of_ne hyt.symm, Function.update_comm hxy]
      rw [replace, if_neg hxy.symm, Holds, Holds, funext fun d => propext (hbody d)]
    · rw [replace_of_notMem hx, holds_update_of_notMem hx]
  | bottom | top => exact Iff.rfl

/-! ### Recognising instances -/

variable {bound : List Name} {found r : Option Name}

theorem matchName_eq_some_iff_of_fixed {p m : Name} (hp : p = x → x ∈ bound) :
    matchName x bound found p m = some r ↔ m = p ∧ r = found := by
  have hpx : ¬ (p = x ∧ x ∉ bound) := fun h => h.2 (hp h.1)
  simp only [matchName, if_neg hpx]
  by_cases hm : p = m
  · simp [hm, eq_comm]
  · simp [hm, Ne.symm hm]

theorem matchName_self_eq_some_iff {m : Name} (hx : x ∉ bound) :
    matchName x bound found x m = some r ↔ m ∉ bound ∧ (∀ n ∈ found, n = m) ∧ r = some m := by
  simp only [matchName, hx, not_false_eq_true, and_self, if_true]
  by_cases hm : m ∈ bound
  · simp [hm]
  · cases found with
    | none => simp [hm, eq_comm]
    | some n =>
      by_cases hn : n = m
      · simp [hm, hn, eq_comm]
      · simp [hm, hn]

theorem matchNames_eq_some_iff_of_fixed {ps ts : List Name} (hx : x ∈ ps → x ∈ bound) :
    matchNames x bound found ps ts = some r ↔ ts = ps ∧ r = found := by
  induction ps generalizing ts found with
  | nil => cases ts <;> simp [matchNames, eq_comm]
  | cons p ps ih =>
    cases ts with
    | nil => simp [matchNames]
    | cons m ts =>
      have hp : p = x → x ∈ bound := fun h => hx (h ▸ List.mem_cons_self)
      have hps : x ∈ ps → x ∈ bound := fun h => hx (List.mem_cons_of_mem _ h)
      simp only [matchNames, Option.bind_eq_some_iff, matchName_eq_some_iff_of_fixed hp, ih hps,
        List.cons.injEq]
      constructor
      · rintro ⟨_, ⟨hm, rfl⟩, hts, hr⟩
        exact ⟨⟨hm, hts⟩, hr⟩
      · rintro ⟨⟨hm, hts⟩, hr⟩
        exact ⟨_, ⟨hm, rfl⟩, hts, hr⟩

theorem matchNames_eq_some_iff_of_mem {ps ts : List Name} (hps : x ∈ ps) (hx : x ∉ bound) :
    matchNames x bound found ps ts = some r ↔
      ∃ t, t ∉ bound ∧ (∀ n ∈ found, n = t) ∧ ts = ps.map (replaceName x t) ∧ r = some t := by
  induction ps generalizing ts found with
  | nil => simp at hps
  | cons p ps ih =>
    cases ts with
    | nil => simp [matchNames]
    | cons m ts =>
      simp only [matchNames, Option.bind_eq_some_iff, List.map_cons, List.cons.injEq]
      by_cases hp : p = x
      · subst hp
        simp only [matchName_self_eq_some_iff hx, replaceName, if_true]
        by_cases hps : p ∈ ps
        · simp only [ih hps]
          constructor
          · rintro ⟨_, ⟨hm, hfound, rfl⟩, t, -, ht, hts, hr⟩
            obtain rfl := ht m rfl
            exact ⟨m, hm, hfound, ⟨rfl, hts⟩, hr⟩
          · rintro ⟨t, ht, hfound, ⟨rfl, hts⟩, hr⟩
            exact ⟨_, ⟨ht, hfound, rfl⟩, m, ht, fun n hn => (Option.mem_some.mp hn).symm, hts, hr⟩
        · simp only [matchNames_eq_some_iff_of_fixed (absurd · hps), map_replaceName_of_notMem hps]
          constructor
          · rintro ⟨_, ⟨hm, hfound, rfl⟩, hts, hr⟩
            exact ⟨m, hm, hfound, ⟨rfl, hts⟩, hr⟩
          · rintro ⟨t, ht, hfound, ⟨rfl, hts⟩, hr⟩
            exact ⟨_, ⟨ht, hfound, rfl⟩, hts, hr⟩
      · have hmem : x ∈ ps := (List.mem_cons.mp hps).resolve_left (Ne.symm hp)
        simp only [matchName_eq_some_iff_of_fixed (absurd · hp), replaceName, if_neg hp, ih hmem]
        constructor
        · rintro ⟨_, ⟨hm, rfl⟩, t, ht, hfound, hts, hr⟩
          exact ⟨t, ht, hfound, ⟨hm, hts⟩, hr⟩
        · rintro ⟨t, ht, hfound, ⟨hm, hts⟩, hr⟩
          exact ⟨_, ⟨hm, rfl⟩, t, ht, hfound, hts, hr⟩

/-- A body without a free occurrence of the variable is met by itself alone. -/
theorem matchBody_eq_some_iff_of_fixed {φ ψ : Formula} (hx : x ∈ φ.freeNames → x ∈ bound) :
    matchBody x bound found φ ψ = some r ↔ ψ = φ ∧ r = found := by
  induction φ generalizing ψ bound found r with
  | atom p ps =>
    cases ψ with
    | atom q ts =>
      have hps : x ∈ ps → x ∈ bound := fun h => hx (mem_freeNames_atom.mpr h)
      by_cases hpq : p = q <;>
        simp [matchBody, hpq, matchNames_eq_some_iff_of_fixed hps, eq_comm]
    | _ => simp [matchBody]
  | not φ ih =>
    cases ψ with
    | not ψ => simp [matchBody, ih hx]
    | _ => simp [matchBody]
  | binary c φ₁ φ₂ ih₁ ih₂ =>
    cases ψ with
    | binary c' ψ₁ ψ₂ =>
      have h₁ : x ∈ φ₁.freeNames → x ∈ bound := fun h => hx (List.mem_append_left _ h)
      have h₂ : x ∈ φ₂.freeNames → x ∈ bound := fun h => hx (List.mem_append_right _ h)
      by_cases hc : c = c'
      · simp only [matchBody, hc, if_true, Option.bind_eq_some_iff, ih₁ h₁, ih₂ h₂, binary.injEq]
        grind
      · simp [matchBody, hc, Ne.symm hc]
    | _ => simp [matchBody]
  | quantified q y φ ih =>
    cases ψ with
    | quantified q' y' ψ =>
      have hbody : x ∈ φ.freeNames → x ∈ y :: bound := fun h =>
        (eq_or_ne x y).elim (fun he => he ▸ List.mem_cons_self)
          fun hne => List.mem_cons_of_mem _ (hx (mem_freeNames_quantified.mpr ⟨h, hne⟩))
      by_cases hq : q = q' ∧ y = y'
      · obtain ⟨rfl, rfl⟩ := hq
        simp [matchBody, ih hbody]
      · rw [matchBody, if_neg hq]
        refine iff_of_false nofun ?_
        rintro ⟨hψ, -⟩
        obtain ⟨rfl, rfl, -⟩ := quantified.inj hψ
        exact hq ⟨rfl, rfl⟩
    | _ => simp [matchBody]
  | bottom | top => cases ψ <;> simp [matchBody, eq_comm]

/-- A body with a free occurrence of the variable is met by its instances, with the name found
before if there was one. -/
theorem matchBody_eq_some_iff_of_free {φ ψ : Formula} (hφ : x ∈ φ.freeNames) (hx : x ∉ bound) :
    matchBody x bound found φ ψ = some r ↔
      ∃ t, t ∉ bound ∧ (∀ n ∈ found, n = t) ∧ φ.FreeFor t x ∧ ψ = φ.replace x t ∧ r = some t := by
  induction φ generalizing ψ bound found r with
  | atom p ps =>
    cases ψ with
    | atom q ts =>
      rw [mem_freeNames_atom] at hφ
      by_cases hpq : p = q
      · simp [matchBody, hpq, matchNames_eq_some_iff_of_mem hφ hx, FreeFor, replace]
      · simp [matchBody, hpq, Ne.symm hpq, replace]
    | _ => simp [matchBody, replace]
  | not φ ih =>
    cases ψ with
    | not ψ => simp [matchBody, ih hφ hx, FreeFor, replace]
    | _ => simp [matchBody, replace]
  | binary c φ₁ φ₂ ih₁ ih₂ =>
    cases ψ with
    | binary c' ψ₁ ψ₂ =>
      by_cases hc : c = c'
      · simp only [matchBody, hc, if_true, Option.bind_eq_some_iff, FreeFor, replace, binary.injEq,
          true_and]
        -- the first operand with an occurrence fixes the name, and the other has to agree
        by_cases h₁ : x ∈ φ₁.freeNames <;> by_cases h₂ : x ∈ φ₂.freeNames
        · simp only [ih₁ h₁ hx, ih₂ h₂ hx]
          constructor
          · rintro ⟨_, ⟨t, ht, hfound, hf₁, hψ₁, rfl⟩, t', -, ht', hf₂, hψ₂, hr⟩
            obtain rfl := ht' t rfl
            exact ⟨t, ht, hfound, ⟨hf₁, hf₂⟩, ⟨hψ₁, hψ₂⟩, hr⟩
          · rintro ⟨t, ht, hfound, ⟨hf₁, hf₂⟩, ⟨hψ₁, hψ₂⟩, hr⟩
            exact ⟨_, ⟨t, ht, hfound, hf₁, hψ₁, rfl⟩, t, ht,
              fun n hn => (Option.mem_some.mp hn).symm, hf₂, hψ₂, hr⟩
        · simp only [ih₁ h₁ hx, matchBody_eq_some_iff_of_fixed (absurd · h₂), freeFor_of_notMem h₂,
            replace_of_notMem h₂]
          constructor
          · rintro ⟨_, ⟨t, ht, hfound, hf₁, hψ₁, rfl⟩, hψ₂, hr⟩
            exact ⟨t, ht, hfound, ⟨hf₁, trivial⟩, ⟨hψ₁, hψ₂⟩, hr⟩
          · rintro ⟨t, ht, hfound, ⟨hf₁, -⟩, ⟨hψ₁, hψ₂⟩, hr⟩
            exact ⟨_, ⟨t, ht, hfound, hf₁, hψ₁, rfl⟩, hψ₂, hr⟩
        · simp only [ih₂ h₂ hx, matchBody_eq_some_iff_of_fixed (absurd · h₁), freeFor_of_notMem h₁,
            replace_of_notMem h₁]
          constructor
          · rintro ⟨_, ⟨hψ₁, rfl⟩, t, ht, hfound, hf₂, hψ₂, hr⟩
            exact ⟨t, ht, hfound, ⟨trivial, hf₂⟩, ⟨hψ₁, hψ₂⟩, hr⟩
          · rintro ⟨t, ht, hfound, ⟨-, hf₂⟩, ⟨hψ₁, hψ₂⟩, hr⟩
            exact ⟨_, ⟨hψ₁, rfl⟩, t, ht, hfound, hf₂, hψ₂, hr⟩
        · exact absurd (List.mem_append.mp hφ) (not_or.mpr ⟨h₁, h₂⟩)
      · simp [matchBody, hc, Ne.symm hc, replace]
    | _ => simp [matchBody, replace]
  | quantified q y φ ih =>
    obtain ⟨hφ, hxy⟩ := mem_freeNames_quantified.mp hφ
    cases ψ with
    | quantified q' y' ψ =>
      by_cases hq : q = q' ∧ y = y'
      · obtain ⟨rfl, rfl⟩ := hq
        have hxb : x ∉ y :: bound := List.not_mem_cons_of_ne_of_not_mem hxy hx
        rw [matchBody, if_pos ⟨rfl, rfl⟩, ih hφ hxb]
        simp only [replace, if_neg hxy.symm, quantified.injEq, true_and, List.mem_cons, not_or]
        -- that the variable of this quantifier is avoided moves from the list into `FreeFor`
        constructor
        · rintro ⟨t, ⟨hty, ht⟩, hfound, hfree, hψ, hr⟩
          exact ⟨t, ht, hfound, fun _ _ => ⟨Ne.symm hty, hfree⟩, hψ, hr⟩
        · rintro ⟨t, ht, hfound, hfree, hψ, hr⟩
          obtain ⟨hyt, hfree⟩ := hfree hφ hxy.symm
          exact ⟨t, ⟨hyt.symm, ht⟩, hfound, hfree, hψ, hr⟩
      · rw [matchBody, if_neg hq]
        refine iff_of_false nofun ?_
        rintro ⟨t, -, -, -, hψ, -⟩
        rw [replace, if_neg hxy.symm] at hψ
        obtain ⟨rfl, rfl, -⟩ := quantified.inj hψ
        exact hq ⟨rfl, rfl⟩
    | _ => simp [matchBody, replace, hxy.symm]
  | bottom | top => simp at hφ

/-- A formula is a vacuous instance exactly of itself, where the variable is not free in it. -/
theorem instanceOf?_eq_vacuous_iff {φ ψ : Formula} :
    φ.instanceOf? x ψ = some .vacuous ↔ x ∉ φ.freeNames ∧ ψ = φ := by
  rw [instanceOf?, Option.map_eq_some_iff]
  by_cases hx : x ∈ φ.freeNames
  · simp only [matchBody_eq_some_iff_of_free hx List.not_mem_nil]
    refine iff_of_false ?_ fun h => h.1 hx
    rintro ⟨_, ⟨t, -, -, -, -, rfl⟩, ht⟩
    cases ht
  · simp only [matchBody_eq_some_iff_of_fixed (absurd · hx)]
    constructor
    · rintro ⟨_, ⟨hψ, rfl⟩, -⟩
      exact ⟨hx, hψ⟩
    · rintro ⟨-, hψ⟩
      exact ⟨none, ⟨hψ, rfl⟩, rfl⟩

/-- A formula is an instance with the name `t` exactly if it is the body with `t` in place of the
variable, which is free in the body and is nowhere captured. -/
theorem instanceOf?_eq_name_iff {φ ψ : Formula} :
    φ.instanceOf? x ψ = some (.name t) ↔
      x ∈ φ.freeNames ∧ φ.FreeFor t x ∧ ψ = φ.replace x t := by
  by_cases hx : x ∈ φ.freeNames
  · simp only [instanceOf?, Option.map_eq_some_iff,
      matchBody_eq_some_iff_of_free hx List.not_mem_nil]
    constructor
    · rintro ⟨_, ⟨t', -, -, hfree, hψ, rfl⟩, ht⟩
      obtain rfl := Instance.name.inj ht
      exact ⟨hx, hfree, hψ⟩
    · rintro ⟨-, hfree, hψ⟩
      exact ⟨some t, ⟨t, List.not_mem_nil, by simp, hfree, hψ, rfl⟩, rfl⟩
  · simp only [instanceOf?, Option.map_eq_some_iff, matchBody_eq_some_iff_of_fixed (absurd · hx)]
    refine iff_of_false ?_ fun h => hx h.1
    rintro ⟨_, ⟨-, rfl⟩, ht⟩
    cases ht

end Formula

end NaturalDeduction

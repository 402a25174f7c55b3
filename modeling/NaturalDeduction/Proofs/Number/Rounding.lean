import Mathlib.Algebra.Order.Field.Power
import Mathlib.Tactic.FieldSimp
import Mathlib.Tactic.Linarith
import Mathlib.Tactic.Ring
import NaturalDeduction.Number.Binary64

/-!
# Rounding keeps the order

Of two shares, the larger one is never shown as the smaller machine number.

## Main results

* `roundDiv_le_iff`: where rounding to natural numbers goes up
* `Binary64.exponentOf_spec`: the exponent of a fraction
* `Binary64.value?_ofRat_mono`: a larger share is no smaller as a number of the format
-/

namespace NaturalDeduction

/-- Rounding does not go beyond `k` as long as the quotient is less than half a unit behind it, or
just half a unit and `k` is even. -/
theorem roundDiv_le_iff {n d : ℕ} (hd : 0 < d) (k : ℕ) :
    roundDiv n d ≤ k ↔ 2 * n < (2 * k + 1) * d ∨ (2 * n = (2 * k + 1) * d ∧ k % 2 = 0) := by
  have hn := Nat.div_add_mod n d
  have hr := Nat.mod_lt n hd
  rw [roundDiv]
  generalize n / d = q at *
  generalize n % d = r at *
  subst hn
  rcases lt_trichotomy k q with hk | rfl | hk
  · have hmul : (k + 1) * d ≤ d * q := by
      rw [mul_comm d q]
      exact Nat.mul_le_mul_right d hk
    have hexpand : (2 * k + 1) * d + d = 2 * ((k + 1) * d) := by ring
    refine iff_of_false ?_ (by omega)
    split_ifs <;> omega
  · have hexpand : (2 * k + 1) * d = 2 * (d * k) + d := by ring
    split_ifs <;> omega
  · have hmul : d * (q + 1) ≤ k * d := by
      rw [mul_comm k d]
      exact Nat.mul_le_mul_left d hk
    have hexpand : (2 * k + 1) * d = 2 * (k * d) + d := by ring
    have hexpand' : d * (q + 1) = d * q + d := by ring
    refine iff_of_true ?_ (by omega)
    split_ifs <;> omega

namespace Binary64

variable {n d n' d' k : ℕ} {e e' : ℤ}

/-! ### Significands -/

theorem zpow_two_of_neg (he : e < 0) : (2 : ℚ) ^ e = ((2 ^ e.natAbs : ℕ) : ℚ)⁻¹ := by
  rw [Nat.cast_pow, Nat.cast_ofNat, ← zpow_natCast, ← zpow_neg, ← Int.eq_neg_natAbs_of_nonpos he.le]

theorem zpow_two_of_nonneg (he : 0 ≤ e) : (2 : ℚ) ^ e = ((2 ^ e.natAbs : ℕ) : ℚ) := by
  rw [Nat.cast_pow, Nat.cast_ofNat, ← zpow_natCast, Int.natAbs_of_nonneg he]

/-- A fraction is rounded to a multiple of a power of two, up or down as its distance to the middle
between two multiples tells. -/
theorem scaled_le_iff (hd : 0 < d) (e : ℤ) (k : ℕ) : scaled n d e ≤ k ↔
    (n / d : ℚ) < (k + 1 / 2) * 2 ^ e ∨ ((n / d : ℚ) = (k + 1 / 2) * 2 ^ e ∧ k % 2 = 0) := by
  have hd' : (0 : ℚ) < d := by exact_mod_cast hd
  obtain ⟨p, hp, hpos⟩ : ∃ p : ℕ, p = 2 ^ e.natAbs ∧ (0 : ℚ) < p := ⟨_, rfl, by positivity⟩
  rw [scaled]
  split_ifs with he
  · change roundDiv (n * (2 ^ e.natAbs : ℕ)) d ≤ k ↔ _
    have hmiddle : ((k : ℚ) + 1 / 2) * (p : ℚ)⁻¹ * d =
        ((2 * k + 1) * d : ℕ) / ((2 * p : ℕ) : ℚ) := by
      push_cast
      field_simp
    have htwice : (0 : ℚ) < ((2 * p : ℕ) : ℚ) := by
      push_cast
      linarith
    rw [roundDiv_le_iff hd, zpow_two_of_neg he, ← hp, div_lt_iff₀ hd', div_eq_iff hd'.ne', hmiddle,
      lt_div_iff₀ htwice, eq_div_iff htwice.ne']
    norm_cast
    rw [mul_left_comm 2 n p]
  · change roundDiv n (d * (2 ^ e.natAbs : ℕ)) ≤ k ↔ _
    have hdp : 0 < d * p := by exact_mod_cast mul_pos hd' hpos
    have hmiddle : ((k : ℚ) + 1 / 2) * (p : ℚ) * d = ((2 * k + 1) * (d * p) : ℕ) / (2 : ℕ) := by
      push_cast
      field_simp
    rw [← hp, roundDiv_le_iff hdp, zpow_two_of_nonneg (not_lt.mp he), ← hp, div_lt_iff₀ hd',
      div_eq_iff hd'.ne', hmiddle, lt_div_iff₀ (by norm_num), eq_div_iff (by norm_num)]
    norm_cast
    rw [mul_comm n 2]

theorem scaled_mono (hd : 0 < d) (hd' : 0 < d') (h : (n / d : ℚ) ≤ n' / d') (e : ℤ) :
    scaled n d e ≤ scaled n' d' e := by
  refine (scaled_le_iff hd e _).mpr ?_
  rcases (scaled_le_iff hd' e _).mp le_rfl with hlt | ⟨heq, heven⟩
  · exact .inl (h.trans_lt hlt)
  · exact (h.trans heq.le).lt_or_eq.imp id fun heq => ⟨heq, heven⟩

/-- A fraction that is no more than a multiple of a power is not rounded to more. -/
theorem scaled_le (hd : 0 < d) (h : (n / d : ℚ) ≤ k * 2 ^ e) : scaled n d e ≤ k := by
  have hpos : (0 : ℚ) < 2 ^ e := by positivity
  refine (scaled_le_iff hd e k).mpr (.inl (h.trans_lt ?_))
  exact mul_lt_mul_of_pos_right (by linarith) hpos

/-- A fraction that is no less than a multiple of a power is not rounded to less. -/
theorem le_scaled (hd : 0 < d) (h : (k * 2 ^ e : ℚ) ≤ n / d) : k ≤ scaled n d e := by
  have hpos : (0 : ℚ) < 2 ^ e := by positivity
  by_contra hlt
  obtain ⟨j, rfl⟩ : ∃ j, k = j + 1 := Nat.exists_eq_succ_of_ne_zero (by omega)
  have hmiddle : ((j : ℚ) + 1 / 2) * 2 ^ e < ((j + 1 : ℕ) : ℚ) * 2 ^ e := by
    refine mul_lt_mul_of_pos_right ?_ hpos
    push_cast
    linarith
  rcases (scaled_le_iff hd e j).mp (Nat.le_of_lt_succ (not_le.mp hlt)) with hless | ⟨heq, -⟩
  · exact absurd (hmiddle.trans_le h) hless.not_gt
  · exact absurd (heq ▸ h) hmiddle.not_ge

/-! ### Exponents -/

theorem lessThanPower_iff (hd : 0 < d) : lessThanPower n d e = true ↔ (n / d : ℚ) < 2 ^ e := by
  have hd' : (0 : ℚ) < d := by exact_mod_cast hd
  obtain ⟨p, hp, hpos⟩ : ∃ p : ℕ, p = 2 ^ e.natAbs ∧ (0 : ℚ) < p := ⟨_, rfl, by positivity⟩
  rw [lessThanPower]
  split_ifs with he
  · change decide (n * (2 ^ e.natAbs : ℕ) < d) = true ↔ _
    rw [decide_eq_true_iff, zpow_two_of_neg he, ← hp, div_lt_iff₀ hd', inv_mul_eq_div,
      lt_div_iff₀ hpos]
    norm_cast
  · change decide (n < d * (2 ^ e.natAbs : ℕ)) = true ↔ _
    rw [decide_eq_true_iff, zpow_two_of_nonneg (not_lt.mp he), ← hp, div_lt_iff₀ hd', mul_comm]
    norm_cast

/-- The logarithms of numerator and denominator give the size of a fraction up to a factor of two
on either side. -/
theorem log2_bounds (hn : 0 < n) (hd : 0 < d) :
    (2 : ℚ) ^ ((n.log2 : ℤ) - d.log2 - 1) < n / d ∧
    (n / d : ℚ) < 2 ^ ((n.log2 : ℤ) - d.log2 + 1) := by
  have hd' : (0 : ℚ) < d := by exact_mod_cast hd
  have hnlo : (2 : ℚ) ^ (n.log2 : ℤ) ≤ n := by exact_mod_cast Nat.log2_self_le hn.ne'
  have hnhi : (n : ℚ) < 2 ^ ((n.log2 : ℤ) + 1) := by exact_mod_cast Nat.lt_log2_self
  have hdlo : (2 : ℚ) ^ (d.log2 : ℤ) ≤ d := by exact_mod_cast Nat.log2_self_le hd.ne'
  have hdhi : (d : ℚ) < 2 ^ ((d.log2 : ℤ) + 1) := by exact_mod_cast Nat.lt_log2_self
  constructor
  · rw [lt_div_iff₀ hd']
    calc (2 : ℚ) ^ ((n.log2 : ℤ) - d.log2 - 1) * d
        < 2 ^ ((n.log2 : ℤ) - d.log2 - 1) * 2 ^ ((d.log2 : ℤ) + 1) :=
          mul_lt_mul_of_pos_left hdhi (by positivity)
      _ = 2 ^ (n.log2 : ℤ) := by
          rw [← zpow_add₀ two_ne_zero]
          congr 1
          ring
      _ ≤ n := hnlo
  · rw [div_lt_iff₀ hd']
    calc (n : ℚ) < 2 ^ ((n.log2 : ℤ) + 1) := hnhi
      _ = 2 ^ ((n.log2 : ℤ) - d.log2 + 1) * 2 ^ (d.log2 : ℤ) := by
          rw [← zpow_add₀ two_ne_zero]
          congr 1
          ring
      _ ≤ 2 ^ ((n.log2 : ℤ) - d.log2 + 1) * d := by gcongr

/-- **The exponent of a fraction** leaves less than all bits in front of the point, and not less
than that unless it is the least exponent. -/
theorem exponentOf_spec (hn : 0 < n) (hd : 0 < d) :
    minExponent ≤ exponentOf n d ∧ (n / d : ℚ) < 2 ^ (exponentOf n d + precision) ∧
      (exponentOf n d = minExponent ∨ (2 : ℚ) ^ (exponentOf n d + precision - 1) ≤ n / d) := by
  obtain ⟨hlo, hhi⟩ := log2_bounds hn hd
  have hone : (1 : ℚ) ≤ 2 := one_le_two
  rw [exponentOf]
  set estimate : ℤ := (n.log2 : ℤ) - d.log2 + 1 - precision with hestimate
  set exponent :=
    if lessThanPower n d (estimate + precision - 1) = true then estimate - 1 else estimate
    with hexponent
  have hupper : (n / d : ℚ) < 2 ^ (exponent + precision) := by
    rw [hexponent]
    split_ifs with hless
    · rw [sub_add_eq_add_sub]
      exact (lessThanPower_iff hd).mp hless
    · rwa [hestimate, sub_add_cancel]
  have hlower : (2 : ℚ) ^ (exponent + precision - 1) ≤ n / d := by
    rw [hexponent]
    split_ifs with hless
    · refine le_trans (zpow_le_zpow_right₀ hone ?_) hlo.le
      omega
    · exact not_lt.mp (mt (lessThanPower_iff hd).mpr hless)
  refine ⟨le_max_right _ _, hupper.trans_le (zpow_le_zpow_right₀ hone ?_), ?_⟩
  · exact Int.add_le_add_right (le_max_left _ _) _
  · rcases le_total exponent minExponent with hle | hle
    · exact .inl (max_eq_right hle)
    · exact .inr (by rwa [max_eq_left hle])

theorem exponentOf_mono (hn : 0 < n) (hd : 0 < d) (hn' : 0 < n') (hd' : 0 < d')
    (h : (n / d : ℚ) ≤ n' / d') : exponentOf n d ≤ exponentOf n' d' := by
  obtain ⟨-, -, hleast | hlower⟩ := exponentOf_spec hn hd
  · exact hleast ▸ (exponentOf_spec hn' hd').1
  · have hupper := (exponentOf_spec hn' hd').2.1
    have hlt := (zpow_lt_zpow_iff_right₀ (one_lt_two : (1 : ℚ) < 2)).mp
        (hlower.trans_lt (h.trans_lt hupper))
    omega

/-- A significand has at most all bits, but for a power of two that rounding has gone up to. -/
theorem scaled_exponentOf_le (hn : 0 < n) (hd : 0 < d) :
    scaled n d (exponentOf n d) ≤ 2 ^ precision := by
  refine scaled_le hd (le_trans (exponentOf_spec hn hd).2.1.le (le_of_eq ?_))
  rw [zpow_add₀ two_ne_zero, mul_comm]
  norm_num [precision]

/-- Where smaller exponents are left, a significand has all bits. -/
theorem le_scaled_exponentOf (hn : 0 < n) (hd : 0 < d) (h : minExponent < exponentOf n d) :
    2 ^ (precision - 1) ≤ scaled n d (exponentOf n d) := by
  have hlower := (exponentOf_spec hn hd).2.2.resolve_left h.ne'
  refine le_scaled hd (le_trans (le_of_eq ?_) hlower)
  rw [add_sub_assoc, zpow_add₀ two_ne_zero, mul_comm]
  norm_num [precision]

/-! ### Values -/

/-- The multiple of a power of two that a fraction is rounded to. -/
def rounded (n d : ℕ) : ℚ := scaled n d (exponentOf n d) * 2 ^ exponentOf n d

/-- The exponent of the rounded fraction, whose significand has fewer than 54 bits. -/
def roundedExponent (n d : ℕ) : ℤ :=
  if scaled n d (exponentOf n d) = 2 ^ precision then exponentOf n d + 1 else exponentOf n d

theorem value?_finite (s : ℕ) (e : ℤ) : (finite false s e).value? = some (s * 2 ^ e : ℚ) := by
  rw [value?, if_neg Bool.false_ne_true]
  congr 1
  split_ifs with he
  · change mkRat s (2 ^ e.natAbs : ℕ) = _
    rw [zpow_two_of_neg he, Rat.mkRat_eq_div, div_eq_mul_inv]
    rfl
  · change ((s * (2 ^ e.natAbs : ℕ) : ℕ) : ℚ) = _
    rw [zpow_two_of_nonneg (not_lt.mp he), Nat.cast_mul]

/-- A positive fraction that is not too large is given its rounded value. -/
theorem value?_ofFraction (hn : 0 < n) : (ofFraction false n d).value? =
    if roundedExponent n d ≤ maxExponent then some (rounded n d) else none := by
  rw [roundedExponent, rounded]
  by_cases hs : scaled n d (exponentOf n d) = 2 ^ precision
  · -- the same value, with one bit less and the next exponent
    have hvalue : ((2 ^ (precision - 1) : ℕ) * 2 ^ (exponentOf n d + 1) : ℚ) =
        (2 ^ precision : ℕ) * 2 ^ exponentOf n d := by
      rw [zpow_add_one₀ two_ne_zero]
      norm_num [precision]
      ring
    rw [ofFraction, if_pos hs, if_pos hs, hs, ← hvalue]
    simp only [if_neg hn.ne']
    split_ifs with hmax hmax' hmax'
    · omega
    · rfl
    · exact value?_finite _ _
    · omega
  · rw [ofFraction, if_neg hs, if_neg hs]
    simp only [if_neg hn.ne']
    split_ifs with hmax hmax' hmax'
    · omega
    · rfl
    · exact value?_finite _ _
    · omega

section Order

variable (hn : 0 < n) (hd : 0 < d) (hn' : 0 < n') (hd' : 0 < d') (h : (n / d : ℚ) ≤ n' / d')

include hn hd hn' hd' h

theorem roundedExponent_mono : roundedExponent n d ≤ roundedExponent n' d' := by
  have hscaled' := scaled_exponentOf_le hn' hd'
  rw [roundedExponent, roundedExponent]
  rcases (exponentOf_mono hn hd hn' hd' h).lt_or_eq with hlt | heq
  · split_ifs <;> omega
  · have hmono := scaled_mono hd hd' h (exponentOf n d)
    rw [heq] at hmono ⊢
    split_ifs <;> omega

theorem rounded_mono : rounded n d ≤ rounded n' d' := by
  rw [rounded, rounded]
  rcases (exponentOf_mono hn hd hn' hd' h).lt_or_eq with hlt | heq
  · have hleast : minExponent < exponentOf n' d' := (exponentOf_spec hn hd).1.trans_lt hlt
    have hupper : (scaled n d (exponentOf n d) : ℚ) ≤ 2 ^ precision := by
      exact_mod_cast scaled_exponentOf_le hn hd
    have hlower : (2 ^ (precision - 1) : ℚ) ≤ scaled n' d' (exponentOf n' d') := by
      exact_mod_cast le_scaled_exponentOf hn' hd' hleast
    calc (scaled n d (exponentOf n d) : ℚ) * 2 ^ exponentOf n d
        ≤ 2 ^ precision * 2 ^ exponentOf n d := by gcongr
      _ = 2 ^ (precision - 1) * 2 ^ (exponentOf n d + 1) := by
          rw [zpow_add_one₀ two_ne_zero]
          norm_num [precision]
          ring
      _ ≤ 2 ^ (precision - 1) * 2 ^ exponentOf n' d' := by
          gcongr
          · exact one_le_two
          · omega
      _ ≤ scaled n' d' (exponentOf n' d') * 2 ^ exponentOf n' d' := by gcongr
  · have hmono : (scaled n d (exponentOf n d) : ℚ) ≤ scaled n' d' (exponentOf n d) := by
      exact_mod_cast scaled_mono hd hd' h _
    rw [← heq]
    gcongr

end Order

theorem value?_ofRat_zero : (ofRat 0).value? = some 0 := by decide +kernel

/-- A positive fraction is rounded as what it is in lowest terms. -/
theorem value?_ofRat_of_pos {q : ℚ} (hq : 0 < q) : (ofRat q).value? =
    if roundedExponent q.num.natAbs q.den ≤ maxExponent then some (rounded q.num.natAbs q.den)
    else none := by
  rw [ofRat, decide_eq_false (not_lt.mpr (Rat.num_nonneg.mpr hq.le))]
  exact value?_ofFraction (Int.natAbs_pos.mpr (Rat.num_pos.mpr hq).ne')

theorem rounded_nonneg (n d : ℕ) : 0 ≤ rounded n d := by
  rw [rounded]
  positivity

/-- **Rounding keeps the order.** What is no more than a fraction that the format can show is shown
too, by a number that is no larger. -/
theorem value?_ofRat_mono {p q b : ℚ} (hp : 0 ≤ p) (hpq : p ≤ q) (hb : (ofRat q).value? = some b) :
    ∃ a, (ofRat p).value? = some a ∧ 0 ≤ a ∧ a ≤ b := by
  rcases (hp.trans hpq).eq_or_lt with rfl | hq
  · obtain rfl := hpq.antisymm hp
    obtain rfl := Option.some.inj (hb.symm.trans value?_ofRat_zero)
    exact ⟨0, hb, le_rfl, le_rfl⟩
  rw [value?_ofRat_of_pos hq] at hb
  obtain ⟨hmax, hvalue⟩ := Option.ite_none_right_eq_some.mp hb
  obtain rfl := Option.some.inj hvalue
  rcases hp.eq_or_lt with rfl | hp
  · exact ⟨0, value?_ofRat_zero, le_rfl, rounded_nonneg _ _⟩
  have hfraction {r : ℚ} (hr : 0 < r) : ((r.num.natAbs : ℕ) : ℚ) / r.den = r := by
    conv_rhs => rw [← Rat.num_div_den r]
    rw [← Int.cast_natCast, Int.natAbs_of_nonneg (Rat.num_nonneg.mpr hr.le)]
  have horder : ((p.num.natAbs : ℕ) / p.den : ℚ) ≤ (q.num.natAbs : ℕ) / q.den := by
    rwa [hfraction hp, hfraction hq]
  have hn : 0 < p.num.natAbs := Int.natAbs_pos.mpr (Rat.num_pos.mpr hp).ne'
  have hn' : 0 < q.num.natAbs := Int.natAbs_pos.mpr (Rat.num_pos.mpr hq).ne'
  refine ⟨rounded _ _, ?_, rounded_nonneg _ _, rounded_mono hn p.den_pos hn' q.den_pos horder⟩
  rw [value?_ofRat_of_pos hp,
    if_pos ((roundedExponent_mono hn p.den_pos hn' q.den_pos horder).trans hmax)]

end Binary64

end NaturalDeduction

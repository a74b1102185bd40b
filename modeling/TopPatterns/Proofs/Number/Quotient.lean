import TopPatterns.Mining.Partition
import TopPatterns.Proofs.Number.Rounding

/-!
# The width of a group

The width is a quotient of two counts, rounded to floating point and then up to a whole number.
Rounding to floating point does not carry a quotient of counts across a whole number, as long as the
items have at most 53 binary digits, so the width is the exact one (`groupWidth_eq`). The exception
is zero: with so many groups that the quotient is rounded to zero, groups would have no items
(`groupWidth_eq_zero_iff`).
-/

namespace TopPatterns

open Binary64

variable {items groups : Nat}

theorem groupWidth_of_finite {m : Nat} {e : ℤ} (h : quotient items groups = .finite false m e) :
    groupWidth items groups = ⌈(quotient items groups).value⌉₊ := by
  rw [groupWidth, h, ceiling?_finite]
  exact Int.ceil_toNat _

theorem le_div_iff_mul_pow_le (hgroups : 0 < groups) :
    (items / groups : ℚ) ≤ 2 ^ (-1075 : ℤ) ↔ items * 2 ^ 1075 ≤ groups := by
  have hpos : (0 : ℚ) < groups := by exact_mod_cast hgroups
  rw [div_le_iff₀ hpos, zpow_neg, le_inv_mul_iff₀ (by positivity), mul_comm]
  exact_mod_cast Iff.rfl

/-- A group would have no item exactly if the quotient is rounded to zero. -/
theorem groupWidth_eq_zero_iff (hitems : 0 < items) (hgroups : 0 < groups) :
    groupWidth items groups = 0 ↔ items * 2 ^ 1075 ≤ groups := by
  rw [← le_div_iff_mul_pow_le hgroups, ← not_lt, ← significand_pos_iff hitems hgroups]
  obtain ⟨m, e, heq, hvalue, hexponent⟩ := exists_ofFraction false hitems hgroups
  by_cases hmost : e ≤ 971
  · rw [if_pos hmost] at heq
    have hpow : (0 : ℚ) < 2 ^ exponentOf items groups := by positivity
    rw [groupWidth_of_finite heq, quotient, heq, value_finite_false, hvalue, Nat.ceil_eq_zero,
      ← not_lt, mul_pos_iff_of_pos_right hpow, Nat.cast_pos]
  · -- a quotient beyond the numbers gives one group, and is far from zero
    rw [if_neg hmost] at heq
    have hlarge : 971 ≤ exponentOf items groups := by
      split at hexponent <;> omega
    have hdigits : 2 ^ 52 ≤ significand items groups :=
      le_significand hgroups (pow_mul_le hitems hgroups (by omega))
    rw [groupWidth, quotient, heq]
    exact iff_of_false (by simp only [ceiling?]; omega) (not_not.2 (by omega))

/-- A quotient of counts above a whole number that is not zero stays above it when it is rounded:
their distance is at least one part of the denominator, and the error is less. -/
theorem lt_value_quotient (hitems : items ≤ 2 ^ 53) (hgroups : 0 < groups) {k : Nat} (hk : 0 < k)
    (hrounds : (quotient items groups).RoundsTo (items / groups)) (h : (k : ℚ) < items / groups) :
    (k : ℚ) < (quotient items groups).value := by
  have hpos : (0 : ℚ) < groups := by exact_mod_cast hgroups
  have hone : (1 : ℚ) ≤ k := by exact_mod_cast hk
  have hmost : (items : ℚ) ≤ 2 ^ 53 := by exact_mod_cast hitems
  have hfar : (1 / groups : ℚ) ≤ items / groups - k := by
    rw [lt_div_iff₀ hpos] at h
    have hlt : k * groups < items := by exact_mod_cast h
    have hlt' : (k * groups + 1 : ℚ) ≤ items := by exact_mod_cast hlt
    rw [le_sub_iff_add_le, div_add' _ _ _ hpos.ne', div_le_div_iff_of_pos_right hpos]
    linarith
  have hnormal : (2 : ℚ) ^ (-1022 : ℤ) ≤ items / groups :=
    (zpow_le_one_of_nonpos₀ one_le_two (by decide)).trans (hone.trans h.le)
  by_contra hle
  refine absurd (hrounds.near hnormal) (not_lt.2 ?_)
  calc (items / groups : ℚ) ≤ 2 ^ 53 / groups := div_le_div_of_nonneg_right hmost hpos.le
    _ = 1 / groups * 2 ^ 53 := by ring
    _ ≤ |(quotient items groups).value - items / groups| * 2 ^ 53 := by
      refine mul_le_mul_of_nonneg_right ?_ (by positivity)
      rw [abs_sub_comm]
      exact (hfar.trans (by linarith)).trans (le_abs_self _)

/-- **The width of a group.** It is the exact quotient, rounded up. -/
theorem groupWidth_eq (hpos : 0 < items) (hitems : items ≤ 2 ^ 53) (hgroups : 0 < groups)
    (h : groups < items * 2 ^ 1075) : groupWidth items groups = ⌈(items / groups : ℚ)⌉₊ := by
  have hpos' : (0 : ℚ) < groups := by exact_mod_cast hgroups
  have hwhole : (items / groups : ℚ) ≤ items :=
    div_le_self items.cast_nonneg (by exact_mod_cast hgroups)
  have hfinite : (items / groups : ℚ) < 2 ^ 1023 := by
    have hcast : (items : ℚ) ≤ 2 ^ 53 := by exact_mod_cast hitems
    exact (hwhole.trans hcast).trans_lt (pow_lt_pow_right₀ one_lt_two (by decide))
  have hrounds : (quotient items groups).RoundsTo (items / groups) :=
    ofFraction_roundsTo hpos hgroups hfinite
  obtain ⟨m, e, heq⟩ := hrounds.exists_finite
  rw [groupWidth_of_finite heq]
  refine le_antisymm (Nat.ceil_le.2 ?_) (Nat.ceil_le.2 ?_)
  · -- a whole number up to `items` is held exactly, so rounding does not pass it
    refine hrounds.le_of_onGrid _ ⟨⌈(items / groups : ℚ)⌉₊, 0, ?_, by decide, by simp⟩
      (Nat.le_ceil _)
    exact (Nat.ceil_le.2 hwhole).trans hitems
  · have hlow := not_le.1 (mt (le_div_iff_mul_pow_le hgroups).1 (not_le.2 h))
    have hk : 0 < ⌈(quotient items groups).value⌉₊ := Nat.ceil_pos.2 (hrounds.pos_iff.2 hlow)
    by_contra hlt
    have habove := lt_value_quotient hitems hgroups hk hrounds (not_le.1 hlt)
    exact absurd habove (not_lt.2 (Nat.le_ceil _))

/-- With one digit more, an item can be lost. -/
example : groupWidth (2 ^ 53 + 1) 1 = 2 ^ 53 := by decide +kernel

end TopPatterns

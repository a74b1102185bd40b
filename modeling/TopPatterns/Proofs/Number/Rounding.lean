import Mathlib.Algebra.Order.Field.Power
import Mathlib.Data.Rat.Floor
import Mathlib.Tactic.FieldSimp
import Mathlib.Tactic.Linarith
import Mathlib.Tactic.Positivity
import Mathlib.Tactic.Ring
import TopPatterns.Number.Binary64

/-!
# Rounding to binary floating point

`RoundsTo b x` says what is known of the number `b` to which a fraction `x` is rounded: it is on the
same side of every number that is held exactly, it is zero only for fractions up to `2 ^ -1075`, and
away from the least numbers the error is less than one part in `2 ^ 53`. `ofFraction_roundsTo` is
the one proof about the digits: the fraction is scaled to a quotient between `2 ^ 52` and `2 ^ 53`
(`exponentOf`), and that is rounded to a whole number (`roundHalfEven`). Whole numbers, decimals and
products come from it.
-/

namespace TopPatterns

/-! ## Rounding a quotient to a whole number -/

theorem roundHalfEven_le {num den k : Nat} (hden : 0 < den) (h : num ≤ k * den) :
    roundHalfEven num den ≤ k := by
  have hnear := (@roundHalfEven_near num den hden).2
  by_contra hlt
  have hmul : (k + 1) * den ≤ roundHalfEven num den * den := Nat.mul_le_mul_right den (by omega)
  rw [Nat.add_mul] at hmul
  omega

theorem le_roundHalfEven {num den k : Nat} (hden : 0 < den) (h : k * den ≤ num) :
    k ≤ roundHalfEven num den := by
  have hnear := (@roundHalfEven_near num den hden).1
  by_contra hlt
  have hmul : (roundHalfEven num den + 1) * den ≤ k * den := Nat.mul_le_mul_right den (by omega)
  rw [Nat.add_mul] at hmul
  omega

/-- Of the quotients up to one half, and of no others, nothing is left. -/
theorem roundHalfEven_eq_zero_iff {num den : Nat} (hden : 0 < den) :
    roundHalfEven num den = 0 ↔ 2 * num ≤ den := by
  constructor
  · intro hzero
    have hnear := (@roundHalfEven_near num den hden).1
    rw [hzero] at hnear
    omega
  · intro hhalf
    have hwhole : num / den = 0 := Nat.div_eq_of_lt (by omega)
    have hrest : num % den = num := Nat.mod_eq_of_lt (by omega)
    simp only [roundHalfEven, hwhole, hrest]
    split
    · rfl
    · rw [if_neg (by omega)]

/-- Half-way below an even number, rounding goes up. -/
theorem two_mul_le_roundHalfEven_iff {num den k : Nat} (hden : 0 < den) :
    2 * k ≤ roundHalfEven num den ↔ 4 * k * den ≤ 2 * num + den := by
  constructor
  · intro hle
    have hnear := (@roundHalfEven_near num den hden).2
    have hmul := Nat.mul_le_mul_right den hle
    rw [show 4 * k * den = 2 * (2 * k * den) by ring]
    omega
  · intro h
    have hdiv := Nat.div_add_mod num den
    have hscaled : 4 * k * den ≤ 2 * (num / den) * den + 2 * (num % den) + den := by
      rw [show 2 * (num / den) * den = 2 * (den * (num / den)) by ring]
      omega
    have hbelow : ∀ bound : Nat, 4 * k * den < bound * den → 4 * k < bound := fun _ hlt =>
      Nat.lt_of_mul_lt_mul_right hlt
    simp only [roundHalfEven]
    split
    · have hlt := hbelow (2 * (num / den) + 2) (by rw [Nat.add_mul]; omega)
      omega
    · split
      · have hmod := Nat.mod_lt num hden
        have hlt := hbelow (2 * (num / den) + 3) (by rw [Nat.add_mul]; omega)
        omega
      · -- a half goes to the even neighbour, so it does not stay just below an even number
        have hlt := hbelow (2 * (num / den) + 3) (by rw [Nat.add_mul]; omega)
        omega

theorem abs_roundHalfEven_sub_le {num den : Nat} (hden : 0 < den) :
    |(roundHalfEven num den : ℚ) - num / den| ≤ 1 / 2 := by
  obtain ⟨hlow, hhigh⟩ := @roundHalfEven_near num den hden
  have hpos : (0 : ℚ) < den := by exact_mod_cast hden
  have hlow' : (2 * num : ℚ) ≤ 2 * (roundHalfEven num den * den) + den := by exact_mod_cast hlow
  have hhigh' : (2 * (roundHalfEven num den * den) : ℚ) ≤ 2 * num + den := by exact_mod_cast hhigh
  have hmul : (num / den : ℚ) * den = num := div_mul_cancel₀ _ hpos.ne'
  rw [abs_le]
  constructor <;> nlinarith

namespace Binary64

/-! ## Values -/

/-- The value of a finite number. -/
def value : Binary64 → ℚ
  | .finite negative m e => (if negative then -1 else 1) * m * 2 ^ e
  | _ => 0

theorem two_pow_toNat_div (e : ℤ) : (2 : ℚ) ^ e.toNat / 2 ^ (-e).toNat = 2 ^ e := by
  obtain ⟨n, rfl | rfl⟩ := e.eq_nat_or_neg
  · simp
  · simp

theorem fraction_div (m : Nat) (e : ℤ) :
    ((fraction m e).1 : ℚ) / (fraction m e).2 = m * 2 ^ e := by
  simp only [fraction, Nat.pow_eq]
  push_cast
  rw [mul_div_assoc, two_pow_toNat_div]

/-- A quotient of whole numbers rounded up. -/
theorem natCast_ceilDiv {num den : Nat} (hden : 0 < den) :
    (((num + den - 1) / den : Nat) : ℤ) = ⌈(num / den : ℚ)⌉ := by
  have hpos : (0 : ℚ) < den := by exact_mod_cast hden
  have hdiv := Nat.div_add_mod (num + den - 1) den
  have hmod := Nat.mod_lt (num + den - 1) hden
  have hlow : num ≤ den * ((num + den - 1) / den) := by omega
  have hhigh : den * ((num + den - 1) / den) < num + den := by omega
  generalize (num + den - 1) / den = k at hlow hhigh
  have hlow' : (num : ℚ) ≤ den * k := by exact_mod_cast hlow
  have hhigh' : (den * k : ℚ) < num + den := by exact_mod_cast hhigh
  rw [eq_comm, Int.ceil_eq_iff, lt_div_iff₀ hpos, div_le_iff₀ hpos]
  push_cast
  constructor <;> linarith

/-! ## The exponent -/

theorem le_exponentOf (num den : Nat) : -1074 ≤ exponentOf num den := Int.le_max_left ..

section

variable {num den : Nat}

/-- The logarithms of numerator and denominator bound the quotient. -/
theorem pow_log2_sub_bounds (hnum : 0 < num) (hden : 0 < den) :
    (2 : ℚ) ^ ((num.log2 : ℤ) - den.log2 - 1) < num / den ∧
      (num / den : ℚ) < 2 ^ ((num.log2 : ℤ) - den.log2 + 1) := by
  have hnumlow : (2 : ℚ) ^ num.log2 ≤ num := by exact_mod_cast Nat.log2_self_le hnum.ne'
  have hnumhigh : (num : ℚ) < 2 ^ (num.log2 + 1) := by exact_mod_cast Nat.lt_log2_self
  have hdenlow : (2 : ℚ) ^ den.log2 ≤ den := by exact_mod_cast Nat.log2_self_le hden.ne'
  have hdenhigh : (den : ℚ) < 2 ^ (den.log2 + 1) := by exact_mod_cast Nat.lt_log2_self
  have hpos : (0 : ℚ) < den := by exact_mod_cast hden
  have hlow : (2 : ℚ) ^ ((num.log2 : ℤ) - den.log2 - 1) * 2 ^ (den.log2 + 1) = 2 ^ num.log2 := by
    rw [← zpow_natCast, ← zpow_natCast, ← zpow_add₀ two_ne_zero]
    congr 1
    push_cast
    ring
  have hhigh : (2 : ℚ) ^ ((num.log2 : ℤ) - den.log2 + 1) * 2 ^ den.log2 = 2 ^ (num.log2 + 1) := by
    rw [← zpow_natCast, ← zpow_natCast, ← zpow_add₀ two_ne_zero]
    congr 1
    push_cast
    ring
  constructor
  · rw [lt_div_iff₀ hpos]
    calc (2 : ℚ) ^ ((num.log2 : ℤ) - den.log2 - 1) * den
        < 2 ^ ((num.log2 : ℤ) - den.log2 - 1) * 2 ^ (den.log2 + 1) := by gcongr
      _ = 2 ^ num.log2 := hlow
      _ ≤ num := hnumlow
  · rw [div_lt_iff₀ hpos]
    calc (num : ℚ) < 2 ^ (num.log2 + 1) := hnumhigh
      _ = 2 ^ ((num.log2 : ℤ) - den.log2 + 1) * 2 ^ den.log2 := hhigh.symm
      _ ≤ 2 ^ ((num.log2 : ℤ) - den.log2 + 1) * den := by gcongr

/-- The test in `exponentOf` compares the quotient with a power of two. -/
theorem reached_iff (hden : 0 < den) (e : ℤ) :
    den * Nat.pow 2 e.toNat ≤ num * Nat.pow 2 (-e).toNat ↔ (2 : ℚ) ^ e ≤ num / den := by
  have hpos : (0 : ℚ) < den := by exact_mod_cast hden
  have hpow : (0 : ℚ) < 2 ^ (-e).toNat := by positivity
  rw [← two_pow_toNat_div, div_le_div_iff₀ hpow hpos, ← @Nat.cast_le ℚ]
  simp only [Nat.pow_eq]
  push_cast
  rw [mul_comm (den : ℚ)]

/-- Unless the exponent is the least one, the scaled quotient has 53 binary digits, and it never has
more. -/
theorem exponentOf_bounds (hnum : 0 < num) (hden : 0 < den) :
    (num / den : ℚ) < 2 ^ (53 + exponentOf num den) ∧
      (-1074 < exponentOf num den → (2 : ℚ) ^ (52 + exponentOf num den) ≤ num / den) := by
  obtain ⟨hlow, hhigh⟩ := pow_log2_sub_bounds hnum hden
  have hmono : ∀ {a b : ℤ}, a ≤ b → (2 : ℚ) ^ a ≤ 2 ^ b := fun h =>
    zpow_le_zpow_right₀ one_le_two h
  simp only [exponentOf]
  split
  · next hreached =>
    have hreached := (reached_iff hden _).1 hreached
    refine ⟨hhigh.trans_le (hmono (by omega)), fun hlarge => (hmono (by omega)).trans hreached⟩
  · next hreached =>
    have hreached := lt_of_not_ge (mt (reached_iff hden _).2 hreached)
    refine ⟨hreached.trans_le (hmono (by omega)), fun hlarge => (hmono (by omega)).trans hlow.le⟩

end

@[simp] theorem value_finite_false (m : Nat) (e : ℤ) : (finite false m e).value = m * 2 ^ e := by
  simp [value]

/-- Rounding up gives the least whole number that is not below. -/
theorem ceiling?_finite (m : Nat) (e : ℤ) :
    (finite false m e).ceiling? = some ⌈(finite false m e).value⌉ := by
  rw [value_finite_false, ← fraction_div]
  exact congrArg some (natCast_ceilDiv (Nat.pow_pos (by decide)))

theorem isPositive_finite (m : Nat) (e : ℤ) :
    (finite false m e).isPositive = true ↔ 0 < (finite false m e).value := by
  have hpow : (0 : ℚ) < 2 ^ e := by positivity
  rw [value_finite_false, mul_pos_iff_of_pos_right hpow, Nat.cast_pos]
  simp [isPositive]

theorem isAtMostOne_finite (m : Nat) (e : ℤ) :
    (finite false m e).isAtMostOne = true ↔ (finite false m e).value ≤ 1 := by
  have hden : (0 : ℚ) < (fraction m e).2 := by exact_mod_cast Nat.pow_pos (by decide)
  rw [value_finite_false, ← fraction_div, div_le_one hden, Nat.cast_le]
  simp [isAtMostOne]

/-- Only finite numbers without a sign are above zero and at most one. -/
theorem isPositive_and_isAtMostOne_iff (b : Binary64) :
    b.isPositive = true ∧ b.isAtMostOne = true ↔ 0 < b.value ∧ b.value ≤ 1 := by
  match b with
  | .finite false m e => rw [isPositive_finite, isAtMostOne_finite]
  | .finite true m e =>
    have hnot : (finite true m e).value ≤ 0 := by
      rw [value, if_pos rfl, neg_one_mul, neg_mul]
      exact neg_nonpos.2 (by positivity)
    exact iff_of_false (by simp [isPositive]) fun h => not_lt.2 hnot h.1
  | .infinite negative =>
    exact iff_of_false (by simp [isPositive, isAtMostOne]) (by simp [value])
  | .nan => exact iff_of_false (by simp [isPositive]) (by simp [value])

/-! ## Rounding -/

/-- The numbers that are held exactly, but for the largest. -/
def OnGrid (x : ℚ) : Prop := ∃ (k : Nat) (e : ℤ), k ≤ 2 ^ 53 ∧ -1074 ≤ e ∧ x = k * 2 ^ e

/-- The number to which a fraction that is not negative is rounded. -/
structure RoundsTo (b : Binary64) (x : ℚ) : Prop where
  exists_finite : ∃ m e, b = .finite false m e
  /-- Half of the least number and all below are rounded to zero. -/
  pos_iff : 0 < b.value ↔ 2 ^ (-1075 : ℤ) < x
  le_of_onGrid : ∀ z, OnGrid z → x ≤ z → b.value ≤ z
  ge_of_onGrid : ∀ z, OnGrid z → z ≤ x → z ≤ b.value
  near : 2 ^ (-1022 : ℤ) ≤ x → |b.value - x| * 2 ^ 53 < x

/-- The digits of a quotient, before they are brought below `2 ^ 53`. -/
def significand (num den : Nat) : Nat :=
  roundHalfEven (num * Nat.pow 2 (-exponentOf num den).toNat)
    (den * Nat.pow 2 (exponentOf num den).toNat)

section

variable {num den : Nat}

theorem scaled_eq (num den : Nat) (e : ℤ) :
    ((num * Nat.pow 2 (-e).toNat : Nat) : ℚ) / ((den * Nat.pow 2 e.toNat : Nat) : ℚ) =
      num / den / 2 ^ e := by
  rw [← two_pow_toNat_div]
  simp only [Nat.pow_eq]
  push_cast
  field_simp

theorem scaled_den_pos (hden : 0 < den) (e : ℤ) : 0 < den * Nat.pow 2 e.toNat :=
  Nat.mul_pos hden (Nat.pow_pos (by decide))

theorem cast_scaled_den_pos (hden : 0 < den) (e : ℤ) :
    (0 : ℚ) < ((den * Nat.pow 2 e.toNat : Nat) : ℚ) := by
  exact_mod_cast scaled_den_pos hden e

/-- The digits lie on the same side of a whole number as the scaled quotient. -/
theorem significand_le (hden : 0 < den) {k : Nat}
    (h : (num / den : ℚ) ≤ k * 2 ^ exponentOf num den) : significand num den ≤ k := by
  have hpos := cast_scaled_den_pos hden (exponentOf num den)
  refine roundHalfEven_le (scaled_den_pos hden _) ?_
  rw [← div_le_iff₀ (by positivity), ← scaled_eq num den, div_le_iff₀ hpos] at h
  exact_mod_cast h

theorem le_significand (hden : 0 < den) {k : Nat}
    (h : k * 2 ^ exponentOf num den ≤ (num / den : ℚ)) : k ≤ significand num den := by
  have hpos := cast_scaled_den_pos hden (exponentOf num den)
  refine le_roundHalfEven (scaled_den_pos hden _) ?_
  rw [← le_div_iff₀ (by positivity), ← scaled_eq num den, le_div_iff₀ hpos] at h
  exact_mod_cast h

theorem significand_eq_zero_iff (hden : 0 < den) :
    significand num den = 0 ↔ (num / den : ℚ) ≤ 2 ^ (exponentOf num den - 1) := by
  have hpos := cast_scaled_den_pos hden (exponentOf num den)
  rw [significand, roundHalfEven_eq_zero_iff (scaled_den_pos hden _), zpow_sub_one₀ two_ne_zero,
    ← div_le_iff₀' (by positivity), ← scaled_eq num den, div_le_iff₀ hpos, ← @Nat.cast_le ℚ]
  push_cast
  constructor <;> intro h <;> linarith

/-- The error of the digits is at most one half. -/
theorem abs_significand_sub_le (hden : 0 < den) :
    |(significand num den : ℚ) - num / den / 2 ^ exponentOf num den| ≤ 1 / 2 := by
  rw [← scaled_eq]
  exact abs_roundHalfEven_sub_le (scaled_den_pos hden _)

theorem significand_le_pow (hnum : 0 < num) (hden : 0 < den) : significand num den ≤ 2 ^ 53 := by
  refine significand_le hden ?_
  have h := (exponentOf_bounds hnum hden).1
  rw [zpow_add₀ two_ne_zero] at h
  push_cast
  exact_mod_cast h.le

/-- The quotients that are not rounded to zero. -/
theorem significand_pos_iff (hnum : 0 < num) (hden : 0 < den) :
    0 < significand num den ↔ 2 ^ (-1075 : ℤ) < (num / den : ℚ) := by
  rw [Nat.pos_iff_ne_zero, ne_eq, significand_eq_zero_iff hden, not_le]
  rcases (le_exponentOf num den).eq_or_lt with hmin | hlarge
  · rw [← hmin]
    rfl
  · -- a quotient with 53 digits is not near zero
    have hmono : ∀ {a : ℤ}, a < 52 + exponentOf num den → (2 : ℚ) ^ a < num / den := fun ha =>
      (zpow_lt_zpow_right₀ one_lt_two ha).trans_le ((exponentOf_bounds hnum hden).2 hlarge)
    exact iff_of_true (hmono (by omega)) (hmono (by omega))

/-- The number has the digits and the exponent, with one digit less if there are 54, unless that
leaves an exponent beyond the largest. -/
theorem exists_ofFraction (negative : Bool) (hnum : 0 < num) (hden : 0 < den) :
    ∃ m e, ofFraction negative num den =
        (if e ≤ 971 then .finite negative m e else .infinite negative) ∧
      (m : ℚ) * 2 ^ e = significand num den * 2 ^ exponentOf num den ∧
      e = exponentOf num den + if significand num den = 2 ^ 53 then 1 else 0 := by
  have hle := significand_le_pow hnum hden
  rw [ofFraction, if_neg hnum.ne']
  change ∃ m e, (if significand num den < Nat.pow 2 53 then _ else _) = _ ∧ _
  split
  · next hlt =>
    have hless : significand num den ≠ 2 ^ 53 := Nat.ne_of_lt hlt
    exact ⟨_, _, rfl, rfl, by rw [if_neg hless, add_zero]⟩
  · next hcarry =>
    have hfull : significand num den = 2 ^ 53 := le_antisymm hle (Nat.le_of_not_lt hcarry)
    refine ⟨significand num den / 2, _, rfl, ?_, by rw [if_pos hfull]⟩
    have hhalf : ((2 ^ 53 / 2 : Nat) : ℚ) * 2 = (2 ^ 53 : Nat) := by norm_num
    rw [hfull, zpow_add_one₀ two_ne_zero, ← hhalf]
    ring

/-- Below `2 ^ 1023` the exponent is not beyond the largest, with or without one digit more. -/
theorem exponentOf_le (hnum : 0 < num) (hden : 0 < den) (h : (num / den : ℚ) < 2 ^ 1023) :
    exponentOf num den ≤ 970 := by
  by_contra hlarge
  have hlow := (exponentOf_bounds hnum hden).2 (by omega)
  have hmono : (2 : ℚ) ^ ((1023 : Nat) : ℤ) ≤ 2 ^ (52 + exponentOf num den) :=
    zpow_le_zpow_right₀ one_le_two (by omega)
  rw [zpow_natCast] at hmono
  exact absurd h (not_lt.2 (hmono.trans hlow))

/-- The numbers held with a larger exponent are whole multiples of a power of two. -/
theorem exists_eq_mul_pow {e f : ℤ} (h : e ≤ f) (k : Nat) :
    ∃ n : Nat, (k : ℚ) * 2 ^ f = n * 2 ^ e := by
  obtain ⟨d, rfl⟩ := Int.le.dest h
  refine ⟨k * 2 ^ d, ?_⟩
  rw [zpow_add₀ two_ne_zero, zpow_natCast]
  push_cast
  ring

/-- The numbers held with a smaller exponent are below all quotients with 53 digits. -/
theorem mul_pow_le {e f : ℤ} (h : f < e) {k : Nat} (hk : k ≤ 2 ^ 53) :
    (k : ℚ) * 2 ^ f ≤ (2 ^ 52 : Nat) * 2 ^ e := by
  have hcast : (k : ℚ) ≤ 2 ^ 53 := by exact_mod_cast hk
  have hmono : (2 : ℚ) ^ (f + 1) ≤ 2 ^ e := zpow_le_zpow_right₀ one_le_two h
  rw [zpow_add_one₀ two_ne_zero] at hmono
  calc (k : ℚ) * 2 ^ f ≤ 2 ^ 53 * 2 ^ f := by gcongr
    _ = (2 ^ 52 : Nat) * (2 ^ f * 2) := by push_cast; ring
    _ ≤ (2 ^ 52 : Nat) * 2 ^ e := by gcongr

/-- Above the least exponent, the quotient has 53 digits, and so does what it is rounded to. -/
theorem pow_mul_le (hnum : 0 < num) (hden : 0 < den) (h : -1074 < exponentOf num den) :
    ((2 ^ 52 : Nat) : ℚ) * 2 ^ exponentOf num den ≤ num / den := by
  have hlow := (exponentOf_bounds hnum hden).2 h
  rw [zpow_add₀ two_ne_zero] at hlow
  exact_mod_cast hlow

/-- The digits with their exponent lie on the same side of a number on the grid as the quotient. If
the number is held with a larger exponent it is a multiple of the unit of the quotient, and if with
a smaller one the least number with 53 digits lies between. -/
theorem significand_mul_le (hnum : 0 < num) (hden : 0 < den) {z : ℚ} (hz : OnGrid z)
    (h : num / den ≤ z) : (significand num den : ℚ) * 2 ^ exponentOf num den ≤ z := by
  obtain ⟨k, f, hk, hf, rfl⟩ := hz
  rcases le_or_gt (exponentOf num den) f with hef | hfe
  · obtain ⟨n, hn⟩ := exists_eq_mul_pow hef k
    rw [hn] at h ⊢
    have hle := significand_le hden h
    gcongr
  · have hle := significand_le hden (h.trans (mul_pow_le hfe hk))
    calc (significand num den : ℚ) * 2 ^ exponentOf num den
        ≤ (2 ^ 52 : Nat) * 2 ^ exponentOf num den := by gcongr
      _ ≤ num / den := pow_mul_le hnum hden (by omega)
      _ ≤ k * 2 ^ f := h

theorem le_significand_mul (hnum : 0 < num) (hden : 0 < den) {z : ℚ} (hz : OnGrid z)
    (h : z ≤ num / den) : z ≤ (significand num den : ℚ) * 2 ^ exponentOf num den := by
  obtain ⟨k, f, hk, hf, rfl⟩ := hz
  rcases le_or_gt (exponentOf num den) f with hef | hfe
  · obtain ⟨n, hn⟩ := exists_eq_mul_pow hef k
    rw [hn] at h ⊢
    have hle := le_significand hden h
    gcongr
  · have hle := le_significand hden (pow_mul_le hnum hden (by omega))
    refine (mul_pow_le hfe hk).trans ?_
    gcongr

/-- Away from the least numbers, half a unit is less than one part in `2 ^ 53` of the quotient; and
there is no error where the quotient is the least one with 53 digits. -/
theorem abs_significand_mul_sub (hnum : 0 < num) (hden : 0 < den)
    (hnormal : 2 ^ (-1022 : ℤ) ≤ (num / den : ℚ)) :
    |(significand num den : ℚ) * 2 ^ exponentOf num den - num / den| * 2 ^ 53 < num / den := by
  have hpow : (0 : ℚ) < 2 ^ exponentOf num den := by positivity
  have hdigits : ((2 ^ 52 : Nat) : ℚ) * 2 ^ exponentOf num den ≤ num / den := by
    rcases (le_exponentOf num den).eq_or_lt with hmin | hlarge
    · rw [show (-1022 : ℤ) = (52 : Nat) + -1074 by decide, zpow_add₀ two_ne_zero, zpow_natCast,
        hmin] at hnormal
      exact_mod_cast hnormal
    · exact pow_mul_le hnum hden hlarge
  rcases hdigits.eq_or_lt with hexact | hlt
  · have hsignificand : significand num den = 2 ^ 52 :=
      le_antisymm (significand_le hden hexact.ge) (le_significand hden hexact.le)
    rw [hsignificand, hexact, sub_self, abs_zero, zero_mul, ← hexact]
    positivity
  · have hhalf := @abs_significand_sub_le num den hden
    have herror : |(significand num den : ℚ) * 2 ^ exponentOf num den - num / den| =
        |(significand num den : ℚ) - num / den / 2 ^ exponentOf num den| *
          2 ^ exponentOf num den := by
      rw [← abs_of_pos hpow, ← abs_mul, abs_of_pos hpow, sub_mul, div_mul_cancel₀ _ hpow.ne']
    rw [herror]
    calc _ ≤ (1 / 2 : ℚ) * 2 ^ exponentOf num den * 2 ^ 53 := by gcongr
      _ = (2 ^ 52 : Nat) * 2 ^ exponentOf num den := by push_cast; ring
      _ < num / den := hlt

/-- **Rounding.** A quotient below `2 ^ 1023` is rounded to a number near it. -/
theorem ofFraction_roundsTo (hnum : 0 < num) (hden : 0 < den) (h : (num / den : ℚ) < 2 ^ 1023) :
    (ofFraction false num den).RoundsTo (num / den) := by
  obtain ⟨m, e, heq, hvalue, hexponent⟩ := exists_ofFraction false hnum hden
  have hmost := exponentOf_le hnum hden h
  rw [if_pos (by rw [hexponent]; split <;> omega)] at heq
  have hpow : (0 : ℚ) < 2 ^ exponentOf num den := by positivity
  have hval : (ofFraction false num den).value =
      significand num den * 2 ^ exponentOf num den := by
    rw [heq, value_finite_false, hvalue]
  refine ⟨⟨m, e, heq⟩, ?_, ?_, ?_, ?_⟩
  · rw [hval, mul_pos_iff_of_pos_right hpow, Nat.cast_pos, significand_pos_iff hnum hden]
  · exact fun z hz hxz => hval ▸ significand_mul_le hnum hden hz hxz
  · exact fun z hz hzx => hval ▸ le_significand_mul hnum hden hz hzx
  · exact fun hnormal => hval ▸ abs_significand_mul_sub hnum hden hnormal

end

/-- Fractions up to half of the least number are rounded to zero. -/
theorem zero_roundsTo {x : ℚ} (hnonneg : 0 ≤ x) (h : x ≤ 2 ^ (-1075 : ℤ)) :
    (zero false).RoundsTo x := by
  have hval : (zero false).value = 0 := by simp [zero]
  refine ⟨⟨0, _, rfl⟩, ?_, ?_, ?_, ?_⟩
  · rw [hval]
    exact iff_of_false (lt_irrefl 0) (not_lt.2 h)
  · intro z _ hxz
    rw [hval]
    exact hnonneg.trans hxz
  · rintro z ⟨k, e, -, he, rfl⟩ hzx
    rw [hval]
    have hmono : (2 : ℚ) ^ (-1075 : ℤ) < 2 ^ e := zpow_lt_zpow_right₀ one_lt_two (by omega)
    have hk : (k : ℚ) < 1 := by
      by_contra hge
      have hone : (1 : ℚ) * 2 ^ e ≤ k * 2 ^ e := by
        gcongr
        exact not_lt.1 hge
      linarith
    have hzero : k = 0 := by
      have : k < 1 := by exact_mod_cast hk
      omega
    simp [hzero]
  · intro hnormal
    have hmono : (2 : ℚ) ^ (-1075 : ℤ) < 2 ^ (-1022 : ℤ) :=
      zpow_lt_zpow_right₀ one_lt_two (by decide)
    linarith

/-- A quotient that may be zero is rounded. -/
theorem ofFraction_roundsTo' (num : Nat) {den : Nat} (hden : 0 < den)
    (h : (num / den : ℚ) < 2 ^ 1023) : (ofFraction false num den).RoundsTo (num / den) := by
  rcases Nat.eq_zero_or_pos num with rfl | hnum
  · rw [Nat.cast_zero, zero_div]
    exact zero_roundsTo le_rfl (by positivity)
  · exact ofFraction_roundsTo hnum hden h

/-- Whole numbers are rounded. -/
theorem ofInt_roundsTo {n : Nat} (h : (n : ℚ) < 2 ^ 1023) : (ofInt n).RoundsTo n := by
  have hdiv : (n : ℚ) / (1 : Nat) = n := by simp
  have hrounds := ofFraction_roundsTo' n Nat.one_pos (hdiv.trans_lt h)
  rw [hdiv] at hrounds
  rwa [ofInt, decide_eq_false (by omega), Int.natAbs_natCast]

/-- The least whole number that is rounded beyond the numbers: half-way from the largest number to
the next power of two. -/
def overflow : Nat := (2 ^ 54 - 1) * 2 ^ 970

/-- At the largest exponent, the digits are filled up to `2 ^ 53` from `overflow` on. -/
theorem significand_one_eq_iff {num : Nat} (hnum : 0 < num) (h : exponentOf num 1 = 971) :
    significand num 1 = 2 ^ 53 ↔ overflow ≤ num := by
  have hfull : significand num 1 = 2 ^ 53 ↔ 2 * 2 ^ 52 ≤ significand num 1 :=
    ⟨fun heq => heq.ge, fun hle => le_antisymm (significand_le_pow hnum Nat.one_pos) hle⟩
  have hden : Nat.pow 2 (971 : ℤ).toNat = 2 * 2 ^ 970 := by decide +kernel
  have hscale : Nat.pow 2 (-971 : ℤ).toNat = 1 := by decide +kernel
  rw [hfull, significand, two_mul_le_roundHalfEven_iff (scaled_den_pos Nat.one_pos _), h, hden,
    hscale, overflow]
  generalize 2 ^ 970 = a
  omega

theorem ofFraction_one_eq_infinite_iff (negative : Bool) {num : Nat} (hnum : 0 < num) :
    ofFraction negative num 1 = .infinite negative ↔ overflow ≤ num := by
  obtain ⟨m, e, heq, -, hexponent⟩ := exists_ofFraction negative hnum Nat.one_pos
  obtain ⟨hhigh, hlow⟩ := exponentOf_bounds hnum Nat.one_pos
  rw [Nat.cast_one, div_one] at hhigh hlow
  have hinfinite : ofFraction negative num 1 = .infinite negative ↔ 971 < e := by
    rw [heq]
    split
    · exact iff_of_false (by simp) (by omega)
    · exact iff_of_true rfl (by omega)
  rw [hinfinite]
  -- below the largest exponent no number is beyond, above it all are; at it the digits decide
  rcases lt_trichotomy (exponentOf num 1) 971 with hsmall | hlast | hlarge
  · refine iff_of_false (by split at hexponent <;> omega) (not_le.2 ?_)
    have hlt : num < 2 ^ 1023 := by
      have hmono : (2 : ℚ) ^ (53 + exponentOf num 1) ≤ 2 ^ ((1023 : Nat) : ℤ) :=
        zpow_le_zpow_right₀ one_le_two (by omega)
      rw [zpow_natCast] at hmono
      exact_mod_cast hhigh.trans_le hmono
    exact hlt.trans_le (by decide +kernel)
  · rw [← significand_one_eq_iff hnum hlast, hexponent, hlast]
    split
    · next hfull => exact iff_of_true (by omega) hfull
    · next hless => exact iff_of_false (by omega) hless
  · refine iff_of_true (by split at hexponent <;> omega) ?_
    have hle : 2 ^ 1024 ≤ num := by
      have hmono : (2 : ℚ) ^ ((1024 : Nat) : ℤ) ≤ 2 ^ (52 + exponentOf num 1) :=
        zpow_le_zpow_right₀ one_le_two (by omega)
      rw [zpow_natCast] at hmono
      exact_mod_cast hmono.trans (hlow (by omega))
    exact le_trans (by decide +kernel) hle

/-- The whole numbers beyond the numbers of floating point. -/
theorem ofInt_eq_infinite_iff (n : ℤ) : (∃ s, ofInt n = .infinite s) ↔ overflow ≤ n.natAbs := by
  rcases Nat.eq_zero_or_pos n.natAbs with hzero | hpos
  · rw [ofInt, hzero]
    exact iff_of_false (by simp [ofFraction, zero]) (by decide +kernel)
  · rw [ofInt, ← ofFraction_one_eq_infinite_iff (decide (n < 0)) hpos]
    constructor
    · rintro ⟨s, hs⟩
      obtain ⟨m, e, heq, -⟩ := exists_ofFraction (decide (n < 0)) hpos Nat.one_pos
      rw [heq] at hs ⊢
      split at hs
      · cases hs
      · next hbeyond => rw [if_neg hbeyond]
    · exact fun h => ⟨_, h⟩

/-- A decimal of so few digits is below every number but zero. -/
theorem div_pow_le_of_length {digits places : Nat}
    (h : ((Nat.toDigits 10 digits).length : ℤ) + -(places : ℤ) < -330) :
    (digits / 10 ^ places : ℚ) ≤ 2 ^ (-1075 : ℤ) := by
  have hlt : digits < 10 ^ (Nat.toDigits 10 digits).length :=
    (Nat.length_toDigits_le_iff (by decide) Nat.length_toDigits_pos).1 le_rfl
  have hlength : digits * 2 ^ 1075 ≤ 10 ^ places :=
    calc digits * 2 ^ 1075
        ≤ 10 ^ (Nat.toDigits 10 digits).length * 10 ^ 330 :=
          Nat.mul_le_mul hlt.le (by decide +kernel)
      _ = 10 ^ ((Nat.toDigits 10 digits).length + 330) := (Nat.pow_add ..).symm
      _ ≤ 10 ^ places := Nat.pow_le_pow_right (by decide) (by omega)
  have hcast : (digits : ℚ) * 2 ^ 1075 ≤ 10 ^ places := by exact_mod_cast hlength
  rw [div_le_iff₀ (by positivity), zpow_neg, le_inv_mul_iff₀ (by positivity), mul_comm]
  exact_mod_cast hcast

/-- Decimal fractions up to one are rounded. -/
theorem ofDecimal_roundsTo {digits places : Nat} (h : digits ≤ 10 ^ places) :
    (ofDecimal false digits (-places)).RoundsTo (digits / 10 ^ places) := by
  have hone : (digits / 10 ^ places : ℚ) ≤ 1 := by
    rw [div_le_one (by positivity)]
    exact_mod_cast h
  rw [ofDecimal]
  split
  · next hzero =>
    rw [hzero, Nat.cast_zero, zero_div]
    exact zero_roundsTo le_rfl (by positivity)
  · dsimp only
    split
    · next hlarge =>
      -- a decimal up to one has no more digits than places, but for the one before the point
      have hlength : (Nat.toDigits 10 digits).length ≤ places + 1 := by
        refine (Nat.length_toDigits_le_iff (by decide) (Nat.succ_pos _)).2 ?_
        exact h.trans_lt (Nat.pow_lt_pow_right (by decide) (Nat.lt_succ_self _))
      omega
    · split
      · next hsmall => exact zero_roundsTo (by positivity) (div_pow_le_of_length hsmall)
      · have hlt : (digits / (10 ^ places : Nat) : ℚ) < 2 ^ 1023 := by
          push_cast
          exact hone.trans_lt (one_lt_pow₀ one_lt_two (by decide))
        have hrounds := ofFraction_roundsTo' digits (Nat.pow_pos (by decide)) hlt
        push_cast at hrounds
        have hwhole : (-(places : ℤ)).toNat = 0 := by omega
        have hpoint : (- -(places : ℤ)).toNat = places := by omega
        rw [hwhole, hpoint]
        simpa only [Nat.pow_eq, pow_zero, mul_one] using hrounds

namespace RoundsTo

variable {b b' : Binary64} {x y : ℚ}

theorem value_nonneg (h : b.RoundsTo x) : 0 ≤ b.value := by
  obtain ⟨m, e, rfl⟩ := h.exists_finite
  rw [value_finite_false]
  positivity

/-- A fraction that is held exactly is not changed. -/
theorem value_eq (h : b.RoundsTo x) (hx : OnGrid x) : b.value = x :=
  le_antisymm (h.le_of_onGrid x hx le_rfl) (h.ge_of_onGrid x hx le_rfl)

theorem value_le_one (h : b.RoundsTo x) (hx : x ≤ 1) : b.value ≤ 1 :=
  h.le_of_onGrid 1 ⟨1, 0, by decide, by decide, by norm_num⟩ hx

theorem value_le_of_le (h : b.RoundsTo x) {k : Nat} {e : ℤ} (hk : k ≤ 2 ^ 53) (he : -1074 ≤ e)
    (hx : x ≤ k * 2 ^ e) : b.value ≤ k * 2 ^ e :=
  h.le_of_onGrid _ ⟨k, e, hk, he, rfl⟩ hx

/-- Away from the least numbers, the error is less than one part in `2 ^ 53`. -/
theorem bounds (h : b.RoundsTo x) (hx : 2 ^ (-1022 : ℤ) ≤ x) :
    x * (1 - 1 / 2 ^ 53) < b.value ∧ b.value < x * (1 + 1 / 2 ^ 53) := by
  have hnear := h.near hx
  rw [← lt_div_iff₀ (by positivity), abs_sub_lt_iff] at hnear
  constructor <;> linarith

/-- The product of two rounded numbers is rounded once more. -/
theorem mul (h : b.RoundsTo x) (h' : b'.RoundsTo y) (hlt : b.value * b'.value < 2 ^ 1023) :
    (b.mul b').RoundsTo (b.value * b'.value) := by
  obtain ⟨m, e, rfl⟩ := h.exists_finite
  obtain ⟨m', e', rfl⟩ := h'.exists_finite
  have hproduct : (finite false m e).value * (finite false m' e').value =
      ((fraction (m * m') (e + e')).1 : ℚ) / (fraction (m * m') (e + e')).2 := by
    rw [value_finite_false, value_finite_false, fraction_div, zpow_add₀ two_ne_zero]
    push_cast
    ring
  rw [hproduct] at hlt ⊢
  exact ofFraction_roundsTo' _ (Nat.pow_pos (by decide)) hlt

theorem ceiling?_eq (h : b.RoundsTo x) : b.ceiling? = some ⌈b.value⌉ := by
  obtain ⟨m, e, rfl⟩ := h.exists_finite
  exact ceiling?_finite m e

theorem isPositive_iff (h : b.RoundsTo x) : b.isPositive = true ↔ 0 < b.value := by
  obtain ⟨m, e, rfl⟩ := h.exists_finite
  exact isPositive_finite m e

theorem isAtMostOne_iff (h : b.RoundsTo x) : b.isAtMostOne = true ↔ b.value ≤ 1 := by
  obtain ⟨m, e, rfl⟩ := h.exists_finite
  exact isAtMostOne_finite m e

end RoundsTo

end Binary64

end TopPatterns

import TopPatterns.Json.Reader
import TopPatterns.Proofs.Number.Rounding
import TopPatterns.Service.Params

/-!
# The least support as a count

A request gives the least support as a decimal fraction `q` of the `n` transactions. The count that
is worked out from it passes through three roundings, of the decimal, of `n` and of their product,
and is then rounded up. So it is not always the least whole number from `q * n` on: where `q * n` is
a whole number, the product can come out above it, and the count is one too large
(`not_minimumCount_eq_ceil`). What holds is that the roundings move `q * n` by less than one part in
`2 ^ 51` (`minimumCount_le`, `lt_minimumCount`). As long as `digits * n` is below `2 ^ 51`, no other
case is touched (`minimumCount_near`).
-/

namespace TopPatterns.Params

open Binary64

variable {p : Params} {q : ℚ} {n : Nat}

/-- The product of the least support and the number of transactions. -/
def product (p : Params) (n : Nat) : Binary64 := p.minSupport.mul (Binary64.ofInt n)

/-- A number of transactions that does not go beyond the numbers of floating point. -/
theorem ofInt_roundsTo_of_le (hn : n ≤ 2 ^ 1022) : (Binary64.ofInt n).RoundsTo n := by
  have hcast : (n : ℚ) ≤ 2 ^ 1022 := by exact_mod_cast hn
  exact ofInt_roundsTo (hcast.trans_lt (pow_lt_pow_right₀ one_lt_two (by decide)))

theorem value_ofInt_le (hn : n ≤ 2 ^ 1022) : (Binary64.ofInt n).value ≤ 2 ^ 1022 := by
  have hcast : (n : ℚ) ≤ (1 : Nat) * 2 ^ ((1022 : Nat) : ℤ) := by
    rw [zpow_natCast, Nat.cast_one, one_mul]
    exact_mod_cast hn
  have hle := (ofInt_roundsTo_of_le hn).value_le_of_le (by decide) (by decide) hcast
  rwa [zpow_natCast, Nat.cast_one, one_mul] at hle

theorem product_roundsTo (hq : p.minSupport.RoundsTo q) (hone : q ≤ 1) (hn : n ≤ 2 ^ 1022) :
    (p.product n).RoundsTo (p.minSupport.value * (Binary64.ofInt n).value) := by
  have hcount := ofInt_roundsTo_of_le hn
  refine hq.mul hcount ?_
  calc p.minSupport.value * (Binary64.ofInt n).value
      ≤ 1 * 2 ^ 1022 :=
        mul_le_mul (hq.value_le_one hone) (value_ofInt_le hn) hcount.value_nonneg zero_le_one
    _ < 2 ^ 1023 := by rw [one_mul]; exact pow_lt_pow_right₀ one_lt_two (by decide)

/-- The count is the rounded product, rounded up, and at least one. -/
theorem minimumCount_eq (hq : p.minSupport.RoundsTo q) (hone : q ≤ 1) (hn : n ≤ 2 ^ 1022) :
    p.minimumCount n = max 1 ⌈(p.product n).value⌉ := by
  rw [minimumCount, ← product, (product_roundsTo hq hone hn).ceiling?_eq, Option.getD_some]

/-- The least number that has all its digits. -/
theorem least_le_one : (2 : ℚ) ^ (-1022 : ℤ) ≤ 1 := zpow_le_one_of_nonpos₀ one_le_two (by decide)

/-- The product of the rounded factors, before it is rounded itself. -/
theorem factors_bounds (hq : p.minSupport.RoundsTo q) (hpos : 0 < n) (hn : n ≤ 2 ^ 1022)
    (hnormal : 2 ^ (-1022 : ℤ) ≤ q) :
    q * n * (1 - 1 / 2 ^ 53) ^ 2 ≤ p.minSupport.value * (Binary64.ofInt n).value ∧
      p.minSupport.value * (Binary64.ofInt n).value ≤ q * n * (1 + 1 / 2 ^ 53) ^ 2 := by
  have hcount := ofInt_roundsTo_of_le hn
  obtain ⟨hqlow, hqhigh⟩ := hq.bounds hnormal
  obtain ⟨hnlow, hnhigh⟩ := hcount.bounds (least_le_one.trans (by exact_mod_cast hpos))
  have hq0 : (0 : ℚ) ≤ q := (by positivity : (0 : ℚ) ≤ 2 ^ (-1022 : ℤ)).trans hnormal
  constructor
  · calc q * n * (1 - 1 / 2 ^ 53) ^ 2 = q * (1 - 1 / 2 ^ 53) * (n * (1 - 1 / 2 ^ 53)) := by ring
      _ ≤ p.minSupport.value * (Binary64.ofInt n).value :=
        mul_le_mul hqlow.le hnlow.le (mul_nonneg n.cast_nonneg (by norm_num)) hq.value_nonneg
  · calc p.minSupport.value * (Binary64.ofInt n).value
        ≤ q * (1 + 1 / 2 ^ 53) * (n * (1 + 1 / 2 ^ 53)) :=
          mul_le_mul hqhigh.le hnhigh.le hcount.value_nonneg (by positivity)
      _ = q * n * (1 + 1 / 2 ^ 53) ^ 2 := by ring

/-- Three roundings up leave the product below its value and one part in `2 ^ 51`, if there is more
than a single transaction to count. -/
theorem product_le (hq : p.minSupport.RoundsTo q) (hone : q ≤ 1) (hpos : 0 < n)
    (hn : n ≤ 2 ^ 1022) :
    (p.product n).value ≤ 1 ∨ (p.product n).value ≤ q * n * (1 + 1 / 2 ^ 51) := by
  have hcount := ofInt_roundsTo_of_le hn
  have hproduct := product_roundsTo hq hone hn
  rcases lt_or_ge q (2 ^ (-1022 : ℤ)) with hsmall | hnormal
  · -- with so small a fraction, no number of transactions comes to more than one
    refine .inl (hproduct.value_le_one ?_)
    have hfactor : p.minSupport.value ≤ (1 : Nat) * 2 ^ (-1022 : ℤ) :=
      hq.value_le_of_le (by decide) (by decide) (by simpa using hsmall.le)
    rw [Nat.cast_one, one_mul] at hfactor
    calc p.minSupport.value * (Binary64.ofInt n).value
        ≤ 2 ^ (-1022 : ℤ) * 2 ^ 1022 :=
          mul_le_mul hfactor (value_ofInt_le hn) hcount.value_nonneg (by positivity)
      _ = 1 := by rw [zpow_neg]; exact inv_mul_cancel₀ (by positivity)
  · rcases lt_or_ge (p.minSupport.value * (Binary64.ofInt n).value) (2 ^ (-1022 : ℤ)) with
      hlow | hlow
    · exact .inl (hproduct.value_le_one (hlow.le.trans least_le_one))
    · have hexact : (0 : ℚ) ≤ q * n :=
        mul_nonneg ((by positivity : (0 : ℚ) ≤ 2 ^ (-1022 : ℤ)).trans hnormal) n.cast_nonneg
      refine .inr ?_
      calc (p.product n).value
          ≤ p.minSupport.value * (Binary64.ofInt n).value * (1 + 1 / 2 ^ 53) :=
            (hproduct.bounds hlow).2.le
        _ ≤ q * n * (1 + 1 / 2 ^ 53) ^ 2 * (1 + 1 / 2 ^ 53) :=
            mul_le_mul_of_nonneg_right (factors_bounds hq hpos hn hnormal).2 (by positivity)
        _ = q * n * (1 + 1 / 2 ^ 53) ^ 3 := by ring
        _ ≤ q * n * (1 + 1 / 2 ^ 51) := mul_le_mul_of_nonneg_left (by norm_num) hexact

/-- A product above one has factors that are not near zero. -/
theorem normal_of_one_lt (hn : n ≤ 2 ^ 1022) (hlarge : 1 < q * n) :
    0 < n ∧ (2 : ℚ) ^ (-1022 : ℤ) ≤ q := by
  have hn' : (n : ℚ) ≤ 2 ^ 1022 := by exact_mod_cast hn
  have hq0 : 0 < q := pos_of_mul_pos_left (zero_lt_one.trans hlarge) n.cast_nonneg
  constructor
  · rw [Nat.pos_iff_ne_zero]
    rintro rfl
    rw [Nat.cast_zero, mul_zero] at hlarge
    linarith
  · rw [zpow_neg, inv_le_iff_one_le_mul₀ (by positivity)]
    exact hlarge.le.trans (mul_le_mul_of_nonneg_left (by exact_mod_cast hn') hq0.le)

/-- Three roundings down leave the product above its value less one part in `2 ^ 51`. -/
theorem le_product (hq : p.minSupport.RoundsTo q) (hone : q ≤ 1) (hn : n ≤ 2 ^ 1022)
    (hlarge : 1 < q * n) : q * n * (1 - 1 / 2 ^ 51) ≤ (p.product n).value := by
  obtain ⟨hpos, hnormal⟩ := normal_of_one_lt hn hlarge
  have hfactors := (factors_bounds hq hpos hn hnormal).1
  have hproduct : (2 : ℚ) ^ (-1022 : ℤ) ≤ p.minSupport.value * (Binary64.ofInt n).value := by
    have hhalf : (2 : ℚ) ^ (-1022 : ℤ) ≤ (1 - 1 / 2 ^ 53) ^ 2 :=
      (zpow_le_zpow_right₀ one_le_two (by decide : (-1022 : ℤ) ≤ -1)).trans (by norm_num)
    calc (2 : ℚ) ^ (-1022 : ℤ) ≤ 1 * (1 - 1 / 2 ^ 53) ^ 2 := by rwa [one_mul]
      _ ≤ q * n * (1 - 1 / 2 ^ 53) ^ 2 := mul_le_mul_of_nonneg_right hlarge.le (sq_nonneg _)
      _ ≤ p.minSupport.value * (Binary64.ofInt n).value := hfactors
  calc q * n * (1 - 1 / 2 ^ 51)
      ≤ q * n * (1 - 1 / 2 ^ 53) ^ 3 :=
        mul_le_mul_of_nonneg_left (by norm_num) (zero_lt_one.trans hlarge).le
    _ = q * n * (1 - 1 / 2 ^ 53) ^ 2 * (1 - 1 / 2 ^ 53) := by ring
    _ ≤ p.minSupport.value * (Binary64.ofInt n).value * (1 - 1 / 2 ^ 53) :=
      mul_le_mul_of_nonneg_right hfactors (by norm_num)
    _ ≤ (p.product n).value := ((product_roundsTo hq hone hn).bounds hproduct).1.le

/-- **Supports that are kept.** The count is no larger than a support that is above the fraction by
one part in `2 ^ 51`. -/
theorem minimumCount_le (hq : p.minSupport.RoundsTo q) (hone : q ≤ 1) (hpos : 0 < n)
    (hn : n ≤ 2 ^ 1022) {s : Nat} (hs : 1 ≤ s) (h : q * n * (1 + 1 / 2 ^ 51) ≤ s) :
    p.minimumCount n ≤ s := by
  have hone' : (1 : ℚ) ≤ s := by exact_mod_cast hs
  rw [minimumCount_eq hq hone hn]
  refine max_le (by exact_mod_cast hs) (Int.ceil_le.2 ?_)
  push_cast
  rcases product_le hq hone hpos hn with hle | hle <;> linarith

/-- **Supports that are dropped.** The count is larger than a support that is below the fraction by
one part in `2 ^ 51`. -/
theorem lt_minimumCount (hq : p.minSupport.RoundsTo q) (hone : q ≤ 1)
    (hn : n ≤ 2 ^ 1022) {s : Nat} (h : s < q * n * (1 - 1 / 2 ^ 51)) :
    s < p.minimumCount n := by
  rcases Nat.eq_zero_or_pos s with rfl | hs
  · exact one_le_minimumCount p n
  · have hs' : (1 : ℚ) ≤ s := by exact_mod_cast hs
    rw [minimumCount_eq hq hone hn]
    refine lt_max_of_lt_right (Int.lt_ceil.2 ?_)
    push_cast
    have hle := le_product hq hone hn (by linarith)
    linarith

/-- A count that is right but for one part in `2 ^ 51` is exact for a fraction whose numerator is
below `2 ^ 51`, unless the fraction is a whole number. Then it can be one too large. -/
theorem eq_ceil_or {num den : Nat} {count : ℤ} (hnum : 0 < num) (hden : 0 < den)
    (hlt : num < 2 ^ 51)
    (hkept : ∀ s : Nat, 1 ≤ s → (num / den * (1 + 1 / 2 ^ 51) : ℚ) ≤ s → count ≤ s)
    (hdropped : ∀ s : Nat, (s : ℚ) < num / den * (1 - 1 / 2 ^ 51) → s < count) :
    count = ⌈(num / den : ℚ)⌉ ∨ den ∣ num ∧ count = ⌈(num / den : ℚ)⌉ + 1 := by
  have hpos : (0 : ℚ) < den := by exact_mod_cast hden
  have hlt' : (num : ℚ) < 2 ^ 51 := by exact_mod_cast hlt
  have hceil : 0 < ⌈(num / den : ℚ)⌉ := Int.ceil_pos.2 (by positivity)
  obtain ⟨k, hk⟩ := Int.eq_succ_of_zero_lt hceil
  obtain ⟨hlow, hhigh⟩ := Int.ceil_eq_iff.1 hk
  rw [lt_div_iff₀ hpos] at hlow
  rw [div_le_iff₀ hpos] at hhigh
  have hlow' : k * den + 1 ≤ num := by
    have hbelow : (k * den : ℚ) < num := by
      push_cast at hlow
      linarith
    exact_mod_cast hbelow
  have hhigh' : num ≤ (k + 1) * den := by exact_mod_cast hhigh
  have hlower : (k : ℤ) < count := by
    refine hdropped k ?_
    rw [div_mul_eq_mul_div, lt_div_iff₀ hpos]
    have hbelow : (k * den + 1 : ℚ) ≤ num := by exact_mod_cast hlow'
    linarith
  have hupper : count ≤ (k + 2 : Nat) := by
    refine hkept (k + 2) (by omega) ?_
    rw [div_mul_eq_mul_div, div_le_iff₀ hpos]
    have hone : (1 : ℚ) ≤ den := by exact_mod_cast hden
    push_cast at hhigh ⊢
    linarith
  rw [hk]
  by_cases hdvd : den ∣ num
  · push_cast at hupper ⊢
    omega
  · left
    have hstrict : num + 1 ≤ (k + 1) * den := by
      refine lt_of_le_of_ne hhigh' fun heq => hdvd ?_
      exact heq ▸ Nat.dvd_mul_left ..
    have hexact : count ≤ (k + 1 : Nat) := by
      refine hkept (k + 1) (by omega) ?_
      rw [div_mul_eq_mul_div, div_le_iff₀ hpos]
      have habove : (num + 1 : ℚ) ≤ (k + 1) * den := by exact_mod_cast hstrict
      push_cast
      linarith
    push_cast at hexact ⊢
    omega

section

variable {digits places : Nat}

/-- Decimals with a power of two as denominator, and few digits, are held exactly. -/
theorem onGrid_of_dvd {k : Nat} (hdvd : 5 ^ places ∣ digits) (hpos : 0 < digits * k)
    (hlt : digits * k < 2 ^ 51) : OnGrid (digits / 10 ^ places * k) := by
  obtain ⟨m, rfl⟩ := hdvd
  have hmk : m * k ≤ 5 ^ places * m * k := by
    rw [Nat.mul_assoc]
    exact Nat.le_mul_of_pos_left _ (Nat.pow_pos (by decide))
  have hplaces : places < 51 := by
    refine (Nat.pow_lt_pow_iff_right (by decide : 1 < 2)).1 ?_
    calc 2 ^ places ≤ 5 ^ places := Nat.pow_le_pow_left (by decide) _
      _ ≤ 5 ^ places * (m * k) := Nat.le_mul_of_pos_right _ (by
        rw [Nat.mul_assoc] at hpos
        exact Nat.pos_of_mul_pos_left hpos)
      _ < 2 ^ 51 := by rwa [← Nat.mul_assoc]
  refine ⟨m * k, -places, by omega, by omega, ?_⟩
  rw [zpow_neg, zpow_natCast, show (10 : ℚ) = 5 * 2 by norm_num, mul_pow]
  push_cast
  field_simp

/-- A decimal that is held exactly gives an exact count. -/
theorem minimumCount_of_dvd (hq : p.minSupport.RoundsTo (digits / 10 ^ places))
    (hone : (digits / 10 ^ places : ℚ) ≤ 1) (hn : n ≤ 2 ^ 1022) (hpos : 0 < digits * n)
    (hlt : digits * n < 2 ^ 51) (hdvd : 5 ^ places ∣ digits) :
    p.minimumCount n = max 1 ⌈(digits / 10 ^ places * n : ℚ)⌉ := by
  have hdigits : 0 < digits := Nat.pos_of_mul_pos_right hpos
  have hn0 : 0 < n := Nat.pos_of_mul_pos_left hpos
  have hdigits_le : digits ≤ digits * n := Nat.le_mul_of_pos_right _ hn0
  have hn_le : n ≤ digits * n := Nat.le_mul_of_pos_left _ hdigits
  have hfactor : p.minSupport.value = digits / 10 ^ places := by
    have hgrid := @onGrid_of_dvd digits places 1 hdvd (by omega) (by omega)
    rw [Nat.cast_one, mul_one] at hgrid
    exact hq.value_eq hgrid
  have hcount : (Binary64.ofInt n).value = n :=
    (ofInt_roundsTo_of_le hn).value_eq ⟨n, 0, by omega, by decide, by simp⟩
  have hproduct := product_roundsTo hq hone hn
  rw [hfactor, hcount] at hproduct
  rw [minimumCount_eq hq hone hn, hproduct.value_eq (onGrid_of_dvd hdvd hpos hlt)]

/-- **The count of a decimal fraction.** The fraction is accepted as a least support if it is not
among the least ones, and then the count is right but for one part in `2 ^ 51`: supports above the
fraction by more are kept, those below it by more are dropped. For a decimal and a number of
transactions with a product below `2 ^ 51` it is the least whole number from the fraction on, save
that it can be one too large where the fraction is a whole number; decimals with a power of two as
denominator have no such case. -/
theorem minimumCount_near (hdigits : 0 < digits) (hone : digits ≤ 10 ^ places) (hpos : 0 < n)
    (hn : n ≤ 2 ^ 1022) (hp : p.minSupport = Binary64.ofDecimal false digits (-places)) :
    let q : ℚ := digits / 10 ^ places
    (p.minSupport.isAtMostOne = true ∧
        (p.minSupport.isPositive = true ↔ 2 ^ (-1075 : ℤ) < q)) ∧
      (∀ s : Nat, 1 ≤ s → q * n * (1 + 1 / 2 ^ 51) ≤ s → p.minimumCount n ≤ s) ∧
      (∀ s : Nat, s < q * n * (1 - 1 / 2 ^ 51) → s < p.minimumCount n) ∧
      (digits * n < 2 ^ 51 →
        (p.minimumCount n = max 1 ⌈q * n⌉ ∨
          10 ^ places ∣ digits * n ∧ p.minimumCount n = max 1 ⌈q * n⌉ + 1) ∧
        (5 ^ places ∣ digits → p.minimumCount n = max 1 ⌈q * n⌉)) := by
  intro q
  have hq : p.minSupport.RoundsTo q := hp ▸ ofDecimal_roundsTo hone
  have hq1 : q ≤ 1 := by
    rw [div_le_one (by positivity)]
    exact_mod_cast hone
  have hproduct : 0 < digits * n := Nat.mul_pos hdigits hpos
  have hpoint : q * n = (digits * n : Nat) / (10 ^ places : Nat) := by
    push_cast
    exact div_mul_eq_mul_div ..
  have hceil : max 1 ⌈q * n⌉ = ⌈q * n⌉ := by
    refine max_eq_right (Int.one_le_ceil_iff.2 ?_)
    positivity
  have hkept : ∀ s : Nat, 1 ≤ s → q * n * (1 + 1 / 2 ^ 51) ≤ s → p.minimumCount n ≤ s :=
    fun s hs => minimumCount_le hq hq1 hpos hn hs
  have hdropped : ∀ s : Nat, s < q * n * (1 - 1 / 2 ^ 51) → s < p.minimumCount n :=
    fun s => lt_minimumCount hq hq1 hn
  refine ⟨⟨hq.isAtMostOne_iff.2 (hq.value_le_one hq1), hq.isPositive_iff.trans hq.pos_iff⟩, hkept,
    hdropped, fun hlt => ⟨?_, minimumCount_of_dvd hq hq1 hn hproduct hlt⟩⟩
  rw [hceil]
  rw [hpoint] at hkept hdropped ⊢
  exact eq_ceil_or hproduct (Nat.pow_pos (by decide)) hlt hkept hdropped

end

/-- The parameters of a request that is written as a text. -/
def ofText? (text : String) : Option Params :=
  (Json.read text).toOption.bind fun data => (ofJson data).toOption

/-- Three tenths of seven transactions are more than two. -/
theorem minimumCount_near_three_tenths :
    let p : Params := ⟨50, Binary64.ofDecimal false 3 (-(1 : Nat)), true, 1⟩
    ofText? "\x7b\"min_support\": 0.3\x7d" = some p ∧
      (0 < 3 ∧ 3 ≤ 10 ^ 1 ∧ 0 < 7 ∧ 7 ≤ 2 ^ 1022) ∧ p.minimumCount 7 = 3 := by
  intro p
  have hmost : 7 ≤ 2 ^ 1022 := by decide +kernel
  obtain ⟨-, -, -, hsmall⟩ :=
    @minimumCount_near p 7 3 1 (by decide) (by decide) (by decide) hmost rfl
  have hceil : max 1 ⌈((3 : Nat) / 10 ^ 1 * (7 : Nat) : ℚ)⌉ = 3 := by norm_num
  refine ⟨by decide +kernel, ⟨by decide, by decide, by decide, hmost⟩, ?_⟩
  rcases (hsmall (by decide)).1 with hcount | ⟨hdvd, -⟩
  · exact hcount.trans hceil
  · exact absurd hdvd (by decide)

/-- Of 25 transactions 28 in a hundred are seven, but the count is eight: the product of the rounded
fraction and 25 is rounded to a number above seven. -/
theorem not_minimumCount_eq_ceil :
    ¬∀ (digits places n : Nat) (p : Params), 0 < digits → digits ≤ 10 ^ places → 0 < n →
      p.minSupport = Binary64.ofDecimal false digits (-places) →
      p.minimumCount n = max 1 ⌈(digits / 10 ^ places * n : ℚ)⌉ := by
  intro h
  let p : Params := ⟨50, Binary64.ofDecimal false 28 (-(2 : Nat)), true, 1⟩
  have hcount : p.minimumCount 25 = 8 := by decide +kernel
  have heq := h 28 2 25 p (by decide) (by decide) (by decide) rfl
  rw [hcount] at heq
  norm_num at heq

end TopPatterns.Params

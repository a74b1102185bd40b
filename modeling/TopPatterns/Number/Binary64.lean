import TopPatterns.Text.Basic

/-!
# Binary floating point

Numbers of 53 binary digits as the arithmetic of the domain uses them, held exactly: a sign, a
whole number and a power of two. Every operation is exact arithmetic followed by `ofFraction`,
which rounds to the nearest number and, half-way between two, to the even one.
-/

namespace TopPatterns

/-- A quotient rounded to the nearest whole number, a half to the even one. -/
def roundHalfEven (num den : Nat) : Nat :=
  let whole := num / den
  let rest := num % den
  if 2 * rest < den then whole
  else if den < 2 * rest then whole + 1
  else whole + whole % 2

/-- The result lies within half a unit of the quotient. -/
theorem roundHalfEven_near {num den : Nat} (h : 0 < den) :
    2 * num ≤ 2 * (roundHalfEven num den * den) + den ∧
      2 * (roundHalfEven num den * den) ≤ 2 * num + den := by
  have hd := Nat.div_add_mod num den
  have hm := Nat.mod_lt num h
  have hc : num / den * den = den * (num / den) := Nat.mul_comm ..
  have hs : (num / den + 1) * den = den * (num / den) + den := by
    rw [Nat.add_mul, hc, Nat.one_mul]
  simp only [roundHalfEven]
  split
  · rw [hc]; omega
  · split
    · rw [hs]; omega
    · rcases Nat.mod_two_eq_zero_or_one (num / den) with e | e
      · rw [e, Nat.add_zero, hc]; omega
      · rw [e, hs]; omega

/-- A number of binary floating point: `mantissa * 2 ^ exponent` with a sign, an infinity, or not
a number. A finite number has a mantissa below `2 ^ 53` and an exponent between -1074 and 971, and
its mantissa is at least `2 ^ 52` unless the exponent is the least one. -/
inductive Binary64 where
  | finite (negative : Bool) (mantissa : Nat) (exponent : Int)
  | infinite (negative : Bool)
  | nan
deriving DecidableEq, Repr

namespace Binary64

/-- Zero, with a sign. -/
def zero (negative : Bool) : Binary64 := .finite negative 0 (-1074)

/-- The exponent of a quotient that is not zero, before rounding: it leaves 53 binary digits, or
fewer at the least exponent. -/
def exponentOf (num den : Nat) : Int :=
  let e : Int := (num.log2 : Int) - den.log2
  let reached := den * Nat.pow 2 e.toNat ≤ num * Nat.pow 2 (-e).toNat
  max (-1074) (if reached then e - 52 else e - 53)

/-- The number nearest to a quotient, with a sign. -/
def ofFraction (negative : Bool) (num den : Nat) : Binary64 :=
  if num = 0 then zero negative
  else
    let e := exponentOf num den
    let m := roundHalfEven (num * Nat.pow 2 (-e).toNat) (den * Nat.pow 2 e.toNat)
    if m < Nat.pow 2 53 then
      if e ≤ 971 then .finite negative m e else .infinite negative
    else if e + 1 ≤ 971 then .finite negative (m / 2) (e + 1) else .infinite negative

/-- The number nearest to a whole number. -/
def ofInt (n : Int) : Binary64 := ofFraction (decide (n < 0)) n.natAbs 1

/-- The number nearest to `digits * 10 ^ exponent`, with a sign. Powers beyond the range of the
numbers are not worked out. -/
def ofDecimal (negative : Bool) (digits : Nat) (exponent : Int) : Binary64 :=
  if digits = 0 then zero negative
  else
    let places : Int := ((Nat.toDigits 10 digits).length : Int) + exponent
    if 310 < places then .infinite negative
    else if places < -330 then zero negative
    else ofFraction negative (digits * Nat.pow 10 exponent.toNat) (Nat.pow 10 (-exponent).toNat)

/-- The numerator and denominator of a mantissa and exponent. -/
def fraction (mantissa : Nat) (exponent : Int) : Nat × Nat :=
  (mantissa * Nat.pow 2 exponent.toNat, Nat.pow 2 (-exponent).toNat)

/-- The product of two numbers, rounded. -/
def mul : Binary64 → Binary64 → Binary64
  | .finite s m e, .finite s' m' e' =>
    let (num, den) := fraction (m * m') (e + e')
    ofFraction (s != s') num den
  | .nan, _ => .nan
  | _, .nan => .nan
  | .infinite s, .infinite s' => .infinite (s != s')
  | .infinite s, .finite s' m _ => if m = 0 then .nan else .infinite (s != s')
  | .finite s m _, .infinite s' => if m = 0 then .nan else .infinite (s != s')

/-- Whether a number is above zero. -/
def isPositive : Binary64 → Bool
  | .finite negative m _ => !negative && decide (0 < m)
  | .infinite negative => !negative
  | .nan => false

/-- Whether a number is at most one. -/
def isAtMostOne : Binary64 → Bool
  | .finite negative m e => negative || decide ((fraction m e).1 ≤ (fraction m e).2)
  | .infinite negative => negative
  | .nan => false

/-- Whether a number is zero, of either sign. -/
def isZero : Binary64 → Bool
  | .finite _ m _ => m = 0
  | _ => false

/-- The least whole number that is not below a finite number. -/
def ceiling? : Binary64 → Option Int
  | .finite negative m e =>
    let (num, den) := fraction m e
    some (if negative then -((num / den : Nat) : Int) else ((num + den - 1) / den : Nat))
  | _ => none

/-- The whole part of a finite number. -/
def truncate? : Binary64 → Option Int
  | .finite negative m e =>
    let (num, den) := fraction m e
    some (if negative then -((num / den : Nat) : Int) else (num / den : Nat))
  | _ => none

/-- A finite number of either sign, without its sign, in units of `10 ^ -places`, rounded to the
nearest and a half to the even one. -/
def units (places : Nat) : Binary64 → Nat
  | .finite _ m e =>
    let (num, den) := fraction m e
    roundHalfEven (num * Nat.pow 10 places) den
  | _ => 0

/-- The 64 bits of a number: sign, exponent and mantissa. -/
def toBits : Binary64 → Nat
  | .finite negative m e =>
    (if negative then Nat.pow 2 63 else 0) + m +
      (if m < Nat.pow 2 52 then 0 else (e + 1074).toNat * Nat.pow 2 52)
  | .infinite negative => (if negative then Nat.pow 2 63 else 0) + 0x7FF * Nat.pow 2 52
  | .nan => 0x7FF8 * Nat.pow 2 48

/-- The bits of a number as 16 hexadecimal digits. -/
def hex (x : Binary64) : String := String.ofList (Text.hexPadded 16 x.toBits)

end Binary64

/-- The quotient of two counts as a number of floating point. -/
def quotient (num den : Nat) : Binary64 := Binary64.ofFraction false num den

end TopPatterns

import TopPatterns.Text.CodePoint
import TopPatterns.Text.Utf8

/-!
# Reading UTF-8 that was written

`Utf8.decode` reads what `Utf8.encode` writes (`decode_encode`). A character is written in one to
four bytes by the size of its number. The bounds on the bytes of longer forms are those that keep
shorter numbers and surrogates out, and no character is one of these.
-/

namespace TopPatterns.Text

/-! ## Sequences in numbers -/

theorem isTail_iff {b : UInt8} : isTail b = true ↔ 0x80 ≤ b.toNat ∧ b.toNat ≤ 0xBF := by
  simp [isTail, UInt8.le_iff_toNat_le]

theorem charOfTwo_of {a b : UInt8} (ha : 0xC2 ≤ a.toNat) (ha' : a.toNat ≤ 0xDF)
    (hb : isTail b = true) :
    charOfTwo a b = some (Char.ofNat (a.toNat % 32 * 64 + tailBits b)) := by
  simp [charOfTwo, UInt8.le_iff_toNat_le, ha, ha', hb]

/-- No sequence of two bytes has so large a first byte. -/
theorem charOfTwo_eq_none {a : UInt8} (b : UInt8) (h : 0xE0 ≤ a.toNat) : charOfTwo a b = none := by
  have hlarge : ¬a.toNat ≤ 0xDF := by omega
  simp [charOfTwo, UInt8.le_iff_toNat_le, hlarge]

theorem charOfThree_of {a b c : UInt8} (ha : 0xE0 ≤ a.toNat) (ha' : a.toNat ≤ 0xEF)
    (hb : isTail b = true) (hc : isTail c = true) (hlong : a.toNat = 0xE0 → 0xA0 ≤ b.toNat)
    (hscalar : a.toNat = 0xED → b.toNat < 0xA0) :
    charOfThree a b c =
      some (Char.ofNat (a.toNat % 16 * 4096 + tailBits b * 64 + tailBits c)) := by
  rw [charOfThree, if_pos]
  simp only [Bool.and_eq_true, Bool.not_eq_true', Bool.and_eq_false_iff, decide_eq_true_eq,
    decide_eq_false_iff_not, UInt8.le_iff_toNat_le, UInt8.lt_iff_toNat_lt, ← UInt8.toNat_inj, hb,
    hc, UInt8.reduceToNat, and_true]
  omega

/-- No sequence of three bytes has so large a first byte. -/
theorem charOfThree_eq_none {a : UInt8} (b c : UInt8) (h : 0xF0 ≤ a.toNat) :
    charOfThree a b c = none := by
  have hlarge : ¬a.toNat ≤ 0xEF := by omega
  simp [charOfThree, UInt8.le_iff_toNat_le, hlarge]

theorem charOfFour_of {a b c d : UInt8} (ha : 0xF0 ≤ a.toNat) (ha' : a.toNat ≤ 0xF4)
    (hb : isTail b = true) (hc : isTail c = true) (hd : isTail d = true)
    (hlong : a.toNat = 0xF0 → 0x90 ≤ b.toNat) (hlast : a.toNat = 0xF4 → b.toNat < 0x90) :
    charOfFour a b c d =
      some (Char.ofNat
        (a.toNat % 8 * 262144 + tailBits b * 4096 + tailBits c * 64 + tailBits d)) := by
  rw [charOfFour, if_pos]
  simp only [Bool.and_eq_true, Bool.not_eq_true', Bool.and_eq_false_iff, decide_eq_true_eq,
    decide_eq_false_iff_not, UInt8.le_iff_toNat_le, UInt8.lt_iff_toNat_lt, ← UInt8.toNat_inj, hb,
    hc, hd, UInt8.reduceToNat, and_true]
  omega

/-! ## The bytes of a number -/

/-- The number of a small number's byte. -/
theorem toNat_toUInt8 {n : Nat} (h : n < 256) : n.toUInt8.toNat = n := by
  rw [Nat.toUInt8, UInt8.toNat_ofNat']
  exact Nat.mod_eq_of_lt h

/-- A byte that continues a sequence carries six bits. -/
theorem tail_toUInt8 {m : Nat} (h : m < 64) :
    (0x80 + m).toUInt8.toNat = 0x80 + m ∧ isTail (0x80 + m).toUInt8 = true ∧
      tailBits (0x80 + m).toUInt8 = m := by
  have hb : (0x80 + m).toUInt8.toNat = 0x80 + m := toNat_toUInt8 (by omega)
  rw [isTail_iff, tailBits, hb]
  omega

theorem charOfTwo_number {n : Nat} (hlow : 0x80 ≤ n) (hhigh : n < 0x800) :
    charOfTwo (0xC0 + n / 64).toUInt8 (0x80 + n % 64).toUInt8 = some (Char.ofNat n) := by
  have ha : (0xC0 + n / 64).toUInt8.toNat = 0xC0 + n / 64 := toNat_toUInt8 (by omega)
  obtain ⟨-, htail, hbits⟩ := tail_toUInt8 (m := n % 64) (by omega)
  rw [charOfTwo_of (by omega) (by omega) htail, ha, hbits]
  exact congrArg (some ∘ Char.ofNat) (by omega)

theorem charOfThree_number {n : Nat} (hlow : 0x800 ≤ n) (hhigh : n < 0x10000)
    (hscalar : n < 0xD800 ∨ 0xE000 ≤ n) :
    charOfThree (0xE0 + n / 4096).toUInt8 (0x80 + n / 64 % 64).toUInt8 (0x80 + n % 64).toUInt8 =
      some (Char.ofNat n) := by
  have ha : (0xE0 + n / 4096).toUInt8.toNat = 0xE0 + n / 4096 := toNat_toUInt8 (by omega)
  obtain ⟨hb, htail, hbits⟩ := tail_toUInt8 (m := n / 64 % 64) (by omega)
  obtain ⟨-, htail', hbits'⟩ := tail_toUInt8 (m := n % 64) (by omega)
  rw [charOfThree_of (by omega) (by omega) htail htail' (by omega) (by omega), ha, hbits, hbits']
  exact congrArg (some ∘ Char.ofNat) (by omega)

theorem charOfFour_number {n : Nat} (hlow : 0x10000 ≤ n) (hhigh : n < 0x110000) :
    charOfFour (0xF0 + n / 262144).toUInt8 (0x80 + n / 4096 % 64).toUInt8
        (0x80 + n / 64 % 64).toUInt8 (0x80 + n % 64).toUInt8 = some (Char.ofNat n) := by
  have ha : (0xF0 + n / 262144).toUInt8.toNat = 0xF0 + n / 262144 := toNat_toUInt8 (by omega)
  obtain ⟨hb, htail, hbits⟩ := tail_toUInt8 (m := n / 4096 % 64) (by omega)
  obtain ⟨-, htail', hbits'⟩ := tail_toUInt8 (m := n / 64 % 64) (by omega)
  obtain ⟨-, htail'', hbits''⟩ := tail_toUInt8 (m := n % 64) (by omega)
  rw [charOfFour_of (by omega) (by omega) htail htail' htail'' (by omega) (by omega), ha, hbits,
    hbits', hbits'']
  exact congrArg (some ∘ Char.ofNat) (by omega)

/-! ## Texts -/

namespace Utf8

/-- A character lies within Unicode. -/
theorem char_toNat_lt (c : Char) : c.toNat < 0x110000 := by
  have h : c.val.toNat.isValidChar := c.valid
  rcases h with h | h
  · exact Nat.lt_trans h (by decide)
  · exact h.2

theorem decode_of_one {a : UInt8} (h : a.toNat < 0x80) (rest : List UInt8) :
    decode (a :: rest) = (decode rest).map (Char.ofNat a.toNat :: ·) := by
  rw [decode.eq_def]
  exact if_pos (UInt8.lt_iff_toNat_lt.2 h)

theorem decode_of_two {a b : UInt8} {c : Char} (ha : 0x80 ≤ a.toNat)
    (h : charOfTwo a b = some c) (rest : List UInt8) :
    decode (a :: b :: rest) = (decode rest).map (c :: ·) := by
  have hlarge : ¬a < 0x80 := fun hlt => absurd (UInt8.lt_iff_toNat_lt.1 hlt) (Nat.not_lt.2 ha)
  rw [decode.eq_def]
  simp only [if_neg hlarge, h]

theorem decode_of_three {a b c : UInt8} {d : Char} (ha : 0xE0 ≤ a.toNat)
    (h : charOfThree a b c = some d) (rest : List UInt8) :
    decode (a :: b :: c :: rest) = (decode rest).map (d :: ·) := by
  have hlarge : ¬a < 0x80 := fun hlt =>
    absurd (UInt8.lt_iff_toNat_lt.1 hlt) (Nat.not_lt.2 (Nat.le_trans (by decide) ha))
  rw [decode.eq_def]
  simp only [if_neg hlarge, charOfTwo_eq_none b ha, h]

theorem decode_of_four {a b c d : UInt8} {e : Char} (ha : 0xF0 ≤ a.toNat)
    (h : charOfFour a b c d = some e) (rest : List UInt8) :
    decode (a :: b :: c :: d :: rest) = (decode rest).map (e :: ·) := by
  have hlarge : ¬a < 0x80 := fun hlt =>
    absurd (UInt8.lt_iff_toNat_lt.1 hlt) (Nat.not_lt.2 (Nat.le_trans (by decide) ha))
  rw [decode.eq_def]
  simp only [if_neg hlarge, charOfTwo_eq_none b (Nat.le_trans (by decide) ha),
    charOfThree_eq_none b c ha, h]

/-- A character that was written is read, and the rest goes on. -/
theorem decode_encodeChar_append (c : Char) (rest : List UInt8) :
    decode (encodeChar c ++ rest) = (decode rest).map (c :: ·) := by
  have hofNat : Char.ofNat c.toNat = c := Char.ofNat_toNat c
  have hscalar := CodePoint.char_toNat c
  have hlast := char_toNat_lt c
  unfold encodeChar
  dsimp only
  split
  · next h =>
    have hbyte : c.toNat.toUInt8.toNat = c.toNat := toNat_toUInt8 (by omega)
    rw [List.singleton_append, decode_of_one (by omega), hbyte, hofNat]
  · next h =>
    split
    · next h2 =>
      have ha := toNat_toUInt8 (n := 0xC0 + c.toNat / 64) (by omega)
      exact decode_of_two (by omega) ((charOfTwo_number (by omega) h2).trans (by rw [hofNat])) rest
    · next h2 =>
      split
      · next h3 =>
        have ha := toNat_toUInt8 (n := 0xE0 + c.toNat / 4096) (by omega)
        exact decode_of_three (by omega)
          ((charOfThree_number (by omega) h3 hscalar).trans (by rw [hofNat])) rest
      · next h3 =>
        have ha := toNat_toUInt8 (n := 0xF0 + c.toNat / 262144) (by omega)
        exact decode_of_four (by omega)
          ((charOfFour_number (by omega) hlast).trans (by rw [hofNat])) rest

/-- **What was written is read.** -/
theorem decode_encode (cs : List Char) : decode (encode cs) = some cs := by
  induction cs with
  | nil => rfl
  | cons c cs ih =>
    show decode (encodeChar c ++ encode cs) = _
    rw [decode_encodeChar_append, ih]
    rfl

end Utf8

end TopPatterns.Text

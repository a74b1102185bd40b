import TopPatterns.Proofs.Text.CodeSet
import TopPatterns.Proofs.Text.Utf8

/-!
# Well-formed UTF-8

UTF-8 lays out a number in one to four bytes (`Spells`). A sequence of bytes is well formed if it
is made of such layouts, none of them cut short, each of a number that a character has and none
longer than its number needs (`WellFormed`). These are the sequences that are written for texts
(`wellFormed_iff`), and `Utf8.decode` reads these and no others, each as the text that it was
written for (`decode_eq_some_iff`, `isSome_decode_iff`).
-/

namespace TopPatterns.Text.Utf8

/-- Bytes that lay out a number: the first one says how many there are, and carries what the later
ones, with six binary digits each, leave over. -/
inductive Spells : List UInt8 → Nat → Prop
  | one {n : Nat} : n < 128 → Spells [n.toUInt8] n
  | two {h l : Nat} : h < 32 → l < 64 →
      Spells [(0xC0 + h).toUInt8, (0x80 + l).toUInt8] (h * 64 + l)
  | three {h m l : Nat} : h < 16 → m < 64 → l < 64 →
      Spells [(0xE0 + h).toUInt8, (0x80 + m).toUInt8, (0x80 + l).toUInt8]
        (h * 4096 + m * 64 + l)
  | four {h k m l : Nat} : h < 8 → k < 64 → m < 64 → l < 64 →
      Spells [(0xF0 + h).toUInt8, (0x80 + k).toUInt8, (0x80 + m).toUInt8, (0x80 + l).toUInt8]
        (h * 262144 + k * 4096 + m * 64 + l)

/-- The least number that needs so many bytes. -/
def leastOfLength : Nat → Nat
  | 2 => 0x80
  | 3 => 0x800
  | 4 => 0x10000
  | _ => 0

/-- Bytes that stand for the character of a number. -/
structure StandsFor (s : List UInt8) (n : Nat) : Prop where
  spells : Spells s n
  /-- No shorter sequence lays out the number. -/
  shortest : leastOfLength s.length ≤ n
  /-- The number is no surrogate and lies within Unicode. -/
  scalar : n.isValidChar

/-- Bytes that stand for one character after the other. -/
inductive WellFormed : List UInt8 → Prop
  | nil : WellFormed []
  | append {s rest : List UInt8} {n : Nat} : StandsFor s n → WellFormed rest →
      WellFormed (s ++ rest)

/-! ## One character -/

/-- What is written for a character stands for it. -/
theorem standsFor_encodeChar (c : Char) : StandsFor (encodeChar c) c.toNat := by
  have hscalar : c.toNat.isValidChar := c.valid
  have hlast := char_toNat_lt c
  unfold encodeChar
  dsimp only
  split
  · next h => exact ⟨.one h, Nat.zero_le _, hscalar⟩
  · next h1 =>
    split
    · next h2 =>
      have hspells := Spells.two (h := c.toNat / 64) (l := c.toNat % 64) (by omega) (by omega)
      rw [show c.toNat / 64 * 64 + c.toNat % 64 = c.toNat by omega] at hspells
      exact ⟨hspells, Nat.le_of_not_lt h1, hscalar⟩
    · next h2 =>
      split
      · next h3 =>
        have hspells := Spells.three (h := c.toNat / 4096) (m := c.toNat / 64 % 64)
          (l := c.toNat % 64) (by omega) (by omega) (by omega)
        rw [show c.toNat / 4096 * 4096 + c.toNat / 64 % 64 * 64 + c.toNat % 64 = c.toNat by
          omega] at hspells
        exact ⟨hspells, Nat.le_of_not_lt h2, hscalar⟩
      · next h3 =>
        have hspells := Spells.four (h := c.toNat / 262144) (k := c.toNat / 4096 % 64)
          (m := c.toNat / 64 % 64) (l := c.toNat % 64) (by omega) (by omega) (by omega) (by omega)
        rw [show c.toNat / 262144 * 262144 + c.toNat / 4096 % 64 * 4096 + c.toNat / 64 % 64 * 64 +
          c.toNat % 64 = c.toNat by omega] at hspells
        exact ⟨hspells, Nat.le_of_not_lt h3, hscalar⟩

/-- No other bytes stand for the character. -/
theorem StandsFor.eq_encodeChar {s : List UInt8} {n : Nat} (h : StandsFor s n) :
    encodeChar (Char.ofNat n) = s := by
  have hnumber : (Char.ofNat n).toNat = n := toNat_ofNat h.scalar
  obtain ⟨hspells, hshortest, -⟩ := h
  unfold encodeChar
  rw [hnumber]
  dsimp only
  cases hspells with
  | one hn => rw [if_pos hn]
  | @two h l hh hl =>
    have hlow : 128 ≤ h * 64 + l := hshortest
    rw [if_neg (by omega), if_pos (by omega), show (h * 64 + l) / 64 = h by omega,
      show (h * 64 + l) % 64 = l by omega]
  | @three h m l hh hm hl =>
    have hlow : 2048 ≤ h * 4096 + m * 64 + l := hshortest
    rw [if_neg (by omega), if_neg (by omega), if_pos (by omega),
      show (h * 4096 + m * 64 + l) / 4096 = h by omega,
      show (h * 4096 + m * 64 + l) / 64 % 64 = m by omega,
      show (h * 4096 + m * 64 + l) % 64 = l by omega]
  | @four h k m l hh hk hm hl =>
    have hlow : 65536 ≤ h * 262144 + k * 4096 + m * 64 + l := hshortest
    rw [if_neg (by omega), if_neg (by omega), if_neg (by omega),
      show (h * 262144 + k * 4096 + m * 64 + l) / 262144 = h by omega,
      show (h * 262144 + k * 4096 + m * 64 + l) / 4096 % 64 = k by omega,
      show (h * 262144 + k * 4096 + m * 64 + l) / 64 % 64 = m by omega,
      show (h * 262144 + k * 4096 + m * 64 + l) % 64 = l by omega]

/-- A byte is the byte of its number. -/
theorem eq_toUInt8 {b : UInt8} {n : Nat} (h : b.toNat = n) : b = n.toUInt8 := by
  subst h
  exact (UInt8.ofNat_toNat ..).symm

theorem standsFor_of_one {a : UInt8} (h : a < 0x80) : StandsFor [a] (Char.ofNat a.toNat).toNat := by
  have hsmall : a.toNat < 128 := UInt8.lt_iff_toNat_lt.1 h
  have hscalar : a.toNat.isValidChar := .inl (by omega)
  rw [toNat_ofNat hscalar]
  refine ⟨?_, Nat.zero_le _, hscalar⟩
  conv => lhs; rw [eq_toUInt8 (b := a) rfl]
  exact .one hsmall

theorem standsFor_of_charOfTwo {a b : UInt8} {c : Char} (h : charOfTwo a b = some c) :
    StandsFor [a, b] c.toNat := by
  unfold charOfTwo at h
  split at h
  · next hbounds =>
    simp only [Bool.and_eq_true, decide_eq_true_eq, UInt8.le_iff_toNat_le, isTail_iff,
      UInt8.reduceToNat] at hbounds
    obtain rfl := Option.some.inj h
    unfold tailBits
    have hscalar : (a.toNat % 32 * 64 + b.toNat % 64).isValidChar := .inl (by omega)
    have hspells := Spells.two (h := a.toNat % 32) (l := b.toNat % 64) (by omega) (by omega)
    rw [← eq_toUInt8 (b := a) (by omega), ← eq_toUInt8 (b := b) (by omega)] at hspells
    rw [toNat_ofNat hscalar]
    exact ⟨hspells, show 128 ≤ _ by omega, hscalar⟩
  · cases h

theorem standsFor_of_charOfThree {a b c : UInt8} {x : Char} (h : charOfThree a b c = some x) :
    StandsFor [a, b, c] x.toNat := by
  unfold charOfThree at h
  split at h
  · next hbounds =>
    simp only [Bool.and_eq_true, Bool.not_eq_true', Bool.and_eq_false_iff, decide_eq_true_eq,
      decide_eq_false_iff_not, UInt8.le_iff_toNat_le, UInt8.lt_iff_toNat_lt, ← UInt8.toNat_inj,
      isTail_iff, UInt8.reduceToNat] at hbounds
    obtain rfl := Option.some.inj h
    unfold tailBits
    -- after ED the second byte keeps the number below the surrogates
    have hscalar : (a.toNat % 16 * 4096 + b.toNat % 64 * 64 + c.toNat % 64).isValidChar := by
      unfold Nat.isValidChar
      omega
    have hspells := Spells.three (h := a.toNat % 16) (m := b.toNat % 64) (l := c.toNat % 64)
      (by omega) (by omega) (by omega)
    rw [← eq_toUInt8 (b := a) (by omega), ← eq_toUInt8 (b := b) (by omega),
      ← eq_toUInt8 (b := c) (by omega)] at hspells
    rw [toNat_ofNat hscalar]
    exact ⟨hspells, show 2048 ≤ _ by omega, hscalar⟩
  · cases h

theorem standsFor_of_charOfFour {a b c d : UInt8} {x : Char} (h : charOfFour a b c d = some x) :
    StandsFor [a, b, c, d] x.toNat := by
  unfold charOfFour at h
  split at h
  · next hbounds =>
    simp only [Bool.and_eq_true, Bool.not_eq_true', Bool.and_eq_false_iff, decide_eq_true_eq,
      decide_eq_false_iff_not, UInt8.le_iff_toNat_le, UInt8.lt_iff_toNat_lt, ← UInt8.toNat_inj,
      isTail_iff, UInt8.reduceToNat] at hbounds
    obtain rfl := Option.some.inj h
    unfold tailBits
    have hscalar : (a.toNat % 8 * 262144 + b.toNat % 64 * 4096 + c.toNat % 64 * 64 +
        d.toNat % 64).isValidChar := by
      unfold Nat.isValidChar
      omega
    have hspells := Spells.four (h := a.toNat % 8) (k := b.toNat % 64) (m := c.toNat % 64)
      (l := d.toNat % 64) (by omega) (by omega) (by omega) (by omega)
    rw [← eq_toUInt8 (b := a) (by omega), ← eq_toUInt8 (b := b) (by omega),
      ← eq_toUInt8 (b := c) (by omega), ← eq_toUInt8 (b := d) (by omega)] at hspells
    rw [toNat_ofNat hscalar]
    exact ⟨hspells, show 65536 ≤ _ by omega, hscalar⟩
  · cases h

/-! ## Texts -/

/-- **Well-formed sequences** are those that are written for texts. -/
theorem wellFormed_iff {bytes : List UInt8} : WellFormed bytes ↔ ∃ cs, encode cs = bytes := by
  constructor
  · intro h
    induction h with
    | nil => exact ⟨[], rfl⟩
    | @append s rest n hs _ ih =>
      obtain ⟨cs, rfl⟩ := ih
      exact ⟨Char.ofNat n :: cs, congrArg (· ++ encode cs) hs.eq_encodeChar⟩
  · intro h
    obtain ⟨cs, rfl⟩ := h
    induction cs with
    | nil => exact .nil
    | cons c cs ih => exact .append (standsFor_encodeChar c) ih

theorem encode_cons_of_standsFor {s : List UInt8} {c : Char} (h : StandsFor s c.toNat)
    (cs : List Char) : encode (c :: cs) = s ++ encode cs := by
  have hs : encodeChar c = s := by
    rw [← h.eq_encodeChar, Char.ofNat_toNat]
  exact congrArg (· ++ encode cs) hs

/-- What is read is what was written for the text. -/
theorem encode_of_decode {bytes : List UInt8} {cs : List Char} (h : decode bytes = some cs) :
    encode cs = bytes := by
  fun_induction decode bytes generalizing cs with
  | case1 =>
    obtain rfl := Option.some.inj h
    rfl
  | case2 a rest ha ih =>
    obtain ⟨more, hmore, rfl⟩ := Option.map_eq_some_iff.1 h
    rw [encode_cons_of_standsFor (standsFor_of_one ha), ih hmore]
    rfl
  | case4 a _ b rest c hc ih =>
    obtain ⟨more, hmore, rfl⟩ := Option.map_eq_some_iff.1 h
    rw [encode_cons_of_standsFor (standsFor_of_charOfTwo hc), ih hmore]
    rfl
  | case6 a _ b _ c rest x hx ih =>
    obtain ⟨more, hmore, rfl⟩ := Option.map_eq_some_iff.1 h
    rw [encode_cons_of_standsFor (standsFor_of_charOfThree hx), ih hmore]
    rfl
  | case8 a _ b _ c _ d rest x hx ih =>
    obtain ⟨more, hmore, rfl⟩ := Option.map_eq_some_iff.1 h
    rw [encode_cons_of_standsFor (standsFor_of_charOfFour hx), ih hmore]
    rfl
  | case3 | case5 | case7 | case9 => cases h

/-- **Reading.** What is read as a text is what was written for it, and nothing else is. -/
theorem decode_eq_some_iff {bytes : List UInt8} {cs : List Char} :
    decode bytes = some cs ↔ encode cs = bytes :=
  ⟨encode_of_decode, fun h => h ▸ decode_encode cs⟩

/-- The sequences that are read are the well-formed ones. -/
theorem isSome_decode_iff {bytes : List UInt8} : (decode bytes).isSome ↔ WellFormed bytes := by
  simp only [wellFormed_iff, Option.isSome_iff_exists, decode_eq_some_iff]

/-- Nothing is passed over in a well-formed sequence. -/
theorem decodeIgnoring_of_decode {bytes : List UInt8} {cs : List Char}
    (h : decode bytes = some cs) : decodeIgnoring bytes = cs := by
  fun_induction decode bytes generalizing cs with
  | case1 =>
    obtain rfl := Option.some.inj h
    rfl
  | case2 a rest ha ih =>
    obtain ⟨more, hmore, rfl⟩ := Option.map_eq_some_iff.1 h
    rw [decodeIgnoring.eq_def]
    simp only [if_pos ha, ih hmore]
  | case4 a ha b rest c hc ih =>
    obtain ⟨more, hmore, rfl⟩ := Option.map_eq_some_iff.1 h
    rw [decodeIgnoring.eq_def]
    simp only [if_neg ha, hc, ih hmore]
  | case6 a ha b hb c rest x hx ih =>
    obtain ⟨more, hmore, rfl⟩ := Option.map_eq_some_iff.1 h
    rw [decodeIgnoring.eq_def]
    simp only [if_neg ha, hb, hx, ih hmore]
  | case8 a ha b hb c hc d rest x hx ih =>
    obtain ⟨more, hmore, rfl⟩ := Option.map_eq_some_iff.1 h
    rw [decodeIgnoring.eq_def]
    simp only [if_neg ha, hb, hc, hx, ih hmore]
  | case3 | case5 | case7 | case9 => cases h

end TopPatterns.Text.Utf8

import TopPatterns.Dataset.Layout
import TopPatterns.Proofs.Text.WellFormed

/-!
# The encoding of a data file

Of the encodings that are tried UTF-8 is the first, and every sequence of bytes is well formed in
Latin-1, the third. The second one, UTF-8 with a byte order mark, is never chosen: a sequence that
is well formed after its mark is so with the mark (`wellFormed_of_afterMark`). So the choice is
between UTF-8 and Latin-1, and as the bytes are well formed in what is chosen, nothing is passed
over when they are read (`decode_lossless`).
-/

namespace TopPatterns.Dataset

open Text.Utf8 (WellFormed)

/-- The byte of a character in Latin-1, if it has one. -/
def latin1Byte? (c : Char) : Option UInt8 :=
  if c.toNat < 256 then some c.toNat.toUInt8 else none

/-- The byte of a character in Windows-1252, if it has one. -/
def windows1252Byte? (c : Char) : Option UInt8 :=
  ((List.range 256).map Nat.toUInt8).find? fun b => Text.Windows1252.char? b = some c

/-- The bytes of a text, if the encoding has all its characters. -/
def Encoding.encode? : Encoding → List Char → Option (List UInt8)
  | utf8, cs => some (Text.Utf8.encode cs)
  | utf8Mark, cs => some (Text.Utf8.mark ++ Text.Utf8.encode cs)
  | latin1, cs => cs.mapM latin1Byte?
  | windows1252, cs => cs.mapM windows1252Byte?

/-! ## The choice -/

/-- The mark is a well-formed sequence, so to take it away mends no fault. -/
theorem wellFormed_of_afterMark {bytes : List UInt8}
    (h : WellFormed (Text.Utf8.afterMark bytes)) : WellFormed bytes := by
  unfold Text.Utf8.afterMark at h
  split at h
  · next hmark =>
    obtain ⟨rest, rfl⟩ := List.isPrefixOf_iff_prefix.1 hmark
    have hcharacter : Text.Utf8.encodeChar '\uFEFF' = Text.Utf8.mark := by decide
    rw [List.drop_left] at h
    exact .append (hcharacter ▸ Text.Utf8.standsFor_encodeChar '\uFEFF') h
  · exact h

theorem encodingOf_of_wellFormed {bytes : List UInt8} (h : WellFormed bytes) :
    encodingOf bytes = .utf8 := by
  have hsome : (Encoding.utf8.decode? bytes).isSome = true := Text.Utf8.isSome_decode_iff.2 h
  simp only [encodingOf, Encoding.tried, List.find?_cons, hsome, Option.getD_some]

theorem encodingOf_of_not_wellFormed {bytes : List UInt8} (h : ¬WellFormed bytes) :
    encodingOf bytes = .latin1 := by
  have hfirst : (Encoding.utf8.decode? bytes).isSome = false :=
    Bool.eq_false_iff.2 (mt Text.Utf8.isSome_decode_iff.1 h)
  have hmark : (Encoding.utf8Mark.decode? bytes).isSome = false :=
    Bool.eq_false_iff.2 fun hsome =>
      h (wellFormed_of_afterMark (Text.Utf8.isSome_decode_iff.1 hsome))
  have hthird : (Encoding.latin1.decode? bytes).isSome = true := rfl
  simp only [encodingOf, Encoding.tried, List.find?_cons, hfirst, hmark, hthird, Option.getD_some]

/-! ## The text -/

/-- A file in UTF-8 is read as the text that it was written for. -/
theorem decode_of_utf8 {bytes : List UInt8} {cs : List Char}
    (h : Text.Utf8.decode bytes = some cs) : decode bytes = cs := by
  have hformed : WellFormed bytes := Text.Utf8.isSome_decode_iff.1 (Option.isSome_of_mem h)
  rw [decode, encodingOf_of_wellFormed hformed]
  exact Text.Utf8.decodeIgnoring_of_decode h

/-- A text in Latin-1 has its bytes again. -/
theorem mapM_latin1Byte?_decode (bytes : List UInt8) :
    (Text.Latin1.decode bytes).mapM latin1Byte? = some bytes := by
  induction bytes with
  | nil => rfl
  | cons b bytes ih =>
    have hb : latin1Byte? (Char.ofNat b.toNat) = some b := by
      have hlt : b.toNat < 256 := b.toNat_lt
      rw [latin1Byte?, Text.toNat_ofNat (.inl (by omega)), if_pos hlt, ← Text.Utf8.eq_toUInt8 rfl]
    show ((Char.ofNat b.toNat) :: Text.Latin1.decode bytes).mapM latin1Byte? = _
    rw [List.mapM_cons, hb, ih]
    rfl

/-- **Decoding loses no byte.** The encoding found out is UTF-8 for the well-formed sequences and
Latin-1 for all others, never one of the other two, and the text that is read is written in this
encoding with the bytes that were there. -/
theorem decode_lossless (bytes : List UInt8) :
    (encodingOf bytes = .utf8 ↔ WellFormed bytes) ∧
      (encodingOf bytes = .latin1 ↔ ¬WellFormed bytes) ∧
      encodingOf bytes ≠ .utf8Mark ∧ encodingOf bytes ≠ .windows1252 ∧
      (encodingOf bytes).encode? (decode bytes) = some bytes := by
  by_cases h : WellFormed bytes
  · have hencoding := encodingOf_of_wellFormed h
    obtain ⟨cs, hcs⟩ := Option.isSome_iff_exists.1 (Text.Utf8.isSome_decode_iff.2 h)
    have hback : Text.Utf8.encode (decode bytes) = bytes := by
      rw [decode_of_utf8 hcs, Text.Utf8.encode_of_decode hcs]
    rw [hencoding]
    exact ⟨by simp [h], by simp [h], nofun, nofun, congrArg some hback⟩
  · have hencoding := encodingOf_of_not_wellFormed h
    have htext : decode bytes = Text.Latin1.decode bytes := by rw [decode, hencoding]; rfl
    rw [htext, hencoding]
    exact ⟨by simp [h], by simp [h], nofun, nofun, mapM_latin1Byte?_decode bytes⟩

end TopPatterns.Dataset

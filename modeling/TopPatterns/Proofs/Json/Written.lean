import TopPatterns.Json.Reader
import TopPatterns.Proofs.Text.Utf8

/-!
# Reading what was written

A text that holds no lone half of a surrogate pair is read back from its written form
(`readString_stringText`), whatever follows it: every character is written as itself, as a short
escape, or as one or two escapes of units, and each `Spelling` is read back as the character. A list
of such texts is read back as a whole (`read_strings`).
-/

namespace TopPatterns

/-! ## Digits and code points -/

theorem Text.hexValue?_hexDigit : ∀ n < 16, hexValue? (hexDigit n) = some n := by decide

theorem Text.hexPadded_four (n : Nat) : hexPadded 4 n =
    [hexDigit (n / 16 / 16 / 16 % 16), hexDigit (n / 16 / 16 % 16), hexDigit (n / 16 % 16),
      hexDigit (n % 16)] := rfl

theorem CodePoint.ofNat_toNat (c : Char) : ofNat c.toNat = char c := by
  have := char_toNat c
  rw [ofNat, dif_neg (by omega), Char.ofNat_toNat]

namespace CodeText

@[simp] theorem ofChars_nil : ofChars [] = [] := rfl

@[simp] theorem ofChars_cons (c : Char) (cs : List Char) :
    ofChars (c :: cs) = .char c :: ofChars cs := rfl

@[simp] theorem ofChars_append (cs ds : List Char) :
    ofChars (cs ++ ds) = ofChars cs ++ ofChars ds := List.map_append ..

@[simp] theorem length_ofChars (cs : List Char) : (ofChars cs).length = cs.length :=
  List.length_map ..

end CodeText

namespace Json

open CodeText (ofChars)

/-! ## Escapes -/

/-- A unit is read back from its digits if the text goes on after them. -/
theorem unit?_hexPadded {n : Nat} (h : n < 0x10000) (point : CodePoint) (rest : CodeText) :
    unit? (ofChars (Text.hexPadded 4 n) ++ point :: rest) = some n := by
  have hdigit : ∀ m, Text.hexValue? (Text.hexDigit (m % 16)) = some (m % 16) :=
    fun m => Text.hexValue?_hexDigit _ (Nat.mod_lt _ (by omega))
  simp only [Text.hexPadded_four, CodeText.ofChars_cons, CodeText.ofChars_nil, List.cons_append,
    List.nil_append, unit?, hdigit, Option.some.injEq]
  omega

theorem escape_short {c d : Char} (hc : c ≠ 'u') (h : shortEscape? c = some d) (rest : CodeText) :
    escape (.char c :: rest) = .ok (.char d, 1) := by
  rw [escape]
  · rw [CodePoint.char?, Option.bind_some, h]
  · rintro ⟨⟩
    exact hc rfl

/-- The escape of a unit that is no high half stands for this unit. -/
theorem escape_unit {n : Nat} (h : n < 0x10000) (hhalf : ¬(0xD800 ≤ n ∧ n < 0xDC00))
    (point : CodePoint) (rest : CodeText) :
    escape (.char 'u' :: (ofChars (Text.hexPadded 4 n) ++ point :: rest)) = .ok (.ofNat n, 5) := by
  rw [escape, unit?_hexPadded h]
  exact if_neg hhalf

/-- The escapes of a high and a low half stand for the character that the two make. -/
theorem escape_pair {high low : Nat} (hhigh : 0xD800 ≤ high ∧ high < 0xDC00)
    (hlow : 0xDC00 ≤ low ∧ low < 0xE000) (point : CodePoint) (rest : CodeText) :
    escape (.char 'u' :: (ofChars (Text.hexPadded 4 high ++ unitEscape low) ++ point :: rest)) =
      .ok (.ofNat (CodePoint.joinHalves high low), 11) := by
  have hdrop : (ofChars (Text.hexPadded 4 high ++ unitEscape low) ++ point :: rest).drop 4 =
      .char '\\' :: .char 'u' :: (ofChars (Text.hexPadded 4 low) ++ point :: rest) := by
    rw [CodeText.ofChars_append, List.append_assoc]
    exact List.drop_left' (by rw [CodeText.length_ofChars, Text.hexPadded_length])
  -- the digits of the second escape must not end the text either
  have hmore : ((ofChars (Text.hexPadded 4 low) ++ point :: rest).drop 4).isEmpty = false := by
    rw [List.drop_left' (by rw [CodeText.length_ofChars, Text.hexPadded_length])]
    rfl
  have hunit : unit? (ofChars (Text.hexPadded 4 high ++ unitEscape low) ++ point :: rest) =
      some high := by
    rw [CodeText.ofChars_append, List.append_assoc]
    exact unit?_hexPadded (by omega) _ _
  have hlast : low < 0x10000 := by omega
  simp only [escape, hunit, if_pos hhigh, hdrop, hmore, unit?_hexPadded hlast, if_pos hlow]
  rfl

/-! ## Texts -/

/-- Code points that belong to an escape are passed over. -/
theorem readPoints_skip (start : Nat) (read : CodeText) (offset : Nat) (t rest : CodeText) :
    readPoints start read t.length offset (t ++ rest) =
      readPoints start read 0 (offset + t.length) rest := by
  induction t generalizing offset with
  | nil => rfl
  | cons point t ih =>
    rw [List.length_cons, List.cons_append, readPoints, ih]
    congr 1
    omega

/-- An escape that takes a text is read as the code point it stands for. -/
theorem readPoints_escape {t rest : CodeText} {escaped : CodePoint}
    (h : escape (t ++ rest) = .ok (escaped, t.length)) (start : Nat) (read : CodeText)
    (offset : Nat) :
    readPoints start read 0 offset (.char '\\' :: (t ++ rest)) =
      readPoints start (escaped :: read) 0 (offset + (t.length + 1)) rest := by
  rw [readPoints, if_neg (by decide), if_pos rfl, h]
  simp only
  rw [readPoints_skip]
  congr 1
  omega

/-- How a character may be written: as a short escape, as itself, as one unit or as two halves. -/
inductive Spelling (c : Char) : List Char → Prop where
  | short {d : Char} (hd : d ≠ 'u') (h : shortEscape? d = some c) : Spelling c ['\\', d]
  | plain (hquote : c ≠ '"') (hslash : c ≠ '\\') (hcontrol : 0x20 ≤ c.toNat) : Spelling c [c]
  | unit (h : c.toNat < 0x10000) : Spelling c (unitEscape c.toNat)
  | halves {high low : Nat} (hhigh : 0xD800 ≤ high ∧ high < 0xDC00)
      (hlow : 0xDC00 ≤ low ∧ low < 0xE000) (hjoin : CodePoint.joinHalves high low = c.toNat) :
      Spelling c (unitEscape high ++ unitEscape low)

theorem spelling_charText (c : Char) : Spelling c (charText c) := by
  by_cases hquote : c = '"'
  · rw [hquote]
    exact .short (by decide) rfl
  by_cases hslash : c = '\\'
  · rw [hslash]
    exact .short (by decide) rfl
  unfold charText
  rw [if_neg hquote, if_neg hslash]
  split
  · next h => exact .short (by decide) (by rw [h]; rfl)
  split
  · next h => exact .short (by decide) (by rw [h]; rfl)
  split
  · next h => exact .short (by decide) (by rw [h]; rfl)
  split
  · next h => exact .short (by decide) (by rw [h]; rfl)
  split
  · next h => exact .short (by decide) (by rw [h]; rfl)
  split
  · next h => exact .plain hquote hslash h.1
  split
  · next h => exact .unit h
  · next h =>
    have hlt := Text.Utf8.char_toNat_lt c
    refine .halves (by omega) (by omega) ?_
    unfold CodePoint.joinHalves
    omega

/-- A character is read back from each way of writing it if the text goes on after it. -/
theorem Spelling.readPoints_eq {c : Char} {cs : List Char} (h : Spelling c cs) (start : Nat)
    (read : CodeText) (offset : Nat) (point : CodePoint) (rest : CodeText) :
    readPoints start read 0 offset (ofChars cs ++ point :: rest) =
      readPoints start (.char c :: read) 0 (offset + cs.length) (point :: rest) := by
  cases h with
  | @short d hd hshort =>
    exact readPoints_escape (t := [.char d]) (escape_short hd hshort _) start read offset
  | plain hquote hslash hcontrol =>
    have hq : CodePoint.char c ≠ .char '"' := fun e => hquote (CodePoint.char.inj e)
    have hs : CodePoint.char c ≠ .char '\\' := fun e => hslash (CodePoint.char.inj e)
    have hc : ¬(CodePoint.char c).toNat < 0x20 := Nat.not_lt.2 hcontrol
    rw [CodeText.ofChars_cons, CodeText.ofChars_nil, List.singleton_append, readPoints, if_neg hq,
      if_neg hs, if_neg hc, List.length_singleton]
  | unit hunit =>
    have hhalf := CodePoint.char_toNat c
    have hescape := escape_unit hunit (by omega) point rest
    rw [CodePoint.ofNat_toNat] at hescape
    exact readPoints_escape (t := .char 'u' :: ofChars (Text.hexPadded 4 c.toNat)) hescape start
      read offset
  | @halves high low hhigh hlow hjoin =>
    have hlength : (.char 'u' :: ofChars (Text.hexPadded 4 high ++ unitEscape low)).length = 11 := by
      simp only [List.length_cons, CodeText.length_ofChars, List.length_append, unitEscape,
        Text.hexPadded_length]
    have hescape := escape_pair hhigh hlow point rest
    rw [hjoin, CodePoint.ofNat_toNat, ← hlength, ← List.cons_append] at hescape
    have hread := readPoints_escape hescape start read offset
    rw [hlength] at hread
    exact hread

/-- A text is read back up to its closing quote. -/
theorem readPoints_flatMap (start : Nat) (read : CodeText) (offset : Nat) (cs : List Char)
    (rest : CodeText) :
    readPoints start read 0 offset (ofChars (cs.flatMap charText) ++ .char '"' :: rest) =
      .ok (read.reverse ++ ofChars cs, ⟨offset + (cs.flatMap charText).length + 1, rest⟩) := by
  induction cs generalizing read offset with
  | nil =>
    rw [List.flatMap_nil, CodeText.ofChars_nil, List.nil_append, readPoints, if_pos rfl,
      List.append_nil]
    rfl
  | cons c cs ih =>
    -- escapes are read only if the text goes on after them; the closing quote is still to come
    obtain ⟨point, more, hmore⟩ : ∃ point more,
        ofChars (cs.flatMap charText) ++ .char '"' :: rest = point :: more :=
      List.exists_cons_of_ne_nil (List.append_ne_nil_of_right_ne_nil _ (List.cons_ne_nil _ _))
    rw [List.flatMap_cons, CodeText.ofChars_append, List.append_assoc, hmore,
      (spelling_charText c).readPoints_eq, ← hmore, ih, List.reverse_cons, List.append_assoc,
      List.length_append, Nat.add_assoc offset]
    rfl

theorem stringText_ofChars (cs : List Char) :
    stringText (ofChars cs) = '"' :: (cs.flatMap charText ++ ['"']) := by
  rw [stringText, ofChars, List.flatMap_map]
  rfl

/-- A text is read back from its written form, whatever comes after. -/
theorem readString_stringText (offset : Nat) (cs : List Char) (rest : CodeText) :
    readString ⟨offset, ofChars (stringText (ofChars cs)) ++ rest⟩ =
      .ok (ofChars cs, ⟨offset + (stringText (ofChars cs)).length, rest⟩) := by
  have hread := readPoints_flatMap offset [] (offset + 1) cs rest
  rw [stringText_ofChars, CodeText.ofChars_cons, CodeText.ofChars_append, readString]
  simp only [List.cons_append, List.tail_cons, List.append_assoc]
  rw [CodeText.ofChars_cons, CodeText.ofChars_nil, List.singleton_append, hread, List.reverse_nil,
    List.nil_append, List.length_cons, List.length_append, List.length_singleton]
  congr 3
  omega

/-! ## Lists of texts -/

theorem Cursor.skipSpace_of_not (point : CodePoint) (h : isSpace point = false) (offset : Nat)
    (rest : CodeText) : Cursor.skipSpace ⟨offset, point :: rest⟩ = ⟨offset, point :: rest⟩ := by
  rw [skipSpace, List.takeWhile_cons_of_neg (by simp [h])]
  rfl

theorem Cursor.skipSpace_space {point : CodePoint} (h : isSpace point = false) (offset : Nat)
    (rest : CodeText) :
    Cursor.skipSpace ⟨offset, .char ' ' :: point :: rest⟩ = ⟨offset + 1, point :: rest⟩ := by
  rw [skipSpace, List.takeWhile_cons_of_pos rfl, List.takeWhile_cons_of_neg (by simp [h])]
  rfl

/-- Values of texts without lone halves. -/
def strings (ts : List (List Char)) : List Json := ts.map fun t => string (ofChars t)

theorem texts_strings (ts : List (List Char)) :
    texts (strings ts) = ts.map fun t => stringText (ofChars t) := by
  induction ts with
  | nil => rfl
  | cons t ts ih =>
    rw [strings] at ih ⊢
    rw [List.map_cons, List.map_cons, texts, text_string, ih]

theorem commaJoin_strings (t u : List Char) (ts : List (List Char)) :
    commaJoin (texts (strings (t :: u :: ts))) =
      stringText (ofChars t) ++ ',' :: ' ' :: commaJoin (texts (strings (u :: ts))) := by
  rw [texts_strings, texts_strings]
  rfl

/-- Written texts start with a quote. -/
theorem exists_commaJoin_strings (t : List Char) (ts : List (List Char)) :
    ∃ cs, commaJoin (texts (strings (t :: ts))) = '"' :: cs := by
  cases ts with
  | nil =>
    rw [texts_strings]
    exact ⟨_, rfl⟩
  | cons u ts =>
    rw [commaJoin_strings]
    exact ⟨_, rfl⟩

theorem length_le_commaJoin (ts : List (List Char)) :
    ts.length ≤ (commaJoin (texts (strings ts))).length := by
  induction ts with
  | nil => exact Nat.zero_le _
  | cons t ts ih =>
    cases ts with
    | nil =>
      obtain ⟨cs, hcs⟩ := exists_commaJoin_strings t []
      rw [hcs]
      exact Nat.le_add_left ..
    | cons u ts =>
      rw [commaJoin_strings]
      simp only [List.length_append, List.length_cons] at ih ⊢
      omega

theorem readValue_stringText (level room offset : Nat) (t : List Char) (rest : CodeText) :
    readValue (level + 1) room ⟨offset, ofChars (stringText (ofChars t)) ++ rest⟩ =
      .ok (string (ofChars t), ⟨offset + (stringText (ofChars t)).length, rest⟩) := by
  have hread := readString_stringText offset t rest
  rw [stringText_ofChars, CodeText.ofChars_cons, List.cons_append] at hread ⊢
  rw [readValue.eq_def]
  simp only [hread]
  rfl

/-- A text before the closing bracket is the last item. -/
theorem readItems_last (level room : Nat) (read : List Json) (offset : Nat) (t : List Char)
    (rest : CodeText) :
    readItems (level + 2) room read
        ⟨offset, ofChars (stringText (ofChars t)) ++ .char ']' :: rest⟩ =
      .ok (array (read.reverse ++ [string (ofChars t)]),
        ⟨offset + ((stringText (ofChars t)).length + 1), rest⟩) := by
  have hspace := Cursor.skipSpace_of_not (.char ']') (by decide)
    (offset + (stringText (ofChars t)).length) rest
  rw [readItems.eq_def]
  simp only [readValue_stringText, Except.bind, bind, hspace]
  rw [List.reverse_cons]
  rfl

/-- A text before a comma is an item, and the space after the comma is passed over. -/
theorem readItems_next (point : CodePoint) (h : isSpace point = false) (level room : Nat)
    (read : List Json) (offset : Nat) (t : List Char) (rest : CodeText) :
    readItems (level + 2) room read
        ⟨offset, ofChars (stringText (ofChars t)) ++ .char ',' :: .char ' ' :: point :: rest⟩ =
      readItems (level + 1) room (string (ofChars t) :: read)
        ⟨offset + ((stringText (ofChars t)).length + 2), point :: rest⟩ := by
  have hspace := Cursor.skipSpace_of_not (.char ',') (by decide)
    (offset + (stringText (ofChars t)).length) (.char ' ' :: point :: rest)
  rw [readItems.eq_def]
  simp only [readValue_stringText, Except.bind, bind, hspace]
  exact congrArg (readItems (level + 1) room _)
    (Cursor.skipSpace_space h (offset + (stringText (ofChars t)).length + 1) rest)

/-- The texts of a list are read one after the other, up to the closing bracket. -/
theorem readItems_strings {ts : List (List Char)} {level : Nat} (t : List Char)
    (hlevel : ts.length + 2 ≤ level) (room : Nat) (read : List Json) (offset : Nat)
    (rest : CodeText) :
    readItems level room read
        ⟨offset, ofChars (commaJoin (texts (strings (t :: ts)))) ++ .char ']' :: rest⟩ =
      .ok (array (read.reverse ++ strings (t :: ts)),
        ⟨offset + ((commaJoin (texts (strings (t :: ts)))).length + 1), rest⟩) := by
  -- on the items left: each call has one item less, and one level less for it
  induction ts generalizing t level read offset with
  | nil =>
    obtain ⟨level, rfl⟩ := Nat.exists_eq_add_of_le' hlevel
    rw [texts_strings]
    exact readItems_last level room read offset t rest
  | cons u ts ih =>
    rw [List.length_cons] at hlevel
    obtain ⟨level, rfl⟩ := Nat.exists_eq_add_of_le' (show 2 ≤ level by omega)
    obtain ⟨cs, hcs⟩ := exists_commaJoin_strings u ts
    have hrest := ih u (show ts.length + 2 ≤ level + 1 by omega) (string (ofChars t) :: read)
      (offset + ((stringText (ofChars t)).length + 2))
    have hnext := readItems_next (.char '"') (by decide) level room read offset t
      (ofChars cs ++ .char ']' :: rest)
    rw [hcs, CodeText.ofChars_cons, List.cons_append] at hrest
    rw [commaJoin_strings, CodeText.ofChars_append, List.append_assoc, CodeText.ofChars_cons,
      CodeText.ofChars_cons, List.cons_append, List.cons_append, hcs, CodeText.ofChars_cons,
      List.cons_append, hnext, hrest, List.reverse_cons, List.append_assoc]
    congr 3
    simp only [List.length_append, List.length_cons]
    omega

/-- A list of texts is read back from its written form, whatever comes after. -/
theorem readValue_array_strings {ts : List (List Char)} {level : Nat}
    (hlevel : ts.length + 2 ≤ level) (room offset : Nat) (rest : CodeText) :
    readValue level (room + 1) ⟨offset, ofChars (array (strings ts)).text ++ rest⟩ =
      .ok (array (strings ts), ⟨offset + (array (strings ts)).text.length, rest⟩) := by
  obtain ⟨level, rfl⟩ := Nat.exists_eq_add_of_le' (show 1 ≤ level by omega)
  rw [text_array, CodeText.ofChars_cons, CodeText.ofChars_append, List.cons_append,
    List.append_assoc, readValue.eq_def]
  cases ts with
  | nil =>
    have hspace := Cursor.skipSpace_of_not (.char ']') (by decide) (offset + 1) rest
    simp only [Cursor.skip, List.drop_one, List.tail_cons]
    rw [show ofChars (commaJoin (texts (strings []))) ++ (ofChars [']'] ++ rest) =
      .char ']' :: rest by rfl, hspace]
    rfl
  | cons t ts =>
    obtain ⟨cs, hcs⟩ := exists_commaJoin_strings t ts
    have hspace := Cursor.skipSpace_of_not (.char '"') (by decide) (offset + 1)
      (ofChars cs ++ .char ']' :: rest)
    rw [List.length_cons] at hlevel
    have hread := readItems_strings t (show ts.length + 2 ≤ level by omega) room [] (offset + 1)
      rest
    rw [hcs, CodeText.ofChars_cons, List.cons_append] at hread
    simp only [Cursor.skip, List.drop_one, List.tail_cons, hcs, CodeText.ofChars_cons,
      CodeText.ofChars_nil, List.cons_append, List.nil_append, hspace, hread]
    have hlength : offset + 1 + (('"' :: cs).length + 1) =
        offset + ('[' :: '"' :: (cs ++ [']'])).length := by
      simp only [List.length_cons, List.length_append, List.length_nil]
      omega
    rw [hlength]
    rfl

/-- A list of texts is read back from its written form. -/
theorem read_strings (ts : List (List Char)) :
    read (String.ofList (array (strings ts)).text) = .ok (array (strings ts)) := by
  have hlength := length_le_commaJoin ts
  have htext : ofChars (array (strings ts)).text =
      .char '[' :: ofChars (commaJoin (texts (strings ts)) ++ [']']) := by
    rw [text_array, CodeText.ofChars_cons]
  -- every item takes up at least one character, so the bound on the calls is not met
  have hlevel : ts.length + 2 ≤ 2 * (ofChars (array (strings ts)).text).length + 2 := by
    rw [CodeText.length_ofChars, text_array, List.length_cons, List.length_append]
    omega
  have hread : readValue _ depthLimit ⟨0, ofChars (array (strings ts)).text ++ []⟩ = _ :=
    readValue_array_strings hlevel (depthLimit - 1) 0 []
  have hspace := Cursor.skipSpace_of_not (.char '[') (by decide) 0
    (ofChars (commaJoin (texts (strings ts)) ++ [']']))
  rw [List.append_nil, htext] at hread
  rw [read, CodeText.ofString, String.toList_ofList, htext, readText]
  · rw [hspace, hread]
    rfl
  · rintro _ ⟨⟩

end Json

end TopPatterns

import TopPatterns.Csv.Table

/-!
# Reading a column that was written

A table of one column is read back from its written form (`readTable_writeColumn`), whatever
characters its fields have, as long as no field can be taken for a blank line or a mark
(`OpensLine`). A field inside quotes is read character by character, also across its line breaks
(`readFrom_doubleQuotes`); one without quotes has no character that could end it
(`readFrom_plain`).
-/

namespace TopPatterns.Csv

/-! ## Steps -/

theorem readFrom_cons_of_ne {c : Char} (h : c ≠ '\r') (s : State) (rest : List Char) :
    readFrom s (c :: rest) = readFrom (s.step c) rest := by
  rw [readFrom, if_neg fun hc => h hc.1]
  · intro _ e
    exact absurd e h
  · intro _ e
    exact absurd e h

/-- Inside quotes every character counts, a carriage return too. -/
theorem readFrom_cons_of_inQuotes {s : State} (h : s.inQuotes = true) (c : Char)
    (rest : List Char) : readFrom s (c :: rest) = readFrom (s.step c) rest := by
  by_cases hc : c = '\r'
  · -- what a carriage return does may depend on the character after it, but not here
    subst hc
    rw [readFrom.eq_def]
    split
    · next e => cases e
    · next rest e =>
      cases e
      rw [if_pos h, readFrom_cons_of_ne (by decide)]
    · next rest e =>
      cases e
      rw [if_pos h, readFrom_cons_of_ne (by decide)]
    · next c rest _ _ e =>
      cases e
      rw [if_neg (by simp [h])]
  · exact readFrom_cons_of_ne hc s rest

/-! ## Fields -/

theorem of_isSpecial_eq_false {c : Char} (h : isSpecial c = false) :
    c ≠ ',' ∧ c ≠ '"' ∧ c ≠ '\n' ∧ c ≠ '\r' := by
  simp only [isSpecial, Bool.or_eq_false_iff, decide_eq_false_iff_not] at h
  obtain ⟨⟨⟨hcomma, hquote⟩, hfeed⟩, hreturn⟩ := h
  exact ⟨hcomma, hquote, hfeed, hreturn⟩

/-- A field in quotes is read character by character up to its closing quote. -/
theorem readFrom_doubleQuotes (rows : List Row) (fields : List (List Char)) (chars : List Char)
    (n : Nat) (cs rest : List Char) :
    readFrom ⟨rows, fields, chars, n, .quoted⟩ (doubleQuotes cs ++ rest) =
      readFrom ⟨rows, fields, cs.reverse ++ chars, n, .quoted⟩ rest := by
  induction cs generalizing chars with
  | nil => rfl
  | cons c cs ih =>
    rw [List.reverse_cons, List.append_assoc, List.singleton_append, ← ih (c :: chars)]
    by_cases hc : c = '"'
    · rw [doubleQuotes, if_pos hc, List.cons_append, List.cons_append,
        readFrom_cons_of_inQuotes rfl, readFrom_cons_of_ne (by decide), hc]
      rfl
    · have hstep : State.step ⟨rows, fields, chars, n, .quoted⟩ c =
          ⟨rows, fields, c :: chars, n, .quoted⟩ := if_neg hc
      rw [doubleQuotes, if_neg hc, List.cons_append, readFrom_cons_of_inQuotes rfl, hstep]

/-- A field without special characters is read up to the end of its line. -/
theorem readFrom_plain (rows : List Row) (fields : List (List Char)) (chars : List Char)
    (n : Nat) {cs : List Char} (h : cs.any isSpecial = false) (rest : List Char) :
    readFrom ⟨rows, fields, chars, n, .plain⟩ (cs ++ rest) =
      readFrom ⟨rows, fields, cs.reverse ++ chars, n, .plain⟩ rest := by
  induction cs generalizing chars with
  | nil => rfl
  | cons c cs ih =>
    rw [List.any_cons, Bool.or_eq_false_iff] at h
    obtain ⟨hc, hcs⟩ := h
    obtain ⟨hcomma, -, hfeed, hreturn⟩ := of_isSpecial_eq_false hc
    have hstep : State.step ⟨rows, fields, chars, n, .plain⟩ c =
        ⟨rows, fields, c :: chars, n, .plain⟩ := (if_neg hfeed).trans (if_neg hcomma)
    rw [List.cons_append, readFrom_cons_of_ne hreturn, hstep, ih (c :: chars) hcs,
      List.reverse_cons, List.append_assoc, List.singleton_append]

/-- Whether a field alone on a line does not start like a blank line or with a mark. -/
def OpensLine (v : List Char) : Prop := ∃ c ∈ v.head?, c ≠ ' ' ∧ c ≠ '\t' ∧ c ≠ '\uFEFF'

/-- A field in quotes, alone on a line, is read as a row of its own. -/
theorem readFrom_quotes (rows : List Row) (n : Nat) (v rest : List Char) :
    readFrom ⟨rows, [], [], n, .line false⟩ ('"' :: (doubleQuotes v ++ ['"']) ++ '\n' :: rest) =
      readFrom ⟨⟨n + 1, [v]⟩ :: rows, [], [], n + 1, .line false⟩ rest := by
  have hopen : State.step ⟨rows, [], [], n, .line false⟩ '"' = ⟨rows, [], [], n, .quoted⟩ := rfl
  have hclose : State.step ⟨rows, [], v.reverse, n, .quoted⟩ '"' =
      ⟨rows, [], v.reverse, n, .quote⟩ := rfl
  have hend : State.step ⟨rows, [], v.reverse, n, .quote⟩ '\n' =
      ⟨⟨n + 1, [v.reverse.reverse]⟩ :: rows, [], [], n + 1, .line false⟩ := rfl
  rw [List.cons_append, List.append_assoc, List.singleton_append, readFrom_cons_of_ne (by decide),
    hopen, readFrom_doubleQuotes, List.append_nil, readFrom_cons_of_ne (by decide), hclose,
    readFrom_cons_of_ne (by decide), hend, List.reverse_reverse]

/-- A field alone on a line is read as a row of its own. -/
theorem readFrom_writeField {v : List Char} (h : OpensLine v) (rows : List Row) (n : Nat)
    (rest : List Char) :
    readFrom ⟨rows, [], [], n, .line false⟩ (writeField v ++ '\n' :: rest) =
      readFrom ⟨⟨n + 1, [v]⟩ :: rows, [], [], n + 1, .line false⟩ rest := by
  obtain ⟨c, hhead, hspace, htab, -⟩ := h
  obtain ⟨cs, rfl⟩ := List.head?_eq_some_iff.1 hhead
  rw [writeField]
  split
  · exact readFrom_quotes rows n (c :: cs) rest
  · next hplain =>
    rw [Bool.not_eq_true, List.any_cons, Bool.or_eq_false_iff] at hplain
    obtain ⟨hc, hcs⟩ := hplain
    obtain ⟨hcomma, hquote, hfeed, hreturn⟩ := of_isSpecial_eq_false hc
    have hstep : State.step ⟨rows, [], [], n, .line false⟩ c = ⟨rows, [], [c], n, .plain⟩ := by
      simp [State.step, State.atField, State.push, hfeed, hspace, htab, hquote, hcomma]
    have hend : State.step ⟨rows, [], cs.reverse ++ [c], n, .plain⟩ '\n' =
        ⟨⟨n + 1, [(cs.reverse ++ [c]).reverse]⟩ :: rows, [], [], n + 1, .line false⟩ := rfl
    rw [List.cons_append, readFrom_cons_of_ne hreturn, hstep, readFrom_plain _ _ _ _ hcs,
      readFrom_cons_of_ne (by decide), hend, List.reverse_append, List.reverse_reverse]
    rfl

/-! ## Tables -/

/-- The rows of single fields, after a number of lines. -/
def singles (n : Nat) : List (List Char) → List Row
  | [] => []
  | v :: vs => ⟨n + 1, [v]⟩ :: singles (n + 1) vs

theorem readFrom_lines {vs : List (List Char)} (h : ∀ v ∈ vs, OpensLine v) (rows : List Row)
    (n : Nat) :
    readFrom ⟨rows, [], [], n, .line false⟩ (vs.flatMap fun v => writeField v ++ ['\n']) =
      ⟨(singles n vs).reverse ++ rows, [], [], n + vs.length, .line false⟩ := by
  induction vs generalizing rows n with
  | nil => rfl
  | cons v vs ih =>
    rw [List.flatMap_cons, List.append_assoc, List.singleton_append,
      readFrom_writeField (h v (List.mem_cons_self ..)),
      ih fun u hu => h u (List.mem_cons_of_mem _ hu), singles, List.reverse_cons,
      List.append_assoc, List.singleton_append, List.length_cons]
    congr 1
    omega

theorem rowsOf_singles (n : Nat) (vs : List (List Char)) :
    rowsOf 1 (singles n vs) = .ok (vs.map fun v => [v]) := by
  induction vs generalizing n with
  | nil => rfl
  | cons v vs ih =>
    rw [singles, rowsOf, ih]
    rfl

/-- A text that starts with a field starts with no mark. -/
theorem dropMark_writeField {v : List Char} (h : OpensLine v) (rest : List Char) :
    Text.dropMark (writeField v ++ rest) = writeField v ++ rest := by
  obtain ⟨c, hhead, -, -, hmark⟩ := h
  obtain ⟨cs, rfl⟩ := List.head?_eq_some_iff.1 hhead
  rw [writeField]
  split
  · rfl
  · rw [List.cons_append, Text.dropMark]
    rintro _ ⟨⟩
    exact hmark rfl

/-- A column is read back from its written form. -/
theorem readTable_writeColumn {name : List Char} {values : List (List Char)}
    (hname : OpensLine name) (hvalues : ∀ v ∈ values, OpensLine v) :
    readTable (writeColumn name values) = .ok ⟨[name], values.map fun v => [v]⟩ := by
  have hread := readFrom_lines (List.forall_mem_cons.2 ⟨hname, hvalues⟩) [] 0
  have hmark : Text.dropMark (writeColumn name values) = writeColumn name values := by
    rw [writeColumn, List.flatMap_cons, List.append_assoc]
    exact dropMark_writeField hname _
  rw [readTable, hmark, State.start, writeColumn, hread]
  have hrows : ∀ rows : List Row, (rows.reverse ++ []).reverse = rows := by simp
  simp only [State.inQuotes, State.finish, State.inBlankLine, hrows, singles, reduceCtorEq,
    decide_false, Bool.false_eq_true, if_false, if_true]
  -- the first row of values may widen the table, so there are two cases
  have hrest := rowsOf_singles 1 values
  cases values with
  | nil => rfl
  | cons v vs =>
    change rowsOf 1 (singles 1 (v :: vs)) >>= _ = _
    rw [hrest]
    rfl

/-- The values of the only column of a table. -/
theorem column?_single (name : List Char) (values : List (List Char)) :
    Table.column? ⟨[name], values.map fun v => [v]⟩ name = some values := by
  rw [Table.column?, List.findIdx?_cons, if_pos (decide_eq_true rfl), Option.map_some, List.map_map]
  exact congrArg some (List.map_id values)

/-- A value that starts with a bracket is no word for a missing value. -/
theorem value?_bracket (cs : List Char) :
    value? ('[' :: cs) = some (String.ofList ('[' :: cs)) := by
  have hwords : ∀ word ∈ missingWords, word.toList.head? ≠ some '[' := by decide
  rw [value?]
  refine if_neg fun h => hwords _ (List.contains_iff_mem.1 h) ?_
  rw [String.toList_ofList, List.head?_cons]

end TopPatterns.Csv

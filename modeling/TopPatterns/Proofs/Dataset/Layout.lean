import TopPatterns.Proofs.Dataset.Cleaning
import TopPatterns.Proofs.Dataset.Encodings

/-!
# Parsing what was written

`fileText` writes transactions as lines of items. If the items are clean and the file can be told
apart from one with another separator or a header (`Writable`), parsing the bytes of the text gives
the transactions back (`parse_fileText`): each step of the parser is the identity or cuts the text
where it was joined.
-/

namespace TopPatterns.Dataset

open Text (Bare isBlank isLineEnd)

/-- The line of a transaction. -/
def lineText (d : Char) (t : List String) : List Char := [d].intercalate (t.map String.toList)

/-- The text of transactions, one on each line. -/
def fileText (d : Char) (transactions : List (List String)) : List Char :=
  ['\n'].intercalate (transactions.map (lineText d))

/-- Whether an item is clean and no line end or separator cuts it. -/
structure Plain (lowercase : Bool) (d : Char) (x : List Char) : Prop where
  clean_eq : clean lowercase x = x
  not_missing : isMissing x = false
  not_mem : ∀ c ∈ x, isLineEnd c = false ∧ c ∉ separators ∧ c ≠ d

/-- Whether transactions can be told from their text with a separator. -/
structure Writable (lowercase : Bool) (d : Char) (transactions : List (List String)) : Prop where
  separator : d ∈ ' ' :: separators
  ne_nil : transactions ≠ []
  items_ne_nil : ∀ t ∈ transactions, t ≠ []
  plain : ∀ t ∈ transactions, ∀ x ∈ t, Plain lowercase d x.toList
  nodup : ∀ t ∈ transactions, t.Nodup
  not_header : ∀ t ∈ transactions.head?, ∀ x ∈ t.head?, Text.lower x.toList ∉ headerWords
  sampled : d = ' ' ∨ d ∈ (fileText d transactions).take sampleLength

instance (lowercase : Bool) (d : Char) (x : List Char) : Decidable (Plain lowercase d x) :=
  decidable_of_iff
    (clean lowercase x = x ∧ isMissing x = false ∧
      (x.all fun c => decide (isLineEnd c = false ∧ c ∉ separators ∧ c ≠ d)) = true)
    ⟨fun h => ⟨h.1, h.2.1, fun c hc => of_decide_eq_true (List.all_eq_true.1 h.2.2 c hc)⟩,
      fun h => ⟨h.clean_eq, h.not_missing,
        List.all_eq_true.2 fun c hc => decide_eq_true (h.not_mem c hc)⟩⟩

instance (lowercase : Bool) (d : Char) (transactions : List (List String)) :
    Decidable (Writable lowercase d transactions) :=
  decidable_of_iff
    (d ∈ ' ' :: separators ∧ transactions ≠ [] ∧ (∀ t ∈ transactions, t ≠ []) ∧
      (∀ t ∈ transactions, ∀ x ∈ t, Plain lowercase d x.toList) ∧
      (∀ t ∈ transactions, t.Nodup) ∧
      (∀ t ∈ transactions.head?, ∀ x ∈ t.head?, Text.lower x.toList ∉ headerWords) ∧
      (d = ' ' ∨ d ∈ (fileText d transactions).take sampleLength))
    ⟨fun h => ⟨h.1, h.2.1, h.2.2.1, h.2.2.2.1, h.2.2.2.2.1, h.2.2.2.2.2.1, h.2.2.2.2.2.2⟩,
      fun h => ⟨h.separator, h.ne_nil, h.items_ne_nil, h.plain, h.nodup, h.not_header, h.sampled⟩⟩

/-! ## Separators -/

/-- The separators have no case, and a case context stops at them. -/
theorem neutral_of_mem {d : Char} (h : d ∈ ' ' :: separators) : Text.Neutral d := by
  have hneutral : ((' ' :: separators).all fun d => decide
      ((∀ run ∈ Text.caseRuns, run.reaches d.toNat = false) ∧ d ∉ Text.specialForms ∧
        Text.isCaseIgnorable d = false ∧ Text.isCased d = false ∧ d ≠ 'Σ' ∧
        Text.lowerChar d = [d])) = true := by decide +kernel
  obtain ⟨hruns, hspecial, hskipped, hcased, hsigma, hlower⟩ :=
    of_decide_eq_true (List.all_eq_true.1 hneutral d h)
  exact ⟨Text.caseless_of_not_reaches hruns hspecial, hskipped, hcased, hsigma, hlower⟩

theorem mostFrequent_of_absent {cs ds : List Char} (h : ∀ d ∈ ds, d ∉ cs) :
    mostFrequent cs ds = (' ', 0) := by
  induction ds with
  | nil => rfl
  | cons d ds ih =>
    have hd : cs.count d = 0 := List.count_eq_zero.2 (h d (List.mem_cons_self ..))
    rw [mostFrequent, ih fun e he => h e (List.mem_cons_of_mem _ he)]
    simp only
    rw [if_neg (by omega)]

/-- A separator that is the only one to occur is the most frequent one. -/
theorem mostFrequent_of_only {cs ds : List Char} {d : Char} (hd : d ∈ ds) (hc : d ∈ cs)
    (h : ∀ e ∈ ds, e ≠ d → e ∉ cs) : mostFrequent cs ds = (d, cs.count d) := by
  have hpos : 0 < cs.count d := List.count_pos_iff.2 hc
  induction ds with
  | nil => cases hd
  | cons e ds ih =>
    have hrest : ∀ e ∈ ds, e ≠ d → e ∉ cs := fun e he => h e (List.mem_cons_of_mem _ he)
    by_cases hmem : d ∈ ds
    · -- a separator in front of it does not occur, unless it is the same one again
      rw [mostFrequent, ih hmem hrest]
      simp only
      split
      · next hcount =>
        have he : e = d := by
          by_cases he : e = d
          · exact he
          · have := List.count_eq_zero.2 (h e (List.mem_cons_self ..) he)
            omega
        rw [he]
      · rfl
    · obtain rfl : d = e := (List.mem_cons.1 hd).resolve_right hmem
      have habsent : ∀ e ∈ ds, e ∉ cs := fun e he => hrest e he fun heq => hmem (heq ▸ he)
      rw [mostFrequent, mostFrequent_of_absent habsent]
      exact if_pos ⟨Nat.zero_le _, hpos⟩

/-! ## Headers -/

/-- No header word has a separator. -/
theorem not_mem_headerWord {word : List Char} (hword : word ∈ headerWords) {d : Char}
    (hd : d ∈ ' ' :: separators) : d ∉ word := by
  have hnone : (headerWords.all fun word => (' ' :: separators).all fun d => decide (d ∉ word)) =
      true := by decide
  exact of_decide_eq_true (List.all_eq_true.1 (List.all_eq_true.1 hnone word hword) d hd)

/-- A text up to a character that it does not have is known from what it starts. -/
theorem eq_of_append_cons_isPrefix {d : Char} {cs ds rest : List Char} (hcs : d ∉ cs)
    (hds : d ∉ ds) (h : cs ++ [d] <+: ds ++ d :: rest) : cs = ds := by
  have htake : ∀ {xs : List Char}, d ∉ xs → ∀ more, (xs ++ d :: more).takeWhile (· ≠ d) = xs := by
    intro xs hxs more
    rw [List.takeWhile_append_of_pos, List.takeWhile_cons_of_neg (by simp), List.append_nil]
    intro c hc
    exact decide_eq_true fun e => hxs (e ▸ hc)
  obtain ⟨more, hmore⟩ := h
  rw [List.append_assoc, List.singleton_append] at hmore
  rw [← htake hcs more, hmore, htake hds rest]

/-- A line of items is no header if its first item is none. -/
theorem isHeader_intercalate {d : Char} {x : List Char} {xs : List (List Char)}
    (hd : d ∈ ' ' :: separators) (hx : d ∉ x)
    (hbare : Bare isBlank ([d].intercalate (x :: xs))) (hword : Text.lower x ∉ headerWords) :
    isHeader [d] ([d].intercalate (x :: xs)) = false := by
  have hneutral := neutral_of_mem hd
  have hlower : d ∉ Text.lower x := fun h => hx (Text.mem_of_mem_lower hneutral.caseless h)
  have htrim : Text.trim ([d].intercalate (x :: xs)) = [d].intercalate (x :: xs) :=
    Text.trimOf_eq_self_iff.2 hbare
  rw [isHeader, htrim, List.any_eq_false]
  intro word hmem hany
  have hdword := not_mem_headerWord hmem hd
  rw [Bool.or_eq_true, decide_eq_true_iff, List.isPrefixOf_iff_prefix] at hany
  rcases Text.intercalate_cons_cases d x xs with e | e
  · rw [e] at hany
    rcases hany with h | h
    · exact hword (h ▸ hmem)
    · exact hlower (h.subset (by simp))
  · rw [e, Text.lower, hneutral.lowerAfter_append_cons] at hany
    rcases hany with h | h
    · exact hdword (h ▸ by simp)
    · exact hword (eq_of_append_cons_isPrefix hdword hlower h ▸ hmem)

/-! ## Files -/

section

variable {lowercase : Bool} {d : Char} {transactions : List (List String)}

theorem Plain.bare {x : List Char} (h : Plain lowercase d x) : Bare isBlank x :=
  h.clean_eq ▸ bare_clean lowercase x

theorem Plain.ne_nil {x : List Char} (h : Plain lowercase d x) : x ≠ [] :=
  ne_nil_of_isMissing_eq_false h.not_missing

theorem isBlankText_lineText {t : List String} (hne : t ≠ [])
    (h : ∀ x ∈ t, Plain lowercase d x.toList) : Text.isBlankText (lineText d t) = false := by
  obtain ⟨x, xs, rfl⟩ := List.exists_cons_of_ne_nil hne
  have hx := h x (List.mem_cons_self ..)
  exact isBlankText_intercalate hx.bare hx.ne_nil _

/-- A character of the text of plain items is the separator or a plain one. -/
theorem of_mem_lineText {t : List String} (h : ∀ x ∈ t, Plain lowercase d x.toList) {c : Char}
    (hc : c ∈ lineText d t) : c = d ∨ isLineEnd c = false ∧ c ∉ separators ∧ c ≠ d := by
  rcases Text.eq_or_exists_of_mem_intercalate hc with hc | ⟨x, hx, hc⟩
  · exact .inl hc
  · obtain ⟨s, hs, rfl⟩ := List.mem_map.1 hx
    exact .inr ((h s hs).not_mem c hc)

/-- The lines of the text are those of the transactions. -/
theorem Writable.lines_eq (h : Writable lowercase d transactions) :
    (Text.lines (fileText d transactions)).filter (fun line => !Text.isBlankText line) =
      transactions.map (lineText d) := by
  have hblank : ∀ line ∈ transactions.map (lineText d), Text.isBlankText line = false := by
    intro line hline
    obtain ⟨t, ht, rfl⟩ := List.mem_map.1 hline
    exact isBlankText_lineText (h.items_ne_nil t ht) (h.plain t ht)
  have hne : ∀ line ∈ transactions.map (lineText d), line ≠ [] := by
    rintro _ hline rfl
    exact absurd (hblank [] hline) (by decide)
  have hend : ∀ line ∈ transactions.map (lineText d), ∀ c ∈ line, isLineEnd c = false := by
    intro line hline c hc
    obtain ⟨t, ht, rfl⟩ := List.mem_map.1 hline
    have hseparators : ((' ' :: separators).all fun d => !isLineEnd d) = true := by decide
    rcases of_mem_lineText (h.plain t ht) hc with rfl | hc
    · have hend := List.all_eq_true.1 hseparators c h.separator
      rwa [Bool.not_eq_true'] at hend
    · exact hc.1
  rw [fileText, Text.lines_intercalate hne hend, List.filter_eq_self]
  intro line hline
  rw [hblank line hline, Bool.not_false]

/-- No separator other than the one written occurs in the text. -/
theorem Writable.not_mem_fileText (h : Writable lowercase d transactions) :
    ∀ e ∈ separators, e ≠ d → e ∉ fileText d transactions := by
  intro e he hne hmem
  rcases Text.eq_or_exists_of_mem_intercalate hmem with rfl | ⟨line, hline, hc⟩
  · exact absurd he (by decide)
  · obtain ⟨t, ht, rfl⟩ := List.mem_map.1 hline
    rcases of_mem_lineText (h.plain t ht) hc with hc | hc
    · exact hne hc
    · exact hc.2.1 he

/-- The separator found out is the one written. -/
theorem Writable.separatorOf_eq (h : Writable lowercase d transactions) :
    separatorOf ((fileText d transactions).take sampleLength) = d := by
  have hother : ∀ e ∈ separators, e ≠ d → e ∉ (fileText d transactions).take sampleLength :=
    fun e he hne hmem => h.not_mem_fileText e he hne (List.mem_of_mem_take hmem)
  rw [separatorOf]
  rcases List.mem_cons.1 h.separator with rfl | hd
  · rw [mostFrequent_of_absent fun e he => hother e he fun heq => absurd (heq ▸ he) (by decide)]
  · have hsampled : d ∈ (fileText d transactions).take sampleLength :=
      h.sampled.resolve_left fun heq => absurd (heq ▸ hd) (by decide)
    rw [mostFrequent_of_only hd hsampled hother]

/-- The first line is no header. -/
theorem Writable.headerLines_eq (h : Writable lowercase d transactions) :
    headerLines [d] (transactions.map (lineText d)) = 0 := by
  obtain ⟨t, ts, rfl⟩ := List.exists_cons_of_ne_nil h.ne_nil
  have hplain := h.plain t (List.mem_cons_self ..)
  have hword := h.not_header t rfl
  obtain ⟨x, xs, rfl⟩ := List.exists_cons_of_ne_nil (h.items_ne_nil t (List.mem_cons_self ..))
  have hbare : Bare isBlank (lineText d (x :: xs)) := by
    refine Text.bare_intercalate (fun y hy => ?_) d
    obtain ⟨s, hs, rfl⟩ := List.mem_map.1 hy
    exact ⟨(hplain s hs).bare, (hplain s hs).ne_nil⟩
  have hd : d ∉ x.toList := fun hmem => ((hplain x (List.mem_cons_self ..)).not_mem d hmem).2.2 rfl
  rw [List.map_cons, headerLines, lineText, List.map_cons,
    isHeader_intercalate h.separator hd hbare (hword x rfl)]
  rfl

/-- The items of a line are those of its transaction. -/
theorem Writable.lineItems_eq (h : Writable lowercase d transactions) {t : List String}
    (ht : t ∈ transactions) : lineItems lowercase [d] (lineText d t) = t.map String.toList := by
  have hplain : ∀ x ∈ t.map String.toList, Plain lowercase d x := by
    intro x hx
    obtain ⟨s, hs, rfl⟩ := List.mem_map.1 hx
    exact h.plain t ht s hs
  have hnodup : (t.map String.toList).Nodup :=
    List.Pairwise.map _ (fun _ _ hne heq => hne (String.toList_inj.1 heq)) (h.nodup t ht)
  exact lineItems_intercalate (fun e => h.items_ne_nil t ht (List.map_eq_nil_iff.1 e))
    (fun x hx => (hplain x hx).clean_eq) (fun x hx => (hplain x hx).not_missing)
    (fun x hx hd => ((hplain x hx).not_mem d hd).2.2 rfl) hnodup

/-- Parsing the bytes of a text gives back the transactions that were written. -/
theorem parse_fileText (h : Writable lowercase d transactions) :
    parse lowercase (Text.Utf8.encode (fileText d transactions)) = transactions := by
  have hdecode : decode (Text.Utf8.encode (fileText d transactions)) = fileText d transactions := by
    rw [decode_of_utf8 (Text.Utf8.decode_encode _)]
  have hitems : (transactions.map (lineText d)).map (lineItems lowercase [d]) =
      transactions.map fun t => t.map String.toList := by
    rw [List.map_map]
    exact List.map_congr_left fun t ht => h.lineItems_eq ht
  have hkept : ((transactions.map fun t => t.map String.toList).filter fun items =>
      !items.isEmpty) = transactions.map fun t => t.map String.toList := by
    refine List.filter_eq_self.2 fun items hmem => ?_
    obtain ⟨t, ht, rfl⟩ := List.mem_map.1 hmem
    rw [List.isEmpty_map, List.isEmpty_eq_false_iff.2 (h.items_ne_nil t ht), Bool.not_false]
  have hback : ∀ t : List String, (t.map String.toList).map String.ofList = t := by
    intro t
    rw [List.map_map]
    exact (List.map_congr_left fun s _ => String.ofList_toList).trans (List.map_id t)
  rw [parse, hdecode, parseText]
  simp only [h.lines_eq, h.separatorOf_eq, h.headerLines_eq, List.drop_zero, hitems, hkept]
  rw [List.map_map]
  exact (List.map_congr_left fun t _ => hback t).trans (List.map_id transactions)

end

/-- Three lines in lower case, with an accent, a blank inside an item and an item on its own. -/
theorem parse_fileText_three_lines :
    Writable true ';' [["café", "milk 2%"], ["order"], ["tea", "café"]] ∧
    parse true (Text.Utf8.encode (fileText ';' [["café", "milk 2%"], ["order"], ["tea", "café"]])) =
      [["café", "milk 2%"], ["order"], ["tea", "café"]] := by
  have h : Writable true ';' [["café", "milk 2%"], ["order"], ["tea", "café"]] := by
    decide +kernel
  exact ⟨h, parse_fileText h⟩

end TopPatterns.Dataset

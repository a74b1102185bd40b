import TopPatterns.Proofs.Dataset.Encodings
import TopPatterns.Proofs.Dataset.Headers
import TopPatterns.Proofs.Dataset.Invisible

/-!
# A byte order mark

Well-formed UTF-8 stays so with a byte order mark in front, and the mark is read as the first
character of the text. No item shows it: an invisible character at the start of a field is not in
the clean text. But a line that begins with it is not blank and no header. So the file is read as
without the mark, save that a header line is a transaction like any other, and that the separator
is found out from one character less (`parse_mark`).
-/

namespace TopPatterns.Dataset

open Text (isBlankText lines)
open Text.Utf8 (mark)

/-! ## Transactions of lines -/

/-- The lines of a text that are not blank. -/
def contentLines (cs : List Char) : List (List Char) :=
  (lines cs).filter fun line => !isBlankText line

/-- The transactions of some lines. -/
def lineTransactions (lowercase : Bool) (separator : List Char) (ls : List (List Char)) :
    List (List String) :=
  ((ls.map (lineItems lowercase separator)).filter fun items => !items.isEmpty).map
    fun items => items.map String.ofList

section

variable {lowercase : Bool} {separator : List Char}

theorem parse_of_decode {bytes : List UInt8} {cs : List Char}
    (h : Text.Utf8.decode bytes = some cs) :
    parse lowercase bytes =
      lineTransactions lowercase [separatorOf (cs.take sampleLength)]
        ((contentLines cs).drop
          (headerLines [separatorOf (cs.take sampleLength)] (contentLines cs))) := by
  rw [parse, decode_of_utf8 h]
  rfl

theorem lineTransactions_append (ls ls' : List (List Char)) :
    lineTransactions lowercase separator (ls ++ ls') =
      lineTransactions lowercase separator ls ++ lineTransactions lowercase separator ls' := by
  simp only [lineTransactions, List.map_append, List.filter_append]

theorem lineTransactions_cons_congr {line line' : List Char}
    (h : lineItems lowercase separator line = lineItems lowercase separator line')
    (ls : List (List Char)) :
    lineTransactions lowercase separator (line :: ls) =
      lineTransactions lowercase separator (line' :: ls) := by
  simp only [lineTransactions, List.map_cons, h]

theorem lineTransactions_cons_of_isBlankText {line : List Char} (h : isBlankText line = true)
    (ls : List (List Char)) :
    lineTransactions lowercase separator (line :: ls) =
      lineTransactions lowercase separator ls := by
  have hnone : lineItems lowercase separator line = [] := by rw [lineItems, if_pos h]
  simp [lineTransactions, hnone]

/-- Blank lines have no transactions. -/
theorem lineTransactions_contentLines (cs : List Char) :
    lineTransactions lowercase separator (contentLines cs) =
      lineTransactions lowercase separator (lines cs) := by
  rw [contentLines]
  induction lines cs with
  | nil => rfl
  | cons line ls ih =>
    by_cases hblank : isBlankText line = true
    · rw [List.filter_cons_of_neg (by simp [hblank]), ih,
        lineTransactions_cons_of_isBlankText hblank]
    · rw [List.filter_cons_of_pos (by simpa using hblank), ← List.singleton_append,
        lineTransactions_append, ih, ← lineTransactions_append, List.singleton_append]

end

/-! ## Separators -/

theorem mostFrequent_mem (cs ds : List Char) : (mostFrequent cs ds).1 ∈ ' ' :: ds := by
  induction ds with
  | nil => exact List.mem_cons_self ..
  | cons d ds ih =>
    rw [mostFrequent]
    split
    · exact List.mem_cons_of_mem _ (List.mem_cons_self ..)
    · rcases List.mem_cons.1 ih with h | h
      · exact h ▸ List.mem_cons_self ..
      · exact List.mem_cons_of_mem _ (List.mem_cons_of_mem _ h)

theorem separatorOf_mem (cs : List Char) : separatorOf cs ∈ ' ' :: separators :=
  mostFrequent_mem cs separators

theorem mostFrequent_cons {c : Char} (cs : List Char) {ds : List Char} (h : c ∉ ds) :
    mostFrequent (c :: cs) ds = mostFrequent cs ds := by
  induction ds with
  | nil => rfl
  | cons d ds ih =>
    obtain ⟨hd, hds⟩ := not_or.1 (mt List.mem_cons.2 h)
    rw [mostFrequent, mostFrequent, ih hds, List.count_cons_of_ne hd]

/-! ## The mark -/

theorem decode_mark {bytes : List UInt8} {cs : List Char} (h : Text.Utf8.decode bytes = some cs) :
    Text.Utf8.decode (mark ++ bytes) = some ('\uFEFF' :: cs) := by
  have hmark : mark = Text.Utf8.encodeChar '\uFEFF' := by decide
  rw [hmark, Text.Utf8.decode_encodeChar_append, h]
  rfl

/-- No header word begins with the mark, and neither blanks nor lower case hide it. -/
theorem isHeader_mark (separator line : List Char) :
    isHeader separator ('\uFEFF' :: line) = false := by
  have hblank : Text.isBlank '\uFEFF' = false := by decide
  have hlower : Text.lowerChar '\uFEFF' = ['\uFEFF'] := by decide +kernel
  have hwords : ∀ word ∈ headerWords, word ≠ [] ∧ word.head? ≠ some '\uFEFF' := by decide
  obtain ⟨rest, htrim⟩ := Text.exists_trimOf_cons hblank line
  obtain ⟨more, hfirst⟩ : ∃ more, Text.lower (Text.trim ('\uFEFF' :: line)) = '\uFEFF' :: more := by
    rw [Text.trim, htrim, Text.lower, Text.lowerAfter, if_neg (by decide), hlower]
    exact ⟨_, rfl⟩
  rw [isHeader, hfirst, List.any_eq_false]
  intro word hword h
  obtain ⟨hne, hhead⟩ := hwords word hword
  obtain ⟨c, word, rfl⟩ := List.exists_cons_of_ne_nil hne
  have hc : c ≠ '\uFEFF' := fun e => hhead (e ▸ rfl)
  simp [List.isPrefixOf, hc, hc.symm] at h

theorem lineItems_mark (lowercase : Bool) {d : Char} (hd : d ∈ ' ' :: separators)
    (line : List Char) :
    lineItems lowercase [d] ('\uFEFF' :: line) = lineItems lowercase [d] line := by
  have hne : d ≠ '\uFEFF' := by
    rintro rfl
    exact absurd hd (by decide)
  obtain ⟨first, rest, hsplit⟩ := Text.splitFrom_eq_cons d line
  have hmark : Text.splitOn [d] ('\uFEFF' :: line) = ('\uFEFF' :: first) :: rest := by
    rw [Text.splitOn, Text.splitFrom, if_neg (by simp [List.isPrefixOf, hne]), hsplit]
    rfl
  have hclean : clean lowercase ('\uFEFF' :: first) = clean lowercase first :=
    clean_cons_of_isInvisible (by decide) lowercase first
  rw [lineItems_eq, lineItems_eq, hmark, Text.splitOn, hsplit, fieldItems, fieldItems,
    List.map_cons, hclean]
  rfl

/-- The mark is at the start of the first line. Without it there is no line if the text is empty. -/
theorem lines_mark (cs : List Char) :
    ∃ first rest, lines ('\uFEFF' :: cs) = ('\uFEFF' :: first) :: rest ∧
      (lines cs = first :: rest ∨ lines cs = [] ∧ first = [] ∧ rest = []) := by
  have hbegun : lines ('\uFEFF' :: cs) = Text.linesFrom ['\uFEFF'] cs := by
    have hmark : '\uFEFF' ≠ '\r' := by decide
    rw [lines, Text.linesFrom_cons fun _ e => absurd e hmark, if_neg (by decide)]
  rw [hbegun]
  by_cases hcs : cs = []
  · subst hcs
    exact ⟨[], [], rfl, .inr ⟨rfl, rfl, rfl⟩⟩
  · obtain ⟨first, rest, hlines⟩ := Text.linesFrom_eq_cons cs
    exact ⟨first, rest, hlines _ (.inr hcs), .inl (hlines [] (.inr hcs))⟩

/-- The lines of a text with the mark have the transactions of the lines without it. -/
theorem lineTransactions_lines_mark (lowercase : Bool) {d : Char} (hd : d ∈ ' ' :: separators)
    (cs : List Char) :
    lineTransactions lowercase [d] (lines ('\uFEFF' :: cs)) =
      lineTransactions lowercase [d] (lines cs) := by
  obtain ⟨first, rest, hmark, hlines⟩ := lines_mark cs
  rw [hmark, lineTransactions_cons_congr (lineItems_mark lowercase hd first)]
  rcases hlines with hlines | ⟨hlines, rfl, rfl⟩
  · rw [hlines]
  · rw [hlines, lineTransactions_cons_of_isBlankText rfl]

/-- No line of a text with the mark is a header. -/
theorem headerLines_mark (separator cs : List Char) :
    headerLines separator (contentLines ('\uFEFF' :: cs)) = 0 := by
  obtain ⟨first, rest, hmark, -⟩ := lines_mark cs
  have hblank : isBlankText ('\uFEFF' :: first) = false := by
    rw [isBlankText, List.all_cons, show Text.isBlank '\uFEFF' = false by decide, Bool.false_and]
  rw [contentLines, hmark, List.filter_cons, hblank]
  simp only [Bool.not_false, if_true, headerLines, isHeader_mark]
  rfl

/-- A header line has a transaction. -/
theorem lineTransactions_take_headerLines (lowercase : Bool) {d : Char}
    (hd : d ∈ ' ' :: separators) (ls : List (List Char)) :
    lineTransactions lowercase [d] (ls.take (headerLines [d] ls)) = [] ↔
      headerLines [d] ls = 0 := by
  cases ls with
  | nil => exact iff_of_true rfl rfl
  | cons line ls =>
    rw [headerLines]
    split
    · next hheader =>
      have hitems : lineItems lowercase [d] line ≠ [] := lineItems_ne_nil_of_isHeader hd hheader
      exact iff_of_false (by simp [lineTransactions, hitems]) Nat.one_ne_zero
    · exact iff_of_true rfl rfl

/-- **A file with a byte order mark** is read as all its lines, with the separator found out from
one character less. If that is the separator of the file without the mark, the transactions are
those of the header line, if there is one, before those of the file without the mark, and the mark
makes no difference just if there is no header. -/
theorem parse_mark (lowercase : Bool) {bytes : List UInt8} {cs : List Char}
    (h : Text.Utf8.decode bytes = some cs) :
    let separator := separatorOf (cs.take sampleLength)
    let headers := headerLines [separator] (contentLines cs)
    parse lowercase (mark ++ bytes) =
        lineTransactions lowercase [separatorOf (cs.take (sampleLength - 1))] (contentLines cs) ∧
      (separatorOf (cs.take (sampleLength - 1)) = separator →
        parse lowercase (mark ++ bytes) =
            lineTransactions lowercase [separator] ((contentLines cs).take headers) ++
              parse lowercase bytes ∧
          (parse lowercase (mark ++ bytes) = parse lowercase bytes ↔ headers = 0)) := by
  intro separator headers
  have hsample : separatorOf (('\uFEFF' :: cs).take sampleLength) =
      separatorOf (cs.take (sampleLength - 1)) := by
    have hother : '\uFEFF' ∉ separators := by decide
    exact congrArg Prod.fst (mostFrequent_cons (cs.take (sampleLength - 1)) hother)
  have hmark : parse lowercase (mark ++ bytes) =
      lineTransactions lowercase [separatorOf (cs.take (sampleLength - 1))] (contentLines cs) := by
    rw [parse_of_decode (decode_mark h), headerLines_mark, List.drop_zero, hsample,
      lineTransactions_contentLines, lineTransactions_lines_mark lowercase (separatorOf_mem _),
      lineTransactions_contentLines]
  refine ⟨hmark, fun hseparator => ?_⟩
  have hheader : parse lowercase (mark ++ bytes) =
      lineTransactions lowercase [separator] ((contentLines cs).take headers) ++
        parse lowercase bytes := by
    rw [hmark, hseparator, parse_of_decode h, ← lineTransactions_append, List.take_append_drop]
  rw [hheader, List.append_left_eq_self]
  exact ⟨rfl, lineTransactions_take_headerLines lowercase (separatorOf_mem _) _⟩

/-- Two lines, an accent and the separator `;`: the mark makes no difference. -/
theorem parse_mark_two_lines :
    let cs := "café;milk\ntea".toList
    Text.Utf8.decode (Text.Utf8.encode cs) = some cs ∧
      separatorOf (cs.take (sampleLength - 1)) = separatorOf (cs.take sampleLength) ∧
      parse true (mark ++ Text.Utf8.encode cs) = parse true (Text.Utf8.encode cs) := by
  intro cs
  have hdecode : Text.Utf8.decode (Text.Utf8.encode cs) = some cs := Text.Utf8.decode_encode cs
  have hsample : separatorOf (cs.take (sampleLength - 1)) = separatorOf (cs.take sampleLength) := by
    decide +kernel
  have hheader : headerLines [separatorOf (cs.take sampleLength)] (contentLines cs) = 0 := by
    decide +kernel
  exact ⟨hdecode, hsample, (((parse_mark true hdecode).2 hsample).2).2 hheader⟩

/-- With the mark in front the header line `items` is a transaction. -/
theorem not_parse_mark :
    ¬∀ lowercase bytes cs, Text.Utf8.decode bytes = some cs → ¬mark <+: bytes →
      parse lowercase (mark ++ bytes) = parse lowercase bytes := by
  intro h
  let cs := "items\na,b".toList
  have heq := h true (Text.Utf8.encode cs) cs (Text.Utf8.decode_encode cs) (by decide)
  revert heq
  decide +kernel

end TopPatterns.Dataset

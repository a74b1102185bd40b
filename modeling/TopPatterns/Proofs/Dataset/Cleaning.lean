import TopPatterns.Dataset.Cleaning
import TopPatterns.Proofs.Text.CodeSet
import TopPatterns.Proofs.Text.Lines
import TopPatterns.Proofs.Text.Lowercase

/-!
# Clean items

A clean text has no blanks at its ends (`bare_clean`), and a text that stands for no item is not
empty, so the items of a line are texts that trimming leaves as they are (`of_mem_lineItems`). Items
that are clean already are read back from the line that they make with a separator
(`lineItems_intercalate`).
-/

namespace TopPatterns.Dataset

open Text (Bare isBlank)

theorem bare_clean (lowercase : Bool) (cs : List Char) : Bare isBlank (clean lowercase cs) := by
  have hunwrap : Bare isBlank (unwrap ((Text.compose cs).filter isKept)) := Text.bare_trimOf _ _
  rw [clean]
  split
  · exact Text.bare_lower hunwrap
  · exact hunwrap

/-! ## What cleaning removes -/

/-- The characters that cleaning removes from a text or from its ends: quotes, those that carry no
text, and blanks. -/
def removable : Nat :=
  Text.codeSet ((0x22, 0x22) :: (0x27, 0x27) :: (Text.otherRanges ++ Text.blankRanges))

theorem inSet_removable {c : Char}
    (h : isKept c = false ∨ isBlank c = true ∨ isQuote c = true) : Text.inSet removable c = true := by
  refine (Text.testBit_codeSet _ _).2 ?_
  simp only [List.mem_cons, List.mem_append, exists_eq_or_imp]
  rcases h with h | h | h
  · rw [isKept, Bool.or_eq_false_iff, Bool.not_eq_false'] at h
    obtain ⟨range, hrange, hc⟩ := Text.exists_range_of_covers h.2
    exact .inr (.inr ⟨range, .inl hrange, hc⟩)
  · obtain ⟨range, hrange, hc⟩ := Text.exists_range_of_covers h
    exact .inr (.inr ⟨range, .inr hrange, hc⟩)
  · rw [isQuote, Bool.or_eq_true, decide_eq_true_iff, decide_eq_true_iff] at h
    rcases h with rfl | rfl
    · exact .inl (by decide)
    · exact .inr (.inl (by decide))

theorem unwrap_sublist (cs : List Char) : (unwrap cs).Sublist cs :=
  ((Text.trimOf_isInfix _).trans ((Text.trimOf_isInfix _).trans (Text.trimOf_isInfix _))).sublist

/-- Whatever is not removable is left of a text. -/
theorem filter_unwrap_filter (cs : List Char) :
    (unwrap (cs.filter isKept)).filter (fun c => !Text.inSet removable c) =
      cs.filter fun c => !Text.inSet removable c := by
  have hblank : ∀ c, isBlank c = true → (!Text.inSet removable c) = false := fun c hc => by
    rw [inSet_removable (.inr (.inl hc)), Bool.not_true]
  have hquote : ∀ c, isQuote c = true → (!Text.inSet removable c) = false := fun c hc => by
    rw [inSet_removable (.inr (.inr hc)), Bool.not_true]
  rw [unwrap, Text.trim, Text.trim, Text.filter_trimOf hblank, Text.filter_trimOf hquote,
    Text.filter_trimOf hblank, List.filter_filter]
  refine List.filter_congr fun c _ => ?_
  cases hkept : isKept c with
  | true => rw [Bool.and_true]
  | false => rw [inSet_removable (.inl hkept), Bool.not_true, Bool.false_and]

/-! ## Missing items -/

/-- The empty text stands for a missing item. -/
theorem ne_nil_of_isMissing_eq_false {cs : List Char} (h : isMissing cs = false) : cs ≠ [] := by
  rintro rfl
  exact absurd h (by decide)

/-! ## Repetitions -/

theorem mem_of_mem_keepFirst {x : List Char} {seen xs : List (List Char)}
    (h : x ∈ keepFirst seen xs) : x ∈ xs := by
  induction xs generalizing seen with
  | nil => cases h
  | cons y ys ih =>
    rw [keepFirst] at h
    split at h
    · exact List.mem_cons_of_mem _ (ih h)
    · rcases List.mem_cons.1 h with rfl | h
      · exact List.mem_cons_self ..
      · exact List.mem_cons_of_mem _ (ih h)

/-- Texts that differ from each other and from those seen before are all kept. -/
theorem keepFirst_of_nodup {seen xs : List (List Char)} (h : xs.Nodup)
    (hseen : ∀ x ∈ xs, x ∉ seen) : keepFirst seen xs = xs := by
  induction xs generalizing seen with
  | nil => rfl
  | cons y ys ih =>
    obtain ⟨hy, hys⟩ := List.nodup_cons.1 h
    have hnew : ¬seen.contains y = true := fun hc =>
      hseen y (List.mem_cons_self ..) (List.contains_iff_mem.1 hc)
    have hrest : ∀ x ∈ ys, x ∉ y :: seen := by
      intro x hx hm
      rcases List.mem_cons.1 hm with rfl | hm
      · exact hy hx
      · exact hseen x (List.mem_cons_of_mem _ hx) hm
    rw [keepFirst, if_neg hnew, ih hys hrest]

/-! ## Items of a line -/

/-- An item of a line is the clean form of a field and stands for no missing item. -/
theorem of_mem_lineItems {lowercase : Bool} {separator line x : List Char}
    (h : x ∈ lineItems lowercase separator line) :
    Bare isBlank x ∧ isMissing x = false := by
  rw [lineItems] at h
  split at h
  · cases h
  · have hfield := List.mem_filter.1 (mem_of_mem_keepFirst h)
    obtain ⟨cs, -, rfl⟩ := List.mem_map.1 hfield.1
    exact ⟨bare_clean lowercase cs, by simpa using hfield.2⟩

/-- A line that starts with an item is not blank. -/
theorem isBlankText_intercalate {d : Char} {x : List Char} (hx : Bare isBlank x) (hne : x ≠ [])
    (xs : List (List Char)) : Text.isBlankText ([d].intercalate (x :: xs)) = false := by
  have hall : x.all isBlank = false := hx.all_eq_false hne
  rcases Text.intercalate_cons_cases d x xs with h | h
  · rw [h]
    exact hall
  · rw [h, Text.isBlankText, List.all_append, hall, Bool.false_and]

/-- Clean items that differ from each other are read back from their line. -/
theorem lineItems_intercalate {lowercase : Bool} {d : Char} {items : List (List Char)}
    (hne : items ≠ []) (hclean : ∀ x ∈ items, clean lowercase x = x)
    (hmissing : ∀ x ∈ items, isMissing x = false) (hd : ∀ x ∈ items, d ∉ x)
    (hnodup : items.Nodup) : lineItems lowercase [d] ([d].intercalate items) = items := by
  have hblank : ¬Text.isBlankText ([d].intercalate items) = true := by
    obtain ⟨x, xs, rfl⟩ := List.exists_cons_of_ne_nil hne
    have hx := List.mem_cons_self (a := x) (l := xs)
    rw [isBlankText_intercalate (hclean x hx ▸ bare_clean lowercase x)
      (ne_nil_of_isMissing_eq_false (hmissing x hx))]
    exact Bool.false_ne_true
  have hmap : items.map (clean lowercase) = items :=
    (List.map_congr_left hclean).trans (List.map_id items)
  have hkept : (items.filter fun x => !isMissing x) = items :=
    List.filter_eq_self.2 fun x hx => by rw [hmissing x hx]; rfl
  rw [lineItems, if_neg hblank, Text.splitOn_intercalate hne hd, hmap, hkept,
    keepFirst_of_nodup hnodup fun x _ => List.not_mem_nil]

end TopPatterns.Dataset

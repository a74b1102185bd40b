import Mathlib.Data.List.TakeWhile
import TopPatterns.Proofs.Dataset.Cleaning
import TopPatterns.Proofs.Text.Spaced

/-!
# The items of a line, field by field

The items of a line are the clean forms of its fields, each once, without those that stand for a
missing item (`lineItems_eq`). A blank line is no exception: its fields are blank, and what is blank
is clean only when it is empty (`clean_of_isBlankText`). A field that is clean as an earlier one
adds nothing (`lineItems_append_cons`).
-/

namespace TopPatterns.Text

/-- What is all of a kind leaves nothing when it is trimmed. -/
theorem trimOf_of_all {α : Type} {drop : α → Bool} {cs : List α} (h : cs.all drop = true) :
    trimOf drop cs = [] := by
  have hdropped : cs.dropWhile drop = [] :=
    List.dropWhile_eq_nil_iff.2 fun c hc => List.all_eq_true.1 h c hc
  rw [trimOf, hdropped]
  rfl

/-- A character of a field is one of the text. -/
theorem mem_of_mem_splitFrom {sep field cs x : List Char} {skip : Nat} {c : Char}
    (hx : x ∈ splitFrom sep skip field cs) (hc : c ∈ x) : c ∈ field ∨ c ∈ cs := by
  induction cs generalizing skip field with
  | nil =>
    rw [splitFrom, List.mem_singleton] at hx
    exact Or.inl (List.mem_reverse.1 (hx ▸ hc))
  | cons d rest ih =>
    have hrest : ∀ {skip field}, x ∈ splitFrom sep skip field rest → c ∈ field ∨ c ∈ d :: rest :=
      fun hx => (ih hx).imp_right (List.mem_cons_of_mem _)
    cases skip with
    | succ skip => exact hrest hx
    | zero =>
      rw [splitFrom] at hx
      split at hx
      · rcases List.mem_cons.1 hx with rfl | hx
        · exact Or.inl (List.mem_reverse.1 hc)
        · exact Or.inr ((hrest hx).resolve_left List.not_mem_nil)
      · rcases hrest hx with hfield | hrest
        · rcases List.mem_cons.1 hfield with rfl | hfield
          · exact Or.inr (List.mem_cons_self ..)
          · exact Or.inl hfield
        · exact Or.inr hrest

theorem mem_of_mem_splitOn {sep cs x : List Char} {c : Char} (hx : x ∈ splitOn sep cs)
    (hc : c ∈ x) : c ∈ cs :=
  (mem_of_mem_splitFrom hx hc).resolve_left List.not_mem_nil

end TopPatterns.Text

namespace TopPatterns.Dataset

/-! ## Blank fields -/

theorem unwrap_of_isBlankText {cs : List Char} (h : Text.isBlankText cs = true) :
    unwrap cs = [] := by
  have htrim : Text.trim cs = [] := Text.trimOf_of_all h
  rw [unwrap, htrim]
  rfl

/-- Nothing is left of a blank text when it is clean. -/
theorem clean_of_isBlankText {cs : List Char} (h : Text.isBlankText cs = true)
    (lowercase : Bool) : clean lowercase cs = [] := by
  have hkept : Text.isBlankText ((Text.compose cs).filter isKept) = true :=
    List.all_eq_true.2 fun c hc =>
      List.all_eq_true.1 (Text.isBlankText_compose h) c (List.mem_filter.1 hc).1
  rw [clean, unwrap_of_isBlankText hkept]
  split <;> rfl

/-! ## Fields -/

/-- The items among some fields: clean, without missing ones and each once. -/
def fieldItems (lowercase : Bool) (fields : List (List Char)) : List (List Char) :=
  keepFirst [] ((fields.map (clean lowercase)).filter fun x => !isMissing x)

/-- The items of a line are those among its fields, also if the line is blank. -/
theorem lineItems_eq (lowercase : Bool) (separator line : List Char) :
    lineItems lowercase separator line = fieldItems lowercase (Text.splitOn separator line) := by
  rw [lineItems]
  split
  · next hblank =>
    have hnone : ((Text.splitOn separator line).map (clean lowercase)).filter
        (fun x => !isMissing x) = [] := by
      refine List.filter_eq_nil_iff.2 fun x hx => ?_
      obtain ⟨field, hfield, rfl⟩ := List.mem_map.1 hx
      have hfield : Text.isBlankText field = true := List.all_eq_true.2 fun c hc =>
        List.all_eq_true.1 hblank c (Text.mem_of_mem_splitOn hfield hc)
      rw [clean_of_isBlankText hfield]
      decide
    rw [fieldItems, hnone, keepFirst]
  · rfl

/-- A text that was seen before or comes earlier adds nothing. -/
theorem keepFirst_append_cons {x : List Char} {seen before : List (List Char)}
    (h : x ∈ seen ∨ x ∈ before) (later : List (List Char)) :
    keepFirst seen (before ++ x :: later) = keepFirst seen (before ++ later) := by
  induction before generalizing seen with
  | nil =>
    have hseen : seen.contains x = true :=
      List.contains_iff_mem.2 (h.resolve_right List.not_mem_nil)
    rw [List.nil_append, keepFirst, if_pos hseen]
    rfl
  | cons y ys ih =>
    rw [List.cons_append, List.cons_append, keepFirst, keepFirst]
    split
    · next hy =>
      refine ih (h.elim Or.inl fun hx => ?_)
      rcases List.mem_cons.1 hx with rfl | hx
      · exact Or.inl (List.contains_iff_mem.1 hy)
      · exact Or.inr hx
    · refine congrArg _ (ih ?_)
      rcases h with hx | hx
      · exact Or.inl (List.mem_cons_of_mem _ hx)
      · rcases List.mem_cons.1 hx with rfl | hx
        · exact Or.inl (List.mem_cons_self ..)
        · exact Or.inr hx

/-- A field that is clean as an earlier one adds no item. -/
theorem fieldItems_append_cons {lowercase : Bool} {before : List (List Char)} {x y : List Char}
    (hx : x ∈ before) (hxy : clean lowercase y = clean lowercase x) (later : List (List Char)) :
    fieldItems lowercase (before ++ y :: later) = fieldItems lowercase (before ++ later) := by
  simp only [fieldItems, List.map_append, List.map_cons, List.filter_append, List.filter_cons, hxy]
  split
  · next hkept =>
    exact keepFirst_append_cons
      (Or.inr (List.mem_filter.2 ⟨List.mem_map_of_mem hx, hkept⟩)) _
  · rfl

/-- **Fields that are clean alike count once.** Of the fields of a line, one that is clean as an
earlier one is left out. -/
theorem lineItems_append_cons {lowercase : Bool} {d : Char} {before later : List (List Char)}
    {x y : List Char} (hx : x ∈ before) (hxy : clean lowercase y = clean lowercase x)
    (hd : ∀ field ∈ before ++ y :: later, d ∉ field) :
    lineItems lowercase [d] ([d].intercalate (before ++ y :: later)) =
      lineItems lowercase [d] ([d].intercalate (before ++ later)) := by
  have hfewer : ∀ field ∈ before ++ later, d ∉ field := fun field hfield =>
    hd field (((List.sublist_cons_self y later).append_left before).subset hfield)
  rw [lineItems_eq, lineItems_eq, Text.splitOn_intercalate (by simp) hd,
    Text.splitOn_intercalate (List.append_ne_nil_of_left_ne_nil (List.ne_nil_of_mem hx) _) hfewer,
    fieldItems_append_cons hx hxy]

end TopPatterns.Dataset

import TopPatterns.Dataset.Layout
import TopPatterns.Proofs.Dataset.Fields
import TopPatterns.Proofs.Text.Capitals

/-!
# The items of a header line

A header line has items, so it makes a difference whether it is skipped
(`lineItems_ne_nil_of_isHeader`). The header word is looked for in the trimmed line in lower case, and
need not be an item as it stands. But every header word has two letters side by side of which the
first is in no word for a missing item. They come from two letters that are side by side in one
field, and the first of these is left in the clean field: the other one keeps it from being joined
with what follows.
-/

namespace TopPatterns.Dataset

open Text (attaches compose inSet lower lowerForms)

/-- Two letters side by side in each header word. -/
def headerPairs : List (Char × Char) := [('t', 'e'), ('t', 'r'), ('r', 'o'), ('b', 'a'), ('r', 'd')]

theorem exists_headerPair : ∀ word ∈ headerWords, ∃ pair ∈ headerPairs,
    [pair.1, pair.2] <:+: word := by
  decide +kernel

/-- The first letter of a pair is in no word for a missing item. -/
theorem of_mem_headerPairs : ∀ pair ∈ headerPairs,
    pair.1 ∉ Text.specialForms ∧ ∀ word ∈ missingItems, pair.1 ∉ word := by
  decide

/-- A letter that composing and cleaning leave where it is if a letter follows that starts anew. -/
structure Sturdy (c : Char) : Prop where
  base : Text.Base c
  not_removable : inSet removable c = false
  not_separator : c ∉ ' ' :: separators

/-- The letters that a letter of a pair may come from are sturdy. -/
theorem sturdy_of_mem_lowerForms {pair : Char × Char} (hpair : pair ∈ headerPairs) {x c : Char}
    (hx : x ∈ [pair.1, pair.2]) (h : x ∈ lowerForms c) : Sturdy c := by
  have hletters : (headerPairs.all fun pair => [pair.1, pair.2].all fun x =>
      decide (x ∉ Text.specialForms) && (Text.withForm x).all fun c =>
        Text.isBase c && !inSet removable c && !(' ' :: separators).contains c) = true := by
    decide +kernel
  have hletter := List.all_eq_true.1 (List.all_eq_true.1 hletters pair hpair) x hx
  rw [Bool.and_eq_true, decide_eq_true_iff] at hletter
  obtain ⟨hspecial, hforms⟩ := hletter
  have hc := List.all_eq_true.1 hforms c (Text.mem_withForm hspecial h)
  simp only [Bool.and_eq_true, Bool.not_eq_true'] at hc
  obtain ⟨⟨hbase, hremovable⟩, hseparator⟩ := hc
  exact ⟨Text.base_of_isBase hbase, hremovable, fun hmem => by
    rw [List.contains_iff_mem.2 hmem] at hseparator
    cases hseparator⟩

/-- A sturdy letter with another one after it is left in the clean text. -/
theorem Sturdy.mem_clean {c d : Char} (hc : Sturdy c) (hd : Sturdy d) {field : List Char}
    (h : [c, d] <:+: field) : c ∈ clean false field := by
  obtain ⟨before, after, rfl⟩ := h
  have hcompose : compose (before ++ [c, d] ++ after) =
      compose before ++ ([c] ++ compose (d :: after)) := by
    have hcanew : ∀ e ∈ [c].head?, attaches e = false := by simp [hc.base.attaches_eq]
    have hdanew : ∀ e ∈ (d :: after).head?, attaches e = false := by simp [hd.base.attaches_eq]
    rw [List.append_cons before c [d], List.append_assoc, List.singleton_append,
      Text.compose_append _ hdanew, Text.compose_append _ hcanew, hc.base.compose_singleton,
      List.append_assoc]
  have hmem : c ∈ (compose (before ++ [c, d] ++ after)).filter fun c => !inSet removable c := by
    rw [hcompose]
    exact List.mem_filter.2 ⟨by simp, by rw [hc.not_removable]; rfl⟩
  rw [← filter_unwrap_filter] at hmem
  exact (List.mem_filter.1 hmem).1

/-- Whether a text stands for a missing item does not depend on whether it was put into lower
case. -/
theorem lower_clean (lowercase : Bool) (cs : List Char) :
    lower (clean lowercase cs) = lower (clean false cs) := by
  cases lowercase with
  | false => rfl
  | true => simp only [clean, if_true, Bool.false_eq_true, if_false, Text.lower_lower]

/-- A field with such a pair is an item. -/
theorem isMissing_clean_of_pair {pair : Char × Char} (hpair : pair ∈ headerPairs) {c d : Char}
    (hc : pair.1 ∈ lowerForms c) (hd : pair.2 ∈ lowerForms d) {field : List Char}
    (h : [c, d] <:+: field) (lowercase : Bool) : isMissing (clean lowercase field) = false := by
  obtain ⟨hspecial, hmissing⟩ := of_mem_headerPairs pair hpair
  have hsturdy : c ∈ clean false field :=
    (sturdy_of_mem_lowerForms hpair (by simp) hc).mem_clean
      (sturdy_of_mem_lowerForms hpair (by simp) hd) h
  obtain ⟨x, hform, hx⟩ := Text.exists_mem_lowerAfter [] hsturdy
  rw [(Text.lowerForms_of_mem hspecial hc).1, List.mem_singleton] at hform
  rw [isMissing, lower_clean, Bool.eq_false_iff]
  intro hcontains
  exact hmissing _ (List.contains_iff_mem.1 hcontains) (hform ▸ hx)

theorem fieldItems_ne_nil {lowercase : Bool} {fields : List (List Char)} {field : List Char}
    (hfield : field ∈ fields) (h : isMissing (clean lowercase field) = false) :
    fieldItems lowercase fields ≠ [] := by
  have hmem : clean lowercase field ∈
      (fields.map (clean lowercase)).filter fun x => !isMissing x :=
    List.mem_filter.2 ⟨List.mem_map_of_mem hfield, by rw [h]; rfl⟩
  obtain ⟨x, xs, heq⟩ := List.exists_cons_of_ne_nil (List.ne_nil_of_mem hmem)
  rw [fieldItems, heq, keepFirst, if_neg (by simp)]
  exact List.cons_ne_nil _ _

/-- **A header line has items.** -/
theorem lineItems_ne_nil_of_isHeader {lowercase : Bool} {d : Char} (hd : d ∈ ' ' :: separators)
    {line : List Char} (h : isHeader [d] line = true) : lineItems lowercase [d] line ≠ [] := by
  obtain ⟨word, hword, hfirst⟩ := List.any_eq_true.1 h
  have hprefix : word <+: lower (Text.trim line) := by
    rw [Bool.or_eq_true, decide_eq_true_iff, List.isPrefixOf_iff_prefix] at hfirst
    rcases hfirst with hfirst | hfirst
    · exact hfirst ▸ List.prefix_refl _
    · exact (List.prefix_append word [d]).trans hfirst
  obtain ⟨pair, hpair, hinfix⟩ := exists_headerPair word hword
  obtain ⟨first, rest, hlower⟩ := hinfix.trans hprefix.isInfix
  have hi : pair.1 ≠ 'i' := fun e => (of_mem_headerPairs pair hpair).1 (e ▸ by decide)
  have hsplit : Text.lowerAfter [] (Text.trim line) = first ++ pair.1 :: pair.2 :: rest := by
    rw [← lower, ← hlower, List.append_assoc]
    rfl
  obtain ⟨c, e, hadjacent, hc, he⟩ := Text.exists_adjacent_of_lowerAfter hi hsplit
  have hseparator : d ∉ [c, e] := by
    intro hmem
    rcases List.mem_cons.1 hmem with rfl | hmem
    · exact (sturdy_of_mem_lowerForms hpair (by simp) hc).not_separator hd
    · obtain rfl := List.mem_singleton.1 hmem
      exact (sturdy_of_mem_lowerForms hpair (by simp) he).not_separator hd
  obtain ⟨field, hfield, hpart⟩ :=
    Text.exists_field_of_isInfix hseparator (hadjacent.trans (Text.trimOf_isInfix line))
  rw [lineItems_eq]
  exact fieldItems_ne_nil hfield (isMissing_clean_of_pair hpair hc he hpart lowercase)

end TopPatterns.Dataset

import Mathlib
import TopPatterns.Proofs.Ranking.Place

/-!
# Orders without ambiguity

Items are ranked by support and then by text, and what has both in common keeps the order of the
table. Where no two items share a text (`Unambiguous`), nothing is left to the table: its order is
known from the supports alone (`ofSupports_congr`). Items of one kind never share a text
(`Item.eq_of_label_eq`); a text and a number may.
-/

namespace TopPatterns

theorem CodeText.ofString_inj {s t : String} (h : CodeText.ofString s = CodeText.ofString t) :
    s = t := by
  have hchars := congrArg CodeText.toChars h
  rw [ofString, ofString, toChars_ofChars, toChars_ofChars] at hchars
  exact String.toList_inj.1 hchars

/-- Two texts, or two numbers, that are written alike are the same item. -/
theorem Item.eq_of_label_eq {x y : Item}
    (hkind : (x.text?.isSome ∧ y.text?.isSome) ∨ (x.number?.isSome ∧ y.number?.isSome))
    (h : x.label = y.label) : x = y := by
  cases x with
  | text t =>
    cases y with
    | text u => exact congrArg text h
    | number n => simp [text?, number?] at hkind
    | absent => simp [text?, number?] at hkind
  | number m =>
    cases y with
    | text u => simp [text?, number?] at hkind
    | number n => exact congrArg number (Int.repr_injective (CodeText.ofString_inj h))
    | absent => simp [text?, number?] at hkind
  | absent => simp [text?, number?] at hkind

namespace ItemOrder

/-! ## The order of two entries -/

theorem before_iff {a b : Item × Int} :
    before a b = true ↔ b.2 < a.2 ∨ (a.2 = b.2 ∧ a.1.label.le b.1.label = true) := by
  rw [before, Bool.or_eq_true, Bool.and_eq_true, decide_eq_true_iff, decide_eq_true_iff]

theorem before_total (a b : Item × Int) : (before a b || before b a) = true := by
  rw [Bool.or_eq_true, before_iff, before_iff]
  rcases Int.lt_trichotomy a.2 b.2 with h | h | h
  · exact Or.inr (Or.inl h)
  · rcases CodeText.le_total a.1.label b.1.label with hle | hle
    · exact Or.inl (Or.inr ⟨h, hle⟩)
    · exact Or.inr (Or.inr ⟨h.symm, hle⟩)
  · exact Or.inl (Or.inl h)

theorem before_trans (a b c : Item × Int) (hab : before a b = true) (hbc : before b c = true) :
    before a c = true := by
  rw [before_iff] at hab hbc ⊢
  rcases hab with hab | ⟨hab, hle⟩
  · rcases hbc with hbc | ⟨hbc, -⟩
    · exact Or.inl (Int.lt_trans hbc hab)
    · exact Or.inl (hbc ▸ hab)
  · rcases hbc with hbc | ⟨hbc, hle'⟩
    · exact Or.inl (hab ▸ hbc)
    · exact Or.inr ⟨hab.trans hbc, CodeText.le_trans hle hle'⟩

/-- Two entries that stand before each other have support and text in common. -/
theorem before_antisymm {a b : Item × Int} (hab : before a b = true) (hba : before b a = true) :
    a.2 = b.2 ∧ a.1.label = b.1.label := by
  rw [before_iff] at hab hba
  rcases hab with hab | ⟨hab, hle⟩
  · rcases hba with hba | ⟨hba, -⟩
    · exact absurd hab (Int.lt_asymm hba)
    · exact absurd hab (by rw [hba]; exact Int.lt_irrefl _)
  · rcases hba with hba | ⟨-, hle'⟩
    · exact absurd hba (by rw [hab]; exact Int.lt_irrefl _)
    · exact ⟨hab, CodeText.le_antisymm hle hle'⟩

/-! ## The order of a table -/

theorem pairwise_mergeSort_before (entries : List (Item × Int)) :
    (entries.mergeSort before).Pairwise fun a b => before a b = true :=
  List.pairwise_mergeSort before_trans before_total entries

/-- Entries are sorted in one way only, if those of equal support and text are the same. -/
theorem mergeSort_before_congr {entries entries' : List (Item × Int)} (h : entries.Perm entries')
    (hlabels : ∀ a ∈ entries, ∀ b ∈ entries, a.1.label = b.1.label → a.1 = b.1) :
    entries.mergeSort before = entries'.mergeSort before := by
  refine List.Perm.eq_of_pairwise ?_ (pairwise_mergeSort_before entries)
    (pairwise_mergeSort_before entries')
    (((List.mergeSort_perm _ _).trans h).trans (List.mergeSort_perm _ _).symm)
  intro a b ha hb hab hba
  obtain ⟨hsupport, hlabel⟩ := before_antisymm hab hba
  have ha := List.mem_mergeSort.1 ha
  have hb := h.mem_iff.2 (List.mem_mergeSort.1 hb)
  exact Prod.ext (hlabels a ha b hb hlabel) hsupport

/-- No two ranked items share a text. -/
def Unambiguous (order : ItemOrder) : Prop :=
  ∀ x ∈ order.items, ∀ y ∈ order.items, x.label = y.label → x = y

/-- **Ranking.** Tables of different items with the same supports have the same order, whatever the
order of their entries, if no two ranked items share a text. -/
theorem ofSupports_congr {supports supports' : Supports} (h : (supports.map Prod.fst).Nodup)
    (h' : (supports'.map Prod.fst).Nodup) {minimum : Int} (hmin : 1 ≤ minimum)
    (hsame : ∀ x, supports.support x = supports'.support x)
    (hlabels : (ofSupports supports minimum).Unambiguous) :
    ofSupports supports minimum = ofSupports supports' minimum := by
  -- both tables have the same entries of enough support
  have hperm : (supports.filter fun p => decide (minimum ≤ p.2)).Perm
      (supports'.filter fun p => decide (minimum ≤ p.2)) := by
    refine (List.perm_ext_iff_of_nodup (h.of_map.filter _) (h'.of_map.filter _)).2 ?_
    intro (x, n)
    rw [List.mem_filter, List.mem_filter, decide_eq_true_iff]
    refine and_congr_left fun hle => ?_
    have hpos : 0 < n := Int.lt_of_lt_of_le (by omega) hle
    rw [Supports.mem_iff_of_pos h hpos, Supports.mem_iff_of_pos h' hpos, hsame]
  have hranked : ∀ p ∈ supports.filter fun p => decide (minimum ≤ p.2),
      p.1 ∈ (ofSupports supports minimum).items := by
    intro p hp
    obtain ⟨hmem, hle⟩ := List.mem_filter.1 hp
    exact mem_items_ofSupports.2 ⟨p.2, hmem, of_decide_eq_true hle⟩
  rw [ofSupports, ofSupports, mergeSort_before_congr hperm]
  exact fun a ha b hb => hlabels a.1 (hranked a ha) b.1 (hranked b hb)

end ItemOrder

end TopPatterns

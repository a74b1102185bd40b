import Mathlib
import TopPatterns.Proofs.Collector.Reached
import TopPatterns.Proofs.Selection.Basic

/-!
# What a collector sees of a pattern

The content of a pattern is the set of its items with its support. Its outline has the number of the
items beside this, repeated ones counted. A collector that subsumes decides by outlines alone: two
histories of insertions with the same outlines have the same answers, and leave patterns of the same
content in the same order after every step (`inserted_watch_eq`).

Contents are not enough. The test of sub-patterns compares the numbers of items first, so a pattern
that repeats an item is no sub-pattern of the one that does not, and takes its place
(`not_inserted_watch_eq_of_content`).
-/

namespace TopPatterns

/-- What decides over a pattern: its support, the set of its items, and how many items it has. -/
structure Outline where
  support : Nat
  itemSet : Finset Item
  length : Nat

/-- Whether an outline is redundant beside another one. -/
def Outline.redundantBeside (o o' : Outline) : Bool :=
  decide (o.support = o'.support) &&
    (decide (o.length ≤ o'.length) && decide (o.itemSet ⊆ o'.itemSet))

namespace Pattern

variable {p q : Pattern} {ps qs : List Pattern}

/-- The set of a pattern's items, and its support. -/
def content (p : Pattern) : Finset Item × Nat := (p.itemSet, p.support)

/-- The outline of a pattern. -/
def outline (p : Pattern) : Outline := ⟨p.support, p.itemSet, p.length⟩

theorem redundantBeside_outline (p q : Pattern) :
    p.redundantBeside q = p.outline.redundantBeside q.outline := by
  rw [Bool.eq_iff_iff, redundantBeside_iff, isSubPatternOf_iff, ← itemSet_subset_iff]
  show _ ↔ (decide (p.support = q.support) &&
    (decide (p.length ≤ q.length) && decide (p.itemSet ⊆ q.itemSet))) = true
  rw [Bool.and_eq_true, Bool.and_eq_true, decide_eq_true_iff, decide_eq_true_iff,
    decide_eq_true_iff]

theorem isEmpty_items_eq (h : p.outline = q.outline) : p.items.isEmpty = q.items.isEmpty := by
  have hlen : p.items.length = q.items.length := congrArg Outline.length h
  rw [Bool.eq_iff_iff, List.isEmpty_iff_length_eq_zero, List.isEmpty_iff_length_eq_zero, hlen]

/-! ## Patterns of the same outlines -/

theorem map_outline_eq (hcontent : ps.map content = qs.map content)
    (hlength : ps.map length = qs.map length) : ps.map outline = qs.map outline := by
  induction ps generalizing qs with
  | nil =>
    rw [List.map_nil, eq_comm, List.map_eq_nil_iff] at hlength
    rw [hlength]
  | cons p ps ih =>
    obtain ⟨q, qs, rfl, hq, hqs⟩ := List.map_eq_cons_iff.1 hcontent.symm
    obtain ⟨hlen, hlengths⟩ := List.cons_eq_cons.1 hlength
    obtain ⟨hset, hsupport⟩ := Prod.mk.inj hq
    rw [List.map_cons, List.map_cons, ih hqs.symm hlengths, outline, outline, hset, hsupport, hlen]

theorem map_support_eq (h : ps.map outline = qs.map outline) :
    ps.map support = qs.map support := by
  have hmap := congrArg (List.map Outline.support) h
  rwa [List.map_map, List.map_map] at hmap

theorem leastOf_eq_of_outline (h : ps.map outline = qs.map outline) :
    leastOf ps = leastOf qs := by
  rw [leastOf, map_support_eq h, leastOf]

theorem map_outline_dropWeakest (h : ps.map outline = qs.map outline) :
    (dropWeakest ps).map outline = (dropWeakest qs).map outline := by
  have herase : ∀ ps : List Pattern, (dropWeakest ps).map outline =
      (ps.map outline).eraseP fun o => decide (o.support = leastOf ps) := by
    intro ps
    rw [List.eraseP_map]
    rfl
  rw [herase, herase, h, leastOf_eq_of_outline h]

theorem map_content_descending (h : ps.map outline = qs.map outline) :
    (descending ps).map content = (descending qs).map content := by
  -- sorting by support is sorting of outlines
  have hsort : ∀ ps : List Pattern, (descending ps).map outline =
      (ps.map outline).mergeSort fun o o' => decide (o'.support ≤ o.support) :=
    fun ps => List.map_mergeSort fun _ _ _ _ => rfl
  have hmap := congrArg (List.map fun o => (o.itemSet, o.support))
    ((hsort ps).trans (h ▸ (hsort qs).symm))
  rwa [List.map_map, List.map_map] at hmap

end Pattern

/-! ## Shelves of the same outlines -/

namespace Shelf

/-- Shelves that differ at most in how their patterns order and repeat items. -/
structure SameOutlines (s t : Shelf) : Prop where
  capacity_eq : s.capacity = t.capacity
  subsumes_eq : s.subsumes = t.subsumes
  outlines_eq : s.patterns.map Pattern.outline = t.patterns.map Pattern.outline

namespace SameOutlines

variable {s t : Shelf} {p q : Pattern}

theorem count_eq (h : SameOutlines s t) : s.count = t.count := by
  have hlen := congrArg List.length h.outlines_eq
  rwa [List.length_map, List.length_map] at hlen

theorem isFull_eq (h : SameOutlines s t) : s.isFull = t.isFull := by
  rw [isFull, isFull, h.count_eq, h.capacity_eq]

theorem leastSupport_eq (h : SameOutlines s t) : s.leastSupport = t.leastSupport :=
  Pattern.leastOf_eq_of_outline h.outlines_eq

theorem content_ranked_eq (h : SameOutlines s t) :
    s.ranked.map Pattern.content = t.ranked.map Pattern.content :=
  Pattern.map_content_descending h.outlines_eq

theorem any_redundantBeside_eq (h : SameOutlines s t) (hpq : p.outline = q.outline) :
    s.patterns.any p.redundantBeside = t.patterns.any q.redundantBeside := by
  have hany : ∀ (ps : List Pattern) (p : Pattern), ps.any p.redundantBeside =
      (ps.map Pattern.outline).any p.outline.redundantBeside := by
    intro ps p
    rw [List.any_map]
    exact congrArg ps.any (funext fun r => p.redundantBeside_outline r)
  rw [hany, hany, h.outlines_eq, hpq]

theorem keptBeside_eq (h : SameOutlines s t) (hpq : p.outline = q.outline) :
    (s.keptBeside p).map Pattern.outline = (t.keptBeside q).map Pattern.outline := by
  have hfilter : ∀ (ps : List Pattern) (p : Pattern),
      (ps.filter fun r => !r.redundantBeside p).map Pattern.outline =
        (ps.map Pattern.outline).filter fun o => !o.redundantBeside p.outline := by
    intro ps p
    rw [List.filter_map]
    refine congrArg _ (List.filter_congr fun r _ => ?_)
    rw [r.redundantBeside_outline p]
    rfl
  rw [keptBeside, keptBeside, h.subsumes_eq]
  split
  · rw [hfilter, hfilter, h.outlines_eq, hpq]
  · exact h.outlines_eq

theorem accept (h : SameOutlines s t) (hpq : p.outline = q.outline) :
    SameOutlines (s.accept p) (t.accept q) := by
  have hkept : (s.keptBeside p ++ [p]).map Pattern.outline =
      (t.keptBeside q ++ [q]).map Pattern.outline := by
    rw [List.map_append, List.map_append, h.keptBeside_eq hpq, List.map_singleton,
      List.map_singleton, hpq]
  have hlen := congrArg List.length (h.keptBeside_eq hpq)
  have hcount : s.patterns.length = t.patterns.length := h.count_eq
  rw [List.length_map, List.length_map] at hlen
  refine ⟨h.capacity_eq, h.subsumes_eq, ?_⟩
  unfold Shelf.accept
  dsimp only
  rw [h.isFull_eq, hlen, hcount]
  split
  · exact Pattern.map_outline_dropWeakest hkept
  · exact hkept

/-- Offers of one outline are both refused or both admitted. -/
theorem offer_eq_none_iff (h : SameOutlines s t) (hpq : p.outline = q.outline) :
    s.offer p = none ↔ t.offer q = none := by
  have hsupport : p.support = q.support := congrArg Outline.support hpq
  rw [offer, offer, Pattern.isEmpty_items_eq hpq, h.isFull_eq, h.leastSupport_eq, hsupport,
    h.subsumes_eq, h.any_redundantBeside_eq hpq]
  split
  · simp
  · split
    · simp
    · split <;> simp

/-- **One offer.** Shelves of the same outlines are such shelves afterwards. -/
theorem insert (h : SameOutlines s t) (hpq : p.outline = q.outline) :
    SameOutlines (s.insert p) (t.insert q) := by
  by_cases hrefused : s.offer p = none
  · rwa [insert_of_refused hrefused, insert_of_refused ((h.offer_eq_none_iff hpq).1 hrefused)]
  · have hrefused' : t.offer q ≠ none := fun he => hrefused ((h.offer_eq_none_iff hpq).2 he)
    rw [insert_of_admitted hrefused, insert_of_admitted hrefused']
    exact h.accept hpq

end SameOutlines

end Shelf

/-! ## Whole histories -/

/-- What is seen of an insertion: whether the pattern was admitted, and how many patterns are
retained afterwards, with what least support, and of what content in their order. -/
structure View where
  admitted : Bool
  count : Nat
  leastSupport : Nat
  ranked : List (Finset Item × Nat)

namespace Collector

/-- What is seen of insertions one after the other. -/
def watch (c : Collector) : List Pattern → List View
  | [] => []
  | p :: ps =>
    let next := c.insert p
    ⟨(c.offer p).isSome, next.count, next.leastSupport, next.ranked.map Pattern.content⟩ ::
      next.watch ps

theorem watch_eq_of_sameOutlines {c d : Collector} (hc : c.Valid) (hd : d.Valid)
    (h : Shelf.SameOutlines c.shelf d.shelf) {ps qs : List Pattern}
    (hps : ps.map Pattern.outline = qs.map Pattern.outline) : c.watch ps = d.watch qs := by
  induction ps generalizing c d qs with
  | nil =>
    rw [List.map_nil, eq_comm, List.map_eq_nil_iff] at hps
    rw [hps]
    rfl
  | cons p ps ih =>
    obtain ⟨q, qs, rfl, hq, hqs⟩ := List.map_eq_cons_iff.1 hps.symm
    have hnext := h.insert hq.symm
    have hrefused := h.offer_eq_none_iff hq.symm
    have hcnext := insert_valid hc p
    have hdnext := insert_valid hd q
    rw [← insert_shelf hc, ← insert_shelf hd] at hnext
    rw [← offer_shelf hc, ← offer_shelf hd, Option.map_eq_none_iff, Option.map_eq_none_iff]
      at hrefused
    have hadmitted : (c.offer p).isSome = (d.offer q).isSome := by
      rw [Bool.eq_iff_iff, ← Option.ne_none_iff_isSome, ← Option.ne_none_iff_isSome]
      exact not_congr hrefused
    rw [watch, watch, hadmitted, ← count_shelf (c.insert p), ← count_shelf (d.insert q),
      ← leastSupport_shelf hcnext.toHeaped, ← leastSupport_shelf hdnext.toHeaped,
      ← ranked_shelf (c.insert p), ← ranked_shelf (d.insert q), hnext.count_eq,
      hnext.leastSupport_eq, hnext.content_ranked_eq, ih hcnext hdnext hnext hqs.symm]

/-- **Content and length decide.** Insert the patterns of two sequences into two new collectors that
subsume. If the patterns agree one by one in their sets of items, their supports and their numbers
of items, then each insertion into the one is admitted exactly if the insertion into the other is,
and after each the collectors have as many patterns, the same least support, and ranked patterns of
the same sets of items and supports. -/
theorem inserted_watch_eq (capacity : Nat) (capacity_pos : 0 < capacity) (ps qs : List Pattern)
    (hcontent : ps.map Pattern.content = qs.map Pattern.content)
    (hlength : ps.map Pattern.length = qs.map Pattern.length) :
    (empty capacity true capacity_pos).watch ps = (empty capacity true capacity_pos).watch qs :=
  watch_eq_of_sameOutlines (empty_valid capacity_pos) (empty_valid capacity_pos) ⟨rfl, rfl, rfl⟩
    (Pattern.map_outline_eq hcontent hlength)

/-- Patterns that order their items differently, and repeat different ones, on collectors of two
places: one is replaced, one is refused and one is evicted. -/
theorem inserted_watch_eq_reordered :
    let p (items : List Int) (support : Nat) : Pattern := ⟨items.map Item.number, support⟩
    let ps := [p [1, 2] 5, p [3] 4, p [1, 2, 2, 7] 5, p [7, 7, 1] 5, p [9] 8]
    let qs := [p [2, 1] 5, p [3] 4, p [7, 2, 1, 1] 5, p [1, 7, 1] 5, p [9] 8]
    (0 < 2 ∧ ps.map Pattern.content = qs.map Pattern.content ∧
        ps.map Pattern.length = qs.map Pattern.length) ∧
      ((empty 2 true (by decide)).watch ps).map View.admitted = [true, true, true, false, true] ∧
      (empty 2 true (by decide)).watch ps = (empty 2 true (by decide)).watch qs := by
  intro p ps qs
  have hcontent : ps.map Pattern.content = qs.map Pattern.content := by decide
  have hlength : ps.map Pattern.length = qs.map Pattern.length := by decide
  refine ⟨⟨by decide, hcontent, hlength⟩, ?_, ?_⟩
  · simp only [ps, p]
    cbv
  · exact inserted_watch_eq 2 (by decide) ps qs hcontent hlength

/-- **Contents do not decide.** A pattern inserted twice is refused the second time; if it repeats
an item then, it is admitted in place of the first. -/
theorem not_inserted_watch_eq_of_content :
    ¬∀ (capacity : Nat) (capacity_pos : 0 < capacity) (ps qs : List Pattern),
      ps.map Pattern.content = qs.map Pattern.content →
        (empty capacity true capacity_pos).watch ps =
          (empty capacity true capacity_pos).watch qs := by
  intro hall
  let p (items : List Int) : Pattern := ⟨items.map Item.number, 5⟩
  have hsame := hall 2 (by decide) [p [1], p [1]] [p [1], p [1, 1]] (by decide)
  have hadmitted := congrArg (List.map View.admitted) hsame
  have hplain : ((empty 2 true (by decide)).watch [p [1], p [1]]).map View.admitted =
      [true, false] := by
    simp only [p]
    cbv
  have hrepeated : ((empty 2 true (by decide)).watch [p [1], p [1, 1]]).map View.admitted =
      [true, true] := by
    simp only [p]
    cbv
  rw [hplain, hrepeated] at hadmitted
  cases hadmitted

end Collector

end TopPatterns

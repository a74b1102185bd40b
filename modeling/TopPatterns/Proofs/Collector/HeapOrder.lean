import TopPatterns.Collector.Heap

/-!
# The order of the heap

`Heap.WellFormed` says that every entry is at most as strong as the entries below it, and that every
node stores the right number of entries. All operations keep it: they are merges, and a merge puts
the weaker of two tops above everything else (`merge_wellFormed`).

Two facts about well-formed heaps carry the collector. The top is the weakest entry
(`weaker_of_top?`). Settling takes off stale entries only, and stops at an entry that is not stale
(`settle_dropped`, `settle_top`), so that settling again does nothing (`settle_settle`).
-/

namespace TopPatterns

namespace Heap

/-- Every entry is at most as strong as those below it, and every node stores how many entries it
and the parts below it have. -/
def WellFormed : Heap → Prop
  | empty => True
  | node n e l r =>
    (∀ f ∈ l.toList ++ r.toList, e.weaker f = true) ∧
      n = l.toList.length + r.toList.length + 1 ∧ l.WellFormed ∧ r.WellFormed

theorem wellFormed_empty : WellFormed empty := trivial

/-- The stored number is the number of entries. -/
theorem size_eq_length {h : Heap} (hw : h.WellFormed) : h.size = h.toList.length := by
  cases h with
  | empty => rfl
  | node n e l r =>
    obtain ⟨-, hn, -, -⟩ := hw
    rw [size_node, hn, toList_node, List.length_cons, List.length_append]

theorem weaker_self (e : Entry) : e.weaker e = true :=
  Entry.weaker_iff.2 (Or.inr ⟨rfl, Nat.le_refl _⟩)

/-- The top is the weakest entry. -/
theorem weaker_of_top? {h : Heap} {e f : Entry} (hw : h.WellFormed) (ht : h.top? = some e)
    (hf : f ∈ h.toList) : e.weaker f = true := by
  cases h with
  | empty => simp at ht
  | node n e' l r =>
    obtain rfl : e' = e := by simpa using ht
    rcases List.mem_cons.1 hf with rfl | hf
    · exact weaker_self _
    · exact hw.1 f hf

theorem mem_of_top? {h : Heap} {e : Entry} (ht : h.top? = some e) : e ∈ h.toList :=
  (pop_toList ht).mem_iff.2 (List.mem_cons_self ..)

theorem toList_of_top?_none {h : Heap} (ht : h.top? = none) : h.toList = [] := by
  cases h with
  | empty => rfl
  | node n e l r => simp at ht

/-! ## Operations keep the order -/

theorem above_wellFormed {e : Entry} {a b : Heap} (ha : a.WellFormed) (hb : b.WellFormed)
    (he : ∀ f, f ∈ a.toList ∨ f ∈ b.toList → e.weaker f = true) : (above e a b).WellFormed := by
  have hsa := size_eq_length ha
  have hsb := size_eq_length hb
  unfold above
  split
  · exact ⟨fun f hf => he f (List.mem_append.1 hf), by rw [hsa, hsb], ha, hb⟩
  · exact ⟨fun f hf => he f (List.mem_append.1 hf).symm, by omega, hb, ha⟩

/-- Merging keeps the order: of two tops the weaker one is also the weaker of all entries of both
heaps. -/
theorem merge_wellFormed {a b : Heap} (ha : a.WellFormed) (hb : b.WellFormed) :
    (merge a b).WellFormed := by
  induction a generalizing b with
  | empty => exact hb
  | node n e l r _ ihr =>
    obtain ⟨hea, hn, hl, hr⟩ := ha
    induction b with
    | empty =>
      rw [node_merge_empty]
      exact above_wellFormed hl hr fun f hf => hea f (List.mem_append.2 hf)
    | node m f l' r' _ ihb =>
      have hfb : ∀ g ∈ (node m f l' r').toList, f.weaker g = true := fun g hg =>
        weaker_of_top? hb rfl hg
      have hwa : (node n e l r).WellFormed := ⟨hea, hn, hl, hr⟩
      have hea' : ∀ g ∈ (node n e l r).toList, e.weaker g = true := fun g hg =>
        weaker_of_top? hwa rfl hg
      rw [node_merge_node]
      split
      · next hef =>
        -- the weaker top stays, and its right part takes in the other heap
        refine above_wellFormed hl (ihr hr hb) ?_
        intro g hg
        rcases hg with hg | hg
        · exact hea g (List.mem_append_left _ hg)
        · rcases List.mem_append.1 ((merge_toList ..).mem_iff.1 hg) with hg | hg
          · exact hea g (List.mem_append_right _ hg)
          · exact Entry.weaker_trans hef (hfb g hg)
      · next hef =>
        have hfe : f.weaker e = true := (Entry.weaker_total f e).resolve_right hef
        obtain ⟨hfb', -, hl', hr'⟩ := hb
        refine above_wellFormed hl' (ihb hr') ?_
        intro g hg
        rcases hg with hg | hg
        · exact hfb' g (List.mem_append_left _ hg)
        · rcases List.mem_append.1 ((merge_toList ..).mem_iff.1 hg) with hg | hg
          · exact Entry.weaker_trans hfe (hea' g hg)
          · exact hfb' g (List.mem_append_right _ hg)

theorem push_wellFormed {h : Heap} (hw : h.WellFormed) (e : Entry) : (h.push e).WellFormed := by
  have hone : (node 1 e empty empty).WellFormed := ⟨by simp, by simp, trivial, trivial⟩
  exact merge_wellFormed hone hw

theorem pop_wellFormed {h : Heap} (hw : h.WellFormed) : h.pop.WellFormed := by
  cases h with
  | empty => exact hw
  | node n e l r => exact merge_wellFormed hw.2.2.1 hw.2.2.2

theorem keep_wellFormed (test : Entry → Bool) (h : Heap) : (h.keep test).WellFormed := by
  unfold keep
  generalize h.toList.filter test = es
  have go : ∀ (es : List Entry) (h : Heap), h.WellFormed → (es.foldl push h).WellFormed := by
    intro es
    induction es with
    | nil => exact fun h hw => hw
    | cons e es ih => exact fun h hw => ih _ (push_wellFormed hw e)
  exact go es empty wellFormed_empty

/-! ## Settling -/

/-- Dropping tops takes off entries that fail the test, and nothing else. -/
theorem dropTops_dropped (test : Entry → Bool) (steps : Nat) (h : Heap) :
    ∃ dropped, h.toList.Perm (dropped ++ (dropTops test steps h).toList) ∧
      ∀ e ∈ dropped, test e = false := by
  induction steps generalizing h with
  | zero => exact ⟨[], .refl _, by simp⟩
  | succ steps ih =>
    rw [dropTops]
    split
    · exact ⟨[], .refl _, by simp⟩
    · next e ht =>
      split
      · exact ⟨[], .refl _, by simp⟩
      · next hte =>
        obtain ⟨dropped, hp, hd⟩ := ih h.pop
        refine ⟨e :: dropped, (pop_toList ht).trans (hp.cons e), ?_⟩
        intro f hf
        rcases List.mem_cons.1 hf with rfl | hf
        · simpa using hte
        · exact hd f hf

theorem dropTops_wellFormed (test : Entry → Bool) (steps : Nat) {h : Heap} (hw : h.WellFormed) :
    (dropTops test steps h).WellFormed := by
  induction steps generalizing h with
  | zero => exact hw
  | succ steps ih =>
    rw [dropTops]
    split
    · exact hw
    · split
      · exact hw
      · exact ih (pop_wellFormed hw)

/-- As many steps as there are entries suffice to reach an entry that passes. -/
theorem dropTops_top {test : Entry → Bool} {steps : Nat} {h : Heap} {e : Entry}
    (hs : h.toList.length ≤ steps) (ht : (dropTops test steps h).top? = some e) :
    test e = true := by
  induction steps generalizing h with
  | zero =>
    -- without steps there were no entries, so there is no top
    have hnil : h.toList = [] := List.eq_nil_of_length_eq_zero (by omega)
    rw [dropTops] at ht
    have hmem := mem_of_top? ht
    rw [hnil] at hmem
    cases hmem
  | succ steps ih =>
    rw [dropTops] at ht
    split at ht
    · next hn => simp [hn] at ht
    · next f hf =>
      split at ht
      · next htf =>
        obtain rfl : f = e := by simpa [hf] using ht
        exact htf
      · have hlen := (pop_toList hf).length_eq
        rw [List.length_cons] at hlen
        exact ih (by omega) ht

theorem settle_dropped (test : Entry → Bool) (h : Heap) :
    ∃ dropped, h.toList.Perm (dropped ++ (h.settle test).toList) ∧
      ∀ e ∈ dropped, test e = false := dropTops_dropped test h.size h

theorem settle_wellFormed (test : Entry → Bool) {h : Heap} (hw : h.WellFormed) :
    (h.settle test).WellFormed := dropTops_wellFormed test h.size hw

theorem settle_top {test : Entry → Bool} {h : Heap} {e : Entry} (hw : h.WellFormed)
    (ht : (h.settle test).top? = some e) : test e = true :=
  dropTops_top (Nat.le_of_eq (size_eq_length hw).symm) ht

/-- Nothing is taken off a heap the top of which passes the test, nor off an empty one. -/
theorem dropTops_of_top {test : Entry → Bool} {h : Heap}
    (htop : ∀ e, h.top? = some e → test e = true) (steps : Nat) : dropTops test steps h = h := by
  cases steps with
  | zero => rfl
  | succ steps =>
    rw [dropTops]
    split
    · rfl
    · next e ht => rw [if_pos (htop e ht)]

/-- Settling a second time changes nothing. -/
theorem settle_settle (test : Entry → Bool) {h : Heap} (hw : h.WellFormed) :
    (h.settle test).settle test = h.settle test :=
  dropTops_of_top (fun _ ht => settle_top hw ht) _

end Heap

end TopPatterns

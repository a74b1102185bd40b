import TopPatterns.Proofs.Collector.Threshold
import TopPatterns.Proofs.Selection.Selects
import TopPatterns.Proofs.Selection.Union

/-!
# One for one

A subsuming collector may let one pattern take the place of several, and then it retains fewer than
before. Where a shelf selects from a family that cannot happen (`Shelf.Selects.single`). Two
patterns under a new one count as the same, and a selection has two such patterns only at a support
where it is blocked; but the new pattern has that support, and a blocked shelf refuses it.

In the midst of an insertion of a whole list the shelf selects from no family of supports as a
whole, for the list may be cut off, and below the cut patterns that count as the same may stand
beside each other. They do no harm either (`Mergeable.singles`). A pattern that came from the list
is never under a later one of the list, and two that were there before stood at a blocked support.
What was blocked stays so, by the very fact that one for one is exchanged.
-/

namespace TopPatterns

namespace Shelf

/-- If a shelf admits a pattern, this takes the place of one retained pattern at most. -/
def Single (s : Shelf) (p : Pattern) : Prop := s.offer p ≠ none → s.replacedBy p ≤ 1

/-- Patterns are offered one after the other, each taking the place of one pattern at most. -/
def Singles : Shelf → List Pattern → Prop
  | _, [] => True
  | s, p :: ps => s.Single p ∧ (s.insert p).Singles ps

variable {s : Shelf} {p : Pattern}

/-- An exchange of one for one does not lower the count. -/
theorem Single.count_le (h : s.Single p) : s.count ≤ (s.insert p).count := by
  by_cases hrefused : s.offer p = none
  · rw [insert_of_refused hrefused]
  · have hone := h hrefused
    rw [insert_of_admitted hrefused, count_accept]
    split <;> omega

/-- It leaves a full shelf full. -/
theorem Single.isFull (h : s.Single p) (hfull : s.isFull = true) :
    (s.insert p).isFull = true := by
  rw [← Bool.not_eq_false, isFull_insert_eq_false_iff hfull]
  intro hroom
  have hone := h hroom.1
  omega

variable {subsumes : Bool} {w : Weighing subsumes}

/-- A new set takes the place of one pattern at most, if patterns under it are equal wherever the
shelf is not blocked. -/
theorem Fresh.single (h : s.Fresh w p) (hpos : 0 < s.capacity)
    (hone : ¬Blocked s.capacity s.patterns p.support → ∀ r ∈ s.patterns, ∀ r' ∈ s.patterns,
      w.Under r p → w.Under r' p → r = r') : s.Single p := by
  intro hadmitted
  have hb : ¬Blocked s.capacity s.patterns p.support := fun hb =>
    hadmitted ((offer_eq_none_iff hpos).2 (Or.inr (Or.inl hb)))
  have hlate : s.count ≤ (s.keptBeside p).length + 1 := h.length_le_keptBeside (hone hb)
  have hkept := length_keptBeside_add s p
  omega

/-- **One offer to a selection.** A set that is not in the family takes the place of one pattern at
most. -/
theorem Selects.single {family : Set (Finset Item)} (h : s.Selects w 0 family) (hp : w.Exact p)
    (hnew : p.itemSet ∉ family) : s.Single p := by
  refine (h.fresh hp hnew).single h.capacity_pos fun hb r hr r' hr' hu hu' => ?_
  have hsupport := (h.selects.exact r hr).support_of_alike hp hu.1
  refine h.selects.eq_of_alike hr hr' (Weighing.trans hu.1 (Weighing.symm hu'.1)) (Nat.zero_le _) ?_
  rwa [hsupport]

end Shelf

namespace Mergeable

variable {subsumes : Bool} {w : Weighing subsumes} {k : Nat} {family family' : Set (Finset Item)}
  {ps : List Pattern} {start s : Shelf} {done : List Pattern} {p : Pattern}

/-- A shelf in the midst of the insertion of a list: it holds patterns that were there at the start
and patterns of the list, and is blocked wherever it was blocked at the start. -/
structure Midst (w : Weighing subsumes) (start : Shelf) (done : List Pattern) (s : Shelf) :
    Prop where
  subsumes_eq : s.subsumes = subsumes
  capacity_eq : s.capacity = start.capacity
  count_le : s.count ≤ s.capacity
  nodup : s.patterns.Nodup
  exact : ∀ r ∈ s.patterns, w.Exact r
  mem_or : ∀ r ∈ s.patterns, r ∈ start.patterns ∨ r ∈ done
  blocked : ∀ support, Blocked s.capacity start.patterns support →
    Blocked s.capacity s.patterns support

theorem midst_start (h : start.Selects w 0 family) : Midst w start [] start where
  subsumes_eq := h.subsumes_eq
  capacity_eq := rfl
  count_le := h.selects.length_le
  nodup := h.selects.nodup
  exact := h.selects.exact
  mem_or := fun _ hr => Or.inl hr
  blocked := fun _ hb => hb

/-- A pattern of the list is new in the midst of the list. -/
theorem Midst.fresh (hm : Mergeable w k family family' ps) (h : start.Selects w 0 family)
    (hs : Midst w start done s) (hdone : ∀ d ∈ done, d ∈ ps) (hp : p ∈ ps) (hnew : p ∉ done) :
    s.Fresh w p where
  subsumes_eq := hs.subsumes_eq
  count_le := hs.count_le
  nodup := hs.nodup
  exact_of_mem := hs.exact
  exact := hm.selects.exact p hp
  ne_of_mem := by
    intro q hq heq
    rcases hs.mem_or q hq with hold | hlist
    · exact hm.fresh _ (hm.selects.within p hp) _ (h.selects.within q hold)
        (heq ▸ Finset.Subset.refl _)
    · exact hnew (hm.selects.eq_of_itemSet_eq (hdone q hlist) hp heq ▸ hlist)

/-- Patterns under one of the list were there at the start, and are equal unless it is blocked. -/
theorem Midst.eq_of_under (hm : Mergeable w k family family' ps) (h : start.Selects w 0 family)
    (hs : Midst w start done s) (hdone : ∀ d ∈ done, d ∈ ps) (hp : p ∈ ps) (hnew : p ∉ done)
    (hb : ¬Blocked s.capacity s.patterns p.support) :
    ∀ r ∈ s.patterns, ∀ r' ∈ s.patterns, w.Under r p → w.Under r' p → r = r' := by
  have hstart : ∀ r ∈ s.patterns, w.Under r p → r ∈ start.patterns := by
    intro r hr hu
    rcases hs.mem_or r hr with hold | hlist
    · exact hold
    · -- of the list itself no pattern is under another one
      exact absurd (hm.selects.apart r (hdone r hlist) p hp hu ▸ hlist) hnew
  intro r hr r' hr' hu hu'
  have hsupport := (hs.exact r hr).support_of_alike (hm.selects.exact p hp) hu.1
  refine h.selects.eq_of_alike (hstart r hr hu) (hstart r' hr' hu')
    (Weighing.trans hu.1 (Weighing.symm hu'.1)) (Nat.zero_le _) fun hblocked => hb ?_
  rw [hsupport, ← hs.capacity_eq] at hblocked
  exact hs.blocked _ hblocked

/-- A pattern of the list that is refused leaves the shelf as it is. -/
theorem Midst.refused (hs : Midst w start done s) (p : Pattern) : Midst w start (done ++ [p]) s :=
  { hs with mem_or := fun r hr => (hs.mem_or r hr).imp_right (List.mem_append_left _) }

/-- A pattern of the list that is admitted takes the place of one pattern at most, so that a full
shelf stays full. -/
theorem Midst.admitted (hm : Mergeable w k family family' ps) (h : start.Selects w 0 family)
    (hs : Midst w start done s) (hdone : ∀ d ∈ done, d ∈ ps) (hp : p ∈ ps) (hnew : p ∉ done)
    (ha : Admitted w s.capacity p s.patterns (s.insert p).patterns) :
    Midst w start (done ++ [p]) (s.insert p) where
  subsumes_eq := (s.subsumes_insert p).trans hs.subsumes_eq
  capacity_eq := (s.capacity_insert p).trans hs.capacity_eq
  count_le := by
    rw [Shelf.capacity_insert]
    exact ha.length_le
  nodup := ha.nodup
  exact := by
    intro r hr
    rcases ha.mem_or r hr with rfl | ⟨hold, -⟩
    · exact hm.selects.exact r hp
    · exact hs.exact r hold
  mem_or := by
    intro r hr
    rcases ha.mem_or r hr with rfl | ⟨hold, -⟩
    · exact Or.inr (List.mem_append_right _ (List.mem_singleton_self r))
    · exact (hs.mem_or r hold).imp_right (List.mem_append_left _)
  blocked := by
    intro support hstart
    rw [Shelf.capacity_insert] at hstart ⊢
    have hb := hs.blocked support hstart
    refine ⟨ha.full hb.1 (hs.eq_of_under hm h hdone hp hnew ha.not_blocked), fun r hr => ?_⟩
    rcases ha.mem_or r hr with rfl | ⟨hold, -⟩
    · exact Nat.le_of_lt (Selects.lt_of_admitted ha hb)
    · exact hb.2 r hold

/-- One more pattern of the list. -/
theorem Midst.insert (hm : Mergeable w k family family' ps) (h : start.Selects w 0 family)
    (hs : Midst w start done s) (hdone : ∀ d ∈ done, d ∈ ps) (hp : p ∈ ps) (hnew : p ∉ done) :
    Midst w start (done ++ [p]) (s.insert p) := by
  have hpos : 0 < s.capacity := hs.capacity_eq ▸ h.capacity_pos
  rcases (hs.fresh hm h hdone hp hnew).insert_outcome hpos with ⟨he, -⟩ | ha
  · rw [he]
    exact hs.refused p
  · exact hs.admitted hm h hdone hp hnew ha

/-- **A list offered to a selection.** If the list may be merged, each of its patterns takes the
place of one pattern at most. -/
theorem singles (hm : Mergeable w k family family' ps) (h : start.Selects w 0 family) :
    start.Singles ps := by
  -- the list is split into what has been offered and the rest
  have hrun : ∀ (rest done : List Pattern) {s : Shelf}, done ++ rest = ps → Midst w start done s →
      s.Singles rest := by
    intro rest
    induction rest with
    | nil => exact fun _ _ _ _ => trivial
    | cons p rest ih =>
      intro done s hsplit hs
      have hdone : ∀ d ∈ done, d ∈ ps := fun d hd => hsplit ▸ List.mem_append_left _ hd
      have hp : p ∈ ps := hsplit ▸ List.mem_append_right _ (List.mem_cons_self ..)
      have hnew : p ∉ done := by
        have hnodup := hm.selects.nodup
        rw [← hsplit] at hnodup
        exact fun hd => (List.nodup_append.1 hnodup).2.2 p hd p (List.mem_cons_self ..) rfl
      have hpos : 0 < s.capacity := hs.capacity_eq ▸ h.capacity_pos
      refine ⟨(hs.fresh hm h hdone hp hnew).single hpos ?_, ?_⟩
      · exact hs.eq_of_under hm h hdone hp hnew
      · refine ih (done ++ [p]) ?_ (hs.insert hm h hdone hp hnew)
        rw [List.append_assoc, List.singleton_append, hsplit]
  exact hrun ps [] (List.nil_append ps) (midst_start h)

end Mergeable

end TopPatterns

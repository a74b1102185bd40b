import Mathlib
import TopPatterns.Proofs.Collector.Admission
import TopPatterns.Proofs.Collector.Reached

/-!
# What subsumption keeps

Two properties of collectors, for any calls in any order. On a collector that subsumes, the retained
patterns are apart: of two of equal support, neither is redundant beside the other (`reached_apart`,
which also says when a pattern is refused and what a refusal leaves). And no pattern is lost
silently: after it was offered, it is covered by a retained pattern of its support until, at some
moment, the collector is full of patterns that are no weaker (`inserted_covered`).

The second property is one of the whole history. The pattern that covers may itself give way to a
more specific one, which then covers in its place, for being a sub-pattern is transitive; or it is
evicted, and then the collector is blocked at its support.
-/

namespace TopPatterns

namespace Pattern

theorem isSubPatternOf_trans {p q r : Pattern} (hpq : p.isSubPatternOf q = true)
    (hqr : q.isSubPatternOf r = true) : p.isSubPatternOf r = true := by
  rw [isSubPatternOf_iff] at hpq hqr ⊢
  exact ⟨Nat.le_trans hpq.1 hqr.1, List.Subset.trans hpq.2 hqr.2⟩

theorem redundantBeside_refl (p : Pattern) : p.redundantBeside p = true :=
  redundantBeside_iff.2 ⟨rfl, isSubPatternOf_refl p⟩

theorem redundantBeside_trans {p q r : Pattern} (hpq : p.redundantBeside q = true)
    (hqr : q.redundantBeside r = true) : p.redundantBeside r = true := by
  rw [redundantBeside_iff] at hpq hqr ⊢
  exact ⟨hpq.1.trans hqr.1, isSubPatternOf_trans hpq.2 hqr.2⟩

end Pattern

namespace Shelf

variable {s : Shelf} {p : Pattern}

/-! ## Apart -/

/-- Of two retained patterns, neither is redundant beside the other. -/
def Apart (s : Shelf) : Prop :=
  s.patterns.Pairwise fun p q => p.redundantBeside q = false ∧ q.redundantBeside p = false

/-- The patterns that stay beside a new one are apart from it, if it is not redundant itself. -/
theorem apart_keptBeside (hs : s.subsumes = true) (h : s.Apart)
    (hp : ∀ q ∈ s.patterns, p.redundantBeside q = false) :
    (s.keptBeside p ++ [p]).Pairwise fun p q =>
      p.redundantBeside q = false ∧ q.redundantBeside p = false := by
  have hsub := keptBeside_sublist s p
  refine List.pairwise_append.2 ⟨h.sublist hsub, List.pairwise_singleton _ p, ?_⟩
  intro q hq r hr
  rw [List.mem_singleton.1 hr]
  exact ⟨(mem_keptBeside.1 hq).2 hs, hp q (hsub.subset hq)⟩

theorem apart_accept (hs : s.subsumes = true) (h : s.Apart)
    (hp : ∀ q ∈ s.patterns, p.redundantBeside q = false) : (s.accept p).Apart := by
  have hkept := apart_keptBeside hs h hp
  unfold Apart accept
  dsimp only
  split
  · exact hkept.sublist List.eraseP_sublist
  · exact hkept

/-- Every offer to a subsuming shelf leaves its patterns apart. -/
theorem apart_insert (hs : s.subsumes = true) (hpos : 0 < s.capacity) (h : s.Apart) (p : Pattern) :
    (s.insert p).Apart := by
  by_cases hrefused : s.offer p = none
  · rwa [insert_of_refused hrefused]
  · rw [insert_of_admitted hrefused]
    rw [offer_eq_none_iff hpos, not_or, not_or] at hrefused
    refine apart_accept hs h fun q hq => ?_
    rw [Bool.eq_false_iff]
    exact fun hred => hrefused.2.2 ⟨hs, q, hq, hred⟩

/-! ## Covered -/

/-- A pattern is redundant beside a retained one, or is retained itself. -/
def Covers (s : Shelf) (p : Pattern) : Prop := ∃ q ∈ s.patterns, p.redundantBeside q = true

/-- A pattern that is offered is covered afterwards, or the shelf is blocked at its support. -/
theorem covers_insert_self (hpos : 0 < s.capacity) (hp : p.items ≠ []) :
    (s.insert p).Covers p ∨ Blocked (s.insert p).capacity (s.insert p).patterns p.support := by
  by_cases hrefused : s.offer p = none
  · rw [insert_of_refused hrefused]
    rcases (offer_eq_none_iff hpos).1 hrefused with hnil | hb | ⟨-, hcovers⟩
    · exact absurd hnil hp
    · exact Or.inr hb
    · exact Or.inl hcovers
  · rw [insert_of_admitted hrefused]
    rw [offer_eq_none_iff hpos, not_or, not_or] at hrefused
    exact Or.inl ⟨p, mem_accept hrefused.2.1, p.redundantBeside_refl⟩

/-- A pattern that is covered is covered after another offer as well, or the shelf is blocked at its
support. -/
theorem covers_insert (hpos : 0 < s.capacity) (h : s.Covers p) (r : Pattern) :
    (s.insert r).Covers p ∨ Blocked (s.insert r).capacity (s.insert r).patterns p.support := by
  by_cases hrefused : s.offer r = none
  · rw [insert_of_refused hrefused]
    exact Or.inl h
  · rw [insert_of_admitted hrefused]
    rw [offer_eq_none_iff hpos, not_or, not_or] at hrefused
    have hb := hrefused.2.1
    obtain ⟨q, hq, hpq⟩ := h
    -- the pattern that covers stays, gives way to the new one, or is evicted
    rcases mem_accept_or hb hq with hstays | ⟨-, hqr⟩ | hblocked
    · exact Or.inl ⟨q, hstays, hpq⟩
    · exact Or.inl ⟨r, mem_accept hb, Pattern.redundantBeside_trans hpq hqr⟩
    · rw [← (Pattern.redundantBeside_iff.1 hpq).1] at hblocked
      exact Or.inr hblocked

/-- A covered pattern stays covered through any offers, as long as the shelf is not blocked at its
support. -/
theorem covers_foldl_insert (hpos : 0 < s.capacity) (h : s.Covers p) (later : List Pattern) :
    (later.foldl insert s).Covers p ∨ ∃ sofar, sofar <+: later ∧
      Blocked (sofar.foldl insert s).capacity (sofar.foldl insert s).patterns p.support := by
  induction later generalizing s with
  | nil => exact Or.inl h
  | cons r later ih =>
    rcases covers_insert hpos h r with hcovers | hb
    · rcases ih (by rwa [capacity_insert]) hcovers with hlater | ⟨sofar, hpre, hb⟩
      · exact Or.inl hlater
      · exact Or.inr ⟨r :: sofar, List.cons_prefix_cons.2 ⟨rfl, hpre⟩, hb⟩
    · exact Or.inr ⟨[r], List.cons_prefix_cons.2 ⟨rfl, List.nil_prefix⟩, hb⟩

/-- From its offer on, a pattern is covered as long as the shelf has not been blocked at its
support. -/
theorem covers_of_offered (hpos : 0 < s.capacity) (hp : p.items ≠ []) (later : List Pattern) :
    (later.foldl insert (s.insert p)).Covers p ∨ ∃ sofar, sofar <+: later ∧
      Blocked (sofar.foldl insert (s.insert p)).capacity
        (sofar.foldl insert (s.insert p)).patterns p.support := by
  rcases covers_insert_self hpos hp with hcovers | hb
  · exact covers_foldl_insert (by rwa [capacity_insert]) hcovers later
  · exact Or.inr ⟨[], List.nil_prefix, hb⟩

end Shelf

namespace Collector

variable {ι : Type} [DecidableEq ι]

/-- **Patterns stay apart.** Whatever calls are made to a family of new collectors, of two patterns
of equal support on one that subsumes neither is a sub-pattern of the other. A further offer is
refused if the pattern has no items, if the collector is full of patterns that are no weaker, or if
it subsumes and a retained pattern of equal support has all items; the ranked patterns are then as
before. A pattern that is not refused is retained. -/
theorem reached_apart (capacity : ι → Nat) (subsumes : ι → Bool)
    (capacity_pos : ∀ i, 0 < capacity i) (calls : List (Call ι)) (i : ι) (hs : subsumes i = true) :
    let c := after (fun i => empty (capacity i) (subsumes i) (capacity_pos i)) calls i
    (c.retained.Pairwise fun p q => p.support = q.support →
      p.isSubPatternOf q = false ∧ q.isSubPatternOf p = false) ∧
    ∀ p,
      (c.offer p = none ↔ p.items = [] ∨ (c.isFull = true ∧ p.support ≤ c.leastSupport) ∨
        ∃ q ∈ c.retained, q.support = p.support ∧ p.isSubPatternOf q = true) ∧
      (c.offer p = none → (c.insert p).ranked = c.ranked) ∧
      (c.offer p ≠ none → p ∈ (c.insert p).retained) := by
  intro c
  obtain ⟨hvalid, -, hsubsumes⟩ := after_empty capacity subsumes capacity_pos calls i
  have hc : c.subsumes = true := hsubsumes.trans hs
  obtain ⟨-, -, -, hapart⟩ := after_preserves
    (P := fun i s => s.capacity = capacity i ∧ s.subsumes = subsumes i ∧
      (subsumes i = true → s.Apart))
    (fun i s p hP => ⟨by rw [Shelf.capacity_insert, hP.1], by rw [Shelf.subsumes_insert, hP.2.1],
      fun hi => Shelf.apart_insert (hP.2.1.trans hi) (hP.1 ▸ capacity_pos i) (hP.2.2 hi) p⟩)
    (fun i => empty_valid (capacity_pos i)) (fun i => ⟨rfl, rfl, fun _ => List.Pairwise.nil⟩)
    calls i
  refine ⟨(hapart hs).imp fun hpq hsup => ?_, fun p => ⟨?_, ranked_insert_of_refused, ?_⟩⟩
  · simpa [Pattern.redundantBeside, hsup] using hpq
  · rw [offer_eq_none_iff hvalid, and_iff_right hc]
  · exact mem_retained_insert hvalid

/-- A collector of three places, after a merge with another one and a merge with itself: one offer
is refused, the next is admitted. -/
theorem reached_apart_after_merges :
    let p (items : List Int) (support : Nat) : Pattern := ⟨items.map Item.number, support⟩
    let calls : List (Call Bool) :=
      [.insert true (p [1] 5), .insert true (p [1, 2] 5), .insert false (p [3] 8),
        .merge true false (.number 4) 5, .merge true true (.number 1) 5]
    let c := after (fun i : Bool => empty 3 i (by decide)) calls true
    ((∀ _ : Bool, 0 < (3 : Nat)) ∧ true = true) ∧
      c.retained = [p [1, 2, 1] 5, p [3, 4, 1] 5] ∧
      (c.retained.Pairwise fun p q => p.support = q.support →
        p.isSubPatternOf q = false ∧ q.isSubPatternOf p = false) ∧
      (c.insert (p [4, 3] 5)).ranked = c.ranked ∧ p [4] 6 ∈ (c.insert (p [4] 6)).retained := by
  intro p calls c
  obtain ⟨hapart, hoffer⟩ :=
    reached_apart (fun _ => 3) (fun i : Bool => i) (by decide) calls true rfl
  have hretained : c.retained = [p [1, 2, 1] 5, p [3, 4, 1] 5] := by
    simp only [c, calls, p]
    cbv
  have hrefused : c.offer (p [4, 3] 5) = none := by
    refine (hoffer _).1.2 (Or.inr (Or.inr ⟨p [3, 4, 1] 5, ?_, rfl, by decide⟩))
    exact hretained ▸ List.mem_cons_of_mem _ (List.mem_singleton_self _)
  have hadmitted : c.offer (p [4] 6) ≠ none := by
    refine Option.isSome_iff_ne_none.1 ?_
    simp only [c, calls, p]
    cbv
  exact ⟨⟨by decide, rfl⟩, hretained, hapart, (hoffer _).2.1 hrefused, (hoffer _).2.2 hadmitted⟩

/-- **No pattern is lost silently.** Offer a pattern with items to a collector, subsuming or not,
whatever calls were made before, and then any others. The pattern is retained, or a retained pattern
of equal support has all of its items, or at some moment since its offer the collector was full of
patterns that are no weaker. If the collector has not been full since, it is retained or covered. -/
theorem inserted_covered (capacity : ι → Nat) (subsumes : ι → Bool)
    (capacity_pos : ∀ i, 0 < capacity i) (calls : List (Call ι)) (i : ι) (p : Pattern)
    (hp : p.items ≠ []) (later : List Pattern) :
    let c := after (fun i => empty (capacity i) (subsumes i) (capacity_pos i)) calls i
    let now := c.insertAll (p :: later)
    (p ∈ now.retained ∨
      (∃ q ∈ now.retained, q.support = p.support ∧ p.isSubPatternOf q = true) ∨
      ∃ sofar, sofar <+: later ∧ (c.insertAll (p :: sofar)).isFull = true ∧
        p.support ≤ (c.insertAll (p :: sofar)).leastSupport) ∧
    ((∀ sofar, sofar <+: later → (c.insertAll (p :: sofar)).isFull = false) →
      p ∈ now.retained ∨
        ∃ q ∈ now.retained, q.support = p.support ∧ p.isSubPatternOf q = true) := by
  intro c now
  obtain ⟨hvalid, -, -⟩ := after_empty capacity subsumes capacity_pos calls i
  have hshelf := fun ps => insertAll_shelf hvalid ps
  have hcovered : (∃ q ∈ now.retained, q.support = p.support ∧ p.isSubPatternOf q = true) ∨
      ∃ sofar, sofar <+: later ∧ (c.insertAll (p :: sofar)).isFull = true ∧
        p.support ≤ (c.insertAll (p :: sofar)).leastSupport := by
    rcases Shelf.covers_of_offered (s := c.shelf) c.capacity_pos hp later with
      ⟨q, hq, hpq⟩ | ⟨sofar, hpre, hb⟩
    · rw [← List.foldl_cons, ← (hshelf _).2] at hq
      obtain ⟨hsup, hsub⟩ := Pattern.redundantBeside_iff.1 hpq
      exact Or.inl ⟨q, hq, hsup.symm, hsub⟩
    · rw [← List.foldl_cons, ← (hshelf _).2] at hb
      exact Or.inr ⟨sofar, hpre, (blocked_iff (hshelf _).1).1 hb⟩
  refine ⟨Or.inr hcovered, fun hroom => Or.inr (hcovered.resolve_right ?_)⟩
  intro hfull
  obtain ⟨sofar, hpre, hfull, -⟩ := hfull
  rw [hroom sofar hpre] at hfull
  cases hfull

/-- On a collector of two places a pattern is covered by one that takes its place; when this one is
evicted, the collector is full of patterns that are no weaker. -/
theorem inserted_covered_until_evicted :
    let p (items : List Int) (support : Nat) : Pattern := ⟨items.map Item.number, support⟩
    let c := after (fun _ : Unit => empty 2 true (by decide)) [.insert () (p [8] 3)] ()
    let sofar := [p [1, 2] 5, p [7] 6]
    let later := sofar ++ [p [9] 7]
    ((∀ _ : Unit, 0 < (2 : Nat)) ∧ (p [1] 5).items ≠ []) ∧
      (c.insertAll (p [1] 5 :: sofar)).retained = [p [1, 2] 5, p [7] 6] ∧
      (c.insertAll (p [1] 5 :: later)).retained = [p [7] 6, p [9] 7] ∧
      ∃ sofar, sofar <+: later ∧ (c.insertAll (p [1] 5 :: sofar)).isFull = true ∧
        5 ≤ (c.insertAll (p [1] 5 :: sofar)).leastSupport := by
  intro p c sofar later
  have hcovering : (c.insertAll (p [1] 5 :: sofar)).retained = [p [1, 2] 5, p [7] 6] := by
    simp only [c, sofar, p]
    cbv
  have hnow : (c.insertAll (p [1] 5 :: later)).retained = [p [7] 6, p [9] 7] := by
    simp only [c, later, sofar, p]
    cbv
  have hcovered := (inserted_covered (fun _ => 2) (fun _ => true) (fun _ => by decide)
    [.insert () (p [8] 3)] () (p [1] 5) (by decide) later).1
  refine ⟨⟨fun _ => by decide, by decide⟩, hcovering, hnow, ?_⟩
  -- neither pattern that is left has the item
  have hnone : ∀ q ∈ [p [7] 6, p [9] 7], (p [1] 5).isSubPatternOf q = false := by decide
  rcases hcovered with hmem | ⟨q, hmem, -, hsub⟩ | hfull
  · rw [hnow] at hmem
    exact absurd hmem (by decide)
  · rw [hnow] at hmem
    rw [hnone q hmem] at hsub
    cases hsub
  · exact hfull

end Collector

end TopPatterns

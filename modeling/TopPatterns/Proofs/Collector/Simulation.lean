import TopPatterns.Proofs.Collector.Sound

/-!
# A collector and its shelf

The shelf of a collector forgets heap, numbers and index. `offer_shelf` says that an offer to a
collector and the offer to its shelf have the same outcome, `leastSupport_shelf`, `admits_shelf` and
`ranked_shelf` that the queries agree, and `mergeAll_shelf` carries this through a whole merge, the
error of a negative support included.

All of it holds of valid collectors, those with tables in step and no more patterns than the
capacity. `empty_valid`, `insert_valid`, `mergeAll_valid` and `settle_valid` say that every
collector that can be reached is one.
-/

namespace TopPatterns

namespace Collector

variable {c : Collector}

/-- The collector as a plain list. -/
def shelf (c : Collector) : Shelf := ⟨c.capacity, c.subsumes, c.retained⟩

@[simp] theorem patterns_shelf (c : Collector) : c.shelf.patterns = c.retained := rfl

@[simp] theorem capacity_shelf (c : Collector) : c.shelf.capacity = c.capacity := rfl

@[simp] theorem subsumes_shelf (c : Collector) : c.shelf.subsumes = c.subsumes := rfl

/-- Tables in step, and no more patterns than the capacity. -/
structure Valid (c : Collector) : Prop extends Sound c where
  count_le : c.count ≤ c.capacity

theorem empty_valid {capacity : Nat} {subsumes : Bool} (h : 0 < capacity) :
    (empty capacity subsumes h).Valid :=
  ⟨empty_sound h, Nat.zero_le _⟩

/-! ## Queries -/

theorem count_shelf (c : Collector) : c.shelf.count = c.count := count_eq_length.symm

theorem isFull_shelf (c : Collector) : c.shelf.isFull = c.isFull := by
  rw [Shelf.isFull, isFull, count_shelf]; rfl

theorem leastSupport_shelf (h : c.Heaped) : c.shelf.leastSupport = c.leastSupport :=
  (leastSupport_eq h).symm

theorem admits_shelf (h : c.Heaped) (support : Int) :
    c.shelf.admits support = c.admits support := by
  rw [Shelf.admits, admits, count_shelf, leastSupport_shelf h]; rfl

theorem ranked_shelf (c : Collector) : c.shelf.ranked = c.ranked := rfl

@[simp] theorem shelf_settle (c : Collector) : c.settle.shelf = c.shelf := rfl

@[simp] theorem shelf_tested (c : Collector) : c.tested.shelf = c.shelf := by
  unfold tested; split <;> rfl

theorem settle_valid (h : c.Valid) : c.settle.Valid := ⟨settle_sound h.toSound, h.count_le⟩

theorem tested_valid (h : c.Valid) : c.tested.Valid := by
  unfold tested
  split
  · exact settle_valid h
  · exact h

/-! ## The index answers as the list does -/

theorem mem_rivals (h : c.Indexed) (hs : c.subsumes = true) {support n : Nat} {q : Pattern} :
    (n, q) ∈ c.rivals support ↔ c.live[n]? = some q ∧ q.support = support := by
  rw [rivals, List.mem_filterMap]
  constructor
  · intro hn
    obtain ⟨m, hm, hmap⟩ := hn
    obtain ⟨r, hr, hmr⟩ := Option.map_eq_some_iff.1 hmap
    obtain ⟨rfl, rfl⟩ := Prod.mk.inj hmr
    obtain ⟨r', hr', hsup⟩ := (h.listed hs support m).1 hm
    obtain rfl : r = r' := Option.some.inj (hr.symm.trans hr')
    exact ⟨hr, hsup⟩
  · intro hn
    obtain ⟨hn, hsup⟩ := hn
    exact ⟨n, (h.listed hs support n).2 ⟨q, hn, hsup⟩, by rw [hn]; rfl⟩

theorem redundantTo_eq_none_iff (h : c.Indexed) (hs : c.subsumes = true) {p : Pattern} :
    c.redundantTo p = none ↔ c.retained.any p.redundantBeside = true := by
  have hany : (c.rivals p.support).any (fun e => p.isSubPatternOf e.2) =
      c.retained.any p.redundantBeside := by
    rw [Bool.eq_iff_iff, List.any_eq_true, List.any_eq_true]
    constructor
    · intro hany
      obtain ⟨⟨n, q⟩, hm, hsub⟩ := hany
      obtain ⟨hlive, hsup⟩ := (mem_rivals h hs).1 hm
      exact ⟨q, mem_retained.2 ⟨n, hlive⟩, Pattern.redundantBeside_iff.2 ⟨hsup.symm, hsub⟩⟩
    · intro hany
      obtain ⟨q, hm, hred⟩ := hany
      obtain ⟨n, hlive⟩ := mem_retained.1 hm
      obtain ⟨hsup, hsub⟩ := Pattern.redundantBeside_iff.1 hred
      exact ⟨(n, q), (mem_rivals h hs).2 ⟨hlive, hsup.symm⟩, hsub⟩
  rw [← hany, redundantTo]
  split
  · next hr => simp [hr]
  · next hr => simpa using hr

/-- The numbers to discard are those of the retained patterns that become redundant. -/
theorem mem_of_redundantTo (h : c.Indexed) (hs : c.subsumes = true) {p : Pattern}
    {numbers : List Nat} (hr : c.redundantTo p = some numbers) (n : Nat) :
    n ∈ numbers ↔ ∃ q, c.live[n]? = some q ∧ q.redundantBeside p = true := by
  rw [redundantTo] at hr
  split at hr
  · simp at hr
  · obtain rfl := Option.some.inj hr
    rw [List.mem_map]
    constructor
    · intro hn
      obtain ⟨⟨m, q⟩, hm, rfl⟩ := hn
      obtain ⟨hm, hsub⟩ := List.mem_filter.1 hm
      obtain ⟨hlive, hsup⟩ := (mem_rivals h hs).1 hm
      exact ⟨q, hlive, Pattern.redundantBeside_iff.2 ⟨hsup, hsub⟩⟩
    · intro hn
      obtain ⟨q, hlive, hred⟩ := hn
      obtain ⟨hsup, hsub⟩ := Pattern.redundantBeside_iff.1 hred
      exact ⟨(n, q), List.mem_filter.2 ⟨(mem_rivals h hs).2 ⟨hlive, hsup⟩, hsub⟩, rfl⟩

/-! ## Admitting -/

/-- What is left after discarding the numbers of the redundant patterns. -/
theorem filter_not_mem_numbers {p : Pattern} {numbers : List Nat}
    (hmem : ∀ n, n ∈ numbers ↔ ∃ q, c.live[n]? = some q ∧ q.redundantBeside p = true) :
    (c.live.toList.filter fun a => a.1 ∉ numbers).map Prod.snd =
      c.retained.filter fun q => !q.redundantBeside p := by
  rw [retained, List.filter_map]
  refine congrArg _ (List.filter_congr fun a ha => ?_)
  have hlive := mem_live_toList.1 ha
  have hiff : a.1 ∈ numbers ↔ a.2.redundantBeside p = true := by
    rw [hmem]
    constructor
    · intro hany
      obtain ⟨q, hq, hred⟩ := hany
      obtain rfl : a.2 = q := Option.some.inj (hlive.symm.trans hq)
      exact hred
    · exact fun hred => ⟨a.2, hlive, hred⟩
  rw [Bool.eq_iff_iff]
  simp [hiff]

theorem replace_spec (h : c.Sound) (hs : c.subsumes = true) {p : Pattern} {numbers : List Nat}
    (hr : c.redundantTo p = some numbers) :
    (c.replace numbers p).Sound ∧ (c.replace numbers p).capacity = c.capacity ∧
      (c.replace numbers p).retained = c.shelf.keptBeside p ++ [p] := by
  obtain ⟨hsound, -⟩ := foldl_discard_sound h hs numbers
  obtain ⟨hcap, -, hlive⟩ := foldl_discard_fields (c := c) numbers
  refine ⟨compact_sound (push_sound hsound p), ?_, ?_⟩
  · rw [replace, capacity_compact]; exact hcap
  · rw [replace, retained_compact, retained_push hsound.toHeaped, retained, hlive,
      filter_not_mem_numbers (mem_of_redundantTo h.toIndexed hs hr), Shelf.keptBeside,
      subsumes_shelf, hs, if_pos rfl, patterns_shelf]

@[simp] theorem subsumes_replace (numbers : List Nat) (p : Pattern) :
    (c.replace numbers p).subsumes = c.subsumes := by
  rw [replace, subsumes_compact]
  show (numbers.foldl discard c).subsumes = c.subsumes
  induction numbers generalizing c with
  | nil => rfl
  | cons n ns ih => rw [List.foldl_cons, ih, subsumes_discard]

/-- No number is discarded exactly if the shelf keeps all of its patterns. -/
theorem isEmpty_numbers (h : c.Indexed) (hs : c.subsumes = true) {p : Pattern} {numbers : List Nat}
    (hr : c.redundantTo p = some numbers) :
    numbers.isEmpty = decide ((c.shelf.keptBeside p).length = c.shelf.patterns.length) := by
  rw [Bool.eq_iff_iff, decide_eq_true_iff, List.isEmpty_iff, Shelf.keptBeside, subsumes_shelf, hs,
    if_pos rfl, patterns_shelf, List.length_filter_eq_length_iff]
  have hmem := mem_of_redundantTo h hs hr
  constructor
  · intro hnil q hq
    subst hnil
    obtain ⟨n, hn⟩ := mem_retained.1 hq
    by_contra hred
    have hred' : q.redundantBeside p = true := by simpa using hred
    exact List.not_mem_nil ((hmem n).2 ⟨q, hn, hred'⟩)
  · intro hall
    refine List.eq_nil_iff_forall_not_mem.2 fun n hn => ?_
    obtain ⟨q, hq, hred⟩ := (hmem n).1 hn
    have hkept := hall q (mem_retained.2 ⟨n, hq⟩)
    rw [hred] at hkept
    cases hkept

/-- Admitting a pattern puts it behind those that stay beside it. -/
theorem add_spec (h : c.Sound) (p : Pattern) :
    match c.add p with
    | none => c.subsumes = true ∧ c.retained.any p.redundantBeside = true
    | some (c', replaced) =>
      (c.subsumes && c.retained.any p.redundantBeside) = false ∧ c'.Sound ∧
        c'.capacity = c.capacity ∧ c'.subsumes = c.subsumes ∧
        c'.retained = c.shelf.keptBeside p ++ [p] ∧
        replaced = !decide ((c.shelf.keptBeside p).length = c.shelf.patterns.length) := by
  rw [add]
  by_cases hs : c.subsumes = true
  · rw [if_pos hs]
    cases hr : c.redundantTo p with
    | none => exact ⟨hs, (redundantTo_eq_none_iff h.toIndexed hs).1 hr⟩
    | some numbers =>
      obtain ⟨hsound, hcap, hret⟩ := replace_spec h hs hr
      refine ⟨?_, hsound, hcap, subsumes_replace _ _, hret,
        by rw [isEmpty_numbers h.toIndexed hs hr]⟩
      have hnone : ¬c.redundantTo p = none := by rw [hr]; simp
      rw [redundantTo_eq_none_iff h.toIndexed hs] at hnone
      simpa [hs] using hnone
  · -- a collector that does not subsume pushes only, and its shelf keeps all
    have hs' : c.subsumes = false := by simpa using hs
    have hkept : c.shelf.keptBeside p = c.retained := by simp [Shelf.keptBeside, hs']
    rw [if_neg hs]
    refine ⟨by simp [hs'], push_sound h p, rfl, rfl, ?_, by simp [hkept]⟩
    rw [hkept, retained_push h.toHeaped]

/-- An offer to a collector has the outcome of the offer to its shelf. -/
theorem offer_shelf (h : c.Valid) (p : Pattern) : (c.offer p).map shelf = c.shelf.offer p := by
  have ht := tested_valid h
  rw [offer, Shelf.offer, isFull_shelf, leastSupport_shelf h.toHeaped]
  split
  · rfl
  · split
    · rfl
    · -- the test of the support only settles the heap, which the shelf does not see
      have hadd := add_spec ht.toSound p
      rw [subsumes_tested, retained_tested, capacity_tested, shelf_tested] at hadd
      cases hr : c.tested.add p with
      | none =>
        rw [hr] at hadd
        simp [hadd.1, hadd.2]
      | some added =>
        obtain ⟨c', replaced⟩ := added
        rw [hr] at hadd
        obtain ⟨hno, hsound, hcap, hsub, hret, hrep⟩ := hadd
        rw [subsumes_shelf, patterns_shelf, hno, if_neg (by simp), Option.map_some, Option.map_some,
          Shelf.accept, isFull_shelf]
        dsimp only
        subst hrep
        rw [Bool.not_not]
        split
        · rw [shelf, capacity_evict, subsumes_evict, retained_evict hsound.toHeaped, hcap, hsub,
            hret]
          rfl
        · rw [shelf, hcap, hsub, hret]
          rfl

theorem offer_sound (h : c.Sound) {p : Pattern} {c' : Collector} (ho : c.offer p = some c') :
    c'.Sound := by
  rw [offer] at ho
  split at ho
  · simp at ho
  · split at ho
    · simp at ho
    · obtain ⟨⟨d, replaced⟩, hr, rfl⟩ := Option.map_eq_some_iff.1 ho
      have hadd := add_spec (tested_sound h) p
      rw [hr] at hadd
      dsimp only
      split
      · exact evict_sound hadd.2.1
      · exact hadd.2.1

/-- Offers lead from valid collectors to valid ones. -/
theorem offer_valid (h : c.Valid) {p : Pattern} {c' : Collector} (ho : c.offer p = some c') :
    c'.Valid := by
  refine ⟨offer_sound h.toSound ho, ?_⟩
  have hshelf : c.shelf.offer p = some c'.shelf := by rw [← offer_shelf h, ho]; rfl
  have haccept : c'.shelf = c.shelf.accept p := by
    rcases Shelf.offer_eq_none_or c.shelf p with ho | ho
    · rw [ho] at hshelf
      cases hshelf
    · exact Option.some.inj (hshelf.symm.trans ho)
  have hcap : c'.capacity = c.capacity := congrArg Shelf.capacity haccept
  have hle := Shelf.count_accept_le (s := c.shelf) (by rw [count_shelf]; exact h.count_le) p
  rwa [← haccept, count_shelf, capacity_shelf, ← hcap] at hle

@[simp] theorem shelf_refuse (c : Collector) (p : Pattern) : (c.refuse p).shelf = c.shelf := by
  unfold refuse
  split
  · rfl
  · exact shelf_tested c

theorem refuse_valid (h : c.Valid) (p : Pattern) : (c.refuse p).Valid := by
  unfold refuse
  split
  · exact h
  · exact tested_valid h

theorem insert_shelf (h : c.Valid) (p : Pattern) : (c.insert p).shelf = c.shelf.insert p := by
  rw [insert, Shelf.insert, ← offer_shelf h]
  cases c.offer p with
  | none => exact shelf_refuse c p
  | some c' => rfl

theorem insert_valid (h : c.Valid) (p : Pattern) : (c.insert p).Valid := by
  rw [insert]
  cases ho : c.offer p with
  | none => exact refuse_valid h p
  | some c' => exact offer_valid h ho

/-! ## Merging -/

/-- The outcome of a merge on the level of shelves. -/
def outcome (state : Nat × Collector) : Nat × Shelf := (state.1, state.2.shelf)

/-- One step of a merge has the outcome of the step on shelves, and leaves a valid collector. -/
theorem mergeStep_shelf (item : Item) (support : Int) {state : Nat × Collector}
    (h : state.2.Valid) (p : Pattern) :
    (mergeStep item support state p).map outcome =
        Shelf.mergeStep item support (outcome state) p ∧
      ∀ after, mergeStep item support state p = .ok after → after.2.Valid := by
  obtain ⟨n, d⟩ := state
  replace h : d.Valid := h
  have ht := tested_valid h
  simp only [mergeStep, Shelf.mergeStep, outcome, admits_shelf h.toHeaped]
  split
  · cases p.extend item (min support p.support) with
    | error e => exact ⟨rfl, fun after ha => by simp [Except.map] at ha⟩
    | ok q =>
      have hoffer := offer_shelf ht q
      rw [shelf_tested] at hoffer
      simp only [Except.map, ← hoffer]
      cases ho : d.tested.offer q with
      | none =>
        refine ⟨by simp only [Option.map_none, outcome, shelf_refuse, shelf_tested],
          fun after ha => ?_⟩
        obtain rfl := Except.ok.inj ha
        exact refuse_valid ht q
      | some c' =>
        refine ⟨rfl, fun after ha => ?_⟩
        obtain rfl := Except.ok.inj ha
        exact offer_valid ht ho
  · refine ⟨by simp only [Except.map, outcome, shelf_tested], fun after ha => ?_⟩
    obtain rfl := Except.ok.inj ha
    exact ht

theorem foldlM_mergeStep_shelf (item : Item) (support : Int) (ps : List Pattern)
    (state : Nat × Collector) (h : state.2.Valid) :
    (ps.foldlM (mergeStep item support) state).map outcome =
        ps.foldlM (Shelf.mergeStep item support) (outcome state) ∧
      ∀ after, ps.foldlM (mergeStep item support) state = .ok after → after.2.Valid := by
  induction ps generalizing state with
  | nil =>
    refine ⟨rfl, fun after ha => ?_⟩
    obtain rfl := Except.ok.inj ha
    exact h
  | cons p ps ih =>
    obtain ⟨hstep, hvalid⟩ := mergeStep_shelf item support h p
    rw [List.foldlM_cons, List.foldlM_cons, ← hstep]
    cases hs : mergeStep item support state p with
    | error e => exact ⟨rfl, fun after ha => by simp [bind, Except.bind] at ha⟩
    | ok next => exact ih next (hvalid next hs)

/-- A merge counts and retains what the merge of the shelves does, and fails when that fails. -/
theorem mergeAll_shelf (h : c.Valid) (child : Collector) (item : Item) (support : Int) :
    (c.mergeAll child item support).map outcome =
      c.shelf.mergeAll child.shelf item support :=
  (foldlM_mergeStep_shelf item support child.ranked (0, c) h).1

theorem mergeAll_valid (h : c.Valid) {child : Collector} {item : Item} {support : Int}
    {after : Nat × Collector} (ha : c.mergeAll child item support = .ok after) : after.2.Valid :=
  (foldlM_mergeStep_shelf item support child.ranked (0, c) h).2 after ha

end Collector

end TopPatterns

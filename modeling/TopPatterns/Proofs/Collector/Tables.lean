import Mathlib
import TopPatterns.Proofs.Collector.Reached

/-!
# The tables between two calls

`Sound` is what the proofs about one change of a collector need of its tables. Between two calls
more is true, and `Tables` is the full account: the index of a subsuming collector is a function of
the live table, and stale entries never make up more than a second capacity of the heap.

The size bound needs no history for a pattern that is admitted. Without subsumption there are no
stale entries at all. With it the heap has just been compacted, and even if the live table is one
over the capacity for a moment, one more than the capacity is at most twice the capacity
(`size_replace_le`). A refused pattern and every query can only take entries off. So the invariant
that calls have to carry is `Tidy`: the bound itself, and that the lists of the index fall.
-/

namespace TopPatterns

variable {ι : Type} [DecidableEq ι]

namespace Heap

/-- Settling makes no heap larger. -/
theorem size_settle_le {h : Heap} (hw : h.WellFormed) (test : Entry → Bool) :
    (h.settle test).size ≤ h.size := by
  obtain ⟨dropped, hperm, -⟩ := settle_dropped test h
  rw [size_eq_length hw, size_eq_length (settle_wellFormed test hw), hperm.length_eq,
    List.length_append]
  exact Nat.le_add_left _ _

/-- Neither does taking the top off. -/
theorem size_pop_le {h : Heap} (hw : h.WellFormed) : h.pop.size ≤ h.size := by
  rw [size_eq_length hw, size_eq_length (pop_wellFormed hw)]
  cases ht : h.top? with
  | none =>
    cases h with
    | empty => exact Nat.le_refl _
    | node n e l r => simp at ht
  | some e =>
    rw [(pop_toList ht).length_eq]
    exact Nat.le_succ _

end Heap

namespace Collector

variable {c : Collector} {p : Pattern}

/-! ## The size of the heap -/

theorem size_settle_le (h : c.Heaped) : c.settle.heap.size ≤ c.heap.size :=
  Heap.size_settle_le h.wellFormed c.isLive

/-- At most as many entries are live as there are retained patterns. -/
theorem length_live_le (h : c.Heaped) : (c.heap.toList.filter c.isLive).length ≤ c.count := by
  have hnodup : ((c.heap.toList.filter c.isLive).map Entry.number).Nodup :=
    h.distinct.sublist (List.filter_sublist.map _)
  have hsub : (c.heap.toList.filter c.isLive).map Entry.number ⊆ c.live.toList.map Prod.fst := by
    intro n hn
    obtain ⟨e, he, rfl⟩ := List.mem_map.1 hn
    obtain ⟨q, hq⟩ := isLive_iff.1 (List.mem_filter.1 he).2
    exact List.mem_map.2 ⟨(e.number, q), mem_live_toList.2 hq, rfl⟩
  have hle := (List.subperm_of_subset hnodup hsub).length_le
  rwa [List.length_map, List.length_map, Std.TreeMap.length_toList] at hle

/-- Without subsumption the heap has no entry beside those of the retained patterns. -/
theorem size_le_count (h : c.Heaped) (hs : c.subsumes = false) : c.heap.size ≤ c.count := by
  rw [Heap.size_eq_length h.wellFormed]
  have hle := length_live_le h
  rwa [List.filter_eq_self.2 (h.fresh hs)] at hle

/-- A compacted heap has at most twice the capacity of entries, or only live ones. -/
theorem size_compact_le (h : c.Sound) :
    c.compact.heap.size ≤ max (2 * c.capacity) c.count := by
  unfold compact
  split
  · rw [Heap.size_eq_length (Heap.keep_wellFormed _ _), (Heap.keep_toList _ _).length_eq]
    exact Nat.le_trans (length_live_le h.toHeaped) (Nat.le_max_right _ _)
  · next hsize => exact Nat.le_trans (Nat.le_of_not_lt hsize) (Nat.le_max_left _ _)

/-- Putting a pattern in the place of others leaves at most twice the capacity of entries, although
the live table may be one over the capacity until the weakest pattern is given up. -/
theorem size_replace_le (h : c.Valid) (hs : c.subsumes = true) (numbers : List Nat) (p : Pattern) :
    (c.replace numbers p).heap.size ≤ 2 * c.capacity := by
  obtain ⟨hsound, -⟩ := foldl_discard_sound h.toSound hs numbers
  obtain ⟨hcap, -, hlive⟩ := foldl_discard_fields (c := c) numbers
  have hpushed : ((numbers.foldl discard c).push p).count ≤ c.capacity + 1 := by
    rw [count_eq_length, retained_push hsound.toHeaped, List.length_append, retained, hlive,
      List.length_map, List.length_singleton]
    refine Nat.succ_le_succ (Nat.le_trans (List.length_filter_le _ _) ?_)
    rw [Std.TreeMap.length_toList]
    exact h.count_le
  have hpos := c.capacity_pos
  have hsize := size_compact_le (push_sound hsound p)
  have hcap' : ((numbers.foldl discard c).push p).capacity = c.capacity := hcap
  show ((numbers.foldl discard c).push p).compact.heap.size ≤ 2 * c.capacity
  omega

theorem size_evict_le (h : c.Sound) : c.evict.heap.size ≤ c.heap.size := by
  have hs := settle_sound h
  rw [evict]
  split
  · exact size_settle_le h.toHeaped
  · rw [heap_discard]
    exact Nat.le_trans (Heap.size_pop_le hs.wellFormed) (size_settle_le h.toHeaped)

/-- An admitted pattern was added after a test of the capacity, and the weakest one may have been
given up for it. -/
theorem exists_add_of_offer {c' : Collector} (ho : c.offer p = some c') :
    ∃ added, c.tested.add p = some added ∧ (c' = added.1.evict ∨ c' = added.1) := by
  rw [offer] at ho
  split at ho
  · cases ho
  split at ho
  · cases ho
  obtain ⟨added, hadd, rfl⟩ := Option.map_eq_some_iff.1 ho
  refine ⟨added, hadd, ?_⟩
  split
  · exact Or.inl rfl
  · exact Or.inr rfl

/-- A collector that has admitted a pattern has at most twice the capacity of entries, whatever it
had before. -/
theorem size_offer_le (h : c.Valid) {c' : Collector} (ho : c.offer p = some c') :
    c'.heap.size ≤ 2 * c'.capacity := by
  by_cases hs : c'.subsumes = true
  · obtain ⟨⟨d, replaced⟩, hadd, hc'⟩ := exists_add_of_offer ho
    have hspec := add_spec (tested_valid h).toSound p
    rw [hadd] at hspec
    obtain ⟨-, hsound, hcap, hsub, -, -⟩ := hspec
    -- giving up the weakest pattern takes its entry off and changes no setting
    have hd : c'.heap.size ≤ d.heap.size ∧ c'.capacity = d.capacity ∧ c'.subsumes = d.subsumes := by
      rcases hc' with rfl | rfl
      · exact ⟨size_evict_le hsound, capacity_evict, subsumes_evict⟩
      · exact ⟨Nat.le_refl _, rfl, rfl⟩
    obtain ⟨hsize, hcap', hsub'⟩ := hd
    have hts : c.tested.subsumes = true := by rw [← hsub, ← hsub', hs]
    rw [add, if_pos hts] at hadd
    obtain ⟨numbers, -, hreplace⟩ := Option.map_eq_some_iff.1 hadd
    obtain ⟨rfl, -⟩ := Prod.mk.inj hreplace
    rw [hcap', hcap]
    exact Nat.le_trans hsize (size_replace_le (tested_valid h) hts numbers p)
  · have hvalid := offer_valid h ho
    have hle := size_le_count hvalid.toHeaped (by simpa using hs)
    have hcount := hvalid.count_le
    omega

/-! ## The order of the index -/

/-- Every list of the index falls, so that it lists no number twice. -/
def Falling (c : Collector) : Prop :=
  ∀ support : Nat, (c.bySupport.getD support []).Pairwise (· > ·)

theorem push_falling (h : c.Sound) (hf : c.Falling) (p : Pattern) : (c.push p).Falling := by
  intro support
  have hold : (c.bySupport.getD support []).Pairwise (· > ·) := hf support
  by_cases hs : c.subsumes = true
  · simp only [push, hs, if_true, Std.TreeMap.getD_alter, Nat.compare_eq_eq]
    split
    · next hp =>
      subst hp
      rw [Option.getD_some, ← Std.TreeMap.getD_eq_getD_getElem?]
      refine List.pairwise_cons.2 ⟨fun n hn => ?_, hold⟩
      -- the numbers listed are those of retained patterns, all below the next one
      obtain ⟨q, hq, -⟩ := (h.listed hs _ n).1 hn
      exact h.lt_next hq
    · exact hold
  · rwa [push, if_neg hs]

theorem discard_falling (hf : c.Falling) (n : Nat) : (c.discard n).Falling := by
  intro support
  have hold : (c.bySupport.getD support []).Pairwise (· > ·) := hf support
  unfold discard
  split
  · exact hold
  · next p hn =>
    dsimp only
    split
    · rw [Std.TreeMap.getD_alter]
      split
      · next hp =>
        have hp : p.support = support := Nat.compare_eq_eq.1 hp
        subst hp
        have hrest := hold.filter (· ≠ n)
        rw [Std.TreeMap.getD_eq_getD_getElem?] at hrest
        split
        · exact List.Pairwise.nil
        · exact hrest
      · exact hold
    · exact hold

theorem foldl_discard_falling (hf : c.Falling) (numbers : List Nat) :
    (numbers.foldl discard c).Falling := by
  induction numbers generalizing c with
  | nil => exact hf
  | cons n ns ih => exact ih (discard_falling hf n)

theorem settle_falling (hf : c.Falling) : c.settle.Falling := hf

theorem tested_falling (hf : c.Falling) : c.tested.Falling := by
  unfold tested
  split
  · exact settle_falling hf
  · exact hf

theorem compact_falling (hf : c.Falling) : c.compact.Falling := by
  unfold compact
  split
  · exact hf
  · exact hf

theorem evict_falling (hf : c.Falling) : c.evict.Falling := by
  rw [evict]
  split
  · exact settle_falling hf
  · have hpopped : ({ c.settle with heap := c.settle.heap.pop } : Collector).Falling := hf
    exact discard_falling hpopped _

theorem add_falling (h : c.Sound) (hf : c.Falling) {added : Collector × Bool}
    (ha : c.add p = some added) : added.1.Falling := by
  rw [add] at ha
  split at ha
  · next hs =>
    obtain ⟨numbers, -, rfl⟩ := Option.map_eq_some_iff.1 ha
    have hsound := (foldl_discard_sound h hs numbers).1
    exact compact_falling (push_falling hsound (foldl_discard_falling hf numbers) p)
  · obtain rfl := Option.some.inj ha
    exact push_falling h hf p

theorem offer_falling (h : c.Sound) (hf : c.Falling) {c' : Collector} (ho : c.offer p = some c') :
    c'.Falling := by
  obtain ⟨added, hadd, hc'⟩ := exists_add_of_offer ho
  have hadded := add_falling (tested_sound h) (tested_falling hf) hadd
  rcases hc' with rfl | rfl
  · exact evict_falling hadded
  · exact hadded

/-! ## What calls keep -/

/-- What every call keeps beside `Valid`. -/
structure Tidy (c : Collector) : Prop where
  falling : c.Falling
  size_le : c.heap.size ≤ 2 * c.capacity

theorem empty_tidy {capacity : Nat} {subsumes : Bool} (h : 0 < capacity) :
    (empty capacity subsumes h).Tidy := by
  refine ⟨?_, Nat.zero_le _⟩
  intro support
  simp [empty]

theorem settle_tidy (h : c.Valid) (ht : c.Tidy) : c.settle.Tidy :=
  ⟨settle_falling ht.falling, Nat.le_trans (size_settle_le h.toHeaped) ht.size_le⟩

theorem tested_tidy (h : c.Valid) (ht : c.Tidy) : c.tested.Tidy := by
  unfold tested
  split
  · exact settle_tidy h ht
  · exact ht

theorem insert_tidy (h : c.Valid) (ht : c.Tidy) (p : Pattern) : (c.insert p).Tidy := by
  rw [insert]
  cases ho : c.offer p with
  | some c' => exact ⟨offer_falling h.toSound ht.falling ho, size_offer_le h ho⟩
  | none =>
    show (c.refuse p).Tidy
    unfold refuse
    split
    · exact ht
    · exact tested_tidy h ht

/-- A step of a merge tests the capacity, and then inserts a pattern or leaves it at that. -/
theorem mergeStep_eq_or {item : Item} {support : Int} {state next : Nat × Collector}
    (h : mergeStep item support state p = .ok next) :
    next.2 = state.2.tested ∨ ∃ q, next.2 = state.2.tested.insert q := by
  simp only [mergeStep] at h
  split at h
  · cases hq : p.extend item (min support p.support) with
    | error e =>
      rw [hq] at h
      cases h
    | ok q =>
      rw [hq] at h
      obtain rfl := Except.ok.inj h
      refine Or.inr ⟨q, ?_⟩
      dsimp only
      rw [insert]
      cases state.2.tested.offer q <;> rfl
  · obtain rfl := Except.ok.inj h
    exact Or.inl rfl

theorem mergeStep_tidy {item : Item} {support : Int} {state next : Nat × Collector}
    (h : state.2.Valid) (ht : state.2.Tidy) (hs : mergeStep item support state p = .ok next) :
    next.2.Tidy := by
  have htested := tested_tidy h ht
  rcases mergeStep_eq_or hs with he | ⟨q, he⟩
  · exact he ▸ htested
  · exact he ▸ insert_tidy (tested_valid h) htested q

theorem mergeAll_tidy (h : c.Valid) (ht : c.Tidy) {child : Collector} {item : Item} {support : Int}
    {merged : Nat × Collector} (hm : c.mergeAll child item support = .ok merged) :
    merged.2.Tidy := by
  -- count and collector change with every pattern, so both are arbitrary in the induction
  have hfold : ∀ (ps : List Pattern) (state : Nat × Collector), state.2.Valid → state.2.Tidy →
      ∀ merged, ps.foldlM (mergeStep item support) state = .ok merged → merged.2.Tidy := by
    intro ps
    induction ps with
    | nil =>
      intro state _ hstate merged hm
      obtain rfl := Except.ok.inj hm
      exact hstate
    | cons p ps ih =>
      intro state hvalid hstate merged hm
      rw [List.foldlM_cons] at hm
      cases hs : mergeStep item support state p with
      | error e =>
        rw [hs] at hm
        cases hm
      | ok next =>
        rw [hs] at hm
        exact ih next ((mergeStep_shelf item support hvalid p).2 next hs)
          (mergeStep_tidy hvalid hstate hs) merged hm
  exact hfold child.ranked (0, c) h ht merged hm

theorem step_tidy {family : ι → Collector} (hvalid : ∀ i, (family i).Valid)
    (h : ∀ i, (family i).Tidy) (call : Call ι) (i : ι) : ((step family call).2 i).Tidy := by
  have hupdate : ∀ j c, c.Tidy → ∀ i, (Function.update family j c i).Tidy := by
    intro j c hc
    exact (Function.forall_update_iff family fun _ c => c.Tidy).2 ⟨hc, fun i _ => h i⟩
  cases call with
  | insert j p => exact hupdate j _ (insert_tidy (hvalid j) (h j) p) i
  | merge j child item support =>
    rw [step]
    cases hm : (family j).mergeAll (family child) item support with
    | error e => exact h i
    | ok merged => exact hupdate j _ (mergeAll_tidy (hvalid j) (h j) hm) i
  | addable j support => exact hupdate j _ (tested_tidy (hvalid j) (h j)) i
  | leastSupport j => exact hupdate j _ (settle_tidy (hvalid j) (h j)) i
  | count j => exact h i
  | isFull j => exact h i
  | ranked j => exact h i

theorem after_tidy {family : ι → Collector} (hvalid : ∀ i, (family i).Valid)
    (h : ∀ i, (family i).Tidy) (calls : List (Call ι)) (i : ι) :
    (after family calls i).Tidy := by
  induction calls generalizing family with
  | nil => exact h i
  | cons call calls ih => exact ih (step_shelf hvalid call).2 (step_tidy hvalid h call)

/-! ## The full account -/

/-- The numbers of the retained patterns of a support, the latest admitted first. -/
def numbersOf (c : Collector) (support : Nat) : List Nat :=
  ((c.live.toList.filter fun a => a.2.support = support).map Prod.fst).reverse

theorem mem_numbersOf {support n : Nat} :
    n ∈ c.numbersOf support ↔ ∃ p, c.live[n]? = some p ∧ p.support = support := by
  rw [numbersOf, List.mem_reverse, List.mem_map]
  constructor
  · intro hn
    obtain ⟨⟨m, q⟩, hm, rfl⟩ := hn
    obtain ⟨hm, hq⟩ := List.mem_filter.1 hm
    exact ⟨q, mem_live_toList.1 hm, of_decide_eq_true hq⟩
  · intro hn
    obtain ⟨q, hlive, hq⟩ := hn
    exact ⟨(n, q), List.mem_filter.2 ⟨mem_live_toList.2 hlive, decide_eq_true hq⟩, rfl⟩

theorem numbersOf_falling (c : Collector) (support : Nat) :
    (c.numbersOf support).Pairwise (· > ·) := by
  rw [numbersOf, List.pairwise_reverse, List.pairwise_map]
  exact (live_toList_sorted c.live).filter _

/-- The index of a subsuming collector is a function of its live table. -/
theorem getD_bySupport (h : c.Indexed) (hf : c.Falling) (hs : c.subsumes = true) (support : Nat) :
    c.bySupport.getD support [] = c.numbersOf support := by
  have hmem : ∀ n, n ∈ c.bySupport.getD support [] ↔ n ∈ c.numbersOf support := fun n =>
    (h.listed hs support n).trans mem_numbersOf.symm
  have hnodup : ∀ {ns : List Nat}, ns.Pairwise (· > ·) → ns.Nodup := fun hns =>
    hns.imp fun hlt => Nat.ne_of_gt hlt
  have hfall := numbersOf_falling c support
  have hperm := (List.perm_ext_iff_of_nodup (hnodup (hf support)) (hnodup hfall)).2 hmem
  refine hperm.eq_of_pairwise (fun a b _ _ hab hba => ?_) (hf support) hfall
  exact absurd (Nat.lt_trans hab hba) (Nat.lt_irrefl _)

/-- What holds of the four tables of a collector between two calls. -/
structure Tables (c : Collector) : Prop where
  /-- The heap is in order, by support and then by number. -/
  ordered : c.heap.WellFormed
  /-- Its entries have numbers of their own. -/
  distinct : (c.heap.toList.map Entry.number).Nodup
  /-- All of them were given out before the next one. -/
  below : ∀ e ∈ c.heap.toList, e.number < c.next
  /-- Every retained pattern has its entry. -/
  held : ∀ n p, c.live[n]? = some p → ⟨p, n⟩ ∈ c.heap.toList
  /-- Without subsumption there is no stale entry. -/
  fresh : c.subsumes = false → ∀ e ∈ c.heap.toList, c.live[e.number]? = some e.pattern
  /-- The index has a list for the supports of retained patterns and for no others, and it lists
  these patterns. -/
  listed : c.subsumes = true → ∀ (support : Nat) (numbers : List Nat),
    c.bySupport[support]? = some numbers ↔ numbers ≠ [] ∧ numbers = c.numbersOf support
  /-- No more patterns are retained than the capacity. -/
  count_le : c.live.size ≤ c.capacity
  /-- The heap has at most twice as many entries. -/
  size_le : c.heap.toList.length ≤ 2 * c.capacity

theorem Valid.tables (h : c.Valid) (ht : c.Tidy) : c.Tables where
  ordered := h.wellFormed
  distinct := h.distinct
  below := h.below
  held := h.held
  fresh := by
    intro hs e he
    obtain ⟨q, hq⟩ := isLive_iff.1 (h.fresh hs e he)
    rw [hq, h.pattern_eq he hq]
  listed := by
    intro hs support numbers
    have hget := getD_bySupport h.toIndexed ht.falling hs support
    have hne := h.nonempty support
    rw [Std.TreeMap.getD_eq_getD_getElem?] at hget
    rw [← hget]
    cases hb : c.bySupport[support]? with
    | none => simp
    | some ns =>
      rw [hb] at hne
      rw [Option.getD_some, Option.some.injEq]
      constructor
      · rintro rfl
        exact ⟨fun hnil => hne (congrArg some hnil), rfl⟩
      · exact fun hn => hn.2.symm
  count_le := h.count_le
  size_le := by
    rw [← Heap.size_eq_length h.wellFormed]
    exact ht.size_le

/-- **The tables agree after every call.** Whatever calls are made to a family of new collectors,
each of them has its tables in agreement after the last one, and the capacity and the flag that it
was made with. -/
theorem after_tables (capacity : ι → Nat) (subsumes : ι → Bool) (capacity_pos : ∀ i, 0 < capacity i)
    (calls : List (Call ι)) (i : ι) :
    let c := after (fun i => empty (capacity i) (subsumes i) (capacity_pos i)) calls i
    c.Tables ∧ c.capacity = capacity i ∧ c.subsumes = subsumes i := by
  intro c
  obtain ⟨hvalid, hcap, hsub⟩ := after_empty capacity subsumes capacity_pos calls i
  have htidy : c.Tidy :=
    after_tidy (fun j => empty_valid (capacity_pos j)) (fun j => empty_tidy (capacity_pos j)) calls i
  exact ⟨hvalid.tables htidy, hcap, hsub⟩

/-- A subsuming collector of two places, the heap of which is rebuilt: two patterns have given way to
more specific ones, and the pattern of support 7 finds three live and two stale entries before the
weakest pattern is given up for it. Its patterns are merged into a plain collector. -/
theorem after_tables_compacted :
    let p (items : List Int) (support : Nat) : Pattern := ⟨items.map Item.number, support⟩
    let calls : List (Call Bool) :=
      [.insert true (p [4] 3), .insert true (p [1] 5), .insert true (p [1, 2] 5),
        .insert true (p [1, 2, 3] 5), .insert true (p [6] 7), .insert false (p [1] 2),
        .merge false true (.number 9) 6]
    let c := after (fun i : Bool => empty 2 i (by decide)) calls
    (∀ _ : Bool, 0 < (2 : Nat)) ∧ (c true).Tables ∧ (c false).Tables ∧
      (c true).heap.toList.map Entry.number = [3, 4] := by
  intro p calls c
  refine ⟨by decide, ?_, ?_, ?_⟩
  · exact (after_tables (fun _ => 2) (fun i : Bool => i) (by decide) calls true).1
  · exact (after_tables (fun _ => 2) (fun i : Bool => i) (by decide) calls false).1
  · simp only [c, calls, p]
    cbv

end Collector

end TopPatterns

import Mathlib.Data.List.Nodup
import TopPatterns.Proofs.Collector.HeapOrder
import TopPatterns.Proofs.Collector.Shelf

/-!
# The four tables of a collector

Heap, live table, index and numbering of a collector describe one list of patterns. `Sound` says
how: every retained pattern has its entry in the heap, entries are told apart by numbers below the
next one, stale entries occur only if the collector subsumes, and the index lists the numbers of
the retained patterns by support.

For each change of a collector there is one lemma for `Sound` and one for `retained`. The least
support and the pattern to evict are read off the settled heap: its top is live, and no entry is
weaker (`settled_top`).
-/

namespace TopPatterns

namespace Collector

variable {c : Collector}

/-! ## The live table as a list -/

theorem mem_live_toList {n : Nat} {p : Pattern} :
    (n, p) ∈ c.live.toList ↔ c.live[n]? = some p :=
  Std.TreeMap.mem_toList_iff_getElem?_eq_some

theorem live_toList_sorted (t : Std.TreeMap Nat Pattern) :
    t.toList.Pairwise fun a b => a.1 < b.1 :=
  Std.TreeMap.ordered_keys_toList.imp fun h => Nat.compare_eq_lt.1 h

/-- Two lists by rising number that hold the same pairs are equal. -/
theorem eq_of_numbered {xs ys : List (Nat × Pattern)} (hx : xs.Pairwise fun a b => a.1 < b.1)
    (hy : ys.Pairwise fun a b => a.1 < b.1) (h : ∀ a, a ∈ xs ↔ a ∈ ys) : xs = ys := by
  have hnx : xs.Nodup := hx.imp fun hlt e => absurd (e ▸ hlt) (Nat.lt_irrefl _)
  have hny : ys.Nodup := hy.imp fun hlt e => absurd (e ▸ hlt) (Nat.lt_irrefl _)
  have hperm : xs.Perm ys := (List.perm_ext_iff_of_nodup hnx hny).2 h
  refine hperm.eq_of_pairwise (fun a b _ _ hab hba => ?_) hx hy
  exact absurd (Nat.lt_trans hab hba) (Nat.lt_irrefl _)

theorem toList_insert_next {t : Std.TreeMap Nat Pattern} {n : Nat} {p : Pattern}
    (h : ∀ m q, t[m]? = some q → m < n) : (t.insert n p).toList = t.toList ++ [(n, p)] := by
  have hlt : ∀ a ∈ t.toList, a.1 < n := fun a ha =>
    h a.1 a.2 (Std.TreeMap.mem_toList_iff_getElem?_eq_some.1 ha)
  refine eq_of_numbered (live_toList_sorted _) ?_ fun a => ?_
  · refine List.pairwise_append.2 ⟨live_toList_sorted t, List.pairwise_singleton _ _, ?_⟩
    intro a ha b hb
    obtain rfl : b = (n, p) := by simpa using hb
    exact hlt a ha
  · obtain ⟨m, q⟩ := a
    rw [Std.TreeMap.mem_toList_iff_getElem?_eq_some, Std.TreeMap.getElem?_insert, List.mem_append,
      Std.TreeMap.mem_toList_iff_getElem?_eq_some, List.mem_singleton, Prod.mk.injEq]
    by_cases hnm : n = m
    · subst hnm
      have hnone : t[n]? ≠ some q := fun he => absurd (h n q he) (Nat.lt_irrefl _)
      simp [hnone, eq_comm]
    · simp [hnm, show ¬m = n from fun e => hnm e.symm]

theorem count_eq_length : c.count = c.retained.length := by
  rw [count, retained, List.length_map, Std.TreeMap.length_toList]

theorem mem_retained {p : Pattern} : p ∈ c.retained ↔ ∃ n : Nat, c.live[n]? = some p := by
  rw [retained, List.mem_map]
  constructor
  · intro hm
    obtain ⟨⟨n, q⟩, hm, rfl⟩ := hm
    exact ⟨n, mem_live_toList.1 hm⟩
  · intro hp
    obtain ⟨n, hn⟩ := hp
    exact ⟨(n, p), mem_live_toList.2 hn, rfl⟩

theorem isLive_iff {e : Entry} : c.isLive e = true ↔ ∃ p, c.live[e.number]? = some p := by
  rw [isLive, Std.TreeMap.contains_eq_isSome_getElem?, Option.isSome_iff_exists]

/-! ## What the tables have in common -/

/-- The heap holds an entry for every retained pattern and tells its entries apart by number. -/
structure Heaped (c : Collector) : Prop where
  wellFormed : c.heap.WellFormed
  distinct : (c.heap.toList.map Entry.number).Nodup
  below : ∀ e ∈ c.heap.toList, e.number < c.next
  held : ∀ n p, c.live[n]? = some p → ⟨p, n⟩ ∈ c.heap.toList
  fresh : c.subsumes = false → ∀ e ∈ c.heap.toList, c.isLive e = true

/-- The index of a subsuming collector lists the numbers of the retained patterns by support, and
no list of it is empty. -/
structure Indexed (c : Collector) : Prop where
  listed : c.subsumes = true → ∀ support n,
    n ∈ c.bySupport.getD support [] ↔ ∃ p, c.live[n]? = some p ∧ p.support = support
  nonempty : ∀ support : Nat, c.bySupport[support]? ≠ some []

/-- The tables of a collector describe the same patterns. -/
structure Sound (c : Collector) : Prop extends Heaped c, Indexed c

theorem empty_sound {capacity : Nat} {subsumes : Bool} (h : 0 < capacity) :
    (empty capacity subsumes h).Sound where
  wellFormed := trivial
  distinct := List.nodup_nil
  below := by simp [empty]
  held := by simp [empty]
  fresh := by simp [empty]
  listed := by simp [empty]
  nonempty := by simp [empty]

theorem Heaped.lt_next (h : c.Heaped) {n : Nat} {p : Pattern} (hn : c.live[n]? = some p) :
    n < c.next := h.below _ (h.held n p hn)

/-- An entry with a live number belongs to the pattern of that number. -/
theorem Heaped.pattern_eq (h : c.Heaped) {e : Entry} {p : Pattern} (he : e ∈ c.heap.toList)
    (hl : c.live[e.number]? = some p) : e.pattern = p := by
  have hm : (⟨p, e.number⟩ : Entry) ∈ c.heap.toList := h.held _ _ hl
  have : e = ⟨p, e.number⟩ := List.inj_on_of_nodup_map h.distinct he hm rfl
  rw [this]

/-! ## Settling -/

@[simp] theorem retained_settle : c.settle.retained = c.retained := rfl

theorem settle_heaped (h : c.Heaped) : c.settle.Heaped := by
  obtain ⟨dropped, hperm, hstale⟩ := Heap.settle_dropped c.isLive c.heap
  have hsub : ∀ e ∈ c.settle.heap.toList, e ∈ c.heap.toList := fun e he =>
    hperm.mem_iff.2 (List.mem_append_right _ he)
  refine ⟨Heap.settle_wellFormed _ h.wellFormed, ?_, fun e he => h.below e (hsub e he), ?_,
    fun hs e he => h.fresh hs e (hsub e he)⟩
  · have hnum := (hperm.map Entry.number).nodup_iff.1 h.distinct
    rw [List.map_append] at hnum
    exact (List.nodup_append.1 hnum).2.1
  · intro n p hn
    rcases List.mem_append.1 (hperm.mem_iff.1 (h.held n p hn)) with hd | hs
    · -- an entry that was taken off is stale, and that of a retained pattern is not
      have hlive : c.isLive ⟨p, n⟩ = true := isLive_iff.2 ⟨p, hn⟩
      rw [hstale _ hd] at hlive
      exact absurd hlive Bool.false_ne_true
    · exact hs

theorem settle_sound (h : c.Sound) : c.settle.Sound :=
  ⟨settle_heaped h.toHeaped, ⟨h.listed, h.nonempty⟩⟩

/-- The top of the settled heap belongs to a retained pattern; of all retained patterns it is the
first one of least support. -/
theorem settled_top (h : c.Heaped) {e : Entry} (ht : c.settle.heap.top? = some e) :
    c.live[e.number]? = some e.pattern ∧
      ∀ n p, c.live[n]? = some p →
        e.pattern.support < p.support ∨ e.pattern.support = p.support ∧ e.number ≤ n := by
  have hs := settle_heaped h
  obtain ⟨p, hp⟩ := isLive_iff.1 (Heap.settle_top h.wellFormed ht)
  refine ⟨(hs.pattern_eq (Heap.mem_of_top? ht) hp).symm ▸ hp, fun n q hn => ?_⟩
  exact Entry.weaker_iff.1 (Heap.weaker_of_top? hs.wellFormed ht (hs.held n q hn))

theorem settled_none (h : c.Heaped) (ht : c.settle.heap.top? = none) : c.retained = [] := by
  refine List.eq_nil_iff_forall_not_mem.2 fun p hp => ?_
  obtain ⟨n, hn⟩ := mem_retained.1 hp
  have hm := (settle_heaped h).held n p hn
  rw [Heap.toList_of_top?_none ht] at hm
  simp at hm

/-- The least support read off the heap is that of the retained patterns. -/
theorem leastSupport_eq (h : c.Heaped) : c.leastSupport = Pattern.leastOf c.retained := by
  rw [leastSupport]
  split
  · next ht => rw [settled_none h ht]; rfl
  · next e ht =>
    obtain ⟨hlive, hleast⟩ := settled_top h ht
    refine (Pattern.leastOf_eq (mem_retained.2 ⟨_, hlive⟩) fun q hq => ?_).symm
    obtain ⟨n, hn⟩ := mem_retained.1 hq
    rcases hleast n q hn with hlt | ⟨heq, -⟩
    · exact Nat.le_of_lt hlt
    · exact Nat.le_of_eq heq

theorem tested_sound (h : c.Sound) : c.tested.Sound := by
  unfold tested
  split
  · exact settle_sound h
  · exact h

@[simp] theorem retained_tested : c.tested.retained = c.retained := by
  unfold tested; split <;> rfl

@[simp] theorem capacity_tested : c.tested.capacity = c.capacity := by unfold tested; split <;> rfl

@[simp] theorem subsumes_tested : c.tested.subsumes = c.subsumes := by unfold tested; split <;> rfl

@[simp] theorem isFull_tested : c.tested.isFull = c.isFull := by unfold tested; split <;> rfl

/-- A settled collector has nothing left to settle. -/
theorem settle_settle (h : c.Heaped) : c.settle.settle = c.settle := by
  show ({ c with heap := (c.heap.settle c.isLive).settle c.isLive } : Collector) = c.settle
  rw [Heap.settle_settle c.isLive h.wellFormed]
  rfl

/-- A second test of capacity changes nothing. -/
theorem tested_tested (h : c.Heaped) : c.tested.tested = c.tested := by
  unfold tested
  split
  · next hfull => rw [if_pos (show c.settle.isFull = true from hfull), settle_settle h]
  · rfl

/-- A test of capacity does not change the least support. -/
theorem leastSupport_tested (h : c.Heaped) : c.tested.leastSupport = c.leastSupport := by
  unfold tested
  split
  · rw [leastSupport, settle_settle h, leastSupport]
  · rfl

/-! ## Pushing -/

theorem retained_push (h : c.Heaped) (p : Pattern) : (c.push p).retained = c.retained ++ [p] := by
  have hlive : (c.push p).live.toList = c.live.toList ++ [(c.next, p)] :=
    toList_insert_next fun m q hm => h.lt_next hm
  rw [retained, hlive, List.map_append]
  rfl

theorem push_heaped (h : c.Heaped) (p : Pattern) : (c.push p).Heaped := by
  have hperm := Heap.push_toList c.heap ⟨p, c.next⟩
  have hcases : ∀ e ∈ (c.push p).heap.toList, e = ⟨p, c.next⟩ ∨ e ∈ c.heap.toList := fun e he =>
    List.mem_cons.1 (hperm.mem_iff.1 he)
  have hget : ∀ n : Nat, (c.push p).live[n]? = if c.next = n then some p else c.live[n]? := by
    intro n
    simp only [push, Std.TreeMap.getElem?_insert, Nat.compare_eq_eq]
  refine ⟨Heap.push_wellFormed h.wellFormed _, ?_, fun e he => ?_, fun n q hn => ?_,
    fun hs e he => ?_⟩
  · -- the next number is above those of all entries, stale ones included
    refine (hperm.map Entry.number).nodup_iff.2 (List.nodup_cons.2 ⟨fun hm => ?_, h.distinct⟩)
    obtain ⟨e, he, hnum⟩ := List.mem_map.1 hm
    exact absurd (h.below e he) (by rw [hnum]; exact Nat.lt_irrefl _)
  · show e.number < c.next + 1
    rcases hcases e he with rfl | he
    · exact Nat.lt_succ_self _
    · exact Nat.lt_succ_of_lt (h.below e he)
  · refine hperm.mem_iff.2 ?_
    rw [hget] at hn
    split at hn
    · next heq =>
      obtain rfl : p = q := by simpa using hn
      rw [heq]
      exact List.mem_cons_self ..
    · exact List.mem_cons_of_mem _ (h.held n q hn)
  · refine isLive_iff.2 ?_
    rw [hget]
    rcases hcases e he with rfl | he
    · exact ⟨p, if_pos rfl⟩
    · obtain ⟨q, hq⟩ := isLive_iff.1 (h.fresh hs e he)
      exact ⟨q, by rw [if_neg (Nat.ne_of_gt (h.below e he)), hq]⟩

theorem push_indexed (h : c.Sound) (p : Pattern) : (c.push p).Indexed := by
  constructor
  · intro hs support n
    have hsub : c.subsumes = true := hs
    simp only [push, hsub, if_true, Std.TreeMap.getD_alter, Std.TreeMap.getElem?_insert,
      Nat.compare_eq_eq]
    have hold := h.listed hsub support n
    have hnew : ¬∃ q, c.live[c.next]? = some q ∧ q.support = support := fun ⟨q, hq, _⟩ =>
      absurd (h.lt_next hq) (Nat.lt_irrefl _)
    by_cases hp : p.support = support
    · subst hp
      rw [if_pos rfl, Option.getD_some, List.mem_cons, ← Std.TreeMap.getD_eq_getD_getElem?, hold]
      by_cases hn : c.next = n
      · simp [hn]
      · simp [hn, show ¬n = c.next from fun e => hn e.symm]
    · rw [if_neg hp, hold]
      by_cases hn : c.next = n
      · subst hn
        simpa [hp] using hnew
      · simp [hn]
  · intro support
    simp only [push]
    split
    · rw [Std.TreeMap.getElem?_alter]
      split
      · simp
      · exact h.nonempty support
    · exact h.nonempty support

theorem push_sound (h : c.Sound) (p : Pattern) : (c.push p).Sound :=
  ⟨push_heaped h.toHeaped p, push_indexed h p⟩

/-! ## Discarding -/

@[simp] theorem capacity_discard (n : Nat) : (c.discard n).capacity = c.capacity := by
  unfold discard; split <;> rfl

@[simp] theorem subsumes_discard (n : Nat) : (c.discard n).subsumes = c.subsumes := by
  unfold discard; split <;> rfl

@[simp] theorem heap_discard (n : Nat) : (c.discard n).heap = c.heap := by
  unfold discard; split <;> rfl

@[simp] theorem next_discard (n : Nat) : (c.discard n).next = c.next := by
  unfold discard; split <;> rfl

theorem getElem?_live_discard (n m : Nat) :
    (c.discard n).live[m]? = if n = m then none else c.live[m]? := by
  unfold discard
  split
  · next hn =>
    by_cases h : n = m
    · rw [if_pos h, ← h, hn]
    · rw [if_neg h]
  · simp only [Std.TreeMap.getElem?_erase, Nat.compare_eq_eq]

theorem live_toList_discard (n : Nat) :
    (c.discard n).live.toList = c.live.toList.filter fun a => a.1 ≠ n := by
  refine eq_of_numbered (live_toList_sorted _) ((live_toList_sorted _).filter _) fun a => ?_
  rw [List.mem_filter, mem_live_toList, mem_live_toList, getElem?_live_discard]
  by_cases h : n = a.1
  · simp [h]
  · simp [h, show ¬a.1 = n from fun e => h e.symm]

theorem discard_indexed (h : c.Indexed) (n : Nat) : (c.discard n).Indexed := by
  constructor
  · intro hs support m
    have hsub : c.subsumes = true := by simpa using hs
    rw [getElem?_live_discard]
    have hold := h.listed hsub support m
    unfold discard
    split
    · next hn =>
      rw [hold]
      by_cases hm : n = m
      · subst hm; simp [hn]
      · simp [hm]
    · next p hn =>
      simp only [hsub, if_true, Std.TreeMap.getD_alter, Nat.compare_eq_eq]
      by_cases hp : p.support = support
      · -- a list that runs empty is removed from the index, which no lookup can tell
        subst hp
        rw [if_pos rfl]
        refine Iff.trans (b := m ∈ (c.bySupport[p.support]?.getD []).filter (· ≠ n)) ?_ ?_
        · split
          · next he => rw [he]; rfl
          · rfl
        · rw [List.mem_filter, ← Std.TreeMap.getD_eq_getD_getElem?, hold]
          by_cases hm : n = m
          · simp [hm]
          · simp [hm, show ¬m = n from fun e => hm e.symm]
      · rw [if_neg hp, hold]
        by_cases hm : n = m
        · subst hm; simp [hn, hp]
        · simp [hm]
  · intro support
    unfold discard
    split
    · exact h.nonempty support
    · next p hn =>
      dsimp only
      split
      · rw [Std.TreeMap.getElem?_alter]
        split
        · split
          · simp
          · next hrest => simpa using hrest
        · exact h.nonempty support
      · exact h.nonempty support

/-- Discarding leaves a stale entry, so it keeps the tables in step only where such are allowed. -/
theorem discard_sound (h : c.Sound) (hs : c.subsumes = true) (n : Nat) : (c.discard n).Sound := by
  refine ⟨⟨?_, ?_, ?_, fun m q hm => ?_, fun hf => ?_⟩, discard_indexed h.toIndexed n⟩
  · rw [heap_discard]; exact h.wellFormed
  · rw [heap_discard]; exact h.distinct
  · rw [heap_discard, next_discard]; exact h.below
  · rw [getElem?_live_discard] at hm
    rw [heap_discard]
    split at hm
    · simp at hm
    · exact h.held m q hm
  · rw [subsumes_discard, hs] at hf
    cases hf

theorem foldl_discard_sound (h : c.Sound) (hs : c.subsumes = true) (numbers : List Nat) :
    (numbers.foldl discard c).Sound ∧ (numbers.foldl discard c).subsumes = true := by
  induction numbers generalizing c with
  | nil => exact ⟨h, hs⟩
  | cons n ns ih => exact ih (discard_sound h hs n) (by rw [subsumes_discard, hs])

theorem foldl_discard_fields (numbers : List Nat) :
    (numbers.foldl discard c).capacity = c.capacity ∧ (numbers.foldl discard c).heap = c.heap ∧
      (numbers.foldl discard c).live.toList = c.live.toList.filter fun a => a.1 ∉ numbers := by
  induction numbers generalizing c with
  | nil => refine ⟨rfl, rfl, (List.filter_eq_self.2 ?_).symm⟩; simp
  | cons n ns ih =>
    obtain ⟨hcap, hheap, hlive⟩ := ih (c := c.discard n)
    refine ⟨hcap.trans (capacity_discard n), hheap.trans (heap_discard n), ?_⟩
    rw [List.foldl_cons, hlive, live_toList_discard, List.filter_filter]
    refine List.filter_congr fun a _ => ?_
    by_cases ha : a.1 = n <;> simp [ha]

/-! ## Compacting -/

@[simp] theorem capacity_compact : c.compact.capacity = c.capacity := by
  unfold compact; split <;> rfl

@[simp] theorem subsumes_compact : c.compact.subsumes = c.subsumes := by
  unfold compact; split <;> rfl

@[simp] theorem live_compact : c.compact.live = c.live := by
  unfold compact; split <;> rfl

@[simp] theorem retained_compact : c.compact.retained = c.retained := by
  rw [retained, live_compact]; rfl

theorem compact_sound (h : c.Sound) : c.compact.Sound := by
  unfold compact
  split
  · have hperm := Heap.keep_toList c.isLive c.heap
    have hmem : ∀ e, e ∈ (c.heap.keep c.isLive).toList ↔ e ∈ c.heap.toList ∧ c.isLive e = true :=
      fun e => hperm.mem_iff.trans List.mem_filter
    refine ⟨⟨Heap.keep_wellFormed _ _, ?_, fun e he => h.below e ((hmem e).1 he).1,
      fun n p hn => (hmem _).2 ⟨h.held n p hn, isLive_iff.2 ⟨p, hn⟩⟩, fun hs e he => ?_⟩,
      ⟨h.listed, h.nonempty⟩⟩
    · refine (hperm.map Entry.number).nodup_iff.2 ?_
      exact h.distinct.sublist (List.filter_sublist.map Entry.number)
    · exact h.fresh hs e ((hmem e).1 he).1
  · exact h

/-! ## Evicting -/

/-- Of a list by rising number, the pattern that is weakest and of lowest number is the first one of
least support. -/
theorem filter_ne_eq_dropWeakest {xs : List (Nat × Pattern)} {n : Nat} {p : Pattern}
    (hx : xs.Pairwise fun a b => a.1 < b.1) (hm : (n, p) ∈ xs)
    (hle : ∀ a ∈ xs, p.support < a.2.support ∨ p.support = a.2.support ∧ n ≤ a.1) :
    (xs.filter fun a => a.1 ≠ n).map Prod.snd = Pattern.dropWeakest (xs.map Prod.snd) := by
  have hleast : Pattern.leastOf (xs.map Prod.snd) = p.support := by
    refine Pattern.leastOf_eq (List.mem_map_of_mem (f := Prod.snd) hm) fun q hq => ?_
    obtain ⟨a, ha, rfl⟩ := List.mem_map.1 hq
    rcases hle a ha with hlt | ⟨heq, -⟩
    · exact Nat.le_of_lt hlt
    · exact Nat.le_of_eq heq
  rw [Pattern.dropWeakest, hleast]
  -- from here on the bound is a number of its own, so that it stays put in the induction
  clear hleast
  induction xs with
  | nil => simp at hm
  | cons a xs ih =>
    obtain ⟨hfirst, hrest⟩ := List.pairwise_cons.1 hx
    by_cases ha : a.1 = n
    · have hap : a = (n, p) := by
        rcases List.mem_cons.1 hm with hm | hm
        · exact hm.symm
        · exact absurd (hfirst _ hm) (by rw [ha]; exact Nat.lt_irrefl _)
      -- the numbers after it are higher, so the filter takes no other pattern away
      subst hap
      rw [List.filter_cons_of_neg (by simp), List.map_cons, List.eraseP_cons_of_pos (by simp)]
      rw [List.filter_eq_self.2 fun b hb => ?_]
      simpa using Nat.ne_of_gt (hfirst b hb)
    · have hm' : (n, p) ∈ xs := by
        rcases List.mem_cons.1 hm with hm | hm
        · exact absurd (congrArg Prod.fst hm).symm ha
        · exact hm
      have hne : ¬a.2.support = p.support := by
        have hlt : a.1 < n := hfirst _ hm'
        rcases hle a (List.mem_cons_self ..) with h | ⟨-, h⟩ <;> omega
      rw [List.filter_cons_of_pos (by simpa using ha), List.map_cons, List.map_cons,
        List.eraseP_cons_of_neg (by simpa using hne)]
      exact congrArg _ (ih hrest hm' fun b hb => hle b (List.mem_cons_of_mem _ hb))

@[simp] theorem capacity_evict : c.evict.capacity = c.capacity := by
  rw [evict]
  split
  · rfl
  · exact capacity_discard _

@[simp] theorem subsumes_evict : c.evict.subsumes = c.subsumes := by
  rw [evict]
  split
  · rfl
  · exact subsumes_discard _

theorem retained_evict (h : c.Heaped) : c.evict.retained = Pattern.dropWeakest c.retained := by
  rw [evict]
  split
  · next ht => rw [retained_settle, settled_none h ht]; rfl
  · next e ht =>
    obtain ⟨hlive, hleast⟩ := settled_top h ht
    rw [retained, live_toList_discard]
    exact filter_ne_eq_dropWeakest (live_toList_sorted _) (mem_live_toList.2 hlive) fun a ha =>
      hleast a.1 a.2 (mem_live_toList.1 ha)

theorem evict_sound (h : c.Sound) : c.evict.Sound := by
  have hs := settle_sound h
  rw [evict]
  split
  · exact hs
  · next e ht =>
    have hperm := Heap.pop_toList ht
    have hnum := (hperm.map Entry.number).nodup_iff.1 hs.distinct
    rw [List.map_cons, List.nodup_cons] at hnum
    have hsub : ∀ f ∈ c.settle.heap.pop.toList, f ∈ c.settle.heap.toList := fun f hf =>
      hperm.mem_iff.2 (List.mem_cons_of_mem _ hf)
    have hpopped : ({ c.settle with heap := c.settle.heap.pop } : Collector).Indexed :=
      ⟨hs.listed, hs.nonempty⟩
    refine ⟨⟨?_, ?_, ?_, fun n q hn => ?_, fun hf f hmem => ?_⟩, discard_indexed hpopped _⟩
    · rw [heap_discard]; exact Heap.pop_wellFormed hs.wellFormed
    · rw [heap_discard]; exact hnum.2
    · rw [heap_discard, next_discard]; exact fun f hf => hs.below f (hsub f hf)
    · rw [getElem?_live_discard] at hn
      rw [heap_discard]
      split at hn
      · simp at hn
      · next hne =>
        refine ((List.mem_cons.1 (hperm.mem_iff.1 (hs.held n q hn))).resolve_left fun he => hne ?_)
        exact (congrArg Entry.number he).symm
    · -- without subsumption the only pattern to leave is the one whose entry is popped
      rw [heap_discard] at hmem
      have hsubsumes : c.settle.subsumes = false := by rw [subsumes_discard] at hf; exact hf
      have hne : ¬e.number = f.number := fun he => hnum.1 (List.mem_map.2 ⟨f, hmem, he.symm⟩)
      obtain ⟨q, hq⟩ := isLive_iff.1 (hs.fresh hsubsumes f (hsub f hmem))
      exact isLive_iff.2 ⟨q, by rw [getElem?_live_discard, if_neg hne]; exact hq⟩

end Collector

end TopPatterns

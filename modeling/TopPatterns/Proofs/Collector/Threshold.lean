import Mathlib
import TopPatterns.Proofs.Collector.Admission
import TopPatterns.Proofs.Collector.Reached

/-!
# The threshold of a full collector

A full collector refuses what is not above its least support, so that support is a threshold. An
offer to a full collector never lowers it (`Shelf.leastSupport_le_insert`), and leaves room only if
the new pattern takes the place of two retained ones or more (`Shelf.isFull_insert_eq_false_iff`).
Without subsumption no pattern takes the place of another, so a collector that is full stays so, and
its threshold only rises, whatever calls follow (`reached_threshold`).

An eviction is the one case with an argument: what it leaves is all among the old patterns and the
new one, and none of these is below the old threshold.
-/

namespace TopPatterns

namespace Pattern

/-- What bounds the support of all patterns bounds the least of them. -/
theorem le_leastOf {ps : List Pattern} {n : Nat} (hne : ps ≠ []) (h : ∀ p ∈ ps, n ≤ p.support) :
    n ≤ leastOf ps := by
  obtain ⟨p, hp, hleast⟩ := exists_leastOf hne
  exact hleast ▸ h p hp

end Pattern

namespace Shelf

variable {s : Shelf} {p : Pattern}

/-- How many retained patterns a new one takes the place of. -/
def replacedBy (s : Shelf) (p : Pattern) : Nat :=
  if s.subsumes then s.patterns.countP fun q => q.redundantBeside p else 0

theorem length_keptBeside_add (s : Shelf) (p : Pattern) :
    (s.keptBeside p).length + s.replacedBy p = s.count := by
  unfold keptBeside replacedBy count
  split
  · rw [← List.countP_eq_length_filter, Nat.add_comm,
      List.length_eq_countP_add_countP fun q => q.redundantBeside p]
    simp
  · rfl

/-- An admitted pattern takes the place of others, or of the weakest one of a full shelf. -/
theorem count_accept (s : Shelf) (p : Pattern) :
    (s.accept p).count =
      if s.isFull = true ∧ s.replacedBy p = 0 then s.count else s.count + 1 - s.replacedBy p := by
  have hkept := length_keptBeside_add s p
  have hevicts : (s.isFull && decide ((s.keptBeside p).length = s.patterns.length)) = true ↔
      s.isFull = true ∧ s.replacedBy p = 0 := by
    rw [Bool.and_eq_true, decide_eq_true_iff, ← count]
    exact and_congr_right fun _ => by omega
  rw [accept, count]
  dsimp only
  by_cases hevict : s.isFull = true ∧ s.replacedBy p = 0
  · rw [if_pos (hevicts.2 hevict), if_pos hevict]
    obtain ⟨q, -, -, hperm⟩ := Pattern.dropWeakest_perm (s.keptBeside p ++ [p]) (by simp)
    have hlen := hperm.length_eq
    rw [List.length_append, List.length_singleton, List.length_cons] at hlen
    omega
  · rw [if_neg (mt hevicts.1 hevict), if_neg hevict, List.length_append, List.length_singleton]
    omega

/-- What a shelf retains after it admitted a pattern was there before, or is that pattern. -/
theorem mem_of_mem_accept {q : Pattern} (hq : q ∈ (s.accept p).patterns) :
    q ∈ s.patterns ∨ q = p := by
  have hsub : (s.accept p).patterns.Sublist (s.keptBeside p ++ [p]) := by
    unfold accept
    dsimp only
    split
    · exact List.eraseP_sublist
    · exact List.Sublist.refl _
  rcases List.mem_append.1 (hsub.subset hq) with hq | hq
  · exact Or.inl ((keptBeside_sublist s p).subset hq)
  · exact Or.inr (List.mem_singleton.1 hq)

/-- **The threshold rises.** No offer to a full shelf lowers its least support. -/
theorem leastSupport_le_insert (hpos : 0 < s.capacity) (hfull : s.isFull = true) (p : Pattern) :
    s.leastSupport ≤ (s.insert p).leastSupport := by
  by_cases hrefused : s.offer p = none
  · exact Nat.le_of_eq (by rw [insert_of_refused hrefused])
  · rw [insert_of_admitted hrefused]
    rw [offer_eq_none_iff hpos, not_or, not_or] at hrefused
    have hb := hrefused.2.1
    have habove : s.leastSupport ≤ p.support := by
      rw [blocked_iff hpos, hfull, Bool.true_and, decide_eq_true_iff] at hb
      omega
    refine Pattern.le_leastOf (List.ne_nil_of_mem (mem_accept hb)) fun q hq => ?_
    rcases mem_of_mem_accept hq with hq | rfl
    · exact Pattern.leastOf_le hq
    · exact habove

/-- **Room again.** An offer leaves room on a full shelf exactly if it is admitted and takes the
place of more than one pattern. -/
theorem isFull_insert_eq_false_iff (hfull : s.isFull = true) (p : Pattern) :
    (s.insert p).isFull = false ↔ s.offer p ≠ none ∧ 2 ≤ s.replacedBy p := by
  have hcount := isFull_iff.1 hfull
  have hkept := length_keptBeside_add s p
  by_cases hrefused : s.offer p = none
  · rw [insert_of_refused hrefused, hfull]
    simp [hrefused]
  · have hafter := count_accept s p
    rw [insert_of_admitted hrefused, Bool.eq_false_iff, Ne, isFull_iff, and_iff_right hrefused]
    show ¬(s.accept p).count = s.capacity ↔ _
    simp only [hfull, true_and] at hafter
    split at hafter <;> omega

/-- Where an offer leaves room on a full shelf, the new pattern stands in the place of those that
are redundant beside it. -/
theorem patterns_insert_of_room (hpos : 0 < s.capacity) (hfull : s.isFull = true)
    (hroom : (s.insert p).isFull = false) : (s.insert p).patterns = s.keptBeside p ++ [p] := by
  obtain ⟨hadmitted, hreplaced⟩ := (isFull_insert_eq_false_iff hfull p).1 hroom
  rw [insert_of_admitted hadmitted]
  rw [Ne, offer_eq_none_iff hpos, not_or, not_or] at hadmitted
  rcases accept_cases hadmitted.2.1 with haccept | ⟨hall, -⟩
  · exact haccept
  · -- a shelf that evicts keeps all patterns beside the new one
    have hkept := length_keptBeside_add s p
    rw [hall, count] at hkept
    omega

/-- A full shelf that does not subsume stays full. -/
theorem isFull_insert (hs : s.subsumes = false) (hfull : s.isFull = true) (p : Pattern) :
    (s.insert p).isFull = true := by
  rw [← Bool.not_eq_false, isFull_insert_eq_false_iff hfull, replacedBy, hs]
  simp

end Shelf

namespace Collector

variable {ι : Type} [DecidableEq ι]

theorem after_append (family : ι → Collector) (calls later : List (Call ι)) :
    after family (calls ++ later) = after (after family calls) later :=
  List.foldl_append

/-- What later calls keep of a full collector that does not subsume: it is full, and its threshold
is no lower. -/
theorem after_isFull {family : ι → Collector} (hvalid : ∀ i, (family i).Valid) {i : ι}
    (hs : (family i).subsumes = false) (hfull : (family i).isFull = true)
    (later : List (Call ι)) :
    (after family later i).isFull = true ∧
      (family i).leastSupport ≤ (after family later i).leastSupport := by
  have hkept := after_preserves
    (P := fun j s => j = i → s.subsumes = false ∧ 0 < s.capacity ∧ s.isFull = true ∧
      (family i).leastSupport ≤ s.leastSupport)
    (fun j s p hP hj => by
      obtain ⟨hs, hpos, hfull, hle⟩ := hP hj
      exact ⟨(Shelf.subsumes_insert s p).trans hs, by rwa [Shelf.capacity_insert],
        Shelf.isFull_insert hs hfull p,
        Nat.le_trans hle (Shelf.leastSupport_le_insert hpos hfull p)⟩)
    hvalid
    (by
      rintro j rfl
      refine ⟨hs, (family j).capacity_pos, ?_, ?_⟩
      · rwa [isFull_shelf]
      · exact Nat.le_of_eq (leastSupport_shelf (hvalid j).toHeaped).symm)
    later i
  obtain ⟨hlater, hkept⟩ := hkept
  obtain ⟨-, -, hfull, hle⟩ := hkept rfl
  rw [isFull_shelf] at hfull
  rw [leastSupport_shelf hlater.toHeaped] at hle
  exact ⟨hfull, hle⟩

/-- **Thresholds only rise.** Whatever calls are made to a family of new collectors, take a member
that is full. If it does not subsume, then after any further calls it is still full, and its least
support is no lower. If it subsumes, then a pattern inserted next does not lower its least support;
there is room afterwards exactly if the pattern is admitted and at least two retained patterns of
its support are sub-patterns of it, and then it stands in their place. A merge inserts its patterns
one after the other, so the calls may also end in the middle of one. -/
theorem reached_threshold (capacity : ι → Nat) (subsumes : ι → Bool)
    (capacity_pos : ∀ i, 0 < capacity i) (calls : List (Call ι)) (i : ι) :
    let reached := after (fun i => empty (capacity i) (subsumes i) (capacity_pos i))
    let c := reached calls i
    c.isFull = true →
      (subsumes i = false → ∀ later, (reached (calls ++ later) i).isFull = true ∧
        c.leastSupport ≤ (reached (calls ++ later) i).leastSupport) ∧
      (subsumes i = true → ∀ p,
        let givesWay := fun q : Pattern => decide (q.support = p.support) && q.isSubPatternOf p
        c.leastSupport ≤ (c.insert p).leastSupport ∧
        ((c.insert p).isFull = false ↔ c.offer p ≠ none ∧ 2 ≤ c.retained.countP givesWay) ∧
        ((c.insert p).isFull = false →
          (c.insert p).retained = (c.retained.filter fun q => !givesWay q) ++ [p])) := by
  intro reached c hfull
  have hreached := after_empty capacity subsumes capacity_pos calls
  obtain ⟨hvalid, -, hsubsumes⟩ := hreached i
  refine ⟨fun hs later => ?_, fun hs p => ?_⟩
  · rw [show reached (calls ++ later) = after (reached calls) later from after_append _ _ _]
    exact after_isFull (fun i => (hreached i).1) (hsubsumes.trans hs) hfull later
  · have hshelf := insert_shelf hvalid p
    have hsubsumes : c.shelf.subsumes = true := hsubsumes.trans hs
    rw [← isFull_shelf] at hfull
    refine ⟨?_, ?_, fun hroom => ?_⟩
    · rw [← leastSupport_shelf hvalid.toHeaped,
        ← leastSupport_shelf (insert_valid hvalid p).toHeaped, hshelf]
      exact Shelf.leastSupport_le_insert c.capacity_pos hfull p
    · have hiff := Shelf.isFull_insert_eq_false_iff hfull p
      rwa [← hshelf, isFull_shelf, ← offer_shelf hvalid, Ne, Option.map_eq_none_iff,
        Shelf.replacedBy, if_pos hsubsumes] at hiff
    · rw [← isFull_shelf, hshelf] at hroom
      have hpatterns := Shelf.patterns_insert_of_room c.capacity_pos hfull hroom
      rwa [← hshelf, Shelf.keptBeside, if_pos hsubsumes] at hpatterns

/-- Two full collectors of three places. On the one that does not subsume, an equal pattern is
refused and a merge with the other one raises the threshold. On the one that subsumes, a pattern
takes the place of two retained ones, and leaves room. -/
theorem reached_threshold_two_for_one :
    let p (items : List Int) (support : Nat) : Pattern := ⟨items.map Item.number, support⟩
    let three (i : Bool) : List (Call Bool) :=
      [.insert i (p [1] 3), .insert i (p [2] 5), .insert i (p [3] 5)]
    let calls := three true ++ three false
    let later : List (Call Bool) := [.insert false (p [4] 3), .merge false true (.number 6) 4]
    let reached := after (fun i : Bool => empty 3 i (by decide))
    let c := reached calls true
    (∀ _ : Bool, 0 < (3 : Nat)) ∧
      (reached calls false).isFull = true ∧ (reached (calls ++ later) false).isFull = true ∧
      (reached calls false).leastSupport ≤ (reached (calls ++ later) false).leastSupport ∧
      c.isFull = true ∧ c.leastSupport ≤ (c.insert (p [3, 2] 5)).leastSupport ∧
      (c.insert (p [3, 2] 5)).isFull = false ∧
      (c.insert (p [3, 2] 5)).retained = [p [1] 3, p [3, 2] 5] := by
  intro p three calls later reached c
  have hfull : ∀ i, (reached calls i).isFull = true := by
    simp only [reached, calls, three, p]
    decide +kernel
  have hretained : c.retained = [p [1] 3, p [2] 5, p [3] 5] := by
    simp only [c, reached, calls, three, p]
    cbv
  have hadmitted : c.offer (p [3, 2] 5) ≠ none := by
    rw [Option.ne_none_iff_isSome]
    simp only [c, reached, calls, three, p]
    decide +kernel
  obtain ⟨hplain, -⟩ := reached_threshold (fun _ => 3) (fun i => i) (by decide) calls false
    (hfull false)
  obtain ⟨-, hsubsuming⟩ := reached_threshold (fun _ => 3) (fun i => i) (by decide) calls true
    (hfull true)
  obtain ⟨hleast, hroom, hreplaced⟩ := hsubsuming rfl (p [3, 2] 5)
  have hleaves := hroom.2 ⟨hadmitted, by
    show 2 ≤ c.retained.countP _
    rw [hretained]
    decide⟩
  refine ⟨by decide, hfull false, (hplain rfl later).1, (hplain rfl later).2, hfull true, hleast,
    hleaves, (hreplaced hleaves).trans ?_⟩
  show (c.retained.filter _) ++ _ = _
  rw [hretained]
  decide

end Collector

end TopPatterns

import Mathlib
import TopPatterns.Proofs.Collector.Admission
import TopPatterns.Proofs.Collector.Reached

/-!
# The strongest of all offers

A collector that does not subsume retains the strongest of the patterns with items that it was ever
offered, each as often as it was offered, and only at the least support some may be missing
(`inserted_strongest`).

The invariant looks at the whole history: the patterns offered are those retained and those lost, be
it by a refusal or an eviction, and the list is blocked at the support of everything lost
(`Strongest`). An offer adds the pattern to those retained or to those lost, and may move another
one from the first to the second (`Shelf.strongest_insert`). Sorted by support, what is lost comes
last, so the supports retained are the first ones of all.
-/

namespace TopPatterns

/-- What a list with room for `k` patterns retains of the patterns offered: all but some, and it is
blocked at the support of each of these. -/
structure Strongest (k : Nat) (offered ps : List Pattern) : Prop where
  length_le : ps.length ≤ k
  exists_lost : ∃ lost, offered.Perm (ps ++ lost) ∧ ∀ q ∈ lost, Blocked k ps q.support

namespace Strongest

variable {k : Nat} {offered ps : List Pattern}

theorem nil (k : Nat) : Strongest k [] [] :=
  ⟨Nat.zero_le k, [], List.Perm.refl _, fun _ hq => absurd hq List.not_mem_nil⟩

/-- The patterns retained are among those offered. -/
theorem subperm (h : Strongest k offered ps) : ps.Subperm offered := by
  obtain ⟨lost, hperm, -⟩ := h.exists_lost
  exact (List.sublist_append_left ps lost).subperm.trans hperm.symm.subperm

/-- If any are lost, the list is full. -/
theorem length_eq (h : Strongest k offered ps) : ps.length = min k offered.length := by
  obtain ⟨lost, hperm, hlost⟩ := h.exists_lost
  have hlen := hperm.length_eq
  have hle := h.length_le
  rw [List.length_append] at hlen
  cases lost with
  | nil =>
    rw [List.length_nil] at hlen
    omega
  | cons q lost =>
    have hfull := (hlost q (List.mem_cons_self ..)).1
    omega

/-- The supports retained are the greatest of those offered. -/
theorem supports_eq (h : Strongest k offered ps) :
    (Pattern.descending ps).map Pattern.support =
      ((Pattern.descending offered).map Pattern.support).take k := by
  obtain ⟨lost, hperm, hlost⟩ := h.exists_lost
  have hps := Pattern.descending_perm ps
  have hlost' := Pattern.descending_perm lost
  -- what is lost is no stronger than anything retained, so it comes after it in the sorted list
  have hsplit : (Pattern.descending offered).map Pattern.support =
      (Pattern.descending ps).map Pattern.support ++
        (Pattern.descending lost).map Pattern.support := by
    refine Pattern.supports_descending_eq (List.pairwise_append.2
      ⟨Pattern.pairwise_support_descending ps, Pattern.pairwise_support_descending lost, ?_⟩) ?_
    · intro a ha b hb
      obtain ⟨r, hr, rfl⟩ := List.mem_map.1 ha
      obtain ⟨q, hq, rfl⟩ := List.mem_map.1 hb
      exact (hlost q (hlost'.mem_iff.1 hq)).2 r (hps.mem_iff.1 hr)
    · rw [← List.map_append]
      exact (hperm.trans (hps.append hlost').symm).map Pattern.support
  have hlength : ((Pattern.descending ps).map Pattern.support).length =
      min k ((Pattern.descending offered).map Pattern.support).length := by
    rw [List.length_map, List.length_map, hps.length_eq, h.length_eq,
      (Pattern.descending_perm offered).length_eq]
  have hprefix : (Pattern.descending ps).map Pattern.support <+:
      (Pattern.descending offered).map Pattern.support := ⟨_, hsplit.symm⟩
  rw [List.prefix_iff_eq_take.1 hprefix, hlength]
  exact List.take_eq_take_iff.2 (by omega)

/-- Above the least support, nothing is missing. -/
theorem count_eq (h : Strongest k offered ps) (hk : 0 < k) {p : Pattern}
    (hp : Pattern.leastOf ps < p.support) : ps.count p = offered.count p := by
  obtain ⟨lost, hperm, hlost⟩ := h.exists_lost
  have hnot : p ∉ lost := by
    intro hmem
    obtain ⟨hfull, hall⟩ := hlost p hmem
    have hne : ps ≠ [] := List.ne_nil_of_length_pos (hfull ▸ hk)
    obtain ⟨r, hr, hleast⟩ := Pattern.exists_leastOf hne
    have hle := hall r hr
    omega
  rw [hperm.count_eq, List.count_append, List.count_eq_zero.2 hnot, Nat.add_zero]

/-! ## One more offer -/

/-- What is admitted to a list with room. -/
theorem append (h : Strongest k offered ps) (hroom : ps.length < k) (p : Pattern) :
    Strongest k (offered ++ [p]) (ps ++ [p]) := by
  obtain ⟨lost, hperm, hlost⟩ := h.exists_lost
  have hnone : lost = [] := by
    refine List.eq_nil_iff_forall_not_mem.2 fun q hq => ?_
    have hfull := (hlost q hq).1
    omega
  refine ⟨?_, [], ?_, fun q hq => absurd hq List.not_mem_nil⟩
  · rw [List.length_append, List.length_singleton]
    exact hroom
  · rw [hnone, List.append_nil] at hperm
    rw [List.append_nil]
    exact hperm.append_right [p]

/-- What is refused for want of room is lost. -/
theorem refused (h : Strongest k offered ps) {p : Pattern} (hb : Blocked k ps p.support) :
    Strongest k (offered ++ [p]) ps := by
  obtain ⟨lost, hperm, hlost⟩ := h.exists_lost
  refine ⟨h.length_le, lost ++ [p], ?_, ?_⟩
  · rw [← List.append_assoc]
    exact hperm.append_right [p]
  · intro q hq
    rcases List.mem_append.1 hq with hq | hq
    · exact hlost q hq
    · exact List.mem_singleton.1 hq ▸ hb

/-- What is evicted for a stronger pattern is lost. -/
theorem evicted (h : Strongest k offered ps) {p e : Pattern} {ps' : List Pattern}
    (he : e ∈ ps) (hweak : e.support < p.support) (hperm : (ps ++ [p]).Perm (e :: ps'))
    (hb : Blocked k ps' e.support) : Strongest k (offered ++ [p]) ps' := by
  obtain ⟨lost, hsplit, hlost⟩ := h.exists_lost
  refine ⟨Nat.le_of_eq hb.1, e :: lost, ?_, ?_⟩
  · -- the new pattern joins those retained, and the evicted one leaves them
    refine (hsplit.append_right [p]).trans ?_
    rw [List.append_assoc]
    refine (List.perm_append_comm.append_left ps).trans ?_
    rw [← List.append_assoc]
    exact (hperm.append_right lost).trans List.perm_middle.symm
  · intro q hq
    rcases List.mem_cons.1 hq with rfl | hq
    · exact hb
    · -- what was lost before is no stronger than the evicted pattern
      exact hb.mono ((hlost q hq).2 e he)

end Strongest

/-- The patterns with items among those offered. -/
def Pattern.withItems (ps : List Pattern) : List Pattern := ps.filter fun p => !p.items.isEmpty

namespace Shelf

variable {s : Shelf} {offered : List Pattern}

/-- **One offer** to a shelf that does not subsume. -/
theorem strongest_insert (hs : s.subsumes = false) (hpos : 0 < s.capacity)
    (hle : s.count ≤ s.capacity) (h : Strongest s.capacity offered s.patterns) {p : Pattern}
    (hp : p.items ≠ []) :
    Strongest s.capacity (offered ++ [p]) (s.insert p).patterns := by
  have hkept : s.keptBeside p = s.patterns := by
    unfold keptBeside
    rw [hs]
    rfl
  by_cases hb : Blocked s.capacity s.patterns p.support
  · rw [insert_of_refused ((offer_eq_none_iff hpos).2 (Or.inr (Or.inl hb)))]
    exact h.refused hb
  · have hadmitted : s.offer p ≠ none := by
      rw [Ne, offer_eq_none_iff hpos, hs]
      simp [hp, hb]
    rw [insert_of_admitted hadmitted]
    rcases accept_cases hb with haccept | ⟨-, e, he, hweak, hperm, hblocked⟩
    · have hcount := count_accept_le hle p
      rw [count, haccept, hkept, List.length_append, List.length_singleton] at hcount
      rw [haccept, hkept]
      exact h.append hcount p
    · exact h.evicted he hweak hperm hblocked

/-- **All offers** to a shelf that does not subsume. -/
theorem strongest_foldl_insert (hs : s.subsumes = false) (hpos : 0 < s.capacity)
    (hle : s.count ≤ s.capacity) (h : Strongest s.capacity offered s.patterns)
    (ps : List Pattern) :
    Strongest s.capacity (offered ++ Pattern.withItems ps) (ps.foldl insert s).patterns := by
  induction ps generalizing s offered with
  | nil => simpa [Pattern.withItems] using h
  | cons p ps ih =>
    rw [List.foldl_cons]
    by_cases hp : p.items = []
    · have hsame : s.insert p = s :=
        insert_of_refused ((offer_eq_none_iff hpos).2 (Or.inl hp))
      rw [hsame]
      simpa [Pattern.withItems, hp] using ih hs hpos hle h
    · have hnext := strongest_insert hs hpos hle h hp
      have hcount := count_insert_le hle p
      rw [← capacity_insert s p] at hpos hcount hnext
      have hall := ih (by rw [subsumes_insert, hs]) hpos hcount hnext
      rw [capacity_insert] at hall
      simpa [Pattern.withItems, hp] using hall

end Shelf

namespace Collector

/-- **The strongest of all offers.** Insert patterns into a new collector that does not subsume. The
supports retained are the greatest ones of the patterns with items, as many as there is room for;
the patterns retained are among these; and above the least support each is retained as often as it
was offered. In another order the same patterns leave the same supports. -/
theorem inserted_strongest (capacity : Nat) (capacity_pos : 0 < capacity) (offers : List Pattern) :
    let c := (empty capacity false capacity_pos).insertAll offers
    let offered := Pattern.withItems offers
    c.count = min capacity offered.length ∧
      c.ranked.map Pattern.support =
        ((Pattern.descending offered).map Pattern.support).take capacity ∧
      c.retained.Subperm offered ∧
      (∀ p ∈ offered, c.leastSupport < p.support → c.retained.count p = offered.count p) ∧
      ∀ reordered, reordered.Perm offers →
        ((empty capacity false capacity_pos).insertAll reordered).ranked.map Pattern.support =
          c.ranked.map Pattern.support := by
  intro c offered
  have hempty : (empty capacity false capacity_pos).Valid := empty_valid capacity_pos
  have hrun : ∀ ps, ((empty capacity false capacity_pos).insertAll ps).Valid ∧
      Strongest capacity (Pattern.withItems ps)
        ((empty capacity false capacity_pos).insertAll ps).retained := by
    intro ps
    obtain ⟨hvalid, hshelf⟩ := insertAll_shelf hempty ps
    refine ⟨hvalid, ?_⟩
    rw [← patterns_shelf, hshelf]
    exact Shelf.strongest_foldl_insert (s := (empty capacity false capacity_pos).shelf) rfl
      capacity_pos (Nat.zero_le _) (Strongest.nil capacity) ps
  obtain ⟨hvalid, h⟩ := hrun offers
  refine ⟨?_, h.supports_eq, h.subperm, fun p _ hp => h.count_eq capacity_pos ?_, ?_⟩
  · rw [count_eq_length]
    exact h.length_eq
  · rwa [← patterns_shelf, ← Shelf.leastSupport, leastSupport_shelf hvalid.toHeaped]
  · intro reordered hperm
    refine (hrun reordered).2.supports_eq.trans (Eq.trans ?_ h.supports_eq.symm)
    have hsame : (Pattern.withItems reordered).Perm offered := hperm.filter _
    rw [Pattern.supports_descending_eq (Pattern.pairwise_support_descending offered)
      ((hsame.trans (Pattern.descending_perm offered).symm).map Pattern.support)]

/-- With room for three, of two equal patterns above the least support both are retained, and of
three at the least support one. -/
theorem inserted_strongest_room_for_three :
    let p (items : List Int) (support : Nat) : Pattern := ⟨items.map Item.number, support⟩
    let offers := [p [1] 4, p [2] 7, p [] 9, p [3] 4, p [2] 7, p [3] 4]
    let c := (empty 3 false (by decide)).insertAll offers
    0 < 3 ∧ c.count = 3 ∧ c.ranked.map Pattern.support = [7, 7, 4] ∧
      c.retained.Subperm (Pattern.withItems offers) ∧ c.retained.count (p [2] 7) = 2 ∧
      ((empty 3 false (by decide)).insertAll offers.reverse).ranked.map Pattern.support =
        [7, 7, 4] := by
  intro p offers c
  obtain ⟨hcount, hranked, hsub, htwice, hreordered⟩ := inserted_strongest 3 (by decide) offers
  have hsupports : c.ranked.map Pattern.support = [7, 7, 4] := by
    refine hranked.trans ?_
    simp only [offers, p]
    cbv
  have hleast : c.leastSupport = 4 := by
    simp only [c, offers, p]
    cbv
  refine ⟨by decide, hcount, hsupports, hsub, ?_, ?_⟩
  · exact htwice (p [2] 7) (by decide) (by rw [hleast]; decide)
  · exact (hreordered offers.reverse (List.reverse_perm offers)).trans hsupports

end Collector

end TopPatterns

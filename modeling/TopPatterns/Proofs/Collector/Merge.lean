import TopPatterns.Mining.Partition
import TopPatterns.Proofs.Collector.Reached

/-!
# Merging is inserting

A merge and the fan-in of parts test the capacity before they offer a pattern. The test changes
nothing about the outcome, since a pattern that does not pass it is refused (`offer_of_not_admits`),
and it does to the heap what the offer does as well (`insert_tested`). So a merge with a support that
is not negative leaves the very collector that inserting the extended patterns leaves
(`mergeAll_eq`). `mergeRun` follows a merge pattern by pattern and keeps what it has done before a
failure.
-/

namespace TopPatterns

/-- A pattern as a merge offers it: with one more item, and with its support capped. -/
def Pattern.extended (item : Item) (support : Int) (p : Pattern) : Pattern :=
  ⟨p.items ++ [item], (min support p.support).toNat⟩

namespace Pattern

theorem extended_items_ne_nil (item : Item) (support : Int) (p : Pattern) :
    (p.extended item support).items ≠ [] := by
  simp [extended]

variable {support : Int}

/-- A cap that is not negative gives an extended pattern its support. -/
theorem support_extended (hs : 0 ≤ support) (item : Item) (p : Pattern) :
    ((p.extended item support).support : Int) = min support p.support :=
  Int.toNat_of_nonneg (by omega)

theorem extend_of_nonneg (hs : 0 ≤ support) (item : Item) (p : Pattern) :
    p.extend item (min support p.support) = .ok (p.extended item support) :=
  ofSupport_of_nonneg (by omega)

theorem extend_of_neg (hs : support < 0) (item : Item) (p : Pattern) :
    p.extend item (min support p.support) = .error (.negativeSupport support) := by
  rw [Int.min_eq_left (by omega)]
  exact ofSupport_of_neg hs

/-- All patterns are extended if the cap is not negative. -/
theorem mapM_extend (hs : 0 ≤ support) (item : Item) (ps : List Pattern) :
    (ps.mapM fun p => p.extend item (min support p.support)) =
      .ok (ps.map (extended item support)) := by
  induction ps with
  | nil => rfl
  | cons p ps ih =>
    rw [List.mapM_cons, extend_of_nonneg hs, ih]
    rfl

end Pattern

namespace Shelf

variable {s : Shelf}

/-- A shelf without room for a support refuses the patterns of that support. -/
theorem offer_of_not_admits (hle : s.count ≤ s.capacity) {p : Pattern}
    (h : s.admits p.support = false) : s.offer p = none := by
  rw [admits] at h
  split at h
  · simp at h
  · have hfull : s.isFull = true := isFull_iff.2 (by omega)
    have hsupport : p.support ≤ s.leastSupport := by
      have hleast := of_decide_eq_false h
      omega
    rw [offer]
    split
    · rfl
    · rw [hfull, decide_eq_true hsupport]
      rfl

theorem insert_of_not_admits (hle : s.count ≤ s.capacity) {p : Pattern}
    (h : s.admits p.support = false) : s.insert p = s := by
  rw [insert, offer_of_not_admits hle h]
  rfl

end Shelf

namespace Collector

variable {c : Collector} {p : Pattern} {item : Item} {support : Int}

theorem count_shelf_le (h : c.Valid) : c.shelf.count ≤ c.shelf.capacity := by
  rw [count_shelf]
  exact h.count_le

/-! ## The test of capacity -/

/-- A collector that does not admit the support of a pattern refuses the pattern. -/
theorem offer_of_not_admits (h : c.Valid) (hadmits : c.admits p.support = false) :
    c.offer p = none := by
  have hshelf := Shelf.offer_of_not_admits (count_shelf_le h) (p := p)
    (by rwa [admits_shelf h.toHeaped])
  rwa [← offer_shelf h, Option.map_eq_none_iff] at hshelf

/-- A refused pattern with items costs a collector what a test of capacity costs it. -/
theorem insert_of_not_admits (h : c.Valid) (hp : p.items ≠ [])
    (hadmits : c.admits p.support = false) : c.insert p = c.tested := by
  rw [insert_of_refused (offer_of_not_admits h hadmits), refuse, if_neg (by simpa using hp)]

theorem offer_tested (h : c.Valid) (p : Pattern) : c.tested.offer p = c.offer p := by
  rw [offer, offer, isFull_tested, leastSupport_tested h.toHeaped, tested_tested h.toHeaped]

/-- A test of capacity before a pattern with items is inserted changes nothing. -/
theorem insert_tested (h : c.Valid) (hp : p.items ≠ []) : c.tested.insert p = c.insert p := by
  have hp' : ¬p.items.isEmpty = true := by simpa using hp
  rw [insert, insert, offer_tested h, refuse, refuse, if_neg hp', if_neg hp',
    tested_tested h.toHeaped]

/-! ## Merges -/

/-- How many of some patterns are admitted when they are inserted one after the other. -/
def admissions (c : Collector) : List Pattern → Nat
  | [] => 0
  | p :: ps => (if (c.offer p).isSome then 1 else 0) + (c.insert p).admissions ps

/-- A merge pattern by pattern, with the collector that it leaves. If it fails, what was done to the
collector before stays done, the test of capacity included. -/
def mergeRun (item : Item) (support : Int) (state : Nat × Collector) :
    List Pattern → Except MiningError Nat × Collector
  | [] => (.ok state.1, state.2)
  | p :: ps =>
    match mergeStep item support state p with
    | .ok next => mergeRun item support next ps
    | .error e => (.error e, state.2.tested)

/-- A merge returns what its run ends with. -/
theorem mergeAll_eq_mergeRun (c child : Collector) (item : Item) (support : Int) :
    c.mergeAll child item support =
      match mergeRun item support (0, c) child.ranked with
      | (.ok n, left) => .ok (n, left)
      | (.error e, _) => .error e := by
  -- count and collector change with every pattern, so both are arbitrary in the induction
  have hrun : ∀ (ps : List Pattern) (state : Nat × Collector),
      ps.foldlM (mergeStep item support) state =
        match mergeRun item support state ps with
        | (.ok n, left) => .ok (n, left)
        | (.error e, _) => .error e := by
    intro ps
    induction ps with
    | nil => exact fun state => rfl
    | cons p ps ih =>
      intro state
      rw [List.foldlM_cons, mergeRun]
      cases mergeStep item support state p with
      | error e => rfl
      | ok next => exact ih next
  exact hrun child.ranked (0, c)

/-- One step of a merge with a support that is not negative inserts the extended pattern, and counts
it if it is admitted. -/
theorem mergeStep_eq (h : c.Valid) (item : Item) (hs : 0 ≤ support) (n : Nat) (p : Pattern) :
    mergeStep item support (n, c) p =
      .ok (n + (if (c.offer (p.extended item support)).isSome then 1 else 0),
        c.insert (p.extended item support)) := by
  have hne := p.extended_items_ne_nil item support
  simp only [mergeStep, Pattern.extend_of_nonneg hs, Except.map]
  split
  · rw [← insert_tested h hne, insert, offer_tested h]
    cases c.offer (p.extended item support) <;> rfl
  · next hadmits =>
    rw [← Pattern.support_extended hs item] at hadmits
    have hadmits : c.admits (p.extended item support).support = false := by simpa using hadmits
    rw [offer_of_not_admits h hadmits, insert_of_not_admits h hne hadmits]
    rfl

/-- **A merge inserts.** With a support that is not negative it inserts the extended patterns, and
counts those that are admitted. -/
theorem mergeRun_eq (h : c.Valid) (item : Item) (hs : 0 ≤ support) (n : Nat) (ps : List Pattern) :
    mergeRun item support (n, c) ps =
      (.ok (n + c.admissions (ps.map (Pattern.extended item support))),
        c.insertAll (ps.map (Pattern.extended item support))) := by
  induction ps generalizing n c with
  | nil => rfl
  | cons p ps ih =>
    rw [mergeRun, mergeStep_eq h item hs]
    show mergeRun item support (_, c.insert (p.extended item support)) ps = _
    rw [ih (insert_valid h _), List.map_cons, admissions, Nat.add_assoc]
    rfl

theorem mergeAll_eq (h : c.Valid) (child : Collector) (item : Item) (hs : 0 ≤ support) :
    c.mergeAll child item support =
      .ok (c.admissions (child.ranked.map (Pattern.extended item support)),
        c.insertAll (child.ranked.map (Pattern.extended item support))) := by
  rw [mergeAll_eq_mergeRun, mergeRun_eq h item hs, Nat.zero_add]

/-- One step of the fan-in inserts its pattern: the plain list refuses what the test keeps away. -/
theorem absorbStep_shelf (h : c.Valid) (p : Pattern) :
    (if c.admits p.support then c.tested.insert p else c.tested).Valid ∧
      (if c.admits p.support then c.tested.insert p else c.tested).shelf = c.shelf.insert p := by
  have ht := tested_valid h
  split
  · refine ⟨insert_valid ht p, ?_⟩
    rw [insert_shelf ht, shelf_tested]
  · next hadmits =>
    refine ⟨ht, ?_⟩
    rw [shelf_tested, Shelf.insert_of_not_admits (count_shelf_le h)]
    rw [admits_shelf h.toHeaped]
    simpa using hadmits

/-- The fan-in of a part inserts its patterns, strongest first. -/
theorem absorb_eq (h : c.Valid) (part : Collector) :
    (c.absorb part).Valid ∧ (c.absorb part).shelf = part.ranked.foldl Shelf.insert c.shelf := by
  rw [absorb]
  induction part.ranked generalizing c with
  | nil => exact ⟨h, rfl⟩
  | cons p ps ih =>
    obtain ⟨hvalid, hshelf⟩ := absorbStep_shelf h p
    rw [List.foldl_cons, List.foldl_cons, ← hshelf]
    exact ih hvalid

end Collector

end TopPatterns

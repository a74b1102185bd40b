import TopPatterns.Collector.Basic

/-!
# The collector as a plain list

A `Shelf` is what a collector amounts to: the retained patterns in the order of their admission, a
capacity and a flag, and no heap, numbers or index. Its rules are said on the list alone. A full
shelf refuses what is not above its least support; a subsuming one refuses what is redundant beside
a retained pattern, and removes what becomes redundant; only if nothing was removed does a full
shelf give up the first of its weakest patterns.

`Proofs/Collector/Simulation` shows that a collector answers as its shelf does. The laws here are
those of the list: an offer keeps the capacity and the flag, and keeps within the capacity.
-/

namespace TopPatterns

namespace Pattern

/-- Whether a pattern is redundant beside another one: of the same support, and with no item that
the other one lacks. -/
def redundantBeside (p q : Pattern) : Bool := decide (p.support = q.support) && p.isSubPatternOf q

theorem redundantBeside_iff {p q : Pattern} :
    p.redundantBeside q = true ↔ p.support = q.support ∧ p.isSubPatternOf q = true := by
  simp [redundantBeside]

theorem pairwise_support_descending (ps : List Pattern) :
    ((descending ps).map support).Pairwise (· ≥ ·) := by
  rw [List.pairwise_map]
  refine (List.pairwise_mergeSort (fun a b c hab hbc => ?_) (fun a b => ?_) ps).imp fun h => ?_
  · exact decide_eq_true (Nat.le_trans (of_decide_eq_true hbc) (of_decide_eq_true hab))
  · rw [Bool.or_eq_true, decide_eq_true_iff, decide_eq_true_iff]
    exact Nat.le_total _ _
  · exact of_decide_eq_true h

/-- The ranked supports are the only falling list of the supports. -/
theorem supports_descending_eq {ps : List Pattern} {supports : List Nat}
    (hfalling : supports.Pairwise (· ≥ ·)) (hperm : (ps.map support).Perm supports) :
    (descending ps).map support = supports :=
  List.Perm.eq_of_pairwise (fun _ _ _ _ hab hba => Nat.le_antisymm hba hab)
    (pairwise_support_descending ps) hfalling (((descending_perm ps).map support).trans hperm)

/-- The least support of some patterns, 0 if there are none. -/
def leastOf (ps : List Pattern) : Nat := (ps.map Pattern.support).min?.getD 0

theorem leastOf_le {ps : List Pattern} {p : Pattern} (h : p ∈ ps) : leastOf ps ≤ p.support := by
  have hm : p.support ∈ ps.map Pattern.support := List.mem_map_of_mem h
  cases hmin : (ps.map Pattern.support).min? with
  | none => rw [List.min?_eq_none_iff] at hmin; simp [hmin] at hm
  | some n =>
    rw [leastOf, hmin]
    exact (List.min?_eq_some_iff.1 hmin).2 _ hm

theorem exists_leastOf {ps : List Pattern} (h : ps ≠ []) : ∃ p ∈ ps, p.support = leastOf ps := by
  cases hmin : (ps.map Pattern.support).min? with
  | none => rw [List.min?_eq_none_iff, List.map_eq_nil_iff] at hmin; exact absurd hmin h
  | some n =>
    obtain ⟨p, hp, hpn⟩ := List.mem_map.1 (List.min?_eq_some_iff.1 hmin).1
    exact ⟨p, hp, by rw [leastOf, hmin, hpn]; rfl⟩

/-- A support that occurs and is not above any other is the least one. -/
theorem leastOf_eq {ps : List Pattern} {p : Pattern} (hp : p ∈ ps)
    (hle : ∀ q ∈ ps, p.support ≤ q.support) : leastOf ps = p.support := by
  obtain ⟨q, hq, hqs⟩ := exists_leastOf (List.ne_nil_of_mem hp)
  exact Nat.le_antisymm (leastOf_le hp) (hqs ▸ hle q hq)

/-- The least support is known from the supports. -/
theorem leastOf_eq_of_perm {ps qs : List Pattern}
    (h : (ps.map support).Perm (qs.map support)) : leastOf ps = leastOf qs := by
  cases ps with
  | nil => rw [List.map_nil, List.nil_perm, List.map_eq_nil_iff] at h; rw [h]
  | cons p ps =>
    obtain ⟨r, hr, hleast⟩ := exists_leastOf (List.cons_ne_nil p ps)
    obtain ⟨q, hq, hqr⟩ := List.mem_map.1 (h.mem_iff.1 (List.mem_map_of_mem hr))
    rw [← hleast, ← hqr]
    refine (leastOf_eq hq fun q' hq' => ?_).symm
    obtain ⟨r', hr', hr'q'⟩ := List.mem_map.1 (h.mem_iff.2 (List.mem_map_of_mem hq'))
    rw [hqr, hleast, ← hr'q']
    exact leastOf_le hr'

/-- The patterns without the first one of least support. -/
def dropWeakest (ps : List Pattern) : List Pattern :=
  ps.eraseP fun q => decide (q.support = leastOf ps)

/-- Dropping the weakest pattern takes away one pattern, and none is weaker. -/
theorem dropWeakest_perm (ps : List Pattern) (h : ps ≠ []) :
    ∃ q ∈ ps, (∀ r ∈ ps, q.support ≤ r.support) ∧ ps.Perm (q :: dropWeakest ps) := by
  obtain ⟨p, hp, hps⟩ := exists_leastOf h
  obtain ⟨q, front, back, -, hq, hsplit, hdrop⟩ :=
    List.exists_of_eraseP (p := fun q => decide (q.support = leastOf ps)) hp (by simpa using hps)
  have hq : q.support = leastOf ps := by simpa using hq
  have hmem : q ∈ ps := by rw [hsplit]; simp
  refine ⟨q, hmem, fun r hr => hq ▸ leastOf_le hr, ?_⟩
  rw [dropWeakest, hdrop, hsplit]
  exact List.perm_middle

end Pattern

/-- At most `capacity` patterns in the order of their admission. -/
structure Shelf where
  capacity : Nat
  subsumes : Bool
  patterns : List Pattern
deriving DecidableEq, Repr

namespace Shelf

/-- A shelf without patterns. -/
def empty (capacity : Nat) (subsumes : Bool) : Shelf := ⟨capacity, subsumes, []⟩

/-- How many patterns are retained. -/
def count (s : Shelf) : Nat := s.patterns.length

/-- Whether there is no room for a further pattern. -/
def isFull (s : Shelf) : Bool := s.count = s.capacity

/-- The least support retained, 0 if nothing is. -/
def leastSupport (s : Shelf) : Nat := Pattern.leastOf s.patterns

/-- Whether a pattern of this support would pass the test of capacity. -/
def admits (s : Shelf) (support : Int) : Bool :=
  if s.count < s.capacity then true else decide ((s.leastSupport : Int) < support)

/-- The retained patterns by falling support; of equal supports the one admitted first. -/
def ranked (s : Shelf) : List Pattern := Pattern.descending s.patterns

/-- The patterns that stay beside a new one. -/
def keptBeside (s : Shelf) (p : Pattern) : List Pattern :=
  if s.subsumes then s.patterns.filter fun q => !q.redundantBeside p else s.patterns

/-- The shelf with a pattern admitted. -/
def accept (s : Shelf) (p : Pattern) : Shelf :=
  let kept := s.keptBeside p
  { s with
    patterns :=
      if s.isFull && decide (kept.length = s.patterns.length) then
        Pattern.dropWeakest (kept ++ [p])
      else kept ++ [p] }

/-- Offers a pattern: the shelf that retains it, or `none` if it is refused. -/
def offer (s : Shelf) (p : Pattern) : Option Shelf :=
  if p.items.isEmpty then none
  else if s.isFull && decide (p.support ≤ s.leastSupport) then none
  else if s.subsumes && s.patterns.any p.redundantBeside then none
  else some (s.accept p)

/-- A shelf after an offer, admitted or refused. -/
def insert (s : Shelf) (p : Pattern) : Shelf := (s.offer p).getD s

/-- Folds one pattern of another shelf in. -/
def mergeStep (item : Item) (support : Int) (state : Nat × Shelf) (p : Pattern) :
    Except MiningError (Nat × Shelf) :=
  let capped := min support p.support
  if state.2.admits capped then
    (p.extend item capped).map fun q =>
      match state.2.offer q with
      | some s => (state.1 + 1, s)
      | none => state
  else .ok state

/-- Folds all patterns of another shelf in, strongest first, each extended by an item and with its
support capped. The answer has the number of patterns admitted. -/
def mergeAll (s child : Shelf) (item : Item) (support : Int) : Except MiningError (Nat × Shelf) :=
  child.ranked.foldlM (mergeStep item support) (0, s)

/-! ## Laws -/

theorem isFull_iff {s : Shelf} : s.isFull = true ↔ s.count = s.capacity := by simp [isFull]

theorem mem_keptBeside {s : Shelf} {p q : Pattern} :
    q ∈ s.keptBeside p ↔
      q ∈ s.patterns ∧ (s.subsumes = true → q.redundantBeside p = false) := by
  unfold keptBeside
  split
  · next h => simp [h]
  · next h => simp [h]

theorem keptBeside_sublist (s : Shelf) (p : Pattern) : (s.keptBeside p).Sublist s.patterns := by
  unfold keptBeside
  split
  · exact List.filter_sublist
  · exact List.Sublist.refl _

/-- Admitting keeps within the capacity: a full shelf removes or gives up a pattern for the new
one. -/
theorem count_accept_le {s : Shelf} (h : s.count ≤ s.capacity) (p : Pattern) :
    (s.accept p).count ≤ s.capacity := by
  have hkept : (s.keptBeside p).length ≤ s.count := (keptBeside_sublist s p).length_le
  rw [accept, count]
  dsimp only
  split
  · obtain ⟨q, -, -, hperm⟩ :=
      Pattern.dropWeakest_perm (s.keptBeside p ++ [p]) (by simp)
    have hlen := hperm.length_eq
    rw [List.length_append, List.length_singleton, List.length_cons] at hlen
    omega
  · next hf =>
    -- a full shelf that gives up nothing has removed at least one pattern
    rw [List.length_append, List.length_singleton]
    by_cases hfull : s.isFull = true
    · have hne : ¬(s.keptBeside p).length = s.count := by simpa [hfull, count] using hf
      omega
    · have hne : ¬s.count = s.capacity := fun e => hfull (isFull_iff.2 e)
      omega

/-- A pattern is refused or admitted. -/
theorem offer_eq_none_or (s : Shelf) (p : Pattern) :
    s.offer p = none ∨ s.offer p = some (s.accept p) := by
  rw [offer]
  split
  · exact Or.inl rfl
  · split
    · exact Or.inl rfl
    · split
      · exact Or.inl rfl
      · exact Or.inr rfl

/-- An offer leaves a shelf as it is or admits the pattern. -/
theorem insert_eq_or (s : Shelf) (p : Pattern) : s.insert p = s ∨ s.insert p = s.accept p := by
  rw [insert]
  rcases offer_eq_none_or s p with h | h <;> rw [h]
  · exact Or.inl rfl
  · exact Or.inr rfl

@[simp] theorem capacity_insert (s : Shelf) (p : Pattern) :
    (s.insert p).capacity = s.capacity := by
  rcases insert_eq_or s p with h | h <;> rw [h]
  rfl

@[simp] theorem subsumes_insert (s : Shelf) (p : Pattern) :
    (s.insert p).subsumes = s.subsumes := by
  rcases insert_eq_or s p with h | h <;> rw [h]
  rfl

theorem count_insert_le {s : Shelf} (h : s.count ≤ s.capacity) (p : Pattern) :
    (s.insert p).count ≤ s.capacity := by
  rcases insert_eq_or s p with he | he <;> rw [he]
  · exact h
  · exact count_accept_le h p

theorem capacity_foldl_insert (s : Shelf) (ps : List Pattern) :
    (ps.foldl insert s).capacity = s.capacity := by
  induction ps generalizing s with
  | nil => rfl
  | cons p ps ih => rw [List.foldl_cons, ih, capacity_insert]

end Shelf

end TopPatterns

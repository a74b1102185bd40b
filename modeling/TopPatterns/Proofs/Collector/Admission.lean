import TopPatterns.Proofs.Collector.Simulation

/-!
# Refused or admitted

An offer to a plain list is refused for one of three reasons (`Shelf.offer_eq_none_iff`): the
pattern has no items, the shelf is full of patterns that are no weaker, or a retained pattern makes
it redundant. In all other cases it is admitted, and stays (`Shelf.mem_accept`).

What an admission costs the patterns that were there is said by `Shelf.accept_cases`. Either only
those that became redundant have gone, or nothing was redundant and the weakest pattern, weaker than
the new one, has made room; the shelf is then blocked at the support of what it gave up.

The same is said of valid collectors, in terms of their own queries.
-/

namespace TopPatterns

/-- As many patterns as there is room for, none of them weaker than a support. -/
def Blocked (k : Nat) (ps : List Pattern) (support : Nat) : Prop :=
  ps.length = k ∧ ∀ r ∈ ps, support ≤ r.support

theorem Blocked.mono {k : Nat} {ps : List Pattern} {a b : Nat} (h : Blocked k ps b) (hab : a ≤ b) :
    Blocked k ps a := ⟨h.1, fun r hr => Nat.le_trans hab (h.2 r hr)⟩

namespace Shelf

variable {s : Shelf} {p : Pattern}

/-- A shelf with room for a pattern is blocked exactly where it is full and has no weaker least
support. -/
theorem blocked_iff (hpos : 0 < s.capacity) {support : Nat} :
    Blocked s.capacity s.patterns support ↔
      (s.isFull && decide (support ≤ s.leastSupport)) = true := by
  rw [Bool.and_eq_true, decide_eq_true_iff, isFull_iff, count]
  refine and_congr_right fun hlen => ?_
  have hne : s.patterns ≠ [] := List.ne_nil_of_length_pos (by omega)
  constructor
  · intro hall
    obtain ⟨p, hp, hps⟩ := Pattern.exists_leastOf hne
    exact Nat.le_trans (hall p hp) (Nat.le_of_eq hps)
  · exact fun hle r hr => Nat.le_trans hle (Pattern.leastOf_le hr)

/-! ## The outcome of an offer -/

/-- **Why a pattern is refused.** It has no items, the shelf is blocked at its support, or a
retained pattern makes it redundant. -/
theorem offer_eq_none_iff (hpos : 0 < s.capacity) :
    s.offer p = none ↔ p.items = [] ∨ Blocked s.capacity s.patterns p.support ∨
      s.subsumes = true ∧ ∃ q ∈ s.patterns, p.redundantBeside q = true := by
  rw [blocked_iff hpos, ← List.isEmpty_iff, ← List.any_eq_true, ← Bool.and_eq_true, offer]
  split
  · next h => simp [h]
  · next h =>
    split
    · next hb => simp [hb]
    · next hb =>
      split
      · next hr => simp [hr]
      · next hr => simp [h, hb, hr]

theorem insert_of_refused (h : s.offer p = none) : s.insert p = s := by
  rw [insert, h]
  rfl

theorem insert_of_admitted (h : s.offer p ≠ none) : s.insert p = s.accept p := by
  rw [insert, (offer_eq_none_or s p).resolve_left h]
  rfl

/-! ## Admission -/

/-- A shelf that admits a pattern removes what becomes redundant, or it is full and gives up a
weaker pattern, the weakest of all. -/
theorem accept_cases (hb : ¬Blocked s.capacity s.patterns p.support) :
    (s.accept p).patterns = s.keptBeside p ++ [p] ∨
      s.keptBeside p = s.patterns ∧ ∃ e ∈ s.patterns, e.support < p.support ∧
        (s.patterns ++ [p]).Perm (e :: (s.accept p).patterns) ∧
        Blocked s.capacity (s.accept p).patterns e.support := by
  by_cases hevict : (s.isFull && decide ((s.keptBeside p).length = s.patterns.length)) = true
  · have haccept : (s.accept p).patterns = Pattern.dropWeakest (s.keptBeside p ++ [p]) := by
      unfold accept
      exact if_pos hevict
    rw [Bool.and_eq_true, decide_eq_true_iff, isFull_iff, count] at hevict
    obtain ⟨hfull, hlen⟩ := hevict
    have hall := (keptBeside_sublist s p).eq_of_length hlen
    rw [hall] at haccept
    obtain ⟨e, hmem, hleast, hperm⟩ := Pattern.dropWeakest_perm (s.patterns ++ [p]) (by simp)
    rw [← haccept] at hperm
    -- the shelf is not blocked, so some pattern on it is weaker than the new one
    have hweak : e.support < p.support := by
      by_contra hge
      refine hb ⟨hfull, fun r hr => ?_⟩
      have hle := hleast r (List.mem_append_left _ hr)
      omega
    have hep : e ∈ s.patterns := by
      rcases List.mem_append.1 hmem with he | he
      · exact he
      · rw [List.mem_singleton.1 he] at hweak
        exact absurd hweak (Nat.lt_irrefl _)
    refine Or.inr ⟨hall, e, hep, hweak, hperm, ?_, fun r hr => ?_⟩
    · have hcount := hperm.length_eq
      rw [List.length_append, List.length_singleton, List.length_cons] at hcount
      omega
    · exact hleast r (hperm.mem_iff.2 (List.mem_cons_of_mem _ hr))
  · refine Or.inl ?_
    unfold accept
    exact if_neg hevict

/-- An admitted pattern is retained. -/
theorem mem_accept (hb : ¬Blocked s.capacity s.patterns p.support) :
    p ∈ (s.accept p).patterns := by
  rcases accept_cases hb with haccept | ⟨-, e, -, hweak, hperm, -⟩
  · rw [haccept]
    simp
  · have hmem : p ∈ e :: (s.accept p).patterns := hperm.mem_iff.1 (by simp)
    rcases List.mem_cons.1 hmem with he | hp
    · rw [he] at hweak
      exact absurd hweak (Nat.lt_irrefl _)
    · exact hp

/-- What an admission costs: a retained pattern stays, or it is redundant beside the new one, or the
shelf is blocked at its support. -/
theorem mem_accept_or (hb : ¬Blocked s.capacity s.patterns p.support)
    {r : Pattern} (hr : r ∈ s.patterns) :
    r ∈ (s.accept p).patterns ∨ s.subsumes = true ∧ r.redundantBeside p = true ∨
      Blocked s.capacity (s.accept p).patterns r.support := by
  rcases accept_cases hb with haccept | ⟨-, e, -, -, hperm, hblocked⟩
  · by_cases hkept : r ∈ s.keptBeside p
    · rw [haccept]
      exact Or.inl (List.mem_append_left _ hkept)
    · rw [mem_keptBeside] at hkept
      refine Or.inr (Or.inl ?_)
      simpa [hr] using hkept
  · have hmem : r ∈ e :: (s.accept p).patterns := hperm.mem_iff.1 (List.mem_append_left _ hr)
    rcases List.mem_cons.1 hmem with he | hr
    · exact Or.inr (Or.inr (he ▸ hblocked))
    · exact Or.inl hr

end Shelf

/-! ## Collectors -/

namespace Collector

variable {c : Collector} {p : Pattern}

theorem blocked_iff (h : c.Valid) {support : Nat} :
    Blocked c.capacity c.retained support ↔ c.isFull = true ∧ support ≤ c.leastSupport := by
  have hshelf : Blocked c.shelf.capacity c.shelf.patterns support ↔ _ :=
    Shelf.blocked_iff c.capacity_pos
  rwa [Bool.and_eq_true, decide_eq_true_iff, isFull_shelf, leastSupport_shelf h.toHeaped] at hshelf

/-- Why a collector refuses a pattern. -/
theorem offer_eq_none_iff (h : c.Valid) :
    c.offer p = none ↔ p.items = [] ∨ (c.isFull = true ∧ p.support ≤ c.leastSupport) ∨
      c.subsumes = true ∧ ∃ q ∈ c.retained, q.support = p.support ∧ p.isSubPatternOf q = true := by
  have hshelf : c.shelf.offer p = none ↔ _ := Shelf.offer_eq_none_iff c.capacity_pos
  rw [← offer_shelf h, Option.map_eq_none_iff] at hshelf
  rw [hshelf, ← blocked_iff h]
  refine or_congr_right (or_congr_right (and_congr_right fun _ => ?_))
  refine exists_congr fun q => and_congr_right fun _ => ?_
  rw [Pattern.redundantBeside_iff, eq_comm]

/-- A refused pattern leaves the ranked patterns as they were. -/
theorem ranked_insert_of_refused (ho : c.offer p = none) : (c.insert p).ranked = c.ranked := by
  rw [insert_of_refused ho, ← ranked_shelf, shelf_refuse, ranked_shelf]

/-- An admitted pattern is retained. -/
theorem mem_retained_insert (h : c.Valid) (ho : c.offer p ≠ none) : p ∈ (c.insert p).retained := by
  have hoffer : c.shelf.offer p ≠ none := by
    rw [← offer_shelf h]
    simpa using ho
  rw [← patterns_shelf, insert_shelf h, Shelf.insert_of_admitted hoffer]
  refine Shelf.mem_accept fun hb => hoffer ?_
  exact (Shelf.offer_eq_none_iff c.capacity_pos).2 (Or.inr (Or.inl hb))

end Collector

end TopPatterns

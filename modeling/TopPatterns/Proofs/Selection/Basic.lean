import Mathlib.Data.Finset.Card
import Mathlib.Data.Set.Insert
import TopPatterns.Proofs.Collector.Admission

/-!
# What an offer does to a bounded list

Item sets are offered to a shelf one after the other. Which of them count as the same is said by a
`Weighing`. Without subsumption it is equality, with subsumption it is being held by the same
transactions, so both kinds of collector have one theory.

A set is under another one if it counts as the same and has no item that the other lacks. A shelf is
blocked at a support if it is full of patterns that are no weaker (`Blocked`). A new set is refused
where the shelf is blocked or something is above the set; otherwise it is `Admitted`, all that is
under it goes, and besides this at most one weaker pattern makes room
(`Shelf.Fresh.insert_outcome`). The next module follows the sets through all offers.
-/

namespace TopPatterns

/-- The set of a pattern's items. -/
def Pattern.itemSet (p : Pattern) : Finset Item := p.items.toFinset

@[simp] theorem Pattern.mem_itemSet {p : Pattern} {x : Item} : x ∈ p.itemSet ↔ x ∈ p.items :=
  List.mem_toFinset

theorem Pattern.itemSet_subset_iff {p q : Pattern} : p.itemSet ⊆ q.itemSet ↔ p.items ⊆ q.items :=
  ⟨fun h _ hx => Pattern.mem_itemSet.1 (h (Pattern.mem_itemSet.2 hx)),
    fun h _ hx => Pattern.mem_itemSet.2 (h (Pattern.mem_itemSet.1 hx))⟩

/-- Of patterns without repeated items, the test of sub-patterns compares the sets of items. -/
theorem Pattern.isSubPatternOf_iff_itemSet {p q : Pattern} (h : p.items.Nodup) :
    p.isSubPatternOf q = true ↔ p.itemSet ⊆ q.itemSet := by
  rw [Pattern.isSubPatternOf_iff, Pattern.itemSet_subset_iff]
  refine ⟨And.right, fun hs => ⟨?_, hs⟩⟩
  have hcard : p.itemSet.card ≤ q.itemSet.card :=
    Finset.card_le_card (Pattern.itemSet_subset_iff.2 hs)
  rw [Pattern.itemSet, List.toFinset_card_of_nodup h] at hcard
  exact Nat.le_trans hcard (List.toFinset_card_le _)

/-- Supports of item sets, and which sets count as the same. A collector that subsumes takes sets of
equal support for the same if one has the items of the other; one that does not takes only equal
sets for the same. -/
structure Weighing (subsumes : Bool) where
  support : Finset Item → Nat
  Alike : Finset Item → Finset Item → Prop
  equivalence : Equivalence Alike
  support_eq : ∀ {S T}, Alike S T → support S = support T
  of_subset : subsumes = true → ∀ {S T}, S ⊆ T → support S = support T → Alike S T
  eq_of_alike : subsumes = false → ∀ {S T}, Alike S T → S = T
  union : ∀ {S T}, Alike S T → Alike S (S ∪ T)

namespace Weighing

variable {subsumes : Bool} (w : Weighing subsumes)

theorem refl (S : Finset Item) : w.Alike S S := w.equivalence.refl S

variable {w}

theorem symm {S T : Finset Item} (h : w.Alike S T) : w.Alike T S := w.equivalence.symm h

theorem trans {S T V : Finset Item} (h : w.Alike S T) (h' : w.Alike T V) : w.Alike S V :=
  w.equivalence.trans h h'

variable (w)

/-- A pattern of different items with the support of their set. -/
structure Exact (p : Pattern) : Prop where
  nodup : p.items.Nodup
  nonempty : p.items ≠ []
  support_eq : p.support = w.support p.itemSet

/-- A pattern counts as the same as another one and has no item that the other one lacks. -/
def Under (p q : Pattern) : Prop := w.Alike p.itemSet q.itemSet ∧ p.itemSet ⊆ q.itemSet

variable {w}

theorem Exact.support_of_alike {p q : Pattern} (hp : w.Exact p) (hq : w.Exact q)
    (h : w.Alike p.itemSet q.itemSet) : p.support = q.support := by
  rw [hp.support_eq, hq.support_eq, w.support_eq h]

/-- With subsumption, being redundant beside a pattern is being under it. -/
theorem redundantBeside_iff_under (hs : subsumes = true) {p q : Pattern} (hp : w.Exact p)
    (hq : w.Exact q) : p.redundantBeside q = true ↔ w.Under p q := by
  rw [Pattern.redundantBeside_iff, Pattern.isSubPatternOf_iff_itemSet hp.nodup]
  constructor
  · intro h
    obtain ⟨hsup, hsub⟩ := h
    refine ⟨w.of_subset hs hsub ?_, hsub⟩
    rw [← hp.support_eq, ← hq.support_eq, hsup]
  · intro h
    obtain ⟨halike, hsub⟩ := h
    exact ⟨hp.support_of_alike hq halike, hsub⟩

/-- Without subsumption, a pattern is only under one with the same items. -/
theorem Under.itemSet_eq (hs : subsumes = false) {p q : Pattern} (h : w.Under p q) :
    p.itemSet = q.itemSet := w.eq_of_alike hs h.1

end Weighing

/-! ## What an offer does -/

/-- A pattern has been admitted: the shelf was not blocked and held nothing above it; what was under
it has gone, and besides this at most a weaker pattern has made room for it. -/
structure Admitted {subsumes : Bool} (w : Weighing subsumes) (k : Nat) (p : Pattern)
    (before after : List Pattern) : Prop where
  not_blocked : ¬Blocked k before p.support
  not_under : ∀ q ∈ before, ¬w.Under p q
  nodup : after.Nodup
  length_le : after.length ≤ k
  mem_self : p ∈ after
  mem_or : ∀ r ∈ after, r = p ∨ r ∈ before ∧ ¬w.Under r p
  kept_or : ∀ r ∈ before,
    r ∈ after ∨ w.Under r p ∨ r.support < p.support ∧ Blocked k after r.support
  full : before.length = k → (∀ r ∈ before, ∀ r' ∈ before, w.Under r p → w.Under r' p → r = r') →
    after.length = k

variable {subsumes : Bool} {w : Weighing subsumes}

/-- A pattern with a set that is on a shelf of exact patterns nowhere. -/
structure Shelf.Fresh (s : Shelf) (w : Weighing subsumes) (p : Pattern) : Prop where
  subsumes_eq : s.subsumes = subsumes
  count_le : s.count ≤ s.capacity
  nodup : s.patterns.Nodup
  exact_of_mem : ∀ q ∈ s.patterns, w.Exact q
  exact : w.Exact p
  ne_of_mem : ∀ q ∈ s.patterns, q.itemSet ≠ p.itemSet

namespace Shelf.Fresh

variable {s : Shelf} {p : Pattern}

/-- The patterns that stay beside a new set are those not under it. -/
theorem mem_keptBeside_iff (h : s.Fresh w p) {q : Pattern} :
    q ∈ s.keptBeside p ↔ q ∈ s.patterns ∧ ¬w.Under q p := by
  rw [Shelf.mem_keptBeside, h.subsumes_eq]
  refine and_congr_right fun hq => ?_
  by_cases hsub : subsumes = true
  · rw [← Weighing.redundantBeside_iff_under hsub (h.exact_of_mem q hq) h.exact]
    simp [hsub]
  · -- without subsumption all stay, and none is under the new set for it would be equal
    have hsub' : subsumes = false := by simpa using hsub
    exact ⟨fun _ hu => h.ne_of_mem q hq (hu.itemSet_eq hsub'), fun _ hs => absurd hs hsub⟩

/-- A new set is redundant if and only if a retained pattern is above it. -/
theorem exists_redundantBeside_iff (h : s.Fresh w p) :
    (s.subsumes = true ∧ ∃ q ∈ s.patterns, p.redundantBeside q = true) ↔
      ∃ q ∈ s.patterns, w.Under p q := by
  rw [h.subsumes_eq]
  by_cases hsub : subsumes = true
  · rw [and_iff_right hsub]
    refine exists_congr fun q => and_congr_right fun hq => ?_
    exact Weighing.redundantBeside_iff_under hsub h.exact (h.exact_of_mem q hq)
  · have hsub' : subsumes = false := by simpa using hsub
    simp only [hsub', Bool.false_eq_true, false_and, false_iff, not_exists, not_and]
    intro q hq hu
    exact h.ne_of_mem q hq (hu.itemSet_eq hsub').symm

theorem nodup_keptBeside (h : s.Fresh w p) : (s.keptBeside p ++ [p]).Nodup := by
  have hsub := Shelf.keptBeside_sublist s p
  refine List.nodup_append.2 ⟨h.nodup.sublist hsub, List.nodup_singleton p, ?_⟩
  intro a ha b hb hab
  rw [hab, List.mem_singleton.1 hb] at ha
  exact h.ne_of_mem p (hsub.subset ha) rfl

/-- If at most one pattern is under the new set, at most one gives way to it. -/
theorem length_le_keptBeside (h : s.Fresh w p)
    (hone : ∀ r ∈ s.patterns, ∀ r' ∈ s.patterns, w.Under r p → w.Under r' p → r = r') :
    s.patterns.length ≤ (s.keptBeside p).length + 1 := by
  have hsub := Shelf.keptBeside_sublist s p
  have hsubset : (s.keptBeside p).toFinset ⊆ s.patterns.toFinset := by
    intro r hr
    exact List.mem_toFinset.2 (hsub.subset (List.mem_toFinset.1 hr))
  have hcard : (s.patterns.toFinset \ (s.keptBeside p).toFinset).card ≤ 1 := by
    refine Finset.card_le_one.2 fun a ha b hb => ?_
    simp only [Finset.mem_sdiff, List.mem_toFinset, h.mem_keptBeside_iff, not_and, not_not] at ha hb
    exact hone a ha.1 b hb.1 (ha.2 ha.1) (hb.2 hb.1)
  rw [Finset.card_sdiff_of_subset hsubset, List.toFinset_card_of_nodup h.nodup,
    List.toFinset_card_of_nodup (h.nodup.sublist hsub)] at hcard
  omega

/-- A shelf that gives up a weaker pattern for a new set has nothing under the set. -/
theorem admitted_of_eviction (h : s.Fresh w p) (hall : s.keptBeside p = s.patterns) {e : Pattern}
    (hweak : e.support < p.support) (hperm : (s.patterns ++ [p]).Perm (e :: (s.accept p).patterns))
    (hblocked : Blocked s.capacity (s.accept p).patterns e.support)
    (hb : ¬Blocked s.capacity s.patterns p.support) (hu : ∀ q ∈ s.patterns, ¬w.Under p q) :
    Admitted w s.capacity p s.patterns (s.accept p).patterns := by
  have hnodup := List.nodup_cons.1 (hperm.nodup_iff.1 (hall ▸ h.nodup_keptBeside))
  have hmem : ∀ r, r = e ∨ r ∈ (s.accept p).patterns ↔ r ∈ s.patterns ∨ r = p := by
    intro r
    rw [← List.mem_cons, ← hperm.mem_iff, List.mem_append, List.mem_singleton]
  refine ⟨hb, hu, hnodup.2, Nat.le_of_eq hblocked.1, Shelf.mem_accept hb, ?_, ?_,
    fun _ _ => hblocked.1⟩
  · intro r hr
    rcases (hmem r).1 (Or.inr hr) with hr | hr
    · exact Or.inr ⟨hr, (h.mem_keptBeside_iff.1 (hall ▸ hr)).2⟩
    · exact Or.inl hr
  · intro r hr
    rcases (hmem r).2 (Or.inl hr) with hre | hr
    · exact Or.inr (Or.inr (hre ▸ ⟨hweak, hblocked⟩))
    · exact Or.inl hr

/-- A shelf that has room, or on which something is under a new set, gives up nothing else. -/
theorem admitted_of_room (h : s.Fresh w p)
    (haccept : (s.accept p).patterns = s.keptBeside p ++ [p])
    (hb : ¬Blocked s.capacity s.patterns p.support) (hu : ∀ q ∈ s.patterns, ¬w.Under p q) :
    Admitted w s.capacity p s.patterns (s.accept p).patterns := by
  have hcount := Shelf.count_accept_le h.count_le p
  rw [Shelf.count] at hcount
  rw [haccept] at hcount ⊢
  refine ⟨hb, hu, h.nodup_keptBeside, hcount, by simp, ?_, ?_, ?_⟩
  · intro r hr
    rcases List.mem_append.1 hr with hr | hr
    · exact Or.inr (h.mem_keptBeside_iff.1 hr)
    · exact Or.inl (List.mem_singleton.1 hr)
  · intro r hr
    by_cases hur : w.Under r p
    · exact Or.inr (Or.inl hur)
    · exact Or.inl (List.mem_append_left _ (h.mem_keptBeside_iff.2 ⟨hr, hur⟩))
  · -- on a full shelf something was under the new set, and only one pattern can have been
    intro hfull hone
    have hlate := h.length_le_keptBeside hone
    rw [List.length_append, List.length_singleton] at hcount ⊢
    omega

/-- Admitting a new set on a shelf that is not blocked and holds nothing above it. -/
theorem accept_admitted (h : s.Fresh w p) (hb : ¬Blocked s.capacity s.patterns p.support)
    (hu : ∀ q ∈ s.patterns, ¬w.Under p q) :
    Admitted w s.capacity p s.patterns (s.accept p).patterns := by
  rcases Shelf.accept_cases hb with haccept | ⟨hall, e, -, hweak, hperm, hblocked⟩
  · exact h.admitted_of_room haccept hb hu
  · exact h.admitted_of_eviction hall hweak hperm hblocked hb hu

/-- An offer of a new set is refused where the shelf is blocked or holds something above the set,
and is admitted otherwise. -/
theorem insert_outcome (h : s.Fresh w p) (hpos : 0 < s.capacity) :
    (s.insert p = s ∧
        (Blocked s.capacity s.patterns p.support ∨ ∃ q ∈ s.patterns, w.Under p q)) ∨
      Admitted w s.capacity p s.patterns (s.insert p).patterns := by
  have hreason : s.offer p = none ↔
      Blocked s.capacity s.patterns p.support ∨ ∃ q ∈ s.patterns, w.Under p q := by
    rw [Shelf.offer_eq_none_iff hpos, or_iff_right h.exact.nonempty]
    exact or_congr_right h.exists_redundantBeside_iff
  by_cases hrefused : s.offer p = none
  · exact Or.inl ⟨Shelf.insert_of_refused hrefused, hreason.1 hrefused⟩
  · rw [Shelf.insert_of_admitted hrefused]
    rw [hreason, not_or, not_exists] at hrefused
    exact Or.inr (h.accept_admitted hrefused.1 fun q hq hu => hrefused.2 q ⟨hq, hu⟩)

end Shelf.Fresh

end TopPatterns

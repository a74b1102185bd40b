import TopPatterns.Proofs.Selection.Basic

/-!
# The selection invariant

`Selects w k floor family ps` says what the patterns on a shelf with room for `k` tell about all
sets of a family, without a bound on the number of offers. A set is covered by a retained pattern
that counts as the same and has all of its items, or else the shelf is blocked at its support;
retained patterns that count as the same occur only where the shelf is blocked; and a blocked shelf
has seen `k` different sets that are no weaker.

The invariant speaks of supports from a floor on. `Shelf.Selects.insert` is the step: an offered set
keeps it if, from the floor on, it is larger than all that counted as the same before. Below the
floor an offer may be anything. `Selects.widen` adds sets that need no offer: those that are blocked
and those that a set of the family stands for.
-/

namespace TopPatterns

variable {subsumes : Bool} {w : Weighing subsumes}

/-- A family has `k` sets of at least some support no two of which count as the same. -/
def Rich (w : Weighing subsumes) (k : Nat) (family : Set (Finset Item)) (support : Nat) : Prop :=
  ∃ sets : Finset (Finset Item), sets.card = k ∧
    ∀ S ∈ sets, S ∈ family ∧ support ≤ w.support S ∧ ∀ T ∈ sets, w.Alike S T → S = T

theorem Rich.mono {k : Nat} {family family' : Set (Finset Item)} {a b : Nat}
    (h : Rich w k family b) (hf : family ⊆ family') (hab : a ≤ b) : Rich w k family' a := by
  obtain ⟨sets, hcard, hsets⟩ := h
  refine ⟨sets, hcard, fun S hS => ?_⟩
  obtain ⟨hin, hle, hone⟩ := hsets S hS
  exact ⟨hf hin, Nat.le_trans hab hle, hone⟩

/-- A full list of patterns no two of which count as the same makes its family rich. -/
theorem Blocked.rich {k support : Nat} {ps : List Pattern} {family : Set (Finset Item)}
    (hb : Blocked k ps support) (hnodup : ps.Nodup) (hexact : ∀ r ∈ ps, w.Exact r)
    (hin : ∀ r ∈ ps, r.itemSet ∈ family)
    (hone : ∀ r ∈ ps, ∀ r' ∈ ps, w.Alike r.itemSet r'.itemSet → r = r') :
    Rich w k family support := by
  refine ⟨ps.toFinset.image Pattern.itemSet, ?_, ?_⟩
  · rw [Finset.card_image_of_injOn, List.toFinset_card_of_nodup hnodup, hb.1]
    intro r hr r' hr' he
    exact hone r (List.mem_toFinset.1 hr) r' (List.mem_toFinset.1 hr') (he ▸ w.refl _)
  · intro S hS
    obtain ⟨r, hr, rfl⟩ := Finset.mem_image.1 hS
    rw [List.mem_toFinset] at hr
    refine ⟨hin r hr, (hexact r hr).support_eq ▸ hb.2 r hr, ?_⟩
    intro T hT halike
    obtain ⟨r', hr', rfl⟩ := Finset.mem_image.1 hT
    rw [hone r hr r' (List.mem_toFinset.1 hr') halike]

/-- What the patterns of a shelf with room for `k` tell about a family of item sets, from a floor
of supports on. -/
structure Selects (w : Weighing subsumes) (k floor : Nat) (family : Set (Finset Item))
    (ps : List Pattern) : Prop where
  exact : ∀ r ∈ ps, w.Exact r
  within : ∀ r ∈ ps, r.itemSet ∈ family
  length_le : ps.length ≤ k
  nodup : ps.Nodup
  apart : ∀ r ∈ ps, ∀ r' ∈ ps, w.Under r r' → r = r'
  distinct : ∀ r ∈ ps, ∀ r' ∈ ps, w.Alike r.itemSet r'.itemSet → floor ≤ r.support →
    r = r' ∨ Blocked k ps r.support
  covered : ∀ S ∈ family, floor ≤ w.support S →
    Blocked k ps (w.support S) ∨ ∃ r ∈ ps, w.Alike r.itemSet S ∧ S ⊆ r.itemSet
  rich : ∀ support, floor ≤ support → Blocked k ps support → Rich w k family support

namespace Selects

variable {k floor : Nat} {family : Set (Finset Item)} {ps : List Pattern}

/-- An empty shelf selects from the empty family. -/
theorem nil (w : Weighing subsumes) (hk : 0 < k) (floor : Nat) : Selects w k floor ∅ [] where
  exact := by simp
  within := by simp
  length_le := Nat.zero_le k
  nodup := List.nodup_nil
  apart := by simp
  distinct := by simp
  covered := by simp
  rich := fun _ _ hb => absurd hb.1 (Nat.ne_of_lt hk)

theorem raise (h : Selects w k floor family ps) {higher : Nat} (hle : floor ≤ higher) :
    Selects w k higher family ps :=
  { h with
    distinct := fun r hr r' hr' ha hf => h.distinct r hr r' hr' ha (Nat.le_trans hle hf)
    covered := fun S hS hf => h.covered S hS (Nat.le_trans hle hf)
    rich := fun s hs hb => h.rich s (Nat.le_trans hle hs) hb }

/-- Patterns with the same set of items are the same pattern. -/
theorem eq_of_itemSet_eq (h : Selects w k floor family ps) {r r' : Pattern} (hr : r ∈ ps)
    (hr' : r' ∈ ps) (he : r.itemSet = r'.itemSet) : r = r' :=
  h.apart r hr r' hr' ⟨he ▸ w.refl _, he ▸ Finset.Subset.refl _⟩

/-- Above the blocked supports, retained patterns that count as the same are equal. -/
theorem eq_of_alike (h : Selects w k floor family ps) {r r' : Pattern} (hr : r ∈ ps)
    (hr' : r' ∈ ps) (ha : w.Alike r.itemSet r'.itemSet) (hf : floor ≤ r.support)
    (hb : ¬Blocked k ps r.support) : r = r' := (h.distinct r hr r' hr' ha hf).resolve_right hb

/-- The family may grow by sets that are blocked, and by sets that a set of the family stands
for. -/
theorem widen (h : Selects w k floor family ps) (more : Set (Finset Item))
    (hmore : ∀ S ∈ more, floor ≤ w.support S →
      Blocked k ps (w.support S) ∨ ∃ T ∈ family, w.Alike T S ∧ S ⊆ T) :
    Selects w k floor (family ∪ more) ps :=
  { h with
    within := fun r hr => Or.inl (h.within r hr)
    covered := by
      intro S hS hf
      rcases hS with hS | hS
      · exact h.covered S hS hf
      · rcases hmore S hS hf with hb | ⟨T, hT, hTS, hsub⟩
        · exact Or.inl hb
        · have hsup := w.support_eq hTS
          rcases h.covered T hT (hsup ▸ hf) with hb | ⟨r, hr, hrT, hTr⟩
          · exact Or.inl (hsup ▸ hb)
          · exact Or.inr ⟨r, hr, Weighing.trans hrT hTS, Finset.Subset.trans hsub hTr⟩
    rich := fun s hs hb => (h.rich s hs hb).mono Set.subset_union_left (Nat.le_refl s) }

/-! ## The step -/

variable {p : Pattern} {after : List Pattern}

/-- A pattern is admitted to a full shelf only above one of its patterns. -/
theorem lt_of_admitted (ha : Admitted w k p ps after) {support : Nat} (hb : Blocked k ps support) :
    support < p.support := by
  by_contra hge
  exact ha.not_blocked (hb.mono (Nat.le_of_not_lt hge))

/-- From the floor on, admitting a pattern to a blocked shelf leaves it blocked: at most one pattern
can have been under the new one. -/
theorem blocked_of_admitted (h : Selects w k floor family ps) (hp : w.Exact p)
    (ha : Admitted w k p ps after) (hf : floor ≤ p.support) {support : Nat}
    (hb : Blocked k ps support) : Blocked k after support := by
  refine ⟨ha.full hb.1 fun r hr r' hr' hu hu' => ?_, fun r hr => ?_⟩
  · have hrp := (h.exact r hr).support_of_alike hp hu.1
    refine h.eq_of_alike hr hr' (Weighing.trans hu.1 (Weighing.symm hu'.1)) ?_ ?_
    · rw [hrp]; exact hf
    · rw [hrp]; exact ha.not_blocked
  · rcases ha.mem_or r hr with rfl | ⟨hr, -⟩
    · exact Nat.le_of_lt (lt_of_admitted ha hb)
    · exact hb.2 r hr

theorem exact_of_admitted (h : Selects w k floor family ps) (hp : w.Exact p)
    (ha : Admitted w k p ps after) : ∀ r ∈ after, w.Exact r := by
  intro r hr
  rcases ha.mem_or r hr with rfl | ⟨hold, -⟩
  · exact hp
  · exact h.exact r hold

theorem within_of_admitted (h : Selects w k floor family ps) (ha : Admitted w k p ps after) :
    ∀ r ∈ after, r.itemSet ∈ family ∪ {p.itemSet} := by
  intro r hr
  rcases ha.mem_or r hr with rfl | ⟨hold, -⟩
  · exact Or.inr rfl
  · exact Or.inl (h.within r hold)

theorem apart_of_admitted (h : Selects w k floor family ps) (ha : Admitted w k p ps after) :
    ∀ r ∈ after, ∀ r' ∈ after, w.Under r r' → r = r' := by
  intro r hr r' hr' hu
  rcases ha.mem_or r hr with rfl | ⟨hold, hnot⟩
  · rcases ha.mem_or r' hr' with rfl | ⟨hold', -⟩
    · rfl
    · exact absurd hu (ha.not_under r' hold')
  · rcases ha.mem_or r' hr' with rfl | ⟨hold', -⟩
    · exact absurd hu hnot
    · exact h.apart r hold r' hold' hu

/-- After an admission, patterns that count as the same are equal or were blocked before: whatever
counted as the same as a new set that is the largest was under it, and is gone. -/
theorem distinct_of_admitted (h : Selects w k floor family ps) (hp : w.Exact p)
    (ha : Admitted w k p ps after)
    (hmax : floor ≤ p.support → ∀ S ∈ family, w.Alike S p.itemSet → S ⊆ p.itemSet) :
    ∀ r ∈ after, ∀ r' ∈ after, w.Alike r.itemSet r'.itemSet → floor ≤ r.support →
      r = r' ∨ Blocked k ps r.support := by
  have hgone : floor ≤ p.support → ∀ r ∈ after, w.Alike r.itemSet p.itemSet → r = p := by
    intro hf r hr halike
    rcases ha.mem_or r hr with rfl | ⟨hold, hnot⟩
    · rfl
    · exact absurd ⟨halike, hmax hf _ (h.within r hold) halike⟩ hnot
  intro r hr r' hr' halike hf
  have hexact := h.exact_of_admitted hp ha
  have hsup := (hexact r hr).support_of_alike (hexact r' hr') halike
  rcases ha.mem_or r hr with rfl | ⟨hold, -⟩
  · exact Or.inl (hgone hf r' hr' (Weighing.symm halike)).symm
  · rcases ha.mem_or r' hr' with rfl | ⟨hold', -⟩
    · exact Or.inl (hgone (hsup ▸ hf) r hr halike)
    · exact h.distinct r hold r' hold' halike hf

/-- An admission leaves every set of the family covered. -/
theorem covered_of_admitted (h : Selects w k floor family ps) (hp : w.Exact p)
    (ha : Admitted w k p ps after) {S : Finset Item} (hS : S ∈ family)
    (hf : floor ≤ w.support S) :
    Blocked k after (w.support S) ∨ ∃ r ∈ after, w.Alike r.itemSet S ∧ S ⊆ r.itemSet := by
  rcases h.covered S hS hf with hb | ⟨r, hr, halike, hsub⟩
  · have hlt := Nat.le_of_lt (lt_of_admitted ha hb)
    exact Or.inl (h.blocked_of_admitted hp ha (Nat.le_trans hf hlt) hb)
  · rcases ha.kept_or r hr with hr | hu | ⟨-, hb⟩
    · exact Or.inr ⟨r, hr, halike, hsub⟩
    · -- what was under the new pattern hands its sets over to it
      exact Or.inr ⟨p, ha.mem_self, Weighing.trans (Weighing.symm hu.1) halike,
        Finset.Subset.trans hsub hu.2⟩
    · rw [(h.exact r hr).support_eq, w.support_eq halike] at hb
      exact Or.inl hb

/-- The family grows by the set of an admitted pattern, if from the floor on the set has all items
of the sets that counted as the same. -/
theorem of_admitted (h : Selects w k floor family ps) (hp : w.Exact p)
    (ha : Admitted w k p ps after)
    (hmax : floor ≤ p.support → ∀ S ∈ family, w.Alike S p.itemSet → S ⊆ p.itemSet) :
    Selects w k floor (family ∪ {p.itemSet}) after where
  exact := h.exact_of_admitted hp ha
  within := h.within_of_admitted ha
  length_le := ha.length_le
  nodup := ha.nodup
  apart := h.apart_of_admitted ha
  distinct := by
    intro r hr r' hr' halike hf
    rcases h.distinct_of_admitted hp ha hmax r hr r' hr' halike hf with he | hb
    · exact Or.inl he
    · have hlt := Nat.le_of_lt (lt_of_admitted ha hb)
      exact Or.inr (h.blocked_of_admitted hp ha (Nat.le_trans hf hlt) hb)
  covered := by
    intro S hS hf
    rcases hS with hS | rfl
    · exact h.covered_of_admitted hp ha hS hf
    · exact Or.inr ⟨p, ha.mem_self, w.refl _, Finset.Subset.refl _⟩
  rich := by
    intro s hs hb
    by_cases hold : Blocked k ps s
    · exact (h.rich s hs hold).mono Set.subset_union_left (Nat.le_refl s)
    · -- the shelf has become blocked just now: its own sets are different enough
      refine hb.rich ha.nodup (h.exact_of_admitted hp ha) (h.within_of_admitted ha) ?_
      intro r hr r' hr' halike
      have hle := hb.2 r hr
      refine (h.distinct_of_admitted hp ha hmax r hr r' hr' halike
        (Nat.le_trans hs hle)).resolve_right ?_
      intro hbr
      exact hold (hbr.mono hle)

/-- A pattern that is refused leaves a family to which its set may be added. -/
theorem of_refused (h : Selects w k floor family ps) (hp : w.Exact p)
    (hr : Blocked k ps p.support ∨ ∃ q ∈ ps, w.Under p q) :
    Selects w k floor (family ∪ {p.itemSet}) ps := by
  refine h.widen _ fun S hS _ => ?_
  obtain rfl : S = p.itemSet := hS
  rcases hr with hb | ⟨q, hq, hu⟩
  · exact Or.inl (hp.support_eq ▸ hb)
  · exact Or.inr ⟨q.itemSet, h.within q hq, Weighing.symm hu.1, hu.2⟩

end Selects

/-! ## Shelves -/

/-- A shelf with room for at least one pattern that selects from a family. -/
structure Shelf.Selects (s : Shelf) (w : Weighing subsumes) (floor : Nat)
    (family : Set (Finset Item)) : Prop where
  subsumes_eq : s.subsumes = subsumes
  capacity_pos : 0 < s.capacity
  selects : TopPatterns.Selects w s.capacity floor family s.patterns

theorem Shelf.Selects.fresh {s : Shelf} {floor : Nat} {family : Set (Finset Item)}
    (h : s.Selects w floor family) {p : Pattern} (hp : w.Exact p) (hnew : p.itemSet ∉ family) :
    s.Fresh w p where
  subsumes_eq := h.subsumes_eq
  count_le := h.selects.length_le
  nodup := h.selects.nodup
  exact_of_mem := h.selects.exact
  exact := hp
  ne_of_mem := fun q hq he => hnew (he ▸ h.selects.within q hq)

/-- What an offer of a set that is not in the family does. -/
theorem Shelf.Selects.outcome {s : Shelf} {floor : Nat} {family : Set (Finset Item)}
    (h : s.Selects w floor family) {p : Pattern} (hp : w.Exact p) (hnew : p.itemSet ∉ family) :
    (s.insert p = s ∧
        (Blocked s.capacity s.patterns p.support ∨ ∃ q ∈ s.patterns, w.Under p q)) ∨
      Admitted w s.capacity p s.patterns (s.insert p).patterns :=
  (h.fresh hp hnew).insert_outcome h.capacity_pos

/-- **One offer.** A set that is not in the family joins it, if from the floor on the set has all
items of the sets that count as the same. -/
theorem Shelf.Selects.insert {s : Shelf} {floor : Nat} {family : Set (Finset Item)}
    (h : s.Selects w floor family) {p : Pattern} (hp : w.Exact p) (hnew : p.itemSet ∉ family)
    (hmax : floor ≤ p.support → ¬Blocked s.capacity s.patterns p.support →
      (∀ q ∈ s.patterns, ¬w.Under p q) → ∀ S ∈ family, w.Alike S p.itemSet → S ⊆ p.itemSet) :
    (s.insert p).Selects w floor (family ∪ {p.itemSet}) := by
  refine ⟨(s.subsumes_insert p).trans h.subsumes_eq,
    (s.capacity_insert p).symm ▸ h.capacity_pos, ?_⟩
  rw [Shelf.capacity_insert]
  rcases h.outcome hp hnew with ⟨he, hr⟩ | ha
  · rw [he]
    exact h.selects.of_refused hp hr
  · exact h.selects.of_admitted hp ha fun hf => hmax hf ha.not_blocked ha.not_under

/-- **One late offer.** A set that is not in the family joins it even after sets that count as the
same, if the family has the unions with those of them that are not within the set. -/
theorem Shelf.Selects.insert_late {s : Shelf} {family : Set (Finset Item)}
    (h : s.Selects w 0 family) {p : Pattern} (hp : w.Exact p) (hnew : p.itemSet ∉ family)
    (hunion : ∀ S ∈ family, w.Alike S p.itemSet → ¬S ⊆ p.itemSet → p.itemSet ∪ S ∈ family) :
    (s.insert p).Selects w 0 (family ∪ {p.itemSet}) := by
  refine h.insert hp hnew fun _ hb hu S hS halike => ?_
  by_contra hsub
  -- the union would be covered by a retained pattern, and the new one would be under that
  have hjoin := w.union (Weighing.symm halike)
  rcases h.selects.covered _ (hunion S hS halike hsub) (Nat.zero_le _) with
    hblocked | ⟨r, hr, halr, hjr⟩
  · rw [← w.support_eq hjoin, ← hp.support_eq] at hblocked
    exact hb hblocked
  · exact hu r hr ⟨Weighing.trans hjoin (Weighing.symm halr),
      Finset.Subset.trans Finset.subset_union_left hjr⟩

end TopPatterns

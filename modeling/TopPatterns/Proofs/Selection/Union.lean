import TopPatterns.Proofs.Selection.Selects

/-!
# Selections brought together

A list of patterns that selects from one family is inserted into a shelf that selects from another.
`Shelf.Selects.insertAll` says that the shelf then selects from both, whatever the order of the list
and however much either of them had to leave out.

The list may be cut off: at the least support of a full list there may be sets that are not the
largest of their kind, and offered to a shelf with room they may even stand beside a pattern that
counts as the same. This does no harm, because the list has as many patterns as the shelf has room
for. Each of them is admitted as long as the shelf is not blocked at that support, and stays; so
when all have been offered the shelf is blocked there, and what stands at a blocked support does not
matter. The proof runs with a floor right above the cut.
-/

namespace TopPatterns

variable {subsumes : Bool} {w : Weighing subsumes}

/-- The sets of the items of patterns. -/
def setsOf (ps : List Pattern) : Set (Finset Item) := { S | ∃ p ∈ ps, p.itemSet = S }

theorem setsOf_append_singleton (ps : List Pattern) (p : Pattern) :
    setsOf (ps ++ [p]) = setsOf ps ∪ {p.itemSet} := by
  ext S
  constructor
  · intro hS
    obtain ⟨q, hq, rfl⟩ := hS
    rcases List.mem_append.1 hq with hq | hq
    · exact Or.inl ⟨q, hq, rfl⟩
    · rw [List.mem_singleton.1 hq]
      exact Or.inr rfl
  · intro hS
    rcases hS with ⟨q, hq, rfl⟩ | rfl
    · exact ⟨q, List.mem_append_left _ hq, rfl⟩
    · exact ⟨p, List.mem_append_right _ (List.mem_singleton_self p), rfl⟩

/-- The supports at which a list is blocked are those below some bound. -/
theorem exists_cut {k : Nat} (hk : 0 < k) (ps : List Pattern) :
    ∃ cut, ∀ support, Blocked k ps support ↔ support < cut := by
  by_cases hlen : ps.length = k
  · have hne : ps ≠ [] := List.ne_nil_of_length_pos (hlen ▸ hk)
    obtain ⟨p, hp, hleast⟩ := Pattern.exists_leastOf hne
    refine ⟨Pattern.leastOf ps + 1, ?_⟩
    intro support
    constructor
    · intro hb
      have hle := hb.2 p hp
      omega
    · intro hlt
      refine ⟨hlen, ?_⟩
      intro r hr
      have hle := Pattern.leastOf_le hr
      omega
  · -- a list with room is blocked nowhere
    refine ⟨0, ?_⟩
    intro support
    exact ⟨fun hb => absurd hb.1 hlen, fun hlt => absurd hlt (Nat.not_lt_zero _)⟩

/-- A list to be inserted into a shelf: it selects from a family of its own, none of whose sets is
within a set of the shelf's family, and of two sets that count as the same, one of either family,
the larger set with the items of both is of the list's family again. -/
structure Mergeable (w : Weighing subsumes) (k : Nat) (family family' : Set (Finset Item))
    (ps : List Pattern) : Prop where
  selects : Selects w k 0 family' ps
  fresh : ∀ S ∈ family', ∀ T ∈ family, ¬S ⊆ T
  join : ∀ S ∈ family', ∀ T ∈ family, w.Alike T S → ∃ J ∈ family', w.Alike J S ∧ T ⊆ J

namespace Mergeable

variable {k : Nat} {family family' : Set (Finset Item)} {ps : List Pattern}

/-- Above the cut, a pattern of the list has all items of the sets that count as the same. -/
theorem largest (h : Mergeable w k family family' ps) {p : Pattern} (hp : p ∈ ps)
    (hb : ¬Blocked k ps p.support) {S : Finset Item} (hS : S ∈ family ∪ family')
    (halike : w.Alike S p.itemSet) : S ⊆ p.itemSet := by
  have hexact := h.selects.exact p hp
  have own : ∀ T ∈ family', w.Alike T p.itemSet → T ⊆ p.itemSet := by
    intro T hT hTp
    have hsup : w.support T = p.support := by rw [hexact.support_eq, w.support_eq hTp]
    rcases h.selects.covered T hT (Nat.zero_le _) with hblocked | ⟨r, hr, hrT, hTr⟩
    · exact absurd (hsup ▸ hblocked) hb
    · have hrp := h.selects.eq_of_alike hp hr (Weighing.symm (Weighing.trans hrT hTp))
        (Nat.zero_le _) hb
      exact hrp ▸ hTr
  rcases hS with hS | hS
  · obtain ⟨J, hJ, hJp, hSJ⟩ := h.join _ (h.selects.within p hp) S hS halike
    exact Finset.Subset.trans hSJ (own J hJ hJp)
  · exact own S hS halike

/-- The set of a pattern of the list is new to a shelf that has been offered others of the list. -/
theorem not_mem_offered (h : Mergeable w k family family' ps) {done : List Pattern}
    (hdone : ∀ d ∈ done, d ∈ ps) {p : Pattern} (hp : p ∈ ps) (hnew : p ∉ done)
    {S : Finset Item} (hS : S ∈ family ∪ setsOf done) (hsub : p.itemSet ⊆ S)
    (halike : w.Alike p.itemSet S) : False := by
  rcases hS with hS | ⟨d, hd, rfl⟩
  · exact h.fresh _ (h.selects.within p hp) S hS hsub
  · exact hnew (h.selects.apart p hp d (hdone d hd) ⟨halike, hsub⟩ ▸ hd)

end Mergeable

namespace Shelf.Selects

variable {s : Shelf} {family family' : Set (Finset Item)} {ps : List Pattern}

/-- Where the list is cut off, the shelf is blocked or holds all patterns offered to it so far. -/
def Holds (s : Shelf) (cut : Nat) (done : List Pattern) : Prop :=
  ∀ support, support + 1 = cut →
    Blocked s.capacity s.patterns support ∨ ∀ d ∈ done, d ∈ s.patterns

/-- One pattern of the list is offered, and its set joins the family above the cut. -/
theorem insert_of_list {cut : Nat} {done : List Pattern}
    (hm : Mergeable w s.capacity family family' ps)
    (hcut : ∀ support, Blocked s.capacity ps support ↔ support < cut)
    (h : s.Selects w cut (family ∪ setsOf done)) (hdone : ∀ d ∈ done, d ∈ ps) {p : Pattern}
    (hp : p ∈ ps) (hnew : p ∉ done) :
    (s.insert p).Selects w cut (family ∪ setsOf (done ++ [p])) := by
  have hfresh : p.itemSet ∉ family ∪ setsOf done := fun hS =>
    hm.not_mem_offered hdone hp hnew hS (Finset.Subset.refl _) (w.refl _)
  rw [setsOf_append_singleton, ← Set.union_assoc]
  refine h.insert (hm.selects.exact p hp) hfresh ?_
  intro hf _ _ S hS halike
  have hb : ¬Blocked s.capacity ps p.support := fun hb => Nat.not_lt.2 hf ((hcut _).1 hb)
  refine hm.largest hp hb ?_ halike
  rcases hS with hS | ⟨d, hd, rfl⟩
  · exact Or.inl hS
  · exact Or.inr (hm.selects.within d (hdone d hd))

/-- One pattern of the list is offered, and where the list is cut off the shelf is blocked or holds
the pattern as well. -/
theorem holds_insert_of_list {cut : Nat} {done : List Pattern}
    (hm : Mergeable w s.capacity family family' ps)
    (hcut : ∀ support, Blocked s.capacity ps support ↔ support < cut)
    (h : s.Selects w cut (family ∪ setsOf done)) (hheld : Holds s cut done)
    (hdone : ∀ d ∈ done, d ∈ ps) {p : Pattern} (hp : p ∈ ps) (hnew : p ∉ done) :
    Holds (s.insert p) cut (done ++ [p]) := by
  have hexact := hm.selects.exact p hp
  have hfresh : p.itemSet ∉ family ∪ setsOf done := fun hS =>
    hm.not_mem_offered hdone hp hnew hS (Finset.Subset.refl _) (w.refl _)
  intro support hsc
  rw [Shelf.capacity_insert]
  have hbps : Blocked s.capacity ps support := (hcut support).2 (by omega)
  rcases h.outcome hexact hfresh with ⟨he, hb | ⟨q, hq, hu⟩⟩ | ha
  · rw [he]
    exact Or.inl (hb.mono (hbps.2 p hp))
  · exact (hm.not_mem_offered hdone hp hnew (h.selects.within q hq) hu.2 hu.1).elim
  · rcases hheld support hsc with hb | hall
    · -- at the cut itself nothing is admitted any more, so the new pattern is above it
      have hlt := Selects.lt_of_admitted ha hb
      exact Or.inl (h.selects.blocked_of_admitted hexact ha (by omega) hb)
    · by_cases hb : Blocked s.capacity (s.insert p).patterns support
      · exact Or.inl hb
      · refine Or.inr ?_
        intro d hd
        rcases List.mem_append.1 hd with hd | hd
        · -- an earlier pattern of the list is not under this one, and is too strong to be evicted
          rcases ha.kept_or d (hall d hd) with hk | hu | ⟨-, hblocked⟩
          · exact hk
          · exact absurd (hm.selects.apart d (hdone d hd) p hp hu ▸ hd) hnew
          · exact absurd (hblocked.mono (hbps.2 d (hdone d hd))) hb
        · rw [List.mem_singleton.1 hd]
          exact ha.mem_self

/-- All patterns of the list are offered. -/
theorem foldl_insert_of_list {cut : Nat} (rest done : List Pattern)
    (hm : Mergeable w s.capacity family family' (done ++ rest))
    (hcut : ∀ support, Blocked s.capacity (done ++ rest) support ↔ support < cut)
    (h : s.Selects w cut (family ∪ setsOf done)) (hheld : Holds s cut done) :
    (rest.foldl Shelf.insert s).Selects w cut (family ∪ setsOf (done ++ rest)) ∧
      Holds (rest.foldl Shelf.insert s) cut (done ++ rest) := by
  induction rest generalizing s done with
  | nil => simpa using ⟨h, hheld⟩
  | cons p rest ih =>
    have hnew : p ∉ done := fun hp =>
      (List.nodup_append.1 hm.selects.nodup).2.2 p hp p (List.mem_cons_self ..) rfl
    have hdone : ∀ d ∈ done, d ∈ done ++ p :: rest := fun d hd => List.mem_append_left _ hd
    have hp : p ∈ done ++ p :: rest := List.mem_append_right _ (List.mem_cons_self ..)
    have hsel := insert_of_list hm hcut h hdone hp hnew
    have hholds := holds_insert_of_list hm hcut h hheld hdone hp hnew
    -- the pattern moves from the rest to those offered, and the list as a whole stays
    have happ : done ++ p :: rest = (done ++ [p]) ++ rest := by simp
    rw [happ] at hm hcut ⊢
    rw [← Shelf.capacity_insert s p] at hm hcut
    exact ih (s := s.insert p) (done ++ [p]) hm hcut hsel hholds

/-- When all have been offered, the shelf is blocked wherever the list is. -/
theorem blocked_of_holds {cut : Nat} (hm : Mergeable w s.capacity family family' ps)
    (hcut : ∀ support, Blocked s.capacity ps support ↔ support < cut)
    (h : s.Selects w cut (family ∪ setsOf ps)) (hheld : Holds s cut ps) {support : Nat}
    (hb : Blocked s.capacity ps support) : Blocked s.capacity s.patterns support := by
  have hlt := (hcut support).1 hb
  rcases hheld (cut - 1) (by omega) with hb' | hall
  · exact hb'.mono (by omega)
  · -- the shelf holds all of the list, and has no room for more
    have hperm : ps.Perm s.patterns :=
      (List.subperm_of_subset hm.selects.nodup hall).perm_of_length_le
        (by rw [hb.1]; exact h.selects.length_le)
    exact ⟨hperm.length_eq.symm.trans hb.1, fun r hr => hb.2 r (hperm.mem_iff.2 hr)⟩

/-- **Two selections.** A shelf that selects from a family, into which the patterns of a list that
selects from another are inserted, selects from both. -/
theorem insertAll (h : s.Selects w 0 family) (hm : Mergeable w s.capacity family family' ps) :
    (ps.foldl Shelf.insert s).Selects w 0 (family ∪ family') := by
  obtain ⟨cut, hcut⟩ := exists_cut h.capacity_pos ps
  have hstart : s.Selects w cut (family ∪ setsOf []) :=
    ⟨h.subsumes_eq, h.capacity_pos, by simpa [setsOf] using h.selects.raise (Nat.zero_le cut)⟩
  obtain ⟨hoffered, hholds⟩ :=
    foldl_insert_of_list (s := s) ps [] hm hcut hstart fun _ _ => Or.inr (by simp)
  rw [List.nil_append] at hoffered hholds
  have hcap := capacity_foldl_insert s ps
  rw [← hcap] at hm hcut
  have hblocked : ∀ support, support < cut →
      Blocked _ (ps.foldl Shelf.insert s).patterns support := fun support hlt =>
    blocked_of_holds hm hcut hoffered hholds ((hcut support).2 hlt)
  -- above the cut, the patterns of the list stand for all of its family
  have hall : TopPatterns.Selects w (ps.foldl Shelf.insert s).capacity cut (family ∪ family')
      (ps.foldl Shelf.insert s).patterns := by
    have hwide := hoffered.selects.widen family' fun S hS hf => by
      rcases hm.selects.covered S hS (Nat.zero_le _) with hb | ⟨r, hr, halike, hsub⟩
      · exact absurd ((hcut _).1 hb) (Nat.not_lt.2 hf)
      · exact Or.inr ⟨r.itemSet, Or.inr ⟨r, hr, rfl⟩, halike, hsub⟩
    have hsets : setsOf ps ⊆ family' := by
      intro S hS
      obtain ⟨r, hr, rfl⟩ := hS
      exact hm.selects.within r hr
    rwa [Set.union_assoc, Set.union_eq_right.2 hsets] at hwide
  refine ⟨hoffered.subsumes_eq, hoffered.capacity_pos, { hall with
    distinct := fun r hr r' hr' halike _ => ?_
    covered := fun S hS _ => ?_
    rich := fun support _ hb => ?_ }⟩
  · rcases Nat.lt_or_ge r.support cut with hlt | hge
    · exact Or.inr (hblocked _ hlt)
    · exact hall.distinct r hr r' hr' halike hge
  · rcases Nat.lt_or_ge (w.support S) cut with hlt | hge
    · exact Or.inl (hblocked _ hlt)
    · exact hall.covered S hS hge
  · rcases Nat.lt_or_ge support cut with hlt | hge
    · exact (hm.selects.rich support (Nat.zero_le _) ((hcut _).2 hlt)).mono Set.subset_union_right
        (Nat.le_refl _)
    · exact hall.rich support hge hb

end Shelf.Selects

end TopPatterns

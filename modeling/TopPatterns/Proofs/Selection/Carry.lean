import TopPatterns.Proofs.Selection.Selects

/-!
# Selections carried over

A selection of one database says something about another one, if sets of the first stand for sets of
the second: with the same supports, the same sets that count as the same, and the same inclusions.
`Selects.carry` is used for the patterns of a conditional tree, each extended by the tree's item,
and for those of a part of the transactions.
-/

namespace TopPatterns

variable {subsumes : Bool} {w w' : Weighing subsumes} {k floor : Nat}
  {family : Set (Finset Item)} {ps : List Pattern}

/-- The sets of a family stand for their images in another database. -/
structure Carries (w' w : Weighing subsumes) (family : Set (Finset Item))
    (image : Finset Item → Finset Item) : Prop where
  support : ∀ S ∈ family, w.support (image S) = w'.support S
  alike : ∀ S ∈ family, ∀ T ∈ family, w.Alike (image S) (image T) ↔ w'.Alike S T
  subset : ∀ S ∈ family, ∀ T ∈ family, image S ⊆ image T ↔ S ⊆ T

namespace Carries

variable {image : Finset Item → Finset Item}

theorem injective (h : Carries w' w family image) {S T : Finset Item} (hS : S ∈ family)
    (hT : T ∈ family) (he : image S = image T) : S = T :=
  Finset.Subset.antisymm ((h.subset S hS T hT).1 (he ▸ Finset.Subset.refl _))
    ((h.subset T hT S hS).1 (he ▸ Finset.Subset.refl _))

theorem rich (h : Carries w' w family image) {support : Nat} (hr : Rich w' k family support) :
    Rich w k (image '' family) support := by
  obtain ⟨sets, rfl, hsets⟩ := hr
  refine ⟨sets.image image, Finset.card_image_of_injOn fun S hS T hT he =>
    h.injective (hsets S hS).1 (hsets T hT).1 he, fun V hV => ?_⟩
  obtain ⟨S, hS, rfl⟩ := Finset.mem_image.1 hV
  obtain ⟨hin, hle, hone⟩ := hsets S hS
  refine ⟨⟨S, hin, rfl⟩, h.support S hin ▸ hle, fun U hU halike => ?_⟩
  obtain ⟨T, hT, rfl⟩ := Finset.mem_image.1 hU
  rw [hone T hT ((h.alike S hin T (hsets T hT).1).1 halike)]

end Carries

namespace Selects

/-- The order of the patterns does not matter. -/
theorem perm (h : Selects w k floor family ps) {ps' : List Pattern} (hp : ps.Perm ps') :
    Selects w k floor family ps' := by
  have hmem : ∀ {r}, r ∈ ps' → r ∈ ps := fun hr => hp.mem_iff.2 hr
  -- what is blocked depends on the length and the members only
  have hblocked : ∀ {support}, Blocked k ps support ↔ Blocked k ps' support := by
    intro support
    rw [Blocked, Blocked, hp.length_eq]
    exact and_congr_right fun _ => forall_congr' fun r => imp_congr_left hp.mem_iff
  refine ⟨fun r hr => h.exact r (hmem hr), fun r hr => h.within r (hmem hr),
    hp.length_eq ▸ h.length_le, hp.nodup_iff.1 h.nodup,
    fun r hr r' hr' hu => h.apart r (hmem hr) r' (hmem hr') hu,
    fun r hr r' hr' halike hf => ?_, fun S hS hf => ?_,
    fun s hs hb => h.rich s hs (hblocked.2 hb)⟩
  · exact (h.distinct r (hmem hr) r' (hmem hr') halike hf).imp_right hblocked.1
  · rcases h.covered S hS hf with hb | ⟨r, hr, hcover⟩
    · exact Or.inl (hblocked.1 hb)
    · exact Or.inr ⟨r, hp.mem_iff.1 hr, hcover⟩

/-- **Carrying over.** Patterns made from those that select from a family, with the sets that stand
for theirs, select from the sets that stand for the family. -/
theorem carry (h : Selects w' k floor family ps) {image : Finset Item → Finset Item}
    (hc : Carries w' w family image) {f : Pattern → Pattern}
    (hf : ∀ p ∈ ps, w.Exact (f p) ∧ (f p).itemSet = image p.itemSet) :
    Selects w k floor (image '' family) (ps.map f) := by
  have hsupport : ∀ p ∈ ps, (f p).support = p.support := by
    intro p hp
    rw [(hf p hp).1.support_eq, (hf p hp).2, hc.support _ (h.within p hp),
      (h.exact p hp).support_eq]
  have hblocked : ∀ {support}, Blocked k (ps.map f) support ↔ Blocked k ps support := by
    intro support
    rw [Blocked, Blocked, List.length_map, List.forall_mem_map]
    exact and_congr_right fun _ => forall₂_congr fun r hr => by rw [hsupport r hr]
  have halike : ∀ p ∈ ps, ∀ q ∈ ps, w.Alike (f p).itemSet (f q).itemSet ↔
      w'.Alike p.itemSet q.itemSet := by
    intro p hp q hq
    rw [(hf p hp).2, (hf q hq).2]
    exact hc.alike _ (h.within p hp) _ (h.within q hq)
  constructor
  · exact List.forall_mem_map.2 fun p hp => (hf p hp).1
  · exact List.forall_mem_map.2 fun p hp => ⟨p.itemSet, h.within p hp, (hf p hp).2.symm⟩
  · rw [List.length_map]
    exact h.length_le
  · refine List.Nodup.map_on (fun p hp q hq he => ?_) h.nodup
    refine h.eq_of_itemSet_eq hp hq (hc.injective (h.within p hp) (h.within q hq) ?_)
    rw [← (hf p hp).2, ← (hf q hq).2, he]
  · refine List.forall_mem_map.2 fun p hp => List.forall_mem_map.2 fun q hq hu => ?_
    refine congrArg f (h.apart p hp q hq ⟨(halike p hp q hq).1 hu.1, ?_⟩)
    rw [← hc.subset _ (h.within p hp) _ (h.within q hq), ← (hf p hp).2, ← (hf q hq).2]
    exact hu.2
  · refine List.forall_mem_map.2 fun p hp => List.forall_mem_map.2 fun q hq ha hfl => ?_
    rw [hsupport p hp] at hfl ⊢
    exact (h.distinct p hp q hq ((halike p hp q hq).1 ha) hfl).imp (congrArg f) hblocked.2
  · intro V hV hfl
    obtain ⟨S, hS, rfl⟩ := hV
    rw [hc.support S hS] at hfl ⊢
    rcases h.covered S hS hfl with hb | ⟨r, hr, ha, hsub⟩
    · exact Or.inl (hblocked.2 hb)
    · refine Or.inr ⟨f r, List.mem_map_of_mem hr, ?_, ?_⟩
      · rw [(hf r hr).2]
        exact (hc.alike _ (h.within r hr) S hS).2 ha
      · rw [(hf r hr).2]
        exact (hc.subset S hS _ (h.within r hr)).2 hsub
  · exact fun s hs hb => hc.rich (h.rich s hs (hblocked.1 hb))

end Selects

end TopPatterns

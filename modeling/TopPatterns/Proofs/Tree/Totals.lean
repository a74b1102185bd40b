import TopPatterns.Proofs.Ranking.Unambiguous
import TopPatterns.Proofs.Tree.Conditional

/-!
# Trees with the same totals

Paths may be added to a tree in any order, and paths that are equal may be added as one. The tree
then has another shape: its nodes are made in another order, and so are its chains and the bases
that are read off them. The totals of the paths stay the same (`SameTotals`), and all that is asked
of a tree is known from them: supports, header items, and whether there are any nodes.

Paths that are `Interchangeable` stay so in the conditional trees (`Interchangeable.conditional`):
the totals before an item are the same, and an unambiguous order is ranked anew in the same way.
-/

namespace TopPatterns

open PatternTree

namespace Paths

/-- Every property that a path without items lacks has the same total on both. -/
def SameTotals (paths paths' : Paths) : Prop :=
  ∀ q : List Item → Bool, q [] = false → paths.total q = paths'.total q

namespace SameTotals

variable {paths paths' : Paths}

theorem symm (h : SameTotals paths paths') : SameTotals paths' paths := fun q hq => (h q hq).symm

theorem weight_eq (h : SameTotals paths paths') {S : Finset Item} (hS : S.Nonempty) :
    paths.weight S = paths'.weight S := h _ (holds_nil hS)

/-- A path with a property has a counterpart. -/
theorem exists_mem (h : SameTotals paths paths') (hpos : ∀ e ∈ paths, 0 < e.2)
    {q : List Item → Bool} (hq : q [] = false) (hmem : ∃ e ∈ paths, q e.1 = true) :
    ∃ e ∈ paths', q e.1 = true := by
  obtain ⟨e, he, hqe⟩ := hmem
  refine exists_of_total_pos ?_
  rw [← h q hq]
  exact total_pos hpos he hqe

theorem map (h : SameTotals paths paths') {f : List Item → List Item} (hf : f [] = []) :
    SameTotals (paths.map fun e => (f e.1, e.2)) (paths'.map fun e => (f e.1, e.2)) := by
  intro q hq
  rw [total_map, total_map]
  exact h _ (by rw [hf, hq])

theorem above (h : SameTotals paths paths') (x : Item) :
    SameTotals (paths.above x) (paths'.above x) := by
  intro q _
  rw [total_above, total_above]
  exact h _ (by simp)

end SameTotals

/-- Two lists of paths that are arranged by one unambiguous order and have the same totals. -/
structure Interchangeable (order : ItemOrder) (paths paths' : Paths) : Prop where
  arranged : Arranged order paths
  arranged' : Arranged order paths'
  totals : SameTotals paths paths'
  unambiguous : order.Unambiguous

namespace Interchangeable

variable {order : ItemOrder} {paths paths' : Paths} {minimum : Int} {x : Item}

theorem symm (h : Interchangeable order paths paths') : Interchangeable order paths' paths :=
  ⟨h.arranged', h.arranged, h.totals.symm, h.unambiguous⟩

theorem standsFor (h : Interchangeable order paths paths') :
    (ofPaths order paths).StandsFor order paths := standsFor_of_arranged h.arranged

/-! ## What is asked of a tree -/

theorem itemSupport_eq (h : Interchangeable order paths paths') (x : Item) :
    (ofPaths order paths).itemSupport x = (ofPaths order paths').itemSupport x := by
  rw [h.standsFor.itemSupport_eq, h.symm.standsFor.itemSupport_eq]
  exact h.totals.weight_eq (Finset.singleton_nonempty x)

theorem isSome_chain? (h : Interchangeable order paths paths')
    (hx : ((ofPaths order paths).chain? x).isSome) : ((ofPaths order paths').chain? x).isSome := by
  obtain ⟨e, he, hx⟩ := isSome_chain?_ofPaths.1 hx
  obtain ⟨e', he', hx'⟩ := h.totals.exists_mem h.arranged.pos
    (q := fun path => decide (x ∈ path)) (by simp) ⟨e, he, decide_eq_true hx⟩
  exact isSome_chain?_ofPaths.2 ⟨e', he', of_decide_eq_true hx'⟩

theorem headerItems_eq (h : Interchangeable order paths paths') :
    (ofPaths order paths).headerItems = (ofPaths order paths').headerItems := by
  rw [PatternTree.headerItems_eq h.standsFor.ranked,
    PatternTree.headerItems_eq h.symm.standsFor.ranked]
  refine congrArg Except.ok (List.filter_congr fun x _ => ?_)
  exact Bool.eq_iff_iff.2 ⟨h.isSome_chain?, h.symm.isSome_chain?⟩

theorem eq_nil (h : Interchangeable order paths paths') (hnil : ∀ e ∈ paths, e.1 = []) :
    ∀ e ∈ paths', e.1 = [] := by
  intro e he
  by_contra hne
  obtain ⟨d, hd, hcons⟩ := h.totals.symm.exists_mem h.arranged'.pos
    (q := fun path => !path.isEmpty) rfl ⟨e, he, by simpa using hne⟩
  rw [hnil d hd] at hcons
  cases hcons

theorem isEmpty_eq (h : Interchangeable order paths paths') :
    (ofPaths order paths).isEmpty = (ofPaths order paths').isEmpty := by
  rw [Bool.eq_iff_iff, isEmpty_ofPaths, isEmpty_ofPaths]
  exact ⟨h.eq_nil, h.symm.eq_nil⟩

/-! ## Conditional trees -/

theorem conditionalBase (h : Interchangeable order paths paths') (x : Item) :
    SameTotals ((ofPaths order paths).conditionalBase x)
      ((ofPaths order paths').conditionalBase x) := by
  intro q hq
  rw [h.standsFor.total_base x q hq, h.symm.standsFor.total_base x q hq]
  exact h.totals.above x q hq

theorem unambiguous_conditionalOrder (h : Interchangeable order paths paths')
    (hmin : 1 ≤ minimum) (x : Item) :
    ((ofPaths order paths).conditionalOrder x minimum).Unambiguous := by
  have hsub : ∀ y ∈ ((ofPaths order paths).conditionalOrder x minimum).items, y ∈ order.items :=
    fun y hy => mem_items_of_mem_conditionalOrder h.standsFor hmin hy
  exact fun y hy z hz => h.unambiguous y (hsub y hy) z (hsub z hz)

theorem conditionalOrder_eq (h : Interchangeable order paths paths') (hmin : 1 ≤ minimum)
    (x : Item) :
    (ofPaths order paths).conditionalOrder x minimum =
      (ofPaths order paths').conditionalOrder x minimum := by
  refine ItemOrder.ofSupports_congr (pathSupports_spec _).1 (pathSupports_spec _).1 hmin
    (fun y => ?_) (h.unambiguous_conditionalOrder hmin x)
  rw [support_pathSupports (h.standsFor.base_nodup x),
    support_pathSupports (h.symm.standsFor.base_nodup x)]
  exact (h.conditionalBase x).weight_eq (Finset.singleton_nonempty y)

/-- **Conditional trees.** They are of paths that are interchangeable again. -/
theorem conditional (h : Interchangeable order paths paths') (hmin : 1 ≤ minimum) (x : Item) :
    Interchangeable ((ofPaths order paths).conditionalOrder x minimum)
      ((ofPaths order paths).conditionalPaths x minimum)
      ((ofPaths order paths').conditionalPaths x minimum) where
  arranged := arranged_conditional h.standsFor x minimum
  arranged' := by
    rw [h.conditionalOrder_eq hmin]
    exact arranged_conditional h.symm.standsFor x minimum
  totals := by
    rw [conditionalPaths, conditionalPaths, ← h.conditionalOrder_eq hmin]
    exact (h.conditionalBase x).map (ItemOrder.arrangePath_nil _)
  unambiguous := h.unambiguous_conditionalOrder hmin x

theorem conditional_eq (h : Interchangeable order paths paths') (hmin : 1 ≤ minimum) (x : Item) :
    (ofPaths order paths').conditional x minimum =
      ofPaths ((ofPaths order paths).conditionalOrder x minimum)
        ((ofPaths order paths').conditionalPaths x minimum) := by
  rw [PatternTree.conditional_eq, h.conditionalOrder_eq hmin]

end Interchangeable

end Paths

end TopPatterns

import TopPatterns.Proofs.Mining.Exhaustive
import TopPatterns.Proofs.Mining.Partition

/-!
# The tree of a group

A group is mined from a tree of its own, made from those parts of the transactions that end in an
item of the group. This tree has other nodes, other chains and other supports than the tree of the
whole transactions, but the two agree on each item of the group (`SameAt`), node by node: what a tree
holds of an item comes from the beginnings of the paths that end in the item, and a part has the same
ones as the whole path (`beginnings_upToGroup`). Growth that is restricted to a group asks a tree for
nothing else, so that both trees are mined alike (`grow_of_sameAt`), although one may be deeper than
the other.
-/

namespace TopPatterns

open Paths PatternTree

namespace PatternTree

/-- Two trees agree on an item: on its support, on whether it occurs, and on the paths that lead to
its nodes, in the order in which the nodes were made. -/
structure SameAt (t t' : PatternTree) (x : Item) : Prop where
  itemSupport_eq : t.itemSupport x = t'.itemSupport x
  isSome_chain?_eq : (t.chain? x).isSome = (t'.chain? x).isSome
  conditionalBase_eq : t.conditionalBase x = t'.conditionalBase x

/-- A conditional tree is made from the base alone. -/
theorem SameAt.conditional_eq {t t' : PatternTree} {x : Item} (h : t.SameAt t' x) (minimum : Int) :
    t.conditional x minimum = t'.conditional x minimum := by
  unfold conditional
  rw [h.conditionalBase_eq]

theorem SameAt.conditionalPaths_eq {t t' : PatternTree} {x : Item} (h : t.SameAt t' x)
    (minimum : Int) : t.conditionalPaths x minimum = t'.conditionalPaths x minimum := by
  unfold conditionalPaths conditionalOrder
  rw [h.conditionalBase_eq]

end PatternTree

/-! ## Parts of paths -/

section Parts

variable {order : ItemOrder} {paths : Paths} {x : Item}

/-- Paths without items need not be added. -/
theorem addPaths_filter (t : PatternTree) (paths : Paths) :
    t.addPaths (paths.filter fun e => !e.1.isEmpty) = t.addPaths paths := by
  unfold addPaths
  induction paths generalizing t with
  | nil => rfl
  | cons e paths ih =>
    rw [List.foldl_cons, ← ih, List.filter_cons]
    split
    · rfl
    · next hnil =>
      have hnil : e.1 = [] := by simpa using hnil
      rw [hnil, addPath_nil]

/-- Trees of paths and of parts of them agree on an item if each part has the same beginnings that
end in the item as the whole path. -/
theorem sameAt_map {f : List Item → List Item}
    (h : ∀ e ∈ paths, beginnings x (f e.1) = beginnings x e.1) :
    (ofPaths order (paths.map fun e => (f e.1, e.2))).SameAt (ofPaths order paths) x := by
  have hcount : ∀ e ∈ paths, (f e.1).count x = e.1.count x := by
    intro e he
    rw [← length_beginnings, ← length_beginnings, h e he]
  have haddresses : (ofPaths order (paths.map fun e => (f e.1, e.2))).addresses x =
      (ofPaths order paths).addresses x := by
    rw [addresses_ofPaths, addresses_ofPaths, List.flatMap_map]
    exact congrArg List.eraseDups (List.flatMap_congr h)
  constructor
  · rw [ofPaths, itemSupport_addPaths, ofPaths, itemSupport_addPaths, List.map_map]
    refine congrArg _ (congrArg List.sum (List.map_congr_left fun e he => ?_))
    show ((f e.1).count x : Int) * e.2 = (e.1.count x : Int) * e.2
    rw [hcount e he]
  · rw [Bool.eq_iff_iff, isSome_chain?_ofPaths, isSome_chain?_ofPaths]
    simp only [List.mem_map, exists_exists_and_eq_and]
    refine exists_congr fun e => and_congr_right fun he => ?_
    rw [← List.count_pos_iff, hcount e he, List.count_pos_iff]
  · unfold conditionalBase
    rw [haddresses]
    refine congrArg _ (List.map_congr_left fun a ha => congrArg _ ?_)
    -- a node of the item is a beginning of a part exactly if it is one of the whole path
    have hlast := (mem_addresses_ofPaths.1 ha).2
    have hne : a ≠ [] := fun hnil => by simp [hnil] at hlast
    have hpre : ∀ path, a.isPrefixOf path = decide (a ∈ beginnings x path) := by
      intro path
      rw [Bool.eq_iff_iff, List.isPrefixOf_iff_prefix, decide_eq_true_iff, mem_beginnings]
      exact (and_iff_left hlast).symm
    rw [countAt_eq_total hne, countAt_eq_total hne, total_map]
    refine total_congr fun e he => ?_
    rw [hpre, hpre, h e he]

/-- The part of a path up to a group has all beginnings that end in the group. -/
theorem beginnings_upToGroup {group : List Item} (hx : x ∈ group) (path : List Item) :
    beginnings x (upToGroup group path) = beginnings x path := by
  obtain ⟨rest, hsplit, hrest⟩ := exists_eq_upToGroup_append group path
  have hnot : x ∉ rest := fun hxr => hrest x hxr hx
  conv_rhs => rw [hsplit, beginnings_append hnot]

/-- The tree of a group agrees with the tree of the transactions on each item of the group. -/
theorem sameAt_groupPaths (transactions : List Transaction) (order : ItemOrder) {group : List Item}
    (hx : x ∈ group) :
    (ofPaths order ((groupPaths transactions order group).map (·, 1))).SameAt
      (ofTransactions transactions order) x := by
  have hparts : (groupPaths transactions order group).map (·, (1 : Int)) =
      ((transactions.map fun t => (order.arrange t, (1 : Int))).map
        fun e => (upToGroup group e.1, e.2)).filter fun e => !e.1.isEmpty := by
    rw [groupPaths, List.map_map, List.filter_map, List.map_map, List.filter_map]
    rfl
  rw [hparts, ofPaths, addPaths_filter]
  exact sameAt_map fun e _ => beginnings_upToGroup hx e.1

end Parts

/-! ## Growth -/

section Growth

variable {order : ItemOrder} {paths paths' : Paths} {capacity minimum : Int}

/-- How deep the trees are does not matter for growth below an item on which they agree. -/
theorem growBelow_of_sameAt {k : Nat} (subsumes : Bool) (hk : 0 < k) (hmin : 0 ≤ minimum) {x : Item}
    (h : (ofPaths order paths).SameAt (ofPaths order paths') x) :
    growBelow (Collector.empty k subsumes hk) minimum (ofPaths order paths).depth
        ((ofPaths order paths).conditional x minimum) =
      growBelow (Collector.empty k subsumes hk) minimum (ofPaths order paths').depth
        ((ofPaths order paths').conditional x minimum) := by
  rw [← h.conditional_eq]
  refine growBelow_levels subsumes hk hmin (ranked_conditional _ x minimum)
    (fun e he => length_conditionalPaths_le_depth he) fun e he => ?_
  rw [h.conditionalPaths_eq] at he
  exact length_conditionalPaths_le_depth he

/-- Growth that is restricted to items on which two trees agree returns the same on both. -/
theorem grow_of_sameAt (h : Ranked order paths) (h' : Ranked order paths') (hcap : 1 ≤ capacity)
    (hmin : 0 ≤ minimum) (subsumes : Bool) {attributes : List Item}
    (hsame : ∀ x ∈ attributes, (ofPaths order paths).SameAt (ofPaths order paths') x) :
    ∃ c, (ofPaths order paths).grow capacity minimum subsumes (some attributes) = .ok c ∧
      (ofPaths order paths').grow capacity minimum subsumes (some attributes) = .ok c := by
  have hk : 0 < capacity.toNat := by omega
  obtain ⟨items, hitems⟩ : ∃ items, items = (order.items.filter fun x =>
      ((ofPaths order paths).chain? x).isSome).filter attributes.contains := ⟨_, rfl⟩
  have hitems' : items = (order.items.filter fun x =>
      ((ofPaths order paths').chain? x).isSome).filter attributes.contains := by
    rw [hitems, List.filter_filter, List.filter_filter]
    refine List.filter_congr fun x _ => ?_
    by_cases hx : x ∈ attributes
    · rw [(hsame x hx).isSome_chain?_eq]
    · simp [hx]
  obtain ⟨c, hrun, -⟩ := growItems_eq_of_depth subsumes hk hmin
    (Nat.le_refl (ofPaths order paths).depth) items
  refine ⟨c, ?_, ?_⟩
  · simp only [grow, Collector.ofCapacity, dif_pos hk, headerItems_eq h]
    rw [hitems] at hrun
    exact hrun
  · simp only [grow, Collector.ofCapacity, dif_pos hk, headerItems_eq h']
    show (ofPaths order paths').growItems _ minimum _ ((order.items.filter _).filter _) = _
    rw [← hitems', ← hrun]
    refine (growItems_congr_of_mem (fun x hx c => ?_) _).symm
    have hx : x ∈ attributes := by
      rw [hitems, List.mem_filter] at hx
      simpa using hx.2
    refine growItem_congr c (hsame x hx).itemSupport_eq ?_
      (growBelow_of_sameAt subsumes hk hmin (hsame x hx))
    rw [(hsame x hx).conditional_eq]

theorem ranked_groupPaths (transactions : List Transaction) (order : ItemOrder) (group : List Item) :
    Ranked order ((groupPaths transactions order group).map (·, 1)) := by
  intro e he
  obtain ⟨path, hpath, rfl⟩ := List.mem_map.1 he
  obtain ⟨t, -, hsub⟩ := mem_groupPaths hpath
  exact (hsub.trans (order.arrange_sublist t)).subset

theorem ranked_arrange (transactions : List Transaction) (order : ItemOrder) :
    Ranked order (transactions.map fun t => (order.arrange t, 1)) := by
  intro e he
  obtain ⟨t, -, rfl⟩ := List.mem_map.1 he
  exact (order.arrange_sublist t).subset

/-- **The tree of a group loses nothing.** For any transactions, order and group, it has the same
support and the same conditional base as the tree of the whole transactions for each item of the
group, and growth that is restricted to the group returns the same collector on both. -/
theorem groupTree_agrees (transactions : List Transaction) (order : ItemOrder) (group : List Item)
    (capacity minimum : Int) (hcap : 1 ≤ capacity) (hmin : 1 ≤ minimum) (subsumes : Bool) :
    let part := (PatternTree.empty order).addPaths
      ((groupPaths transactions order group).map (·, 1))
    let whole := ofTransactions transactions order
    (∀ x ∈ group, part.itemSupport x = whole.itemSupport x ∧
      part.conditionalBase x = whole.conditionalBase x) ∧
    ∃ c, part.grow capacity minimum subsumes (some group) = .ok c ∧
      whole.grow capacity minimum subsumes (some group) = .ok c := by
  intro part whole
  have hsame : ∀ x ∈ group, part.SameAt whole x := fun x hx =>
    sameAt_groupPaths transactions order hx
  refine ⟨fun x hx => ⟨(hsame x hx).itemSupport_eq, (hsame x hx).conditionalBase_eq⟩, ?_⟩
  exact grow_of_sameAt (ranked_groupPaths transactions order group)
    (ranked_arrange transactions order) hcap (by omega) subsumes hsame

end Growth

/-- A group of two items that are not neighbours. In its tree the item between them has less
support, and a transaction without an item of the group is not there. -/
theorem groupTree_agrees_not_neighbours :
    let order := ItemOrder.ofList [.number 1, .number 2, .number 3, .number 4]
    let transactions : List Transaction := [[.number 1, .number 2, .number 3],
      [.number 3, .number 1], [.number 4, .number 1, .number 3], [.number 3, .number 2]]
    let group : List Item := [.number 4, .number 2]
    let part := (PatternTree.empty order).addPaths
      ((groupPaths transactions order group).map (·, 1))
    let whole := ofTransactions transactions order
    ((1 : Int) ≤ 2 ∧ (1 : Int) ≤ 1) ∧
      part.itemSupport (.number 3) = 1 ∧ whole.itemSupport (.number 3) = 4 ∧
      part.conditionalBase (.number 4) = [([.number 1, .number 3], 1)] ∧
      whole.conditionalBase (.number 4) = [([.number 1, .number 3], 1)] ∧
      ∃ c, part.grow 2 1 true (some group) = .ok c ∧ whole.grow 2 1 true (some group) = .ok c ∧
        c.ranked = [⟨[.number 2], 2⟩, ⟨[.number 1, .number 2], 1⟩] := by
  intro order transactions group part whole
  obtain ⟨hsame, c, hpart, hwhole⟩ :=
    groupTree_agrees transactions order group 2 1 (by decide) (by decide) true
  have hbase : part.conditionalBase (.number 4) = [([.number 1, .number 3], 1)] := by decide
  refine ⟨⟨by decide, by decide⟩, by decide, by decide, hbase,
    (hsame (.number 4) (by decide)).2.symm.trans hbase, c, hpart, hwhole, ?_⟩
  have hrun : (part.grow 2 1 true (some group)).map Collector.ranked =
      .ok [⟨[.number 2], 2⟩, ⟨[.number 1, .number 2], 1⟩] := by
    simp only [part, group, order, transactions]
    cbv
  rw [show part.grow 2 1 true (some group) = .ok c from hpart] at hrun
  exact Except.ok.inj hrun

end TopPatterns

import TopPatterns.Proofs.Mining.Exhaustive
import TopPatterns.Proofs.Mining.Partition
import TopPatterns.Proofs.Tree.Totals

/-!
# The order of the input

Transactions may be put into another order, and so may the items of a transaction; an item may be
repeated, and transactions without items may come and go. Whatever is `Rearranged` in this way has
the same sets of items, each as often (`rearranged_iff`), and is mined with the same result, a
single pass or group by group (`mine_rearranged`): the same patterns with their items in the same
order, and of patterns with equal supports the same ones, in the same order.

All that mining reads of transactions is how many of them have a property that is known from the
items they hold, and that no transaction without items has (`Rearranged.countP_eq`). So items are
ranked alike (`rankItems_rearranged`), and the paths are interchangeable.

Growth asks a tree for its header items, their supports and their conditional trees, and for
nothing else. On interchangeable paths all of these are the same, level by level
(`growBelow_congr`), so growth offers the same patterns in the same order and returns the same
collector (`grow_congr`). That one tree may be deeper than the other does not matter, since levels
below the last items add nothing.
-/

namespace TopPatterns

open Paths PatternTree

/-! ## Growth on interchangeable paths -/

section

variable {order : ItemOrder} {paths paths' : Paths} {minimum : Int}

/-- All items: if growth below the conditional trees agrees, so does growth on any items. -/
theorem growItems_congr (h : Interchangeable order paths paths') (hmin : 1 ≤ minimum)
    {below below' : PatternTree → Except MiningError Collector}
    (hbelow : ∀ x, below ((ofPaths order paths).conditional x minimum) =
      below' ((ofPaths order paths').conditional x minimum)) :
    (ofPaths order paths).growItems below minimum =
      (ofPaths order paths').growItems below' minimum := by
  funext c items
  refine growItems_congr_of_mem (fun x _ c => ?_) c
  refine growItem_congr c (h.itemSupport_eq x) ?_ (hbelow x)
  rw [h.conditional_eq hmin]
  exact (h.conditional hmin x).isEmpty_eq

/-- **All levels.** Growth down to the same number of levels agrees on interchangeable paths. -/
theorem growBelow_congr (empty : Collector) (hmin : 1 ≤ minimum) (levels : Nat) :
    ∀ {order : ItemOrder} {paths paths' : Paths}, Interchangeable order paths paths' →
      growBelow empty minimum levels (ofPaths order paths) =
        growBelow empty minimum levels (ofPaths order paths') := by
  induction levels with
  | zero => exact fun _ => rfl
  | succ levels ih =>
    intro order paths paths' h
    have hbelow : ∀ x,
        growBelow empty minimum levels ((ofPaths order paths).conditional x minimum) =
          growBelow empty minimum levels ((ofPaths order paths').conditional x minimum) := by
      intro x
      rw [h.conditional_eq hmin]
      exact ih (h.conditional hmin x)
    rw [growBelow, growBelow, h.headerItems_eq, growItems_congr h hmin hbelow]

/-- **Growth.** Trees of interchangeable paths are mined alike, whatever their depths. -/
theorem grow_congr (h : Interchangeable order paths paths') (hmin : 1 ≤ minimum)
    (capacity : Int) (subsumes : Bool) (attributes : Option (List Item)) :
    (ofPaths order paths).grow capacity minimum subsumes attributes =
      (ofPaths order paths').grow capacity minimum subsumes attributes := by
  by_cases hk : 0 < capacity.toNat
  · have hbelow : ∀ x,
        growBelow (Collector.empty capacity.toNat subsumes hk) minimum (ofPaths order paths).depth
            ((ofPaths order paths).conditional x minimum) =
          growBelow (Collector.empty capacity.toNat subsumes hk) minimum
            (ofPaths order paths').depth ((ofPaths order paths').conditional x minimum) := by
      intro x
      have hconditional := growBelow_congr (Collector.empty capacity.toNat subsumes hk) hmin
        (max (ofPaths order paths).depth (ofPaths order paths').depth) (h.conditional hmin x)
      rw [← conditional_eq, ← h.conditional_eq hmin] at hconditional
      -- both trees are taken down to the greater depth
      have hdeep := growBelow_levels subsumes hk (by omega : (0 : Int) ≤ minimum)
        (ranked_conditional (ofPaths order paths) x minimum)
        (fun e he => length_conditionalPaths_le_depth he)
        fun e he => Nat.le_trans (length_conditionalPaths_le_depth he)
          (Nat.le_max_left _ (ofPaths order paths').depth)
      have hdeep' := growBelow_levels subsumes hk (by omega : (0 : Int) ≤ minimum)
        (ranked_conditional (ofPaths order paths') x minimum)
        (fun e he => length_conditionalPaths_le_depth he)
        fun e he => Nat.le_trans (length_conditionalPaths_le_depth he)
          (Nat.le_max_right (ofPaths order paths).depth _)
      exact hdeep.trans (hconditional.trans hdeep'.symm)
    have hitems := growItems_congr h hmin hbelow
    simp only [grow, Collector.ofCapacity, dif_pos hk, h.headerItems_eq, bind, Except.bind, hitems]
  · simp only [grow, Collector.ofCapacity, dif_neg hk]
    rfl

end

/-! ## Rearranged transactions -/

/-- Other transactions with the same items in them: in another order, with items of a transaction in
another order or repeated, with or without blank ones. -/
inductive Rearranged : List Transaction → List Transaction → Prop where
  | perm {ts ts' : List Transaction} (h : ts.Perm ts') : Rearranged ts ts'
  | items {t t' : Transaction} (h : ∀ x, x ∈ t ↔ x ∈ t') (ts : List Transaction) :
      Rearranged (t :: ts) (t' :: ts)
  | blank (ts : List Transaction) : Rearranged ([] :: ts) ts
  | symm {ts ts' : List Transaction} (h : Rearranged ts ts') : Rearranged ts' ts
  | trans {ts ts' ts'' : List Transaction} (h : Rearranged ts ts') (h' : Rearranged ts' ts'') :
      Rearranged ts ts''

/-- The sets of items of the transactions that have any. -/
def itemSets (ts : List Transaction) : List (Finset Item) :=
  (ts.map List.toFinset).filter fun S => decide S.Nonempty

namespace Rearranged

variable {ts ts' : List Transaction}

/-- Rearranged transactions may stand after another one. -/
theorem cons (h : Rearranged ts ts') (t : Transaction) : Rearranged (t :: ts) (t :: ts') := by
  induction h with
  | perm h => exact perm (h.cons t)
  | @items u u' h ts =>
    exact ((perm (List.Perm.swap u t ts)).trans (items h (t :: ts))).trans
      (perm (List.Perm.swap t u' ts))
  | blank ts => exact (perm (List.Perm.swap [] t ts)).trans (blank (t :: ts))
  | symm _ ih => exact ih.symm
  | trans _ _ ih ih' => exact ih.trans ih'

/-- Transactions are rearranged to their sets of items. -/
theorem toList_itemSets (ts : List Transaction) :
    Rearranged ts ((itemSets ts).map Finset.toList) := by
  induction ts with
  | nil => exact perm (List.Perm.refl [])
  | cons t ts ih =>
    by_cases hne : t.toFinset.Nonempty
    · have hsets : itemSets (t :: ts) = t.toFinset :: itemSets ts := by
        rw [itemSets, List.map_cons, List.filter_cons, if_pos (decide_eq_true hne)]
        rfl
      rw [hsets, List.map_cons]
      exact (ih.cons t).trans (items (fun x => by simp) _)
    · have hsets : itemSets (t :: ts) = itemSets ts := by
        rw [itemSets, List.map_cons, List.filter_cons, if_neg (by simpa using hne)]
        rfl
      have hnil : t = [] := by simpa using hne
      rw [hsets, hnil]
      exact (blank ts).trans ih

end Rearranged

/-- **Rearranged transactions** have the same sets of items, each as often. -/
theorem rearranged_iff {ts ts' : List Transaction} :
    Rearranged ts ts' ↔ (itemSets ts).Perm (itemSets ts') := by
  constructor
  · intro h
    induction h with
    | perm h => exact (h.map _).filter _
    | @items t t' h ts =>
      have hset : t.toFinset = t'.toFinset := by
        ext x
        rw [List.mem_toFinset, List.mem_toFinset, h]
      rw [itemSets, itemSets, List.map_cons, List.map_cons, hset]
    | blank ts => exact List.Perm.refl _
    | symm _ ih => exact ih.symm
    | trans _ _ ih ih' => exact ih.trans ih'
  · intro h
    exact ((Rearranged.toList_itemSets ts).trans (Rearranged.perm (h.map _))).trans
      (Rearranged.toList_itemSets ts').symm

instance (ts ts' : List Transaction) : Decidable (Rearranged ts ts') :=
  decidable_of_iff _ rearranged_iff.symm

/-! ## What is read of transactions -/

namespace Rearranged

variable {ts ts' : List Transaction} {minimum : Int}

/-- A property that is known from the items of a transaction, and that one without items lacks, is
had by as many transactions. -/
theorem countP_eq (h : Rearranged ts ts') {q : Transaction → Bool}
    (hq : ∀ t t' : Transaction, (∀ x, x ∈ t ↔ x ∈ t') → q t = q t') (hnil : q [] = false) :
    ts.countP q = ts'.countP q := by
  induction h with
  | perm h => exact h.countP_eq q
  | items h ts => rw [List.countP_cons, List.countP_cons, hq _ _ h]
  | blank ts => rw [List.countP_cons, hnil, if_neg Bool.false_ne_true, Nat.add_zero]
  | symm _ ih => exact ih.symm
  | trans _ _ ih ih' => exact ih.trans ih'

theorem supportOf_eq (h : Rearranged ts ts') {S : Finset Item} (hS : S.Nonempty) :
    supportOf ts S = supportOf ts' S := by
  refine h.countP_eq (fun t t' hsame => ?_) ?_
  · simp only [hsame]
  · obtain ⟨y, hy⟩ := hS
    exact decide_eq_false fun hall => List.not_mem_nil (hall y hy)

/-- The same items occur. -/
theorem mem_flatten_iff (h : Rearranged ts ts') {x : Item} : x ∈ ts.flatten ↔ x ∈ ts'.flatten := by
  have hcount := h.supportOf_eq (Finset.singleton_nonempty x)
  have hpos : ∀ ts : List Transaction, x ∈ ts.flatten ↔ 0 < supportOf ts {x} := by
    intro ts
    rw [supportOf_pos, List.mem_flatten]
    simp
  rw [hpos, hpos, hcount]

theorem uniform (h : Rearranged ts ts') (hu : Uniform ts) : Uniform ts' := by
  refine hu.isSome.imp (fun hkind t ht x hx => ?_) fun hkind t ht x hx => ?_
  · exact hkind x (h.mem_flatten_iff.2 (List.mem_flatten.2 ⟨t, ht, hx⟩))
  · exact hkind x (h.mem_flatten_iff.2 (List.mem_flatten.2 ⟨t, ht, hx⟩))

end Rearranged

/-! ## Ranking and paths -/

section

variable {ts ts' : List Transaction} {order : ItemOrder} {minimum : Int}

/-- An order of items that occur in uniform transactions is unambiguous. -/
theorem Uniform.unambiguous (hu : Uniform ts) (hoccur : ∀ x ∈ order.items, x ∈ ts.flatten) :
    order.Unambiguous := by
  intro x hx y hy hlabel
  refine Item.eq_of_label_eq ?_ hlabel
  exact hu.isSome.imp (fun h => ⟨h x (hoccur x hx), h y (hoccur y hy)⟩)
    fun h => ⟨h x (hoccur x hx), h y (hoccur y hy)⟩

/-- **Ranking** does not depend on how transactions are arranged. -/
theorem rankItems_rearranged (h : Rearranged ts ts') (hu : Uniform ts) (hmin : 1 ≤ minimum) :
    ∃ order, rankItems ts minimum = .ok order ∧ rankItems ts' minimum = .ok order ∧
      order.Unambiguous := by
  obtain ⟨supports, hcount, hnodup, hsupport⟩ := countSupports_spec hu
  obtain ⟨supports', hcount', hnodup', hsupport'⟩ := countSupports_spec (h.uniform hu)
  have hunambiguous : (ItemOrder.ofSupports supports minimum).Unambiguous := by
    refine hu.unambiguous fun x hx => ?_
    rw [ItemOrder.mem_items_ofSupports_iff hnodup hmin, hsupport] at hx
    have hpos : 0 < supportOf ts {x} := by omega
    obtain ⟨t, ht, hxt⟩ := supportOf_pos.1 hpos
    exact List.mem_flatten.2 ⟨t, ht, hxt x (Finset.mem_singleton_self x)⟩
  have hsame : ItemOrder.ofSupports supports minimum = ItemOrder.ofSupports supports' minimum := by
    refine ItemOrder.ofSupports_congr hnodup hnodup' hmin (fun x => ?_) hunambiguous
    rw [hsupport, hsupport', h.supportOf_eq (Finset.singleton_nonempty x)]
  refine ⟨_, rankItems_of_countSupports hcount minimum, ?_, hunambiguous⟩
  rw [hsame]
  exact rankItems_of_countSupports hcount' minimum

theorem ItemOrder.arrange_congr (order : ItemOrder) {t t' : Transaction}
    (h : ∀ x, x ∈ t ↔ x ∈ t') : order.arrange t = order.arrange t' := by
  refine List.filter_congr fun x _ => ?_
  rw [Bool.eq_iff_iff, List.contains_iff_mem, List.contains_iff_mem, h]

/-- The paths of rearranged transactions are interchangeable. -/
theorem interchangeable_arrange (h : Rearranged ts ts') (hu : Uniform ts)
    (horder : order.Unambiguous) :
    Interchangeable order (ts.map fun t => (order.arrange t, 1))
      (ts'.map fun t => (order.arrange t, 1)) where
  arranged := arranged_arrange order hu
  arranged' := arranged_arrange order (h.uniform hu)
  totals := by
    intro q hq
    rw [total_map_one, total_map_one]
    refine congrArg Nat.cast (h.countP_eq (fun t t' hsame => ?_) ?_)
    · rw [order.arrange_congr hsame]
    · rw [order.arrange_nil, hq]
  unambiguous := horder

/-- And so are the parts of them that a group needs. -/
theorem interchangeable_groupPaths (h : Rearranged ts ts') (hu : Uniform ts)
    (horder : order.Unambiguous) (group : List Item) :
    Interchangeable order ((groupPaths ts order group).map (·, 1))
      ((groupPaths ts' order group).map (·, 1)) where
  arranged := arranged_groupPaths order hu group
  arranged' := arranged_groupPaths order (h.uniform hu) group
  totals := by
    intro q hq
    rw [total_groupPaths ts order group hq, total_groupPaths ts' order group hq]
    refine congrArg Nat.cast (h.countP_eq (fun t t' hsame => ?_) ?_)
    · rw [order.arrange_congr hsame]
    · rw [order.arrange_nil, upToGroup_nil, hq]
  unambiguous := horder

/-! ## Mining -/

theorem mine_eq_of_rearranged (h : Rearranged ts ts') (hu : Uniform ts) (capacity : Int)
    (hmin : 1 ≤ minimum) (subsumes : Bool) :
    mine ts capacity minimum subsumes = mine ts' capacity minimum subsumes := by
  obtain ⟨order, hrank, hrank', horder⟩ := rankItems_rearranged h hu hmin
  rw [mine_eq_grow capacity subsumes hmin hrank, mine_eq_grow capacity subsumes hmin hrank']
  exact grow_congr (interchangeable_arrange h hu horder) hmin capacity subsumes none

theorem minePartitioned_eq_of_rearranged (h : Rearranged ts ts') (hu : Uniform ts) {capacity : Int}
    (hcap : 1 ≤ capacity) (hmin : 1 ≤ minimum) (subsumes : Bool) {groups : Int}
    (hpos : 1 ≤ groups) (hgroups : groups ≤ 2 ^ 53) {workers : Option Int}
    (hworkers : ∀ n ∈ workers, 1 ≤ n) :
    minePartitioned ts capacity minimum subsumes groups workers =
      minePartitioned ts' capacity minimum subsumes groups workers := by
  have hk : 0 < capacity.toNat := by omega
  obtain ⟨order, hrank, hrank', horder⟩ := rankItems_rearranged h hu hmin
  obtain ⟨parts, hparts, -⟩ := exists_groupItems order hpos hgroups
  have hgroup : mineGroup ts order capacity minimum subsumes =
      mineGroup ts' order capacity minimum subsumes := by
    funext group
    exact grow_congr (interchangeable_groupPaths h hu horder group) hmin capacity subsumes
      (some group)
  rw [minePartitioned_eq_foldl subsumes hk hmin hpos hworkers hrank hparts,
    minePartitioned_eq_foldl subsumes hk hmin hpos hworkers hrank' hparts, hgroup]

end

/-- **The order of the input does not matter.** Uniform transactions and the same ones rearranged
are mined without failure and with the same collector, which so has the same patterns with the same
sequences of items, ranked in the same order. A single pass and partitioned mining, with any number
of groups and workers, each have this property. -/
theorem mine_rearranged (ts ts' : List Transaction) (capacity minimum : Int) (subsumes : Bool)
    (groups : Int) (workers : Option Int) (h : Rearranged ts ts') (hu : Uniform ts)
    (hcap : 1 ≤ capacity) (hmin : 1 ≤ minimum) (hpos : 1 ≤ groups) (hgroups : groups ≤ 2 ^ 53)
    (hworkers : ∀ n ∈ workers, 1 ≤ n) :
    (∃ c, mine ts capacity minimum subsumes = .ok c ∧
      mine ts' capacity minimum subsumes = .ok c) ∧
    ∃ c, minePartitioned ts capacity minimum subsumes groups workers = .ok c ∧
      minePartitioned ts' capacity minimum subsumes groups workers = .ok c := by
  obtain ⟨c, hrun, -⟩ := mine_selecting subsumes hcap hmin hu
  obtain ⟨c', hrun', -⟩ := minePartitioned_selecting subsumes hcap hmin hu hpos hgroups hworkers
  refine ⟨⟨c, hrun, ?_⟩, c', hrun', ?_⟩
  · rw [← mine_eq_of_rearranged h hu capacity hmin subsumes, hrun]
  · rw [← minePartitioned_eq_of_rearranged h hu hcap hmin subsumes hpos hgroups hworkers, hrun']

/-- Of four patterns of support 2 there is room for two, and both times for the same two. -/
theorem mine_rearranged_ties :
    let ts : List Transaction := [[.number 9, .number 10], [.number 10, .number 9, .number 9], [],
      [.number 3, .number 9], [.number 9, .number 3]]
    let ts' : List Transaction := [[.number 3, .number 3, .number 9], [.number 10, .number 9],
      [.number 9, .number 3], [.number 9, .number 10], []]
    let ranked : List Pattern :=
      [⟨[.number 9], 4⟩, ⟨[.number 9, .number 10], 2⟩, ⟨[.number 10], 2⟩]
    (Rearranged ts ts' ∧ Uniform ts ∧ (1 : Int) ≤ 3 ∧ (1 : Int) ≤ 1 ∧ (1 : Int) ≤ 2 ∧
        (2 : Int) ≤ 2 ^ 53 ∧ ∀ n ∈ (none : Option Int), 1 ≤ n) ∧
      (∃ c, mine ts 3 1 false = .ok c ∧ mine ts' 3 1 false = .ok c ∧ c.ranked = ranked) ∧
      ∃ c, minePartitioned ts 3 1 false 2 none = .ok c ∧
        minePartitioned ts' 3 1 false 2 none = .ok c ∧ c.ranked = ranked := by
  intro ts ts' ranked
  have h : Rearranged ts ts' := by decide +kernel
  have hu : Uniform ts := by decide
  have hworkers : ∀ n ∈ (none : Option Int), 1 ≤ n := by simp
  refine ⟨⟨h, hu, by decide, by decide, by decide, by decide, hworkers⟩, ?_⟩
  obtain ⟨⟨c, hrun, hrun'⟩, d, hgroups, hgroups'⟩ := mine_rearranged ts ts' 3 1 false 2 none h hu
    (by decide) (by decide) (by decide) (by decide) hworkers
  have hranked : (mine ts 3 1 false).map Collector.ranked = .ok ranked := by
    simp only [ts, ranked]
    cbv
  have hcount : countSupports ts = .ok [(.number 3, 2), (.number 9, 4), (.number 10, 2)] := by
    simp only [ts]
    cbv
  have hrank : rankItems ts 1 = .ok (ItemOrder.ofList [.number 9, .number 10, .number 3]) := by
    rw [rankItems_of_countSupports hcount, ItemOrder.ofSupports]
    refine congrArg (fun items => Except.ok (ItemOrder.ofList items)) ?_
    cbv
  have hparts : groupItems (ItemOrder.ofList [.number 9, .number 10, .number 3]) 2 =
      .ok [[.number 9, .number 10], [.number 3]] := by decide +kernel
  have hranked' : (minePartitioned ts 3 1 false 2 none).map Collector.ranked = .ok ranked := by
    rw [minePartitioned_eq_foldl false (by decide) (by decide) (by decide) hworkers hrank hparts]
    simp only [ts, ranked]
    cbv
  rw [hrun] at hranked
  rw [hgroups] at hranked'
  exact ⟨⟨c, hrun, hrun', Except.ok.inj hranked⟩, d, hgroups, hgroups', Except.ok.inj hranked'⟩

end TopPatterns

import TopPatterns.Mining.Growth
import TopPatterns.Proofs.Collector.Merge
import TopPatterns.Proofs.Mining.Family
import TopPatterns.Proofs.Selection.Carry
import TopPatterns.Proofs.Tree.Conditional

/-!
# Pattern growth selects the frequent sets

`growItem_selecting` is the step: if a collector selects from the frequent sets that end in earlier
items, then after one more item it selects from those that end in this one as well. Three things can
happen. An item that is not frequent ends no frequent set. An item whose support would not be
admitted ends only sets that are blocked. For any other item, the patterns of the conditional tree
stand for the sets that end in the item and have others (`image_insert`); they are merged, and the
item alone comes last.

By induction on the items and on the levels, `growBelow_selecting` and `grow_selecting` say that
growth succeeds on any tree that stands for paths, and what the collector then selects.
-/

namespace TopPatterns

open Paths PatternTree

variable {subsumes : Bool}

/-- A valid collector with room for `k` patterns that selects from a family. -/
structure Collector.Selecting (c : Collector) (w : Weighing subsumes) (k : Nat)
    (family : Set (Finset Item)) : Prop where
  valid : c.Valid
  capacity_eq : c.capacity = k
  selects : c.shelf.Selects w 0 family

namespace Collector.Selecting

variable {c : Collector} {w : Weighing subsumes} {k : Nat} {family : Set (Finset Item)}

theorem empty (w : Weighing subsumes) (hk : 0 < k) :
    (Collector.empty k subsumes hk).Selecting w k ∅ :=
  ⟨empty_valid hk, rfl, rfl, hk, Selects.nil w hk 0⟩

theorem retained (h : c.Selecting w k family) : Selects w k 0 family c.retained :=
  h.capacity_eq ▸ h.selects.selects

theorem tested (h : c.Selecting w k family) : c.tested.Selecting w k family where
  valid := tested_valid h.valid
  capacity_eq := by
    rw [← h.capacity_eq, ← capacity_shelf, shelf_tested, capacity_shelf]
  selects := by
    rw [shelf_tested]
    exact h.selects

/-- A collector that does not admit a support is blocked there. -/
theorem blocked_of_not_admits (h : c.Selecting w k family) {support : Int}
    (hadmits : c.admits support = false) {n : Nat} (hn : (n : Int) ≤ support) :
    Blocked k c.retained n := by
  rw [← h.capacity_eq, blocked_iff h.valid, isFull, decide_eq_true_iff]
  have hle := h.valid.count_le
  rw [admits] at hadmits
  split at hadmits
  · simp at hadmits
  · have hleast := of_decide_eq_false hadmits
    omega

/-- A list that is mergeable is inserted. -/
theorem of_shelf (h : c.Selecting w k family) {c' : Collector} (hvalid : c'.Valid)
    {ps : List Pattern} (hshelf : c'.shelf = ps.foldl Shelf.insert c.shelf)
    {family' : Set (Finset Item)} (hm : Mergeable w k family family' ps) :
    c'.Selecting w k (family ∪ family') where
  valid := hvalid
  capacity_eq := by
    rw [← h.capacity_eq, ← capacity_shelf, hshelf, Shelf.capacity_foldl_insert, capacity_shelf]
  selects := by
    rw [hshelf]
    refine h.selects.insertAll ?_
    rwa [capacity_shelf, h.capacity_eq]

end Collector.Selecting

/-! ## What is done with an item -/

section GrowItem

variable {below : PatternTree → Except MiningError Collector} {t : PatternTree} {minimum : Int}
  {c : Collector} {x : Item}

theorem growItem_of_lt (hlt : t.itemSupport x < minimum) :
    t.growItem below minimum c x = .ok c := if_pos hlt

theorem growItem_of_not_admits (hlt : ¬t.itemSupport x < minimum)
    (hadmits : c.admits (t.itemSupport x) = false) :
    t.growItem below minimum c x = .ok c.tested := by
  simp only [growItem, if_neg hlt, hadmits, Bool.not_false, if_true]

theorem growItem_of_isEmpty (hlt : ¬t.itemSupport x < minimum)
    (hadmits : c.admits (t.itemSupport x) = true) (hnonneg : 0 ≤ t.itemSupport x)
    (hempty : (t.conditional x minimum).isEmpty = true) :
    t.growItem below minimum c x = .ok (c.tested.insert ⟨[x], (t.itemSupport x).toNat⟩) := by
  simp only [growItem, if_neg hlt, hadmits, Bool.not_true, Bool.false_eq_true, if_false, hempty,
    if_true, Pattern.ofSupport_of_nonneg hnonneg]
  rfl

theorem growItem_of_merged (hlt : ¬t.itemSupport x < minimum)
    (hadmits : c.admits (t.itemSupport x) = true) (hnonneg : 0 ≤ t.itemSupport x)
    (hempty : ¬(t.conditional x minimum).isEmpty = true) {child : Collector}
    (hchild : below (t.conditional x minimum) = .ok child) {after : Nat × Collector}
    (hafter : c.tested.mergeAll child x (t.itemSupport x) = .ok after) :
    t.growItem below minimum c x = .ok (after.2.insert ⟨[x], (t.itemSupport x).toNat⟩) := by
  simp only [growItem, if_neg hlt, hadmits, Bool.not_true, Bool.false_eq_true, if_false,
    if_neg hempty, hchild, Pattern.ofSupport_of_nonneg hnonneg]
  simp only [bind, Except.bind, hafter, Except.map]

variable {below' : PatternTree → Except MiningError Collector} {t' : PatternTree}

/-- One item: growth sees a support, whether the conditional tree is empty, and what is found
below. -/
theorem growItem_congr (c : Collector) (hsupport : t.itemSupport x = t'.itemSupport x)
    (hempty : (t.conditional x minimum).isEmpty = (t'.conditional x minimum).isEmpty)
    (hbelow : below (t.conditional x minimum) = below' (t'.conditional x minimum)) :
    t.growItem below minimum c x = t'.growItem below' minimum c x := by
  simp only [growItem, hsupport, hempty, hbelow]

/-- All items: growth goes through the given items and looks at no others. -/
theorem growItems_congr_of_mem {items : List Item}
    (h : ∀ x ∈ items, ∀ c, t.growItem below minimum c x = t'.growItem below' minimum c x)
    (c : Collector) :
    t.growItems below minimum c items = t'.growItems below' minimum c items := by
  unfold growItems
  induction items generalizing c with
  | nil => rfl
  | cons x items ih =>
    rw [List.foldlM_cons, List.foldlM_cons, h x (List.mem_cons_self ..) c]
    cases t'.growItem below' minimum c x with
    | error e => rfl
    | ok c' => exact ih (fun y hy => h y (List.mem_cons_of_mem _ hy)) c'

end GrowItem

/-! ## Nothing to grow -/

section

variable {order : ItemOrder} {paths : Paths}

theorem headerItems_of_nil (order : ItemOrder) (hnil : ∀ e ∈ paths, e.1 = []) :
    (ofPaths order paths).headerItems = .ok [] := by
  rw [ofPaths_of_nil order hnil]
  simp [headerItems, PatternTree.empty, chain?, Chain.find?]

/-- On paths without items growth adds nothing, however many levels there are. -/
theorem growBelow_of_nil (empty : Collector) (minimum : Int) (levels : Nat) (order : ItemOrder)
    (hnil : ∀ e ∈ paths, e.1 = []) :
    growBelow empty minimum levels (ofPaths order paths) = .ok empty := by
  cases levels with
  | zero => rfl
  | succ levels =>
    rw [growBelow, headerItems_of_nil order hnil]
    rfl

theorem grow_of_nil (capacity minimum : Int) (order : ItemOrder) (hnil : ∀ e ∈ paths, e.1 = []) :
    (ofPaths order paths).grow capacity minimum subsumes none =
      Collector.ofCapacity capacity subsumes := by
  rw [grow, headerItems_of_nil order hnil]
  cases Collector.ofCapacity capacity subsumes <;> rfl

end

/-! ## The sets that end in an item -/

section Item

variable {t : PatternTree} {order : ItemOrder} {paths : Paths} {minimum : Int} {x : Item}

/-- The frequent sets that end in an item and have other items are those of the conditional tree,
each with the item. -/
theorem image_insert (h : t.StandsFor order paths) (hmin : 1 ≤ minimum) :
    insert x '' frequentSets (t.conditionalPaths x minimum) minimum =
      extending order paths minimum x := by
  ext S
  constructor
  · intro hV
    obtain ⟨T, ⟨hne, hle⟩, rfl⟩ := hV
    obtain ⟨hplace, hweight⟩ := weight_conditional_of_le h hmin hne hle
    obtain ⟨y, hy⟩ := hne
    refine ⟨⟨hweight ▸ hle, x, List.mem_singleton_self x, Finset.mem_insert_self x T, ?_⟩, ?_⟩
    · intro z hz
      rcases Finset.mem_insert.1 hz with rfl | hz
      · exact Nat.le_refl _
      · exact Nat.le_of_lt (hplace z hz)
    · -- the item alone has no item before it
      intro he
      have hyx : y ∈ ({x} : Finset Item) := he ▸ Finset.mem_insert_of_mem hy
      have hlt := hplace y hy
      rw [Finset.mem_singleton.1 hyx] at hlt
      exact absurd hlt (Nat.lt_irrefl _)
  · intro hS
    obtain ⟨⟨hle, y, hy, hlast⟩, hne⟩ := hS
    obtain rfl := List.mem_singleton.1 hy
    have hinsert := Finset.insert_erase hlast.mem
    have hplace : ∀ z ∈ S.erase y, order.place z < order.place y := by
      intro z hz
      obtain ⟨hzy, hzS⟩ := Finset.mem_erase.1 hz
      have hranked := h.mem_items_of_weight_pos (S := S) (by omega) hzS
      exact Nat.lt_of_le_of_ne (hlast.place_le z hzS) fun he =>
        hzy (ItemOrder.eq_of_place_eq hranked he)
    have hrest : (S.erase y).Nonempty := by
      rw [Finset.nonempty_iff_ne_empty]
      intro he
      rw [he] at hinsert
      exact hne hinsert.symm
    have hweight := weight_conditional_of_place h hmin hrest hplace (by rwa [hinsert])
    refine ⟨S.erase y, ⟨hrest, ?_⟩, hinsert⟩
    rw [hweight, hinsert]
    exact hle

/-- Which frequent sets of a conditional tree count as the same is known from the sets with the
item: with subsumption by way of their union, which is frequent on both sides as soon as it weighs
what one of the sets weighs. -/
theorem alike_insert_iff (h : t.StandsFor order paths) (hmin : 1 ≤ minimum) {S T : Finset Item}
    (hS : S ∈ frequentSets (t.conditionalPaths x minimum) minimum)
    (hT : T ∈ frequentSets (t.conditionalPaths x minimum) minimum) :
    (paths.weighing h.pos subsumes).Alike (insert x S) (insert x T) ↔
      ((t.conditionalPaths x minimum).weighing
        (arranged_conditional h x minimum).pos subsumes).Alike S T := by
  have hplaceS := (weight_conditional_of_le h hmin hS.1 hS.2).1
  have hplaceT := (weight_conditional_of_le h hmin hT.1 hT.2).1
  have hplace : ∀ y ∈ S ∪ T, order.place y < order.place x := fun y hy =>
    (Finset.mem_union.1 hy).elim (hplaceS y) (hplaceT y)
  have hne : (S ∪ T).Nonempty := hS.1.mono Finset.subset_union_left
  have hunion : ∀ R ∈ frequentSets (t.conditionalPaths x minimum) minimum,
      (paths.weight (insert x R) = paths.weight (insert x (S ∪ T)) ↔
        weight (t.conditionalPaths x minimum) R =
          weight (t.conditionalPaths x minimum) (S ∪ T)) := by
    intro R hR
    have hle := hR.2
    have hweight := (weight_conditional_of_le h hmin hR.1 hR.2).2
    constructor
    · intro he
      rw [weight_conditional_of_place h hmin hne hplace (by omega), hweight, he]
    · intro he
      rw [← hweight, he, (weight_conditional_of_le h hmin hne (by omega)).2]
  rw [alike_weighing_iff, alike_weighing_iff]
  cases subsumes with
  | true =>
    rw [if_pos rfl, if_pos rfl, ← Finset.insert_union_distrib]
    exact and_congr (hunion S hS) (hunion T hT)
  | false =>
    have hx : x ∉ S := fun hx => Nat.lt_irrefl _ (hplaceS x hx)
    have hx' : x ∉ T := fun hx => Nat.lt_irrefl _ (hplaceT x hx)
    simp only [Bool.false_eq_true, if_false]
    constructor
    · intro he
      rw [← Finset.erase_insert hx, he, Finset.erase_insert hx']
    · intro he
      rw [he]

/-- The frequent sets of a conditional tree stand for those with the item. -/
theorem carries_insert (h : t.StandsFor order paths) (hmin : 1 ≤ minimum) :
    Carries ((t.conditionalPaths x minimum).weighing
        (arranged_conditional h x minimum).pos subsumes)
      (paths.weighing h.pos subsumes)
      (frequentSets (t.conditionalPaths x minimum) minimum) (insert x) := by
  constructor
  · intro S hS
    exact congrArg Int.toNat (weight_conditional_of_le h hmin hS.1 hS.2).2.symm
  · intro S hS T hT
    exact alike_insert_iff h hmin hS hT
  · intro S hS T _
    have hplace := (weight_conditional_of_le h hmin hS.1 hS.2).1
    exact Finset.insert_subset_insert_iff fun hx => Nat.lt_irrefl _ (hplace x hx)

end Item

/-! ## One item -/

section Step

variable {t : PatternTree} {order : ItemOrder} {paths : Paths} {minimum : Int} {x : Item} {k : Nat}
  {c : Collector} {earlier : List Item}

/-- The set of the item alone, after the sets that end in it and have other items. -/
theorem ending_append_singleton (hx : minimum ≤ paths.weight {x}) :
    ending order paths minimum (earlier ++ [x]) =
      ending order paths minimum earlier ∪ extending order paths minimum x ∪ {{x}} := by
  rw [ending_append, Set.union_assoc]
  refine congrArg _ (Set.ext fun S => ⟨fun hS => ?_, ?_⟩)
  · by_cases he : S = {x}
    · exact Or.inr he
    · exact Or.inl ⟨hS, he⟩
  · intro hS
    rcases hS with ⟨hS, -⟩ | rfl
    · exact hS
    · exact ⟨hx, x, List.mem_singleton_self x, order.isLast_singleton x⟩

theorem itemSet_single (x : Item) (support : Nat) : (⟨[x], support⟩ : Pattern).itemSet = {x} := by
  simp [Pattern.itemSet]

/-- The pattern of the item alone is exact on the paths. -/
theorem exact_single (subsumes : Bool) (h : t.StandsFor order paths) (x : Item) :
    (paths.weighing h.pos subsumes).Exact ⟨[x], (paths.weight {x}).toNat⟩ := by
  refine ⟨List.nodup_singleton x, List.cons_ne_nil x [], ?_⟩
  rw [itemSet_single]
  rfl

/-- The sets dealt with before the item alone have no item after it. -/
theorem place_le_of_mem (hplace : ∀ y ∈ earlier, order.place y < order.place x) {S : Finset Item}
    (hS : S ∈ ending order paths minimum earlier ∪ extending order paths minimum x) :
    ∀ z ∈ S, order.place z ≤ order.place x := by
  intro z hz
  rcases hS with ⟨-, y, hy, hlast⟩ | ⟨⟨-, y, hy, hlast⟩, -⟩
  · exact Nat.le_trans (hlast.place_le z hz) (Nat.le_of_lt (hplace y hy))
  · exact List.mem_singleton.1 hy ▸ hlast.place_le z hz

/-- The item alone is new after the sets that end in it and have other items. -/
theorem single_not_mem (hplace : ∀ y ∈ earlier, order.place y < order.place x) :
    {x} ∉ ending order paths minimum earlier ∪ extending order paths minimum x := by
  intro hS
  rcases hS with ⟨-, y, hy, hlast⟩ | ⟨-, hne⟩
  · have hle := hlast.place_le x (Finset.mem_singleton_self x)
    exact absurd (hplace y hy) (Nat.not_lt.2 hle)
  · exact hne rfl

/-- The item alone is inserted after the sets that end in it and have other items. -/
theorem insert_single (h : t.StandsFor order paths) (hx : minimum ≤ paths.weight {x})
    (hplace : ∀ y ∈ earlier, order.place y < order.place x)
    (hc : c.Selecting (paths.weighing h.pos subsumes) k
      (ending order paths minimum earlier ∪ extending order paths minimum x)) :
    (c.insert ⟨[x], (paths.weight {x}).toNat⟩).Selecting (paths.weighing h.pos subsumes) k
      (ending order paths minimum (earlier ++ [x])) := by
  have hexact := exact_single subsumes h x
  have hset := itemSet_single x (paths.weight {x}).toNat
  rw [ending_append_singleton hx]
  -- the pattern is named, for its text would be rewritten along with the sets below
  generalize (⟨[x], (paths.weight {x}).toNat⟩ : Pattern) = p at hexact hset ⊢
  rw [← hset]
  refine ⟨Collector.insert_valid hc.valid _, ?_, ?_⟩
  · rw [← hc.capacity_eq, ← Collector.capacity_shelf, Collector.insert_shelf hc.valid,
      Shelf.capacity_insert, Collector.capacity_shelf]
  rw [Collector.insert_shelf hc.valid]
  refine hc.selects.insert_late hexact (hset ▸ single_not_mem hplace) fun S hS halike hsub => ?_
  -- a set that counts as the same ends in the item or before it, so its union is there already
  have hweight := weight_eq_of_alike_weighing
    ((paths.weighing h.pos subsumes).union (Weighing.symm halike))
  have hself : order.IsLast p.itemSet x := by
    rw [hset]
    exact order.isLast_singleton x
  refine Or.inr ⟨⟨?_, x, List.mem_singleton_self x, hself.union (place_le_of_mem hplace hS)⟩, ?_⟩
  · rw [← hweight, hset]
    exact hx
  · intro he
    refine hsub ?_
    rw [hset, ← he]
    exact Finset.subset_union_right

/-- A pattern of the conditional tree, as it is merged, is exact on the paths. -/
theorem exact_extended (h : t.StandsFor order paths) (hmin : 1 ≤ minimum) {p : Pattern}
    (hp : ((t.conditionalPaths x minimum).weighing
      (arranged_conditional h x minimum).pos subsumes).Exact p)
    (hmem : p.itemSet ∈
      frequentSets (t.conditionalPaths x minimum) minimum) :
    (paths.weighing h.pos subsumes).Exact (p.extended x (paths.weight {x})) ∧
      (p.extended x (paths.weight {x})).itemSet = insert x p.itemSet := by
  obtain ⟨hplace, hweight⟩ := weight_conditional_of_le h hmin hmem.1 hmem.2
  have hnot : x ∉ p.items := fun hx => Nat.lt_irrefl _ (hplace x (Pattern.mem_itemSet.2 hx))
  have hset : (p.extended x (paths.weight {x})).itemSet = insert x p.itemSet := by
    ext y
    simp only [Pattern.mem_itemSet, Pattern.extended, List.mem_append, List.mem_singleton,
      Finset.mem_insert]
    exact or_comm
  have hsupport : (p.support : Int) = paths.weight (insert x p.itemSet) := by
    rw [hp.support_eq, support_weighing, hweight]
  have hle : paths.weight (insert x p.itemSet) ≤ paths.weight {x} :=
    weight_le_weight h.pos (Finset.singleton_subset_iff.2 (Finset.mem_insert_self x _))
  refine ⟨⟨?_, by simp [Pattern.extended], ?_⟩, hset⟩
  · refine List.nodup_append.2 ⟨hp.nodup, List.nodup_singleton x, ?_⟩
    intro y hy z hz hyz
    rw [hyz, List.mem_singleton.1 hz] at hy
    exact hnot hy
  · rw [hset]
    show (min (paths.weight {x}) (p.support : Int)).toNat = _
    rw [hsupport, Int.min_eq_right hle]
    rfl

/-- The patterns of the conditional tree, as they are merged, may be inserted after the sets that
end in earlier items. -/
theorem mergeable_extended (h : t.StandsFor order paths) (hmin : 1 ≤ minimum)
    (hplace : ∀ y ∈ earlier, order.place y < order.place x) {child : Collector}
    (hchild : child.Selecting ((t.conditionalPaths x minimum).weighing
      (arranged_conditional h x minimum).pos subsumes) k
      (frequentSets (t.conditionalPaths x minimum) minimum)) :
    Mergeable (paths.weighing h.pos subsumes) k (ending order paths minimum earlier)
      (extending order paths minimum x)
      (child.ranked.map (Pattern.extended x (paths.weight {x}))) := by
  have hranked : Selects (paths.weighing h.pos subsumes) k 0
      (extending order paths minimum x)
      (child.ranked.map (Pattern.extended x (paths.weight {x}))) := by
    rw [← image_insert h hmin]
    refine (hchild.retained.carry (carries_insert h hmin) fun p hp => ?_).perm
      ((Pattern.descending_perm _).symm.map _)
    exact exact_extended h hmin (hchild.retained.exact p hp) (hchild.retained.within p hp)
  have hlater : ∀ y ∈ earlier, ∀ z ∈ [x], order.place y < order.place z := fun y hy z hz =>
    List.mem_singleton.1 hz ▸ hplace y hy
  refine mergeable_of_later hlater hranked (fun S hS => hS.1) ?_
  intro S hS J hJ hsub
  obtain ⟨⟨-, y, hy, hlast⟩, hne⟩ := hS
  obtain rfl := List.mem_singleton.1 hy
  refine ⟨hJ, fun he => hne (Finset.Subset.antisymm (he ▸ hsub) ?_)⟩
  exact Finset.singleton_subset_iff.2 hlast.mem

/-- Merging the patterns of the conditional tree brings in the sets that end in the item and have
other items. -/
theorem mergeAll_selecting (h : t.StandsFor order paths) (hmin : 1 ≤ minimum)
    (hplace : ∀ y ∈ earlier, order.place y < order.place x)
    (hc : c.Selecting (paths.weighing h.pos subsumes) k (ending order paths minimum earlier))
    {child : Collector}
    (hchild : child.Selecting ((t.conditionalPaths x minimum).weighing
      (arranged_conditional h x minimum).pos subsumes) k
      (frequentSets (t.conditionalPaths x minimum) minimum)) :
    ∃ after, c.mergeAll child x (paths.weight {x}) = .ok after ∧
      after.2.Selecting (paths.weighing h.pos subsumes) k
        (ending order paths minimum earlier ∪ extending order paths minimum x) := by
  obtain ⟨hvalid, hshelf⟩ := Collector.insertAll_shelf hc.valid
    (child.ranked.map (Pattern.extended x (paths.weight {x})))
  exact ⟨_, Collector.mergeAll_eq hc.valid child x (weight_nonneg h.pos {x}),
    hc.of_shelf hvalid hshelf (mergeable_extended h hmin hplace hchild)⟩

/-- An item that is not frequent ends no frequent set. -/
theorem ending_singleton_of_lt (h : t.StandsFor order paths) (hlt : paths.weight {x} < minimum) :
    ending order paths minimum [x] = ∅ := by
  refine Set.eq_empty_of_forall_notMem fun S ⟨hle, y, hy, hlast⟩ => ?_
  rw [List.mem_singleton.1 hy] at hlast
  have := weight_le_weight h.pos (Finset.singleton_subset_iff.2 hlast.mem)
  omega

/-- Nothing is frequent on paths without items. -/
theorem frequentSets_of_nil (hmin : 1 ≤ minimum) (hnil : ∀ e ∈ paths, e.1 = []) :
    frequentSets paths minimum = ∅ := by
  refine Set.eq_empty_of_forall_notMem fun S ⟨hne, hle⟩ => ?_
  obtain ⟨e, he, hholds⟩ := exists_of_total_pos (Int.lt_of_lt_of_le (by omega) hle)
  rw [hnil e he, holds_nil hne] at hholds
  simp at hholds

/-- An item whose support is not admitted ends only sets that are blocked. -/
theorem tested_selecting_of_not_admits (h : t.StandsFor order paths)
    (hc : c.Selecting (paths.weighing h.pos subsumes) k (ending order paths minimum earlier))
    (hadmits : c.admits (paths.weight {x}) = false) :
    c.tested.Selecting (paths.weighing h.pos subsumes) k
      (ending order paths minimum (earlier ++ [x])) := by
  have ht := hc.tested
  refine ⟨ht.valid, ht.capacity_eq, ht.selects.subsumes_eq, ht.selects.capacity_pos, ?_⟩
  rw [ending_append]
  refine ht.selects.selects.widen _ fun S ⟨_, y, hy, hlast⟩ _ => Or.inl ?_
  rw [List.mem_singleton.1 hy] at hlast
  have hle := weight_le_weight h.pos (Finset.singleton_subset_iff.2 hlast.mem)
  rw [Collector.shelf_tested, Collector.capacity_shelf, hc.capacity_eq]
  exact hc.blocked_of_not_admits hadmits (support_weighing S ▸ hle)

/-- What is done below a tree finds the frequent sets of the conditional tree of an item. -/
def FoundBelow (h : t.StandsFor order paths) (subsumes : Bool) (k : Nat) (minimum : Int)
    (below : PatternTree → Except MiningError Collector) (x : Item) : Prop :=
  ∃ child, below (t.conditional x minimum) = .ok child ∧
    child.Selecting ((t.conditionalPaths x minimum).weighing
      (arranged_conditional h x minimum).pos subsumes) k
      (frequentSets (t.conditionalPaths x minimum) minimum)

/-- **One item.** A collector that selects from the sets ending in earlier items selects after
another item from those ending in this one as well, if the conditional tree can be mined. -/
theorem growItem_selecting (h : t.StandsFor order paths) (hmin : 1 ≤ minimum)
    (hplace : ∀ y ∈ earlier, order.place y < order.place x)
    (hc : c.Selecting (paths.weighing h.pos subsumes) k (ending order paths minimum earlier))
    {below : PatternTree → Except MiningError Collector}
    (hbelow : FoundBelow h subsumes k minimum below x) :
    ∃ c', t.growItem below minimum c x = .ok c' ∧
      c'.Selecting (paths.weighing h.pos subsumes) k
        (ending order paths minimum (earlier ++ [x])) := by
  have hsupport := h.itemSupport_eq x
  have hnonneg : 0 ≤ t.itemSupport x := hsupport ▸ weight_nonneg h.pos {x}
  -- an item that is not frequent, one that is not admitted, or one whose tree is mined
  by_cases hlt : t.itemSupport x < minimum
  · refine ⟨c, growItem_of_lt hlt, ?_⟩
    rw [ending_append, ending_singleton_of_lt h (hsupport ▸ hlt), Set.union_empty]
    exact hc
  have hle : minimum ≤ paths.weight {x} := by omega
  cases hadmits : c.admits (t.itemSupport x) with
  | false =>
    exact ⟨c.tested, growItem_of_not_admits hlt hadmits,
      tested_selecting_of_not_admits h hc (hsupport ▸ hadmits)⟩
  | true =>
    by_cases hempty : (t.conditional x minimum).isEmpty = true
    · -- nothing is frequent before the item, so the item alone is all that ends in it
      refine ⟨_, growItem_of_isEmpty hlt hadmits hnonneg hempty, ?_⟩
      rw [hsupport]
      refine insert_single h hle hplace ?_
      rw [conditional_eq] at hempty
      rw [← image_insert h hmin, frequentSets_of_nil hmin (isEmpty_ofPaths.1 hempty),
        Set.image_empty, Set.union_empty]
      exact hc.tested
    · obtain ⟨child, hchild, hselecting⟩ := hbelow
      obtain ⟨after, hafter, hmerged⟩ := mergeAll_selecting h hmin hplace hc.tested hselecting
      rw [← hsupport] at hafter
      refine ⟨_, growItem_of_merged hlt hadmits hnonneg hempty hchild hafter, ?_⟩
      rw [hsupport]
      exact insert_single h hle hplace hmerged

end Step

/-! ## All items, all levels -/

section Run

variable {t : PatternTree} {order : ItemOrder} {paths : Paths} {minimum : Int} {k : Nat}

/-- **All items.** Growth goes through items by rising place and selects from the sets that end in
any of them. -/
theorem growItems_selecting (h : t.StandsFor order paths) (hmin : 1 ≤ minimum)
    {below : PatternTree → Except MiningError Collector}
    (hbelow : ∀ x, FoundBelow h subsumes k minimum below x) (rest : List Item) :
    ∀ (earlier : List Item) {c : Collector},
      (earlier ++ rest).Pairwise (fun x y => order.place x < order.place y) →
      c.Selecting (paths.weighing h.pos subsumes) k (ending order paths minimum earlier) →
      ∃ c', t.growItems below minimum c rest = .ok c' ∧
        c'.Selecting (paths.weighing h.pos subsumes) k
          (ending order paths minimum (earlier ++ rest)) := by
  induction rest with
  | nil =>
    intro earlier c _ hc
    rw [List.append_nil]
    exact ⟨c, rfl, hc⟩
  | cons x rest ih =>
    intro earlier c hrising hc
    have hplace : ∀ y ∈ earlier, order.place y < order.place x := fun y hy =>
      (List.pairwise_append.1 hrising).2.2 y hy x (List.mem_cons_self ..)
    obtain ⟨c', hstep, hc'⟩ := growItem_selecting h hmin hplace hc (hbelow x)
    rw [List.append_cons] at hrising ⊢
    obtain ⟨c'', hrun, hc''⟩ := ih (earlier ++ [x]) hrising hc'
    refine ⟨c'', ?_, hc''⟩
    rw [growItems, List.foldlM_cons, hstep]
    exact hrun

/-- Items that have no node end no frequent set. -/
theorem ending_filter_chain (h : t.StandsFor order paths) (hmin : 1 ≤ minimum)
    (items : List Item) :
    ending order paths minimum (items.filter fun x => (t.chain? x).isSome) =
      ending order paths minimum items := by
  ext S
  constructor
  · intro hS
    obtain ⟨hle, x, hx, hlast⟩ := hS
    exact ⟨hle, x, (List.mem_filter.1 hx).1, hlast⟩
  · intro hS
    obtain ⟨hle, x, hx, hlast⟩ := hS
    refine ⟨hle, x, List.mem_filter.2 ⟨hx, ?_⟩, hlast⟩
    -- an item without nodes has no support
    have hmono := weight_le_weight h.pos (Finset.singleton_subset_iff.2 hlast.mem)
    rw [← h.itemSupport_eq, itemSupport] at hmono
    cases hchain : t.chain? x with
    | none =>
      rw [hchain] at hmono
      exact absurd (Int.le_trans hmin (Int.le_trans hle hmono)) (by decide)
    | some chain => rfl

/-- The items that growth goes through follow each other by rising place. -/
theorem pairwise_place_filter_chain {items : List Item} (hitems : items.Sublist order.items)
    (t : PatternTree) :
    (items.filter fun x => (t.chain? x).isSome).Pairwise fun x y => order.place x < order.place y :=
  ItemOrder.pairwise_place_lt (List.filter_sublist.trans hitems)

/-- **All levels.** If no path has more items than there are levels, growth succeeds and selects the
frequent sets. -/
theorem growBelow_selecting (subsumes : Bool) (hk : 0 < k) (hmin : 1 ≤ minimum) (levels : Nat) :
    ∀ {order : ItemOrder} {paths : Paths} (h : Arranged order paths),
      (∀ e ∈ paths, e.1.length ≤ levels) →
      ∃ c, growBelow (Collector.empty k subsumes hk) minimum levels (ofPaths order paths) = .ok c ∧
        c.Selecting (paths.weighing h.pos subsumes) k (frequentSets paths minimum) := by
  induction levels with
  | zero =>
    intro order paths h hlen
    have hnil : ∀ e ∈ paths, e.1 = [] := fun e he => List.length_eq_zero_iff.1
      (Nat.le_zero.1 (hlen e he))
    rw [frequentSets_of_nil hmin hnil]
    exact ⟨_, rfl, Collector.Selecting.empty _ hk⟩
  | succ levels ih =>
    intro order paths h hlen
    have hstands := standsFor_of_arranged h
    have hbelow := fun x => ih (arranged_conditional hstands x minimum) fun e he =>
      Nat.le_of_lt_succ (length_conditionalPaths_lt hlen he)
    obtain ⟨c, hrun, hc⟩ := growItems_selecting hstands hmin hbelow _ []
      (pairwise_place_filter_chain (List.Sublist.refl _) _)
      (ending_nil ▸ Collector.Selecting.empty _ hk)
    rw [List.nil_append, ending_filter_chain hstands hmin,
      ending_items fun S hle x hx => h.rising.mem_items_of_weight_pos (by omega) hx] at hc
    refine ⟨c, ?_, hc⟩
    rw [growBelow, headerItems_eq h.rising.ranked]
    exact hrun

/-- Growth with as many levels as a tree is deep finds the frequent sets below it. -/
theorem foundBelow_growBelow (subsumes : Bool) (hk : 0 < k) (hmin : 1 ≤ minimum)
    {paths' : Paths} (h : (ofPaths order paths').StandsFor order paths) (x : Item) :
    FoundBelow h subsumes k minimum
      (growBelow (Collector.empty k subsumes hk) minimum (ofPaths order paths').depth) x :=
  growBelow_selecting subsumes hk hmin _ (arranged_conditional h x minimum)
    fun _ he => length_conditionalPaths_le_depth he

/-- The items of an order that growth goes through. -/
def chosenItems (order : ItemOrder) : Option (List Item) → List Item
  | none => order.items
  | some attributes => order.items.filter attributes.contains

theorem chosenItems_sublist (order : ItemOrder) (attributes : Option (List Item)) :
    (chosenItems order attributes).Sublist order.items := by
  cases attributes with
  | none => exact List.Sublist.refl _
  | some attributes => exact List.filter_sublist

/-- Growth on a tree of ranked paths goes through the chosen items that have nodes. -/
theorem grow_eq_growItems (hranked : Ranked order paths) {capacity : Int}
    (hk : 0 < capacity.toNat) (attributes : Option (List Item)) :
    (ofPaths order paths).grow capacity minimum subsumes attributes =
      (ofPaths order paths).growItems
        (growBelow (Collector.empty capacity.toNat subsumes hk) minimum (ofPaths order paths).depth)
        minimum (Collector.empty capacity.toNat subsumes hk)
        ((chosenItems order attributes).filter
          fun x => ((ofPaths order paths).chain? x).isSome) := by
  rw [grow, Collector.ofCapacity, dif_pos hk, headerItems_eq hranked]
  cases attributes with
  | none => rfl
  | some attributes =>
    rw [chosenItems, List.filter_comm]
    rfl

/-- **Growth.** A tree that stands for some paths is mined without failure, and the collector
selects from their frequent sets that end in a chosen item. -/
theorem grow_selecting (subsumes : Bool) {paths' : Paths} (hranked : Ranked order paths')
    (h : (ofPaths order paths').StandsFor order paths) {capacity : Int} (hcap : 1 ≤ capacity)
    (hmin : 1 ≤ minimum) (attributes : Option (List Item)) :
    ∃ c, (ofPaths order paths').grow capacity minimum subsumes attributes = .ok c ∧
      c.Selecting (paths.weighing h.pos subsumes) capacity.toNat
        (ending order paths minimum (chosenItems order attributes)) := by
  have hk : 0 < capacity.toNat := by omega
  obtain ⟨c, hrun, hc⟩ := growItems_selecting h hmin
    (foundBelow_growBelow subsumes hk hmin h) _ []
    (pairwise_place_filter_chain (chosenItems_sublist order attributes) _)
    (ending_nil ▸ Collector.Selecting.empty _ hk)
  rw [List.nil_append, ending_filter_chain h hmin] at hc
  exact ⟨c, (grow_eq_growItems hranked hk attributes).trans hrun, hc⟩

end Run

end TopPatterns

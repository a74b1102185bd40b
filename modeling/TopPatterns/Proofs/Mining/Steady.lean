import TopPatterns.Proofs.Collector.Steady
import TopPatterns.Proofs.Mining.Partition
import TopPatterns.Proofs.Tree.Cut

/-!
# Mining is steady

The search is written once more with every change of a collector watched: `growSteadily` and
`minePartitionedSteadily` do what growth and partitioned mining do, but end with a failure at the
first insertion that takes the place of more than one pattern, and at the first test or insertion
after which a collector has fewer patterns, or after which a full one has room or a lower least
support. The watch is kept on all levels, in all groups and in the fan-in. It makes no difference
(`mining_steady`).

That is so because of the order in which patterns come. A collector selects from the sets that end
in earlier items, so the patterns of another item, and the item alone after them, take the place of
one pattern each (`Mergeable.singles`, `Shelf.Selects.single`). The tree at the top may have the
absent item on its paths, and then stands for the cut ones. Partitioned mining brings together what
its groups found in the order of the groups; only transactions that are not uniform are not covered
by that, and these have one group at most.
-/

namespace TopPatterns

open Paths PatternTree

/-! ## Mining step by steady step -/

namespace PatternTree

/-- Adds the patterns that end in one item of a tree, step by steady step. -/
def growItemSteadily (failure : MiningError) (below : PatternTree → Except MiningError Collector)
    (t : PatternTree) (minimum : Int) (c : Collector) (item : Item) :
    Except MiningError Collector :=
  let support := t.itemSupport item
  if support < minimum then .ok c
  else if !c.admits support then c.testSteadily failure
  else do
    let c ← c.testSteadily failure
    let conditional := t.conditional item minimum
    let c ←
      if conditional.isEmpty then .ok c
      else do
        let child ← below conditional
        c.mergeAllSteadily failure child item support
    let p ← Pattern.ofSupport [item] support
    c.insertSteadily failure p

/-- Adds the patterns that end in the given items of a tree, step by steady step. -/
def growItemsSteadily (failure : MiningError) (below : PatternTree → Except MiningError Collector)
    (t : PatternTree) (minimum : Int) (c : Collector) (items : List Item) :
    Except MiningError Collector :=
  items.foldlM (t.growItemSteadily failure below minimum) c

/-- Growth through the levels, step by steady step on each of them. -/
def growBelowSteadily (failure : MiningError) (empty : Collector) (minimum : Int) :
    Nat → PatternTree → Except MiningError Collector
  | 0, _ => .ok empty
  | levels + 1, t => do
    t.growItemsSteadily failure (growBelowSteadily failure empty minimum levels) minimum empty
      (← t.headerItems)

/-- The strongest patterns of a tree, step by steady step. -/
def growSteadily (failure : MiningError) (t : PatternTree) (capacity minimum : Int)
    (subsumes : Bool) (attributes : Option (List Item)) : Except MiningError Collector := do
  let empty ← Collector.ofCapacity capacity subsumes
  let items ← t.headerItems
  let chosen := match attributes with
    | none => items
    | some attributes => items.filter attributes.contains
  t.growItemsSteadily failure (growBelowSteadily failure empty minimum t.depth) minimum empty chosen

end PatternTree

/-- The strongest patterns whose item of highest rank number belongs to a group, step by steady
step. -/
def mineGroupSteadily (failure : MiningError) (transactions : List Transaction) (order : ItemOrder)
    (capacity minimum : Int) (subsumes : Bool) (group : List Item) :
    Except MiningError Collector :=
  let t := (PatternTree.empty order).addPaths ((groupPaths transactions order group).map (·, 1))
  t.growSteadily failure capacity minimum subsumes (some group)

/-- The strongest patterns of transactions, mined group by group, step by steady step. -/
def minePartitionedSteadily (failure : MiningError) (transactions : List Transaction)
    (capacity minimum : Int) (subsumes : Bool) (groups : Int) (workers : Option Int) :
    Except MiningError Collector := do
  checkMinimum minimum
  if groups < 1 then .error (.tooFewGroups groups)
  else
    let empty ← Collector.ofCapacity capacity subsumes
    if transactions.isEmpty then .ok empty
    else
      let order ← rankItems transactions minimum
      let parts ← groupItems order groups
      checkWorkers workers
      let mined ← parts.mapM
        (mineGroupSteadily failure transactions order capacity minimum subsumes)
      mined.foldlM (Collector.absorbSteadily failure) empty

/-! ## One item -/

section GrowItem

variable {failure : MiningError} {below : PatternTree → Except MiningError Collector}
  {t : PatternTree} {minimum : Int} {c : Collector} {x : Item}

theorem growItemSteadily_of_isEmpty (hlt : ¬t.itemSupport x < minimum)
    (hadmits : c.admits (t.itemSupport x) = true) (hnonneg : 0 ≤ t.itemSupport x)
    (htested : c.testSteadily failure = .ok c.tested)
    (hempty : (t.conditional x minimum).isEmpty = true) :
    t.growItemSteadily failure below minimum c x =
      c.tested.insertSteadily failure ⟨[x], (t.itemSupport x).toNat⟩ := by
  simp only [growItemSteadily, if_neg hlt, hadmits, Bool.not_true, Bool.false_eq_true, if_false,
    htested, hempty, if_true, Pattern.ofSupport_of_nonneg hnonneg]
  rfl

theorem growItemSteadily_of_merged (hlt : ¬t.itemSupport x < minimum)
    (hadmits : c.admits (t.itemSupport x) = true) (hnonneg : 0 ≤ t.itemSupport x)
    (htested : c.testSteadily failure = .ok c.tested)
    (hempty : ¬(t.conditional x minimum).isEmpty = true) {child after : Collector}
    (hchild : below (t.conditional x minimum) = .ok child)
    (hafter : c.tested.mergeAllSteadily failure child x (t.itemSupport x) = .ok after) :
    t.growItemSteadily failure below minimum c x =
      after.insertSteadily failure ⟨[x], (t.itemSupport x).toNat⟩ := by
  simp only [growItemSteadily, if_neg hlt, hadmits, Bool.not_true, Bool.false_eq_true, if_false,
    htested, if_neg hempty, hchild, Pattern.ofSupport_of_nonneg hnonneg]
  simp only [bind, Except.bind, hafter]

end GrowItem

section Growth

variable {failure : MiningError} {subsumes : Bool} {t : PatternTree} {order : ItemOrder}
  {paths : Paths} {minimum : Int} {x : Item} {k : Nat} {c : Collector} {earlier : List Item}

/-- The item alone is new, so it is inserted steadily. -/
theorem insertSteadily_single (h : t.StandsFor order paths) {family : Set (Finset Item)}
    (hc : c.Selecting (paths.weighing h.pos subsumes) k family) (hnew : {x} ∉ family) :
    c.insertSteadily failure ⟨[x], (paths.weight {x}).toNat⟩ =
      .ok (c.insert ⟨[x], (paths.weight {x}).toNat⟩) := by
  refine Collector.insertSteadily_eq hc.valid (hc.selects.single (exact_single _ h x) ?_)
  rwa [itemSet_single]

/-- **One item.** If a collector selects from the sets that end in earlier items, growth goes on
steadily with another item. -/
theorem growItemSteadily_eq (failure : MiningError) (h : t.StandsFor order paths)
    (hmin : 1 ≤ minimum) (hplace : ∀ y ∈ earlier, order.place y < order.place x)
    (hc : c.Selecting (paths.weighing h.pos subsumes) k (ending order paths minimum earlier))
    {below below' : PatternTree → Except MiningError Collector}
    (hbelow : FoundBelow h subsumes k minimum below x)
    (hsame : below' (t.conditional x minimum) = below (t.conditional x minimum)) :
    t.growItemSteadily failure below' minimum c x = t.growItem below minimum c x := by
  have hsupport := h.itemSupport_eq x
  have hnonneg : 0 ≤ t.itemSupport x := hsupport ▸ weight_nonneg h.pos {x}
  have htested : c.testSteadily failure = .ok c.tested := Collector.testSteadily_eq hc.valid
  have ht := hc.tested
  have hnew : {x} ∉ ending order paths minimum earlier ∪ extending order paths minimum x :=
    single_not_mem hplace
  -- the cases of growth itself: an item not frequent, one not admitted, or one that is mined
  by_cases hlt : t.itemSupport x < minimum
  · rw [growItem_of_lt hlt]
    exact if_pos hlt
  cases hadmits : c.admits (t.itemSupport x) with
  | false =>
    rw [growItem_of_not_admits hlt hadmits]
    simp only [growItemSteadily, if_neg hlt, hadmits, Bool.not_false, if_true, htested]
  | true =>
    by_cases hempty : (t.conditional x minimum).isEmpty = true
    · -- nothing is merged, and the item alone is new
      rw [growItem_of_isEmpty hlt hadmits hnonneg hempty,
        growItemSteadily_of_isEmpty hlt hadmits hnonneg htested hempty, hsupport]
      exact insertSteadily_single h ht fun hx => hnew (Or.inl hx)
    · obtain ⟨child, hchild, hselecting⟩ := hbelow
      have hm := mergeable_extended h hmin hplace hselecting
      obtain ⟨hvalid, hshelf⟩ := Collector.insertAll_shelf ht.valid
        (child.ranked.map (Pattern.extended x (paths.weight {x})))
      have hmerged := ht.of_shelf hvalid hshelf hm
      rw [← hsupport] at hm hmerged
      have hmerge := Collector.mergeAll_eq ht.valid child x hnonneg
      have hsteady := Collector.mergeAllSteadily_eq failure ht.valid child x hnonneg
        (hm.singles ht.selects)
      rw [growItem_of_merged hlt hadmits hnonneg hempty hchild hmerge,
        growItemSteadily_of_merged hlt hadmits hnonneg htested hempty (hsame.trans hchild) hsteady]
      rw [hsupport] at hmerged ⊢
      exact insertSteadily_single h hmerged hnew

/-- **All items.** Growth goes through items by rising place steadily. -/
theorem growItemsSteadily_eq (failure : MiningError) (h : t.StandsFor order paths)
    (hmin : 1 ≤ minimum) {below below' : PatternTree → Except MiningError Collector}
    (hbelow : ∀ x, FoundBelow h subsumes k minimum below x)
    (hsame : ∀ x, below' (t.conditional x minimum) = below (t.conditional x minimum))
    (rest : List Item) : ∀ (earlier : List Item) {c : Collector},
      (earlier ++ rest).Pairwise (fun x y => order.place x < order.place y) →
      c.Selecting (paths.weighing h.pos subsumes) k (ending order paths minimum earlier) →
      t.growItemsSteadily failure below' minimum c rest = t.growItems below minimum c rest := by
  induction rest with
  | nil => exact fun _ _ _ _ => rfl
  | cons x rest ih =>
    intro earlier c hrising hc
    have hplace : ∀ y ∈ earlier, order.place y < order.place x := fun y hy =>
      (List.pairwise_append.1 hrising).2.2 y hy x (List.mem_cons_self ..)
    obtain ⟨c', hstep, hc'⟩ := growItem_selecting h hmin hplace hc (hbelow x)
    have hsteady := growItemSteadily_eq failure h hmin hplace hc (hbelow x) (hsame x)
    rw [List.append_cons] at hrising
    rw [growItemsSteadily, growItems, List.foldlM_cons, List.foldlM_cons, hsteady, hstep]
    exact ih (earlier ++ [x]) hrising hc'

/-- **All levels.** If no path has more items than there are levels, growth is steady on each. -/
theorem growBelowSteadily_eq (failure : MiningError) (subsumes : Bool) (hk : 0 < k)
    (hmin : 1 ≤ minimum) (levels : Nat) :
    ∀ {order : ItemOrder} {paths : Paths}, Arranged order paths →
      (∀ e ∈ paths, e.1.length ≤ levels) →
      growBelowSteadily failure (Collector.empty k subsumes hk) minimum levels
          (ofPaths order paths) =
        growBelow (Collector.empty k subsumes hk) minimum levels (ofPaths order paths) := by
  induction levels with
  | zero => exact fun _ _ => rfl
  | succ levels ih =>
    intro order paths h hlen
    have hstands := standsFor_of_arranged h
    have hcond := arranged_conditional hstands
    have hshort : ∀ x, ∀ e ∈ (ofPaths order paths).conditionalPaths x minimum,
        e.1.length ≤ levels := fun x e he => Nat.le_of_lt_succ (length_conditionalPaths_lt hlen he)
    rw [growBelowSteadily, growBelow, headerItems_eq hstands.ranked]
    refine growItemsSteadily_eq failure hstands hmin (fun x => ?_) (fun x => ?_) _ []
      (pairwise_place_filter_chain (List.Sublist.refl _) _)
      (ending_nil ▸ Collector.Selecting.empty _ hk)
    · exact growBelow_selecting subsumes hk hmin levels (hcond x minimum) (hshort x)
    · exact ih (hcond x minimum) (hshort x)

/-- Like growth, it goes through the chosen items that have nodes. -/
theorem growSteadily_eq_growItemsSteadily (failure : MiningError) (hranked : Ranked order paths)
    {capacity : Int} (hk : 0 < capacity.toNat) (attributes : Option (List Item)) :
    (ofPaths order paths).growSteadily failure capacity minimum subsumes attributes =
      (ofPaths order paths).growItemsSteadily failure
        (growBelowSteadily failure (Collector.empty capacity.toNat subsumes hk) minimum
          (ofPaths order paths).depth)
        minimum (Collector.empty capacity.toNat subsumes hk)
        ((chosenItems order attributes).filter
          fun x => ((ofPaths order paths).chain? x).isSome) := by
  rw [growSteadily, Collector.ofCapacity, dif_pos hk, headerItems_eq hranked]
  cases attributes with
  | none => rfl
  | some attributes =>
    rw [chosenItems, List.filter_comm]
    rfl

/-- **Growth is steady** on any tree of rising paths. -/
theorem growSteadily_eq (failure : MiningError) (subsumes : Bool) (h : Rising order paths)
    {capacity : Int} (hcap : 1 ≤ capacity) (hmin : 1 ≤ minimum)
    (attributes : Option (List Item)) :
    (ofPaths order paths).growSteadily failure capacity minimum subsumes attributes =
      (ofPaths order paths).grow capacity minimum subsumes attributes := by
  have hk : 0 < capacity.toNat := by omega
  have hstands := standsFor_cut h
  rw [growSteadily_eq_growItemsSteadily failure h.ranked hk, grow_eq_growItems h.ranked hk]
  refine growItemsSteadily_eq failure hstands hmin
    (foundBelow_growBelow subsumes hk hmin hstands) (fun x => ?_) _ []
    (pairwise_place_filter_chain (chosenItems_sublist order attributes) _)
    (ending_nil ▸ Collector.Selecting.empty _ hk)
  exact growBelowSteadily_eq failure subsumes hk hmin _ (arranged_conditional hstands x minimum)
    fun _ he => length_conditionalPaths_le_depth he

end Growth

/-! ## Fan-in -/

section Partition

variable {failure : MiningError} {subsumes : Bool} {transactions : List Transaction}
  {order : ItemOrder} {capacity minimum : Int}

theorem mineGroupSteadily_eq (failure : MiningError) (subsumes : Bool)
    (transactions : List Transaction) (order : ItemOrder) (hcap : 1 ≤ capacity)
    (hmin : 1 ≤ minimum) (group : List Item) :
    mineGroupSteadily failure transactions order capacity minimum subsumes group =
      mineGroup transactions order capacity minimum subsumes group :=
  growSteadily_eq failure subsumes (rising_groupPaths transactions order group) hcap hmin
    (some group)

/-- What groups of uniform transactions found is brought together steadily. -/
theorem foldlM_absorbSteadily_of_foundBy {groups : List (List Item)} {mined : List Collector}
    (h : FoundBy transactions order capacity minimum subsumes groups mined) :
    ∀ (earlier : List Item) {c : Collector},
      (earlier ++ groups.flatten).Pairwise (fun x y => order.place x < order.place y) →
      c.Selecting (weighingOf transactions subsumes) capacity.toNat
        (ending order (transactionPaths transactions) minimum earlier) →
      mined.foldlM (Collector.absorbSteadily failure) c = .ok (mined.foldl Collector.absorb c) := by
  induction h with
  | nil => exact fun _ _ _ _ => rfl
  | @cons group part groups mined hselecting _ ih =>
    intro earlier c hrising hc
    rw [List.flatten_cons, ← List.append_assoc] at hrising
    obtain ⟨hvalid, hshelf⟩ := Collector.absorb_eq hc.valid part
    have hlater := (List.pairwise_append.1 (List.pairwise_append.1 hrising).1).2.2
    have hm := mergeable_group hselecting hlater
    have hmerged := hc.of_shelf hvalid hshelf hm
    rw [← ending_append] at hmerged
    rw [List.foldlM_cons, Collector.absorbSteadily_eq hc.valid part (hm.singles hc.selects)]
    exact ih (earlier ++ group) hrising hmerged

/-- What one group alone found is brought into an empty collector steadily, whatever the
transactions are. -/
theorem absorbSteadily_of_empty {k : Nat} (hk : 0 < k) {part : Collector} {w : Weighing subsumes}
    {family : Set (Finset Item)} (h : part.Selecting w k family) :
    (Collector.empty k subsumes hk).absorbSteadily failure part =
      .ok ((Collector.empty k subsumes hk).absorb part) := by
  have hempty := Collector.Selecting.empty w hk
  have hm : Mergeable w k ∅ family part.ranked :=
    ⟨h.retained.perm (Pattern.descending_perm _).symm, fun _ _ _ hT => absurd hT (by simp),
      fun _ _ _ hT => absurd hT (by simp)⟩
  exact Collector.absorbSteadily_eq hempty.valid part (hm.singles hempty.selects)

/-- **Fan-in is steady** for what groups of any transactions found: if the transactions are not
uniform there is one group at most. -/
theorem foldlM_absorbSteadily_eq (failure : MiningError) (hcap : 1 ≤ capacity) (hmin : 1 ≤ minimum)
    (hk : 0 < capacity.toNat) (hrank : rankItems transactions minimum = .ok order) {groups : Int}
    (hpos : 1 ≤ groups) {parts : List (List Item)} (hparts : groupItems order groups = .ok parts)
    {mined : List Collector}
    (hmined : parts.mapM (mineGroup transactions order capacity minimum subsumes) = .ok mined) :
    mined.foldlM (Collector.absorbSteadily failure)
        (Collector.empty capacity.toNat subsumes hk) =
      .ok (mined.foldl Collector.absorb (Collector.empty capacity.toNat subsumes hk)) := by
  have hgrouping := isGrouping_of_groupItems hpos hparts
  rcases uniform_or_length_le hrank with huniform | hone
  · obtain ⟨order', hrank', hitems⟩ := rankItems_spec huniform hmin
    obtain rfl := Except.ok.inj (hrank'.symm.trans hrank)
    have hflatten := hgrouping.flatten_eq
    obtain ⟨mined', hmined', hfound⟩ := exists_foundBy subsumes hcap hmin huniform
      (fun x => (hitems x).2) fun x hx => hflatten ▸ hx
    obtain rfl := Except.ok.inj (hmined'.symm.trans hmined)
    refine foldlM_absorbSteadily_of_foundBy hfound [] ?_
      (ending_nil ▸ Collector.Selecting.empty _ hk)
    rw [List.nil_append, hflatten]
    exact ItemOrder.pairwise_place_lt (List.Sublist.refl _)
  · -- one item at most is ranked, which may be the absent one
    have hlength := Nat.le_trans hgrouping.length_le hone
    cases parts with
    | nil =>
      obtain rfl := Except.ok.inj hmined
      rfl
    | cons group parts =>
      obtain rfl := List.length_eq_zero_iff.1 (Nat.le_zero.1 (Nat.le_of_succ_le_succ hlength))
      have hrising := rising_groupPaths transactions order group
      obtain ⟨part, hpart, hselecting⟩ := grow_selecting subsumes hrising.ranked
        (standsFor_cut hrising) hcap hmin (some group)
      have hpart : mineGroup transactions order capacity minimum subsumes group = .ok part := hpart
      rw [List.mapM_cons, hpart] at hmined
      obtain rfl := Except.ok.inj hmined
      rw [List.foldlM_cons, absorbSteadily_of_empty hk hselecting]
      rfl

/-- After the same first step two runs agree if they agree on what that step may return. -/
theorem bind_congr_of_ok {α β : Type} {r : Except MiningError α} {f g : α → Except MiningError β}
    (h : ∀ a, r = .ok a → f a = g a) : (r >>= f) = (r >>= g) := by
  cases r with
  | error e => rfl
  | ok a => exact h a rfl

/-- **Partitioned mining is steady**, in its groups and in its fan-in. -/
theorem minePartitionedSteadily_eq (failure : MiningError) (transactions : List Transaction)
    (subsumes : Bool) (hcap : 1 ≤ capacity) (hmin : 1 ≤ minimum) (groups : Int)
    (workers : Option Int) :
    minePartitionedSteadily failure transactions capacity minimum subsumes groups workers =
      minePartitioned transactions capacity minimum subsumes groups workers := by
  have hk : 0 < capacity.toNat := by omega
  unfold minePartitionedSteadily minePartitioned
  refine bind_congr_of_ok fun _ _ => ?_
  split
  · rfl
  refine bind_congr_of_ok fun start hstart => ?_
  obtain rfl : Collector.empty capacity.toNat subsumes hk = start := by
    rw [Collector.ofCapacity, dif_pos hk] at hstart
    exact Except.ok.inj hstart
  split
  · rfl
  refine bind_congr_of_ok fun order hrank => ?_
  refine bind_congr_of_ok fun parts hparts => ?_
  refine bind_congr_of_ok fun _ _ => ?_
  have hgroup : mineGroupSteadily failure transactions order capacity minimum subsumes =
      mineGroup transactions order capacity minimum subsumes :=
    funext (mineGroupSteadily_eq failure subsumes transactions order hcap hmin)
  rw [hgroup]
  refine bind_congr_of_ok fun mined hmined => ?_
  exact foldlM_absorbSteadily_eq failure hcap hmin hk hrank (by omega) hparts hmined

end Partition

/-! ## Mining -/

/-- **Mining is steady.** Take a tree of any paths on which the items follow each other by rising
rank, with positive counts, and any attributes. Growth succeeds, and succeeds with the same
collector when it is watched: on no level does a pattern that is inserted take the place of more
than one retained pattern, and no change leaves a collector with fewer patterns, or a full one with
room or a lower least support. Partitioned mining comes to the same when it is watched, in its
groups and in its fan-in, whatever the transactions, the number of groups and the workers are. What
holds of changes that follow each other holds of any two moments. -/
theorem mining_steady (capacity minimum : Int) (subsumes : Bool) (hcap : 1 ≤ capacity)
    (hmin : 1 ≤ minimum) :
    (∀ (order : ItemOrder) (paths : Paths) (attributes : Option (List Item)),
      Rising order paths →
      let t := (PatternTree.empty order).addPaths paths
      ∃ c, t.grow capacity minimum subsumes attributes = .ok c ∧
        ∀ failure, t.growSteadily failure capacity minimum subsumes attributes = .ok c) ∧
    (∀ (transactions : List Transaction) (groups : Int) (workers : Option Int)
      (failure : MiningError),
      minePartitionedSteadily failure transactions capacity minimum subsumes groups workers =
        minePartitioned transactions capacity minimum subsumes groups workers) ∧
    ∀ c d e : Collector, c.Steady d → d.Steady e → c.Steady e := by
  refine ⟨?_, ?_, fun _ _ _ => Collector.Steady.trans⟩
  · intro order paths attributes h t
    obtain ⟨c, hrun, -⟩ := grow_selecting subsumes h.ranked (standsFor_cut h) hcap hmin attributes
    refine ⟨c, hrun, fun failure => ?_⟩
    exact (growSteadily_eq failure subsumes h hcap hmin attributes).trans hrun
  · intro transactions groups workers failure
    exact minePartitionedSteadily_eq failure transactions subsumes hcap hmin groups workers

/-- A tree with the absent item on its paths, and transactions in two groups. In the collector of
the tree, which is full in the end, a pattern of two items has taken the place of one of these. -/
theorem mining_steady_absent :
    let order := ItemOrder.ofList [.number 1, .absent, .number 2, .number 3]
    let paths : Paths := [([.number 1, .absent, .number 2, .number 3], 2),
      ([.number 2, .number 3], 1), ([.number 1, .absent], 1)]
    let t := (PatternTree.empty order).addPaths paths
    let transactions : List Transaction :=
      [[.number 1, .number 2], [.number 2, .number 1, .number 1], [], [.number 3, .number 1]]
    ((1 : Int) ≤ 2 ∧ (1 : Int) ≤ 1 ∧ Rising order paths) ∧
      (∃ c, t.grow 2 1 true none = .ok c ∧ t.growSteadily .noWorkers 2 1 true none = .ok c ∧
        c.ranked = [⟨[.number 1, .absent], 3⟩, ⟨[.number 2], 3⟩]) ∧
      minePartitionedSteadily .noWorkers transactions 2 1 true 2 (some 3) =
        minePartitioned transactions 2 1 true 2 (some 3) := by
  intro order paths t transactions
  have hrising : Rising order paths := ⟨by decide, by decide⟩
  obtain ⟨hgrow, hpartitioned, -⟩ := mining_steady 2 1 true (by decide) (by decide)
  obtain ⟨c, hrun, hsteady⟩ := hgrow order paths none hrising
  refine ⟨⟨by decide, by decide, hrising⟩, ⟨c, hrun, hsteady .noWorkers, ?_⟩, ?_⟩
  · have hranked : (t.grow 2 1 true none).map Collector.ranked =
        .ok [⟨[.number 1, .absent], 3⟩, ⟨[.number 2], 3⟩] := by
      simp only [t, order, paths]
      cbv
    rw [show t.grow 2 1 true none = .ok c from hrun] at hranked
    exact Except.ok.inj hranked
  · exact hpartitioned transactions 2 (some 3) .noWorkers

end TopPatterns

import Mathlib
import TopPatterns.Proofs.Mining.Growth

/-!
# Growth without tests of capacity

Growth passes over an item if its collector would not admit a pattern of the item's support, and it
then never builds the item's conditional tree. `explore` is the same search without this test: it
mines the conditional trees of all items of enough support and inserts all patterns found there. The
two end with the same collector (`grow_eq_explore`).

Three things make it so. A pattern that ends in an item is offered with at most the item's support,
so where that support is not admitted all of them are refused (`insertAll_of_not_admits`). To refuse
patterns costs a collector what one test of capacity costs it. And a test that is passed costs
nothing beside the insertion that comes after it (`insertAll_tested`). `growItem_eq_exploreItem` is
the step for one item; the induction on the levels takes both searches down at once.
-/

namespace TopPatterns

open Paths PatternTree

namespace PatternTree

/-- Adds the patterns that end in one item of a tree, whether or not their supports would be
admitted: those of its conditional tree, mined by `below`, and the item alone. Only an item whose
support is below the minimum is passed over. -/
def exploreItem (below : PatternTree → Except MiningError Collector) (t : PatternTree)
    (minimum : Int) (c : Collector) (item : Item) : Except MiningError Collector :=
  let support := t.itemSupport item
  if support < minimum then .ok c
  else do
    let child ← below (t.conditional item minimum)
    let extended ← child.ranked.mapM fun p => p.extend item (min support p.support)
    let single ← Pattern.ofSupport [item] support
    .ok (c.insertAll (extended ++ [single]))

/-- Adds the patterns that end in the given items of a tree, one item after the other. -/
def exploreItems (below : PatternTree → Except MiningError Collector) (t : PatternTree)
    (minimum : Int) (c : Collector) (items : List Item) : Except MiningError Collector :=
  items.foldlM (t.exploreItem below minimum) c

/-- All patterns of a tree, offered to an empty collector, down to a number of levels. -/
def exploreBelow (empty : Collector) (minimum : Int) :
    Nat → PatternTree → Except MiningError Collector
  | 0, _ => .ok empty
  | levels + 1, t => do
    t.exploreItems (exploreBelow empty minimum levels) minimum empty (← t.headerItems)

/-- The strongest patterns of a tree, found by a search through all of them down to a number of
levels. With a set of attributes, only the patterns whose item of highest rank number is an
attribute. -/
def explore (t : PatternTree) (levels : Nat) (capacity minimum : Int) (subsumes : Bool)
    (attributes : Option (List Item)) : Except MiningError Collector := do
  let empty ← Collector.ofCapacity capacity subsumes
  let items ← t.headerItems
  let chosen := match attributes with
    | none => items
    | some attributes => items.filter attributes.contains
  t.exploreItems (exploreBelow empty minimum levels) minimum empty chosen

end PatternTree

/-! ## Insertions and tests of capacity -/

namespace Collector

variable {c : Collector} {ps : List Pattern} {support : Int}

/-- What is not admitted is not admitted with a smaller support. -/
theorem admits_of_le {smaller : Int} (hadmits : c.admits support = false)
    (hle : smaller ≤ support) : c.admits smaller = false := by
  unfold admits at hadmits ⊢
  split at hadmits
  · cases hadmits
  · next hroom =>
    have hleast := of_decide_eq_false hadmits
    rw [if_neg hroom]
    exact decide_eq_false (by omega)

theorem admits_tested (h : c.Valid) (support : Int) : c.tested.admits support = c.admits support := by
  rw [← admits_shelf (tested_valid h).toHeaped, ← admits_shelf h.toHeaped, shelf_tested]

theorem ranked_empty (capacity : Nat) (subsumes : Bool) (h : 0 < capacity) :
    (empty capacity subsumes h).ranked = [] := by
  have hcount : (empty capacity subsumes h).ranked.length = 0 := by
    rw [ranked, (Pattern.descending_perm _).length_eq, ← count_eq_length, count_empty]
  exact List.length_eq_zero_iff.1 hcount

theorem insertAll_cons (p : Pattern) : c.insertAll (p :: ps) = (c.insert p).insertAll ps := rfl

theorem insertAll_concat (p : Pattern) : c.insertAll (ps ++ [p]) = (c.insertAll ps).insert p :=
  List.foldl_concat ..

/-- A test of capacity before patterns with items are inserted changes nothing, if there are any. -/
theorem insertAll_tested (h : c.Valid) (hps : ∀ p ∈ ps, p.items ≠ []) (hne : ps ≠ []) :
    c.tested.insertAll ps = c.insertAll ps := by
  obtain ⟨p, ps, rfl⟩ := List.exists_cons_of_ne_nil hne
  rw [insertAll_cons, insertAll_cons, insert_tested h (hps p (List.mem_cons_self ..))]

/-- Patterns that are all refused cost a collector what one test of capacity costs it. -/
theorem insertAll_of_not_admits (h : c.Valid) (hps : ∀ p ∈ ps, p.items ≠ [])
    (hle : ∀ p ∈ ps, (p.support : Int) ≤ support) (hadmits : c.admits support = false)
    (hne : ps ≠ []) : c.insertAll ps = c.tested := by
  induction ps generalizing c with
  | nil => exact absurd rfl hne
  | cons p ps ih =>
    have hrefused := admits_of_le hadmits (hle p (List.mem_cons_self ..))
    rw [insertAll_cons, insert_of_not_admits h (hps p (List.mem_cons_self ..)) hrefused]
    by_cases hnil : ps = []
    · rw [hnil]
      rfl
    · rw [ih (tested_valid h) (fun q hq => hps q (List.mem_cons_of_mem _ hq))
        (fun q hq => hle q (List.mem_cons_of_mem _ hq)) (admits_tested h support ▸ hadmits) hnil]
      exact tested_tested h.toHeaped

end Collector

/-! ## One item -/

/-- Two ways of mining come to the same on a tree: both succeed, with the same collector, which has
no patterns if the tree has no nodes. -/
def SameBelow (below below' : PatternTree → Except MiningError Collector) (t : PatternTree) : Prop :=
  ∃ child, below t = .ok child ∧ below' t = .ok child ∧ (t.isEmpty = true → child.ranked = [])

section Step

variable {below below' : PatternTree → Except MiningError Collector} {t : PatternTree}
  {minimum : Int} {c : Collector} {x : Item}

/-- The patterns that end in an item, as they are offered. -/
def endingIn (t : PatternTree) (child : Collector) (x : Item) : List Pattern :=
  child.ranked.map (Pattern.extended x (t.itemSupport x)) ++ [⟨[x], (t.itemSupport x).toNat⟩]

theorem endingIn_ne_nil (t : PatternTree) (child : Collector) (x : Item) :
    endingIn t child x ≠ [] := by
  simp [endingIn]

theorem items_ne_nil_of_mem_endingIn {child : Collector} {p : Pattern}
    (hp : p ∈ endingIn t child x) : p.items ≠ [] := by
  rcases List.mem_append.1 hp with hp | hp
  · obtain ⟨q, -, rfl⟩ := List.mem_map.1 hp
    exact q.extended_items_ne_nil x _
  · obtain rfl := List.mem_singleton.1 hp
    exact List.cons_ne_nil x []

/-- No pattern that ends in an item is offered with more than the item's support. -/
theorem support_le_of_mem_endingIn (hnonneg : 0 ≤ t.itemSupport x) {child : Collector} {p : Pattern}
    (hp : p ∈ endingIn t child x) : (p.support : Int) ≤ t.itemSupport x := by
  rcases List.mem_append.1 hp with hp | hp
  · obtain ⟨q, -, rfl⟩ := List.mem_map.1 hp
    rw [Pattern.support_extended hnonneg]
    exact Int.min_le_left ..
  · obtain rfl := List.mem_singleton.1 hp
    exact Int.le_of_eq (Int.toNat_of_nonneg hnonneg)

theorem exploreItem_of_lt (hlt : t.itemSupport x < minimum) :
    t.exploreItem below minimum c x = .ok c := if_pos hlt

theorem exploreItem_of_child (hlt : ¬t.itemSupport x < minimum) (hnonneg : 0 ≤ t.itemSupport x)
    {child : Collector} (hchild : below (t.conditional x minimum) = .ok child) :
    t.exploreItem below minimum c x = .ok (c.insertAll (endingIn t child x)) := by
  simp only [exploreItem, if_neg hlt, hchild, Pattern.mapM_extend hnonneg,
    Pattern.ofSupport_of_nonneg hnonneg]
  rfl

/-- **One item.** What is done with an item, with or without the test of capacity, comes to the
same. -/
theorem growItem_eq_exploreItem (h : c.Valid) (hmin : 0 ≤ minimum)
    (hbelow : SameBelow below below' (t.conditional x minimum)) :
    ∃ c', t.growItem below minimum c x = .ok c' ∧ t.exploreItem below' minimum c x = .ok c' ∧
      c'.Valid := by
  by_cases hlt : t.itemSupport x < minimum
  · exact ⟨c, growItem_of_lt hlt, exploreItem_of_lt hlt, h⟩
  have hnonneg : 0 ≤ t.itemSupport x := by omega
  obtain ⟨child, hchild, hchild', hnone⟩ := hbelow
  have hitems : ∀ p ∈ endingIn t child x, p.items ≠ [] := fun p => items_ne_nil_of_mem_endingIn
  have hne := endingIn_ne_nil t child x
  refine ⟨c.insertAll (endingIn t child x), ?_, exploreItem_of_child hlt hnonneg hchild',
    (Collector.insertAll_shelf h _).1⟩
  cases hadmits : c.admits (t.itemSupport x) with
  | false =>
    rw [growItem_of_not_admits hlt hadmits, Collector.insertAll_of_not_admits h hitems
      (fun p => support_le_of_mem_endingIn hnonneg) hadmits hne]
  | true =>
    rw [← Collector.insertAll_tested h hitems hne, endingIn, Collector.insertAll_concat]
    by_cases hempty : (t.conditional x minimum).isEmpty = true
    · -- a tree without nodes is not mined, and there would be nothing to merge
      rw [growItem_of_isEmpty hlt hadmits hnonneg hempty, hnone hempty]
      rfl
    · exact growItem_of_merged hlt hadmits hnonneg hempty hchild
        (Collector.mergeAll_eq (Collector.tested_valid h) child x hnonneg)

/-- All items: if the two ways come to the same below the conditional trees, so do they on any
items. -/
theorem growItems_eq_exploreItems (hmin : 0 ≤ minimum)
    (hbelow : ∀ x, SameBelow below below' (t.conditional x minimum)) (h : c.Valid)
    (items : List Item) :
    ∃ c', t.growItems below minimum c items = .ok c' ∧
      t.exploreItems below' minimum c items = .ok c' := by
  unfold growItems exploreItems
  induction items generalizing c with
  | nil => exact ⟨c, rfl, rfl⟩
  | cons x items ih =>
    obtain ⟨c', hgrow, hexplore, hvalid⟩ := growItem_eq_exploreItem h hmin (hbelow x)
    rw [List.foldlM_cons, List.foldlM_cons, hgrow, hexplore]
    exact ih hvalid

end Step

/-! ## All levels -/

section Run

variable {order : ItemOrder} {paths : Paths} {minimum : Int}

theorem exploreBelow_of_nil (empty : Collector) (minimum : Int) (levels : Nat) (order : ItemOrder)
    (hnil : ∀ e ∈ paths, e.1 = []) :
    exploreBelow empty minimum levels (ofPaths order paths) = .ok empty := by
  cases levels with
  | zero => rfl
  | succ levels =>
    rw [exploreBelow, headerItems_of_nil order hnil]
    rfl

/-- **All levels.** The two searches come to the same on ranked paths, for any numbers of levels
that no path exceeds. -/
theorem growBelow_eq_exploreBelow {k : Nat} (subsumes : Bool) (hk : 0 < k) (hmin : 0 ≤ minimum)
    (levels : Nat) :
    ∀ (levels' : Nat) {order : ItemOrder} {paths : Paths}, Ranked order paths →
      (∀ e ∈ paths, e.1.length ≤ levels) → (∀ e ∈ paths, e.1.length ≤ levels') →
      SameBelow (growBelow (Collector.empty k subsumes hk) minimum levels)
        (exploreBelow (Collector.empty k subsumes hk) minimum levels') (ofPaths order paths) := by
  have hranked := Collector.ranked_empty k subsumes hk
  generalize hempty : Collector.empty k subsumes hk = empty at hranked ⊢
  have hvalid : empty.Valid := hempty ▸ Collector.empty_valid hk
  have hnone : ∀ (levels levels' : Nat) {order : ItemOrder} {paths : Paths},
      (∀ e ∈ paths, e.1 = []) → SameBelow (growBelow empty minimum levels)
        (exploreBelow empty minimum levels') (ofPaths order paths) := fun levels levels' order _ h =>
    ⟨empty, growBelow_of_nil empty minimum levels order h,
      exploreBelow_of_nil empty minimum levels' order h, fun _ => hranked⟩
  have hnil : ∀ {paths : Paths}, (∀ e ∈ paths, e.1.length ≤ 0) → ∀ e ∈ paths, e.1 = [] :=
    fun h e he => List.length_eq_zero_iff.1 (Nat.le_zero.1 (h e he))
  induction levels with
  | zero => exact fun levels' _ _ _ hlen _ => hnone 0 levels' (hnil hlen)
  | succ levels ih =>
    intro levels' order paths h hlen hlen'
    cases levels' with
    | zero => exact hnone (levels + 1) 0 (hnil hlen')
    | succ levels' =>
      have hbelow : ∀ x, SameBelow (growBelow empty minimum levels)
          (exploreBelow empty minimum levels') ((ofPaths order paths).conditional x minimum) := by
        intro x
        exact ih levels' (ranked_conditional _ x minimum)
          (fun e he => Nat.le_of_lt_succ (length_conditionalPaths_lt hlen he))
          fun e he => Nat.le_of_lt_succ (length_conditionalPaths_lt hlen' he)
      obtain ⟨c, hgrow, hexplore⟩ := growItems_eq_exploreItems hmin hbelow hvalid
        (order.items.filter fun x => ((ofPaths order paths).chain? x).isSome)
      refine ⟨c, ?_, ?_, fun hnodes => ?_⟩
      · rw [growBelow, headerItems_eq h]
        exact hgrow
      · rw [exploreBelow, headerItems_eq h]
        exact hexplore
      · have hc := growBelow_of_nil empty minimum (levels + 1) order (isEmpty_ofPaths.1 hnodes)
        rw [growBelow, headerItems_eq h] at hc
        exact Except.ok.inj (hgrow.symm.trans hc) ▸ hranked

/-- How many levels growth may go down does not matter, if no path exceeds them. -/
theorem growBelow_levels {k : Nat} (subsumes : Bool) (hk : 0 < k) (hmin : 0 ≤ minimum)
    (h : Ranked order paths) {levels levels' : Nat} (hlen : ∀ e ∈ paths, e.1.length ≤ levels)
    (hlen' : ∀ e ∈ paths, e.1.length ≤ levels') :
    growBelow (Collector.empty k subsumes hk) minimum levels (ofPaths order paths) =
      growBelow (Collector.empty k subsumes hk) minimum levels' (ofPaths order paths) := by
  -- both are what the search without tests finds down to the first number of levels
  obtain ⟨c, hgrow, hexplore, -⟩ :=
    growBelow_eq_exploreBelow subsumes hk hmin levels levels h hlen hlen
  obtain ⟨c', hgrow', hexplore', -⟩ :=
    growBelow_eq_exploreBelow subsumes hk hmin levels' levels h hlen' hlen
  rw [hgrow, hgrow', ← hexplore, ← hexplore']

/-- Below the top of a tree, the two searches come to the same on any of its items. -/
theorem growItems_eq_of_depth (subsumes : Bool) {k : Nat} (hk : 0 < k) (hmin : 0 ≤ minimum)
    {levels : Nat} (hlevels : (ofPaths order paths).depth ≤ levels) (items : List Item) :
    ∃ c,
      (ofPaths order paths).growItems (growBelow (Collector.empty k subsumes hk) minimum
        (ofPaths order paths).depth) minimum (Collector.empty k subsumes hk) items = .ok c ∧
      (ofPaths order paths).exploreItems (exploreBelow (Collector.empty k subsumes hk) minimum
        levels) minimum (Collector.empty k subsumes hk) items = .ok c := by
  refine growItems_eq_exploreItems hmin (fun x => ?_) (Collector.empty_valid hk) items
  exact growBelow_eq_exploreBelow subsumes hk hmin _ levels (ranked_conditional _ x minimum)
    (fun e he => length_conditionalPaths_le_depth he)
    fun e he => Nat.le_trans (length_conditionalPaths_le_depth he) hlevels

/-- **Tests of capacity lose nothing.** On any tree of ranked paths, whatever their counts, growth
succeeds, and so does the search without tests of capacity, for any number of levels that is not
less than the depth of the tree; both return the same collector. -/
theorem grow_eq_explore (order : ItemOrder) (paths : Paths) (h : Ranked order paths)
    (capacity minimum : Int) (hcap : 1 ≤ capacity) (hmin : 0 ≤ minimum) (subsumes : Bool)
    (attributes : Option (List Item)) (levels : Nat)
    (hlevels : (ofPaths order paths).depth ≤ levels) :
    ∃ c, (ofPaths order paths).grow capacity minimum subsumes attributes = .ok c ∧
      (ofPaths order paths).explore levels capacity minimum subsumes attributes = .ok c := by
  have hk : 0 < capacity.toNat := by omega
  have hitems := growItems_eq_of_depth subsumes hk hmin hlevels
  simp only [grow, explore, Collector.ofCapacity, dif_pos hk, headerItems_eq h]
  cases attributes with
  | none => exact hitems _
  | some attributes => exact hitems _

end Run

/-- Paths with a repeated item and with a negative count. The items after the first one are passed
over; without the test, a pattern found below the second one is offered with its support capped, and
is refused. -/
theorem grow_eq_explore_passed_over :
    let path (items : List Int) (n : Int) : List Item × Int := (items.map Item.number, n)
    let order := ItemOrder.ofList [.number 1, .number 2, .number 3]
    let paths : Paths := [path [1, 2] 4, path [1, 3] 1, path [2, 1, 1] (-1)]
    (Ranked order paths ∧ (1 : Int) ≤ 1 ∧ (0 : Int) ≤ 0 ∧ (ofPaths order paths).depth ≤ 5) ∧
      ∃ c, (ofPaths order paths).grow 1 0 true none = .ok c ∧
        (ofPaths order paths).explore 5 1 0 true none = .ok c ∧
        c.ranked = [⟨[.number 1], 3⟩] := by
  intro path order paths
  have hranked : Ranked order paths := by
    unfold Ranked
    decide
  have hdepth : (ofPaths order paths).depth ≤ 5 := by decide
  refine ⟨⟨hranked, by decide, by decide, hdepth⟩, ?_⟩
  obtain ⟨c, hgrow, hexplore⟩ :=
    grow_eq_explore order paths hranked 1 0 (by decide) (by decide) true none 5 hdepth
  refine ⟨c, hgrow, hexplore, ?_⟩
  have hrun : ((ofPaths order paths).grow 1 0 true none).map Collector.ranked =
      .ok [⟨[.number 1], 3⟩] := by
    simp only [order, paths, path]
    cbv
  rw [hgrow] at hrun
  exact Except.ok.inj hrun

end TopPatterns

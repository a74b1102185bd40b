import Mathlib
import TopPatterns.Proofs.Mining.Growth

/-!
# How deep growth goes

Growth calls itself on conditional trees. Items do not get fewer on the way down: a path that repeats
an item leads to a conditional tree with the item in it. What gets less is the length of the paths,
for each path of a conditional tree is read off above a node and loses the node's own item, and to
drop items and to sort the others lengthens no path (`depth_conditional_lt`).

`growBelow` counts levels and takes a tree without levels for one without patterns. That this never
decides anything is said by `growOver_eq_grow`: growth that leaves the trees of some level to any
other function, one that fails included, is the same growth as soon as the levels cover the depth of
the tree, the top one counted. So below the top there is no call at that level.

The only failure for want of a rank is at the top, for a conditional tree ranks all of its items
(`grow_eq_unranked_iff`).
-/

namespace TopPatterns

namespace Forest

/-! ## Height -/

theorem height_ofPath (path : List Item) (n : Int) : (ofPath path n).height = path.length := by
  induction path with
  | nil => rfl
  | cons x xs ih =>
    show max ((ofPath xs n).height + 1) 0 = xs.length + 1
    rw [ih, Nat.max_zero]

/-- A path that is added is passed in full, and no other grows. -/
theorem height_add (f : Forest) (path : List Item) (n : Int) :
    (f.add path n).height = max f.height path.length := by
  induction f generalizing path with
  | nil =>
    show (ofPath path n).height = max 0 path.length
    rw [height_ofPath, Nat.zero_max]
  | node y c below beside ihBelow ihBeside =>
    cases path with
    | nil =>
      rw [add_nil]
      exact (Nat.max_zero _).symm
    | cons x xs =>
      rw [add]
      split
      · show max ((below.add xs (n : Int)).height + 1) beside.height =
          max (max (below.height + 1) beside.height) (xs.length + 1)
        rw [ihBelow]
        omega
      · show max (below.height + 1) (beside.add (x :: xs) n).height =
          max (max (below.height + 1) beside.height) (xs.length + 1)
        rw [ihBeside, List.length_cons]
        omega

end Forest

namespace PatternTree

open Paths

variable {order : ItemOrder} {paths : Paths} {minimum : Int} {x : Item}

/-- A tree is as deep as the longest of its paths is long. -/
theorem depth_ofPaths_le_iff {bound : Nat} :
    (ofPaths order paths).depth ≤ bound ↔ ∀ e ∈ paths, e.1.length ≤ bound := by
  induction paths using List.reverseRecOn with
  | nil => exact iff_of_true (Nat.zero_le _) (List.forall_mem_nil _)
  | append_singleton paths e ih =>
    rw [ofPaths_concat, depth, addPath, Forest.height_add, Nat.max_le]
    rw [show (ofPaths order paths).forest.height ≤ bound ↔ _ from ih]
    simp only [List.mem_append, List.mem_singleton, or_imp, forall_and, forall_eq]

/-- The depth of a tree with nodes is the length of one of its paths. -/
theorem exists_length_eq_depth (h : 0 < (ofPaths order paths).depth) :
    ∃ e ∈ paths, e.1.length = (ofPaths order paths).depth := by
  by_contra hnone
  have hle : (ofPaths order paths).depth ≤ (ofPaths order paths).depth - 1 := by
    refine depth_ofPaths_le_iff.2 fun e he => ?_
    have hlen : e.1.length ≤ (ofPaths order paths).depth := length_le_depth he
    have hne : e.1.length ≠ (ofPaths order paths).depth := fun heq => hnone ⟨e, he, heq⟩
    omega
  omega

/-- **Conditional trees are less deep** than the tree that they come from. -/
theorem depth_conditional_lt (hx : ((ofPaths order paths).chain? x).isSome) (minimum : Int) :
    ((ofPaths order paths).conditional x minimum).depth < (ofPaths order paths).depth := by
  have hpos : 0 < (ofPaths order paths).depth := by
    obtain ⟨e, he, hmem⟩ := isSome_chain?_ofPaths.1 hx
    exact Nat.lt_of_lt_of_le (List.length_pos_of_mem hmem) (length_le_depth he)
  have hle : ((ofPaths order paths).conditional x minimum).depth ≤
      (ofPaths order paths).depth - 1 := by
    rw [conditional_eq]
    refine depth_ofPaths_le_iff.2 fun e he => ?_
    exact Nat.le_sub_one_of_lt (length_conditionalPaths_lt (fun d hd => length_le_depth hd) he)
  omega

/-- **Conditional trees rank their items.** -/
theorem ranked_of_chain_conditional {t : PatternTree} {y : Item}
    (hy : ((t.conditional x minimum).chain? y).isSome) :
    (t.conditional x minimum).order.ranked y = true := by
  rw [conditional_eq] at hy ⊢
  obtain ⟨e, he, hmem⟩ := isSome_chain?_ofPaths.1 hy
  rw [order_ofPaths, ItemOrder.ranked, List.contains_iff_mem]
  exact ranked_conditional t x minimum e he hmem

/-! ## Levels -/

/-- Growth that goes down a number of levels and leaves the trees there to another function. -/
def growDown (bottom : PatternTree → Except MiningError Collector) (empty : Collector)
    (minimum : Int) : Nat → PatternTree → Except MiningError Collector
  | 0, t => bottom t
  | levels + 1, t => do
    t.growItems (growDown bottom empty minimum levels) minimum empty (← t.headerItems)

/-- Growth of a tree in which the trees at some level below the top are left to another function. -/
def growOver (bottom : PatternTree → Except MiningError Collector) (levels : Nat) (t : PatternTree)
    (capacity minimum : Int) (subsumes : Bool) (attributes : Option (List Item)) :
    Except MiningError Collector := do
  let empty ← Collector.ofCapacity capacity subsumes
  let items ← t.headerItems
  let chosen := match attributes with
    | none => items
    | some attributes => items.filter attributes.contains
  t.growItems (growDown bottom empty minimum levels) minimum empty chosen

/-- Growth as it is leaves a tree without levels without patterns. -/
theorem growBelow_eq_growDown (empty : Collector) (minimum : Int) (levels : Nat) :
    growBelow empty minimum levels = growDown (fun _ => .ok empty) empty minimum levels := by
  induction levels with
  | zero => rfl
  | succ levels ih =>
    funext t
    show (t.headerItems >>= fun items => t.growItems (growBelow empty minimum levels) minimum empty
      items) = _
    rw [ih]
    rfl

/-- What is done below matters only where the conditional tree has nodes. -/
theorem growItem_congr_below {below below' : PatternTree → Except MiningError Collector}
    {t : PatternTree} (c : Collector)
    (h : (t.conditional x minimum).isEmpty = false →
      below (t.conditional x minimum) = below' (t.conditional x minimum)) :
    t.growItem below minimum c x = t.growItem below' minimum c x := by
  by_cases hempty : (t.conditional x minimum).isEmpty = true
  · simp only [growItem, hempty, if_true]
  · simp only [growItem, h (by simpa using hempty)]

/-- What happens at the bottom does not matter to a tree that is at most one level deeper than the
levels above the bottom. -/
theorem growItem_growDown (bottom bottom' : PatternTree → Except MiningError Collector)
    (empty : Collector) (minimum : Int) (levels : Nat) :
    ∀ (levels' : Nat) {order : ItemOrder} {paths : Paths},
      (∀ e ∈ paths, e.1.length ≤ levels + 1) → (∀ e ∈ paths, e.1.length ≤ levels' + 1) →
      ∀ (c : Collector) (x : Item),
        (ofPaths order paths).growItem (growDown bottom empty minimum levels) minimum c x =
          (ofPaths order paths).growItem (growDown bottom' empty minimum levels') minimum c x := by
  have hnone : ∀ {order : ItemOrder} {paths : Paths}, (∀ e ∈ paths, e.1.length ≤ 0) →
      (ofPaths order paths).isEmpty = true := by
    intro order paths hlen
    exact isEmpty_ofPaths.2 fun e he => List.length_eq_zero_iff.1 (Nat.le_zero.1 (hlen e he))
  induction levels with
  | zero =>
    intro levels' order paths hlen _ c x
    refine growItem_congr_below c fun hnodes => ?_
    -- the paths have one item at most, so the conditional tree has no nodes
    rw [conditional_eq, hnone fun e he => Nat.le_of_lt_succ (length_conditionalPaths_lt hlen he)]
      at hnodes
    cases hnodes
  | succ levels ih =>
    intro levels' order paths hlen hlen' c x
    refine growItem_congr_below c fun hnodes => ?_
    have hshort : ∀ e ∈ (ofPaths order paths).conditionalPaths x minimum,
        e.1.length ≤ levels + 1 :=
      fun e he => Nat.le_of_lt_succ (length_conditionalPaths_lt hlen he)
    have hshort' : ∀ e ∈ (ofPaths order paths).conditionalPaths x minimum, e.1.length ≤ levels' :=
      fun e he => Nat.le_of_lt_succ (length_conditionalPaths_lt hlen' he)
    rw [conditional_eq] at hnodes ⊢
    cases levels' with
    | zero =>
      rw [hnone hshort'] at hnodes
      cases hnodes
    | succ levels' =>
      show (_ >>= fun items => _) = (_ >>= fun items => _)
      refine congrArg (Except.bind _) (funext fun items => ?_)
      exact growItems_congr_of_mem (fun y _ d => ih levels' hshort hshort' d y) empty

/-- **Growth goes no deeper than the tree.** If the levels cover the depth of a tree, the top one
counted, nothing is left to the function at the bottom. -/
theorem growOver_eq_grow (bottom : PatternTree → Except MiningError Collector) {levels : Nat}
    (hlevels : (ofPaths order paths).depth ≤ levels + 1) (capacity minimum : Int) (subsumes : Bool)
    (attributes : Option (List Item)) :
    (ofPaths order paths).growOver bottom levels capacity minimum subsumes attributes =
      (ofPaths order paths).grow capacity minimum subsumes attributes := by
  unfold growOver grow
  refine congrArg (Except.bind _) (funext fun empty => ?_)
  refine congrArg (Except.bind _) (funext fun items => ?_)
  rw [growBelow_eq_growDown]
  refine growItems_congr_of_mem (fun x _ c => ?_) empty
  exact growItem_growDown bottom _ empty minimum levels _ (depth_ofPaths_le_iff.1 hlevels)
    (fun e he => Nat.le_succ_of_le (length_le_depth he)) c x

/-! ## Failures -/

/-- An outcome that is not the failure of an item to have a rank. -/
def NeverUnranked {α : Type} (r : Except MiningError α) : Prop := ∀ y, r ≠ .error (.unranked y)

section NeverUnranked

variable {α β : Type}

theorem neverUnranked_ok (a : α) : NeverUnranked (.ok a) := fun _ h => nomatch h

theorem NeverUnranked.bind {r : Except MiningError α} {f : α → Except MiningError β}
    (hr : NeverUnranked r) (hf : ∀ a, NeverUnranked (f a)) : NeverUnranked (r >>= f) := by
  cases r with
  | ok a => exact hf a
  | error e => exact fun y h => hr y (congrArg Except.error (Except.error.inj h))

theorem NeverUnranked.map {r : Except MiningError α} (hr : NeverUnranked r) (f : α → β) :
    NeverUnranked (r.map f) := by
  cases r with
  | ok a => exact neverUnranked_ok (f a)
  | error e => exact fun y h => hr y (congrArg Except.error (Except.error.inj h))

theorem NeverUnranked.foldlM {f : β → α → Except MiningError β}
    (hf : ∀ b a, NeverUnranked (f b a)) (as : List α) (b : β) : NeverUnranked (as.foldlM f b) := by
  induction as generalizing b with
  | nil => exact neverUnranked_ok b
  | cons a as ih =>
    rw [List.foldlM_cons]
    exact (hf b a).bind ih

theorem neverUnranked_ofSupport (items : List Item) (support : Int) :
    NeverUnranked (Pattern.ofSupport items support) := by
  intro y h
  unfold Pattern.ofSupport at h
  split at h <;> cases h

theorem neverUnranked_mergeAll (c child : Collector) (item : Item) (support : Int) :
    NeverUnranked (c.mergeAll child item support) := by
  unfold Collector.mergeAll
  refine NeverUnranked.foldlM (fun state p => ?_) child.ranked (0, c)
  simp only [Collector.mergeStep]
  split
  · exact (neverUnranked_ofSupport _ _).map _
  · exact neverUnranked_ok _

end NeverUnranked

variable {below : PatternTree → Except MiningError Collector}

/-- Growth on one item fails for want of a rank only if what is done below does. -/
theorem neverUnranked_growItem {t : PatternTree}
    (hbelow : NeverUnranked (below (t.conditional x minimum))) (c : Collector) :
    NeverUnranked (t.growItem below minimum c x) := by
  unfold growItem
  dsimp only
  split
  · exact neverUnranked_ok c
  split
  · exact neverUnranked_ok c.tested
  have hlast : ∀ d : Collector,
      NeverUnranked (Pattern.ofSupport [x] (t.itemSupport x) >>= fun p => .ok (d.insert p)) :=
    fun d => (neverUnranked_ofSupport _ _).bind fun p => neverUnranked_ok (d.insert p)
  split
  · exact hlast c.tested
  · exact hbelow.bind fun child => ((neverUnranked_mergeAll _ child _ _).map _).bind hlast

theorem neverUnranked_growItems {t : PatternTree}
    (hbelow : ∀ x, NeverUnranked (below (t.conditional x minimum))) (c : Collector)
    (items : List Item) : NeverUnranked (t.growItems below minimum c items) :=
  NeverUnranked.foldlM (fun d x => neverUnranked_growItem (hbelow x) d) items c

/-- On a tree that ranks its items growth never fails for want of a rank, at no level. -/
theorem neverUnranked_growBelow (empty : Collector) (minimum : Int) (levels : Nat) :
    ∀ {order : ItemOrder} {paths : Paths}, Ranked order paths →
      NeverUnranked (growBelow empty minimum levels (ofPaths order paths)) := by
  induction levels with
  | zero => exact fun _ => neverUnranked_ok empty
  | succ levels ih =>
    intro order paths hranked
    rw [growBelow, headerItems_eq hranked]
    exact neverUnranked_growItems (fun x => ih (ranked_conditional _ x minimum)) empty _

/-- **Ranks are missed at the top only.** Growth fails for want of a rank exactly if there is room for
patterns and the tree itself has an item without a rank. -/
theorem grow_eq_unranked_iff (t : PatternTree) (capacity minimum : Int) (subsumes : Bool)
    (attributes : Option (List Item)) (y : Item) :
    t.grow capacity minimum subsumes attributes = .error (.unranked y) ↔
      0 < capacity ∧ t.headerItems = .error (.unranked y) := by
  unfold grow
  by_cases hcap : 0 < capacity
  · have hroom : 0 < capacity.toNat := by omega
    rw [Collector.ofCapacity, dif_pos hroom, and_iff_right hcap]
    cases hitems : t.headerItems with
    | error e =>
      show (Except.error e : Except MiningError Collector) = _ ↔ _
      rw [Except.error.injEq, Except.error.injEq]
    | ok items =>
      constructor
      · intro h
        refine absurd h (neverUnranked_growItems (fun x => ?_) _ _ y)
        exact neverUnranked_growBelow _ minimum t.depth (ranked_conditional t x minimum)
      · intro h
        cases h
  · have hfull : ¬0 < capacity.toNat := by omega
    rw [Collector.ofCapacity, dif_neg hfull]
    constructor
    · intro h
      cases h
    · intro h
      exact absurd h.1 hcap

/-! ## Any tree -/

/-- **Growth ends on every tree.** Add any paths with any counts to a new tree, repeated and unranked
items included. The tree is as deep as the longest path is long. The conditional tree of any of its
items is less deep and ranks all of its items, whatever the minimum. So growth goes down no further
than the tree is deep, whatever may be put in its place further down, and it misses a rank only if
the tree itself has an item without one. -/
theorem growth_descends (order : ItemOrder) (paths : Paths) (minimum : Int) :
    let t := (empty order).addPaths paths
    ((∀ e ∈ paths, e.1.length ≤ t.depth) ∧ (0 < t.depth → ∃ e ∈ paths, e.1.length = t.depth)) ∧
    (∀ x, (t.chain? x).isSome → (t.conditional x minimum).depth < t.depth ∧
      ∀ y, ((t.conditional x minimum).chain? y).isSome →
        (t.conditional x minimum).order.ranked y = true) ∧
    ∀ (capacity : Int) (subsumes : Bool) (attributes : Option (List Item)),
      (∀ bottom levels, t.depth ≤ levels + 1 →
        t.growOver bottom levels capacity minimum subsumes attributes =
          t.grow capacity minimum subsumes attributes) ∧
      ∀ y, t.grow capacity minimum subsumes attributes = .error (.unranked y) ↔
        0 < capacity ∧ t.headerItems = .error (.unranked y) := by
  intro t
  refine ⟨⟨fun e he => length_le_depth he, exists_length_eq_depth⟩, fun x hx => ?_, ?_⟩
  · exact ⟨depth_conditional_lt hx minimum, fun y hy => ranked_of_chain_conditional hy⟩
  · intro capacity subsumes attributes
    refine ⟨fun bottom levels hlevels => ?_, grow_eq_unranked_iff t capacity minimum _ _⟩
    exact growOver_eq_grow bottom hlevels capacity minimum subsumes attributes

/-- A tree three levels deep, of paths that repeat an item and have counts of either sign: its
conditional tree for the item has the item again, and growth succeeds although the third level is
left to a function that always fails. -/
theorem growth_descends_repeated :
    let p (items : List Int) : List Item := items.map Item.number
    let order := ItemOrder.ofSupports [(.number 1, 9), (.number 2, 8)] 1
    let paths : Paths := [(p [1, 2, 1], 2), (p [2, 1, 1], 3), (p [2, 2], -1)]
    let t := (empty order).addPaths paths
    let c := t.conditional (.number 1) 1
    (t.chain? (.number 1)).isSome ∧ (c.chain? (.number 1)).isSome ∧ t.depth ≤ 2 + 1 ∧
      c.depth < t.depth ∧ c.order.ranked (.number 1) = true ∧
      t.growOver (fun _ => .error .noWorkers) 2 5 1 true none = t.grow 5 1 true none ∧
      ∀ y, t.grow 5 1 true none ≠ .error (.unranked y) := by
  intro p order paths t c
  have hx : (t.chain? (.number 1)).isSome := by decide +kernel
  have hx' : (c.chain? (.number 1)).isSome := by
    simp only [c, t, order, paths, p]
    cbv
  have hdepth : t.depth ≤ 2 + 1 := by decide +kernel
  obtain ⟨-, hconditional, hgrow⟩ := growth_descends order paths 1
  obtain ⟨hover, hunranked⟩ := hgrow 5 true none
  refine ⟨hx, hx', hdepth, (hconditional _ hx).1, (hconditional _ hx).2 _ hx', ?_, ?_⟩
  · exact hover _ 2 hdepth
  · intro y hy
    have hitems : t.headerItems = .ok (p [1, 2]) := by
      simp only [t, order, paths, p]
      cbv
    rw [hunranked y |>.1 hy |>.2] at hitems
    cases hitems

end PatternTree

end TopPatterns

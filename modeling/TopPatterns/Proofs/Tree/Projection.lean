import TopPatterns.Proofs.Tree.Totals

/-!
# The paths that a tree represents

A tree does not keep the paths that were added to it, but they can be read off its nodes: at each
node end as many paths as its count says, less those that go on to a node below (`represented`). On
any tree of paths these have the totals of the paths that were added (`total_represented`).

`Projection` is the law of a conditional tree in these terms: what the paths that it represents weigh
is what the paths it comes from weigh before the item. It holds of trees of arranged paths and, since
a conditional tree is one of them, of the conditional trees of conditional trees, however deep
(`conditional_projects`). A path may not have the absent item, at which the way up from a node ends
as if the node were at the top (`not_projection_of_absent`).
-/

namespace TopPatterns

open Paths

namespace Forest

/-! ## Reading off the paths -/

/-- The sum of the counts of the nodes at the top. -/
def topCount : Forest → Int
  | nil => 0
  | node _ c _ beside => c + beside.topCount

/-- The address of each node, with the part of its count that the nodes directly below it do not
share. -/
def paths : Forest → Paths
  | nil => []
  | node x c below beside =>
    ([x], c - below.topCount) :: (below.paths.map (fun e => (x :: e.1, e.2)) ++ beside.paths)

theorem topCount_ofPath (path : List Item) (n : Int) :
    (ofPath path n).topCount = if path = [] then 0 else n := by
  cases path with
  | nil => rfl
  | cons x xs => simp [ofPath, topCount]

theorem topCount_add (f : Forest) (path : List Item) (n : Int) :
    (f.add path n).topCount = f.topCount + if path = [] then 0 else n := by
  induction f generalizing path with
  | nil => rw [add, topCount_ofPath, topCount, Int.zero_add]
  | node y c below beside _ ihBeside =>
    cases path with
    | nil => simp
    | cons x xs =>
      rw [add]
      split
      · simp only [topCount, List.cons_ne_nil, if_false]
        omega
      · rw [topCount, topCount, ihBeside, Int.add_assoc]

theorem total_paths_node (x : Item) (c : Int) (below beside : Forest) (q : List Item → Bool) :
    (node x c below beside).paths.total q =
      (if q [x] then c - below.topCount else 0) + (below.paths.total fun path => q (x :: path)) +
        beside.paths.total q := by
  rw [paths, total_cons, total_append, total_map, Int.add_assoc]

/-- A path without branches represents itself. -/
theorem total_paths_ofPath (path : List Item) (n : Int) (q : List Item → Bool) :
    (ofPath path n).paths.total q = if path ≠ [] ∧ q path = true then n else 0 := by
  induction path generalizing q with
  | nil => rfl
  | cons x xs ih =>
    rw [ofPath, total_paths_node, ih, topCount_ofPath]
    by_cases hxs : xs = []
    · simp [hxs, paths, total]
    · simp [hxs, paths, total]

/-- Adding a path adds its count to the totals of the properties that it has. -/
theorem total_paths_add (f : Forest) (path : List Item) (n : Int) (q : List Item → Bool) :
    (f.add path n).paths.total q =
      f.paths.total q + if path ≠ [] ∧ q path = true then n else 0 := by
  induction f generalizing path q with
  | nil =>
    rw [add, total_paths_ofPath]
    exact (Int.zero_add _).symm
  | node y c below beside ihBelow ihBeside =>
    cases path with
    | nil => simp
    | cons x xs =>
      rw [add]
      split
      · next hyx =>
        subst hyx
        rw [total_paths_node, total_paths_node, ihBelow, topCount_add]
        -- a path that goes on below is taken from the node and given to what is below
        by_cases hxs : xs = []
        · subst hxs
          by_cases hq : q [y] = true
          · simp only [hq, if_true, ne_eq, not_true, false_and, if_false, List.cons_ne_nil,
              not_false_eq_true, and_self]
            omega
          · simp [hq]
        · by_cases hq : q [y] = true
          · simp only [hq, hxs, if_true, ne_eq, not_false_eq_true, true_and, if_false,
              List.cons_ne_nil]
            omega
          · simp only [hq, hxs, ne_eq, not_false_eq_true, true_and, if_false, List.cons_ne_nil,
              Bool.false_eq_true]
            omega
      · rw [total_paths_node, total_paths_node, ihBeside]
        omega

theorem mem_paths_node {x : Item} {c : Int} {below beside : Forest} {e : List Item × Int} :
    e ∈ (node x c below beside).paths ↔
      e = ([x], c - below.topCount) ∨ (∃ d ∈ below.paths, (x :: d.1, d.2) = e) ∨
        e ∈ beside.paths := by
  rw [paths, List.mem_cons, List.mem_append, List.mem_map]

theorem prefix_of_mem_paths_ofPath {path : List Item} {n : Int} {e : List Item × Int}
    (he : e ∈ (ofPath path n).paths) : e.1 <+: path := by
  induction path generalizing e with
  | nil => cases he
  | cons x xs ih =>
    rcases mem_paths_node.1 he with rfl | ⟨d, hd, rfl⟩ | hnil
    · exact List.cons_prefix_cons.2 ⟨rfl, List.nil_prefix⟩
    · exact List.cons_prefix_cons.2 ⟨rfl, ih hd⟩
    · cases hnil

/-- The addresses read off after a path is added are beginnings of it, or were there before. -/
theorem mem_paths_add {f : Forest} {path : List Item} {n : Int} {e : List Item × Int}
    (he : e ∈ (f.add path n).paths) : e.1 <+: path ∨ ∃ d ∈ f.paths, d.1 = e.1 := by
  induction f generalizing path e with
  | nil => exact Or.inl (prefix_of_mem_paths_ofPath he)
  | node y c below beside ihBelow ihBeside =>
    cases path with
    | nil => exact Or.inr ⟨e, he, rfl⟩
    | cons x xs =>
      rw [add] at he
      split at he
      · next hyx =>
        subst hyx
        rcases mem_paths_node.1 he with rfl | ⟨d, hd, rfl⟩ | hbeside
        · exact Or.inl (List.cons_prefix_cons.2 ⟨rfl, List.nil_prefix⟩)
        · rcases ihBelow hd with hpre | ⟨d', hd', hsame⟩
          · exact Or.inl (List.cons_prefix_cons.2 ⟨rfl, hpre⟩)
          · exact Or.inr ⟨(y :: d'.1, d'.2), mem_paths_node.2 (Or.inr (Or.inl ⟨d', hd', rfl⟩)),
              congrArg (y :: ·) hsame⟩
        · exact Or.inr ⟨e, mem_paths_node.2 (Or.inr (Or.inr hbeside)), rfl⟩
      · rcases mem_paths_node.1 he with hnode | hbelow | hbeside
        · exact Or.inr ⟨e, mem_paths_node.2 (Or.inl hnode), rfl⟩
        · exact Or.inr ⟨e, mem_paths_node.2 (Or.inr (Or.inl hbelow)), rfl⟩
        · rcases ihBeside hbeside with hpre | ⟨d, hd, hsame⟩
          · exact Or.inl hpre
          · exact Or.inr ⟨d, mem_paths_node.2 (Or.inr (Or.inr hd)), hsame⟩

end Forest

namespace PatternTree

variable {order : ItemOrder} {paths : Paths}

/-- The paths that a tree represents: the address of each node, with the number of paths that end
there, which may be none. -/
def represented (t : PatternTree) : Paths := t.forest.paths

/-- **What a tree represents.** For every property that a path without items lacks, the paths read
off a tree of paths have the total of the paths added to it. -/
theorem total_represented (order : ItemOrder) (paths : Paths) :
    SameTotals (ofPaths order paths).represented paths := by
  intro q hq
  induction paths using List.reverseRecOn with
  | nil => rfl
  | append_singleton paths e ih =>
    rw [total_append, ← ih, ofPaths_concat]
    show ((ofPaths order paths).forest.add e.1 e.2).paths.total q = _
    rw [Forest.total_paths_add, total_cons]
    by_cases hqe : q e.1 = true
    · have hne : e.1 ≠ [] := fun hnil => by simp [hnil, hq] at hqe
      simp [hqe, hne, represented, total]
    · simp [hqe, represented, total]

/-- The paths read off a tree are beginnings of the paths added to it. -/
theorem exists_prefix_of_mem_represented {e : List Item × Int}
    (he : e ∈ (ofPaths order paths).represented) : ∃ d ∈ paths, e.1 <+: d.1 := by
  induction paths using List.reverseRecOn generalizing e with
  | nil => cases he
  | append_singleton paths d ih =>
    rw [ofPaths_concat] at he
    rcases Forest.mem_paths_add he with hpre | ⟨d', hd', hsame⟩
    · exact ⟨d, by simp, hpre⟩
    · obtain ⟨d'', hd'', hpre⟩ := ih hd'
      exact ⟨d'', List.mem_append_left _ hd'', hsame ▸ hpre⟩

/-! ## The law of conditional trees -/

/-- A tree projects paths to what comes before an item on them, as far as it reaches a minimum. The
items of the tree are those that reach it, with their supports; a set of such items weighs in the tree
what it weighs before the item; a set with any other item does not occur in the tree; and the paths
of the tree rise in its own order. -/
structure Projection (paths : Paths) (x : Item) (minimum : Int) (c : PatternTree) : Prop where
  mem_items : ∀ y, y ∈ c.order.items ↔ minimum ≤ (paths.above x).weight {y}
  itemSupport_eq : ∀ y ∈ c.order.items, c.itemSupport y = (paths.above x).weight {y}
  weight_eq : ∀ S : Finset Item, S.Nonempty → (∀ y ∈ S, minimum ≤ (paths.above x).weight {y}) →
    c.represented.weight S = (paths.above x).weight S
  not_holds : ∀ S : Finset Item, (¬∀ y ∈ S, minimum ≤ (paths.above x).weight {y}) →
    ∀ e ∈ c.represented, holds S e.1 = false
  rising : ∀ e ∈ c.represented, e.1.Sublist c.order.items

/-- On trees of arranged paths. -/
theorem projection_conditional (h : Arranged order paths) (x : Item) {minimum : Int}
    (hmin : 1 ≤ minimum) : Projection paths x minimum ((ofPaths order paths).conditional x minimum) := by
  have hstands := standsFor_of_arranged h
  have hcond := arranged_conditional hstands x minimum
  have hitems : ∀ y, y ∈ ((ofPaths order paths).conditionalOrder x minimum).items ↔
      minimum ≤ (paths.above x).weight {y} := fun y =>
    mem_conditionalOrder hstands hmin
  have hrising : ∀ e ∈ ((ofPaths order paths).conditional x minimum).represented,
      e.1.Sublist ((ofPaths order paths).conditionalOrder x minimum).items := by
    intro e he
    obtain ⟨d, hd, hpre⟩ := exists_prefix_of_mem_represented he
    exact hpre.sublist.trans (hcond.sublist d hd)
  rw [conditional_eq] at hrising ⊢
  constructor
  · intro y
    rw [order_ofPaths, hitems]
  · intro y hy
    rw [order_ofPaths] at hy
    rw [itemSupport_eq_weight hcond.rising]
    refine weight_conditionalPaths hstands (Finset.singleton_nonempty y) fun z hz => ?_
    exact Finset.mem_singleton.1 hz ▸ hy
  · intro S hS hall
    rw [(total_represented _ _).weight_eq hS]
    exact weight_conditionalPaths hstands hS fun y hy => (hitems y).2 (hall y hy)
  · intro S hsome e he
    rw [Bool.eq_false_iff]
    intro hholds
    exact hsome fun y hy => (hitems y).1 ((hrising e he).subset (holds_iff.1 hholds y hy))
  · rwa [order_ofPaths]

/-- Of the paths only their totals matter. -/
theorem Projection.congr {paths' : Paths} {x : Item} {minimum : Int} {c : PatternTree}
    (h : Projection paths x minimum c) (htotals : SameTotals paths paths') :
    Projection paths' x minimum c := by
  have hweight : ∀ S : Finset Item, S.Nonempty →
      (paths.above x).weight S = (paths'.above x).weight S := fun S hS =>
    (htotals.above x).weight_eq hS
  have hsingle : ∀ y, (paths.above x).weight {y} = (paths'.above x).weight {y} := fun y =>
    hweight {y} (Finset.singleton_nonempty y)
  constructor
  · intro y
    rw [h.mem_items, hsingle]
  · intro y hy
    rw [h.itemSupport_eq y hy, hsingle]
  · intro S hS hall
    rw [← hweight S hS]
    exact h.weight_eq S hS fun y hy => hsingle y ▸ hall y hy
  · intro S hsome
    refine h.not_holds S fun hall => hsome fun y hy => ?_
    exact hsingle y ▸ hall y hy
  · exact h.rising

/-- The conditional tree of a conditional tree, and so on, each with an item and a minimum. -/
def descend (t : PatternTree) (steps : List (Item × Int)) : PatternTree :=
  steps.foldl (fun t step => t.conditional step.1 step.2) t

/-- However deep, a conditional tree is one of arranged paths. -/
theorem exists_descend_eq (h : Arranged order paths) (steps : List (Item × Int)) :
    ∃ order' paths', Arranged order' paths' ∧
      (ofPaths order paths).descend steps = ofPaths order' paths' := by
  unfold descend
  induction steps generalizing order paths with
  | nil => exact ⟨order, paths, h, rfl⟩
  | cons step steps ih =>
    rw [List.foldl_cons, conditional_eq]
    exact ih (arranged_conditional (standsFor_of_arranged h) step.1 step.2)

/-- **Conditional trees project.** The conditional trees of a tree of arranged paths project these
paths, and their own conditional trees, to any depth, project the paths that they represent. -/
theorem conditional_projects (order : ItemOrder) (paths : Paths) (h : Arranged order paths)
    (x : Item) (minimum : Int) (hmin : 1 ≤ minimum) :
    Projection paths x minimum ((ofPaths order paths).conditional x minimum) ∧
      ∀ steps, Projection ((ofPaths order paths).descend steps).represented x minimum
        (((ofPaths order paths).descend steps).conditional x minimum) := by
  refine ⟨projection_conditional h x hmin, fun steps => ?_⟩
  obtain ⟨order', paths', h', hsteps⟩ := exists_descend_eq h steps
  rw [hsteps]
  exact (projection_conditional h' x hmin).congr (total_represented order' paths').symm

/-- Before the last item the second and the third change places, and the first one is not frequent.
One level deeper, nothing comes before the third item any more. -/
theorem conditional_projects_reordered :
    let path (items : List Int) (n : Int) : List Item × Int := (items.map Item.number, n)
    let order := ItemOrder.ofList ([1, 2, 3, 4].map Item.number)
    let paths : Paths := [path [1, 2, 3, 4] 1, path [2, 3, 4] 2, path [2] 5, path [3, 4] 1]
    let t := (ofPaths order paths).conditional (.number 4) 2
    (Arranged order paths ∧ (1 : Int) ≤ 2) ∧
      t.represented = [path [3] 1, path [3, 2] 3] ∧
      t.represented.weight {.number 2, .number 3} = 3 ∧
      (∀ e ∈ t.represented, holds {.number 1, .number 2} e.1 = false) ∧
      (t.conditional (.number 2) 2).represented.weight {.number 3} = 3 ∧
      (∀ e ∈ (t.conditional (.number 3) 2).represented, holds {.number 2} e.1 = false) := by
  intro path order paths t
  have h : Arranged order paths := ⟨by decide, by decide, by decide⟩
  have htree : t.represented = [path [3] 1, path [3, 2] 3] := by
    simp only [t, paths, order, path]
    cbv
  have hfirst := (conditional_projects order paths h (.number 4) 2 (by decide)).1
  have hbelow : ∀ x, Projection [path [3] 1, path [3, 2] 3] x 2 (t.conditional x 2) := by
    intro x
    have hprojection := (conditional_projects order paths h x 2 (by decide)).2 [(.number 4, 2)]
    rw [descend, List.foldl_cons, List.foldl_nil] at hprojection
    rw [← htree]
    exact hprojection
  refine ⟨⟨h, by decide⟩, htree, ?_, hfirst.not_holds _ (by decide), ?_,
    (hbelow (.number 3)).not_holds _ (by decide)⟩
  · refine (hfirst.weight_eq _ (Finset.insert_nonempty _ _) (by decide)).trans ?_
    decide
  · refine ((hbelow (.number 2)).weight_eq _ (Finset.singleton_nonempty _) (by decide)).trans ?_
    decide

/-- A path that passes the absent item has nothing before its other items: the conditional tree of
the item after it is empty, although the absent item comes before that item. -/
theorem not_projection_of_absent :
    ¬∀ (order : ItemOrder) (paths : Paths), (∀ e ∈ paths, e.1.Sublist order.items) →
      (∀ e ∈ paths, 0 < e.2) → ∀ (x : Item) (minimum : Int), 1 ≤ minimum →
        Projection paths x minimum ((ofPaths order paths).conditional x minimum) := by
  intro hall
  have h := hall (.ofList [.absent, .text "a"]) [([.absent, .text "a"], 1)] (by decide) (by decide)
    (.text "a") 1 (by decide)
  have hweight := h.weight_eq {.absent} (Finset.singleton_nonempty _) (by decide)
  exact absurd hweight (by decide)

end PatternTree

end TopPatterns

import TopPatterns.Proofs.Tree.Paths

/-!
# Conditional trees

The conditional tree of an item stands for the parts of the paths before the item (`Paths.above`):
for each path with the item, what comes before it. The tree reads these parts off its nodes, so it
has fewer of them with larger counts, but every total is the same (`total_conditionalBase`). Its own
order ranks the items that are frequent there, and leaves the others out.

A tree `StandsFor` paths if its supports and its bases are theirs; a tree of arranged paths stands
for these (`standsFor_of_arranged`). Of such a tree `weight_conditional_of_le` and
`weight_conditional_of_place` say what its conditional trees are: a set is frequent in the
conditional tree exactly if its items come before the item and it is frequent together with the
item, and then the weights agree.
-/

namespace TopPatterns

namespace Paths

/-- What comes before an item, on the paths that have it. -/
def above (x : Item) (paths : Paths) : Paths :=
  (paths.filter fun e => decide (x ∈ e.1)).map fun e => (before x e.1, e.2)

theorem total_above (x : Item) (paths : Paths) (q : List Item → Bool) :
    (paths.above x).total q = paths.total fun path => decide (x ∈ path) && q (before x path) := by
  rw [above, total_map, ← total_filter paths fun e => decide (x ∈ e.1)]
  · refine total_congr fun e he => ?_
    rw [(List.mem_filter.1 he).2, Bool.true_and]
  · intro e _ hq
    exact (Bool.and_eq_true_iff.1 hq).1

variable {order : ItemOrder} {paths : Paths} {x : Item} {S : Finset Item}

/-- A set that comes before an item weighs there what it weighs together with the item. -/
theorem weight_above (h : Rising order paths) (hS : ∀ y ∈ S, order.place y < order.place x) :
    (paths.above x).weight S = paths.weight (insert x S) := by
  rw [weight, total_above]
  refine total_congr fun e he => ?_
  rw [Bool.eq_iff_iff, Bool.and_eq_true, decide_eq_true_iff, holds_insert]
  refine and_congr_right fun hx => ?_
  simp only [holds_iff, mem_before (h.sublist e he) hx]
  exact ⟨fun hall y hy => (hall y hy).1, fun hall y hy => ⟨hall y hy, hS y hy⟩⟩

/-- A set of some weight before an item has only items of smaller place. -/
theorem place_lt_of_weight_above (h : Rising order paths) (hpos : 0 < (paths.above x).weight S) :
    ∀ y ∈ S, order.place y < order.place x := by
  rw [weight, total_above] at hpos
  obtain ⟨e, he, hq⟩ := exists_of_total_pos hpos
  rw [Bool.and_eq_true, decide_eq_true_iff] at hq
  exact fun y hy => ((mem_before (h.sublist e he) hq.1).1 (holds_iff.1 hq.2 y hy)).2

theorem above_pos (hpos : ∀ e ∈ paths, 0 < e.2) : ∀ e ∈ paths.above x, 0 < e.2 := by
  intro e he
  obtain ⟨d, hd, rfl⟩ := List.mem_map.1 he
  exact hpos d (List.mem_filter.1 hd).1

end Paths

namespace PatternTree

open Paths

variable {order : ItemOrder} {paths : Paths} {x : Item}

/-! ## The base -/

/-- The items after the last absent one. -/
def sinceAbsent (items : List Item) : List Item :=
  (items.reverse.takeWhile (· ≠ Item.absent)).reverse

theorem sinceAbsent_of_present {items : List Item} (h : Item.absent ∉ items) :
    sinceAbsent items = items := by
  have hall : items.reverse.takeWhile (· ≠ Item.absent) = items.reverse := by
    refine List.takeWhile_eq_self_iff.2 fun y hy => decide_eq_true fun e => h ?_
    exact e ▸ List.mem_reverse.1 hy
  rw [sinceAbsent, hall, List.reverse_reverse]

theorem absent_not_mem_sinceAbsent (items : List Item) : Item.absent ∉ sinceAbsent items := by
  intro habs
  have hne := List.mem_takeWhile_imp (List.mem_reverse.1 habs)
  simp at hne

theorem sinceAbsent_sublist (items : List Item) : (sinceAbsent items).Sublist items := by
  have hsub := (List.takeWhile_sublist (l := items.reverse) (· ≠ Item.absent)).reverse
  rwa [List.reverse_reverse] at hsub

theorem pathAbove_eq (a : List Item) : pathAbove a = sinceAbsent a.dropLast := rfl

theorem pathAbove_eq_dropLast {a : List Item} (h : Item.absent ∉ a) : pathAbove a = a.dropLast :=
  sinceAbsent_of_present fun habs => h (List.dropLast_subset _ habs)

/-- The base of an item has no absent items. -/
theorem absent_not_mem_of_mem_conditionalBase {t : PatternTree} {e : List Item × Int}
    (he : e ∈ t.conditionalBase x) : Item.absent ∉ e.1 := by
  obtain ⟨a, -, rfl⟩ := List.mem_map.1 (List.mem_filter.1 he).1
  exact absent_not_mem_sinceAbsent a.dropLast

/-- The addresses of an item on rising paths. -/
theorem mem_addresses (h : Rising order paths) {a : List Item} :
    a ∈ (ofPaths order paths).addresses x ↔
      ∃ e ∈ paths, x ∈ e.1 ∧ a = before x e.1 ++ [x] := by
  rw [mem_addresses_ofPaths]
  constructor
  · intro ha
    obtain ⟨⟨e, he, hpre⟩, hlast⟩ := ha
    exact ⟨e, he, (eq_before_append_iff (h.nodup he)).1 ⟨hpre, hlast⟩⟩
  · intro ha
    obtain ⟨e, he, ha⟩ := ha
    obtain ⟨hpre, hlast⟩ := (eq_before_append_iff (h.nodup he)).2 ha
    exact ⟨⟨e, he, hpre⟩, hlast⟩

/-- A path of the base comes before the item on some path, and counts as one. -/
theorem exists_of_mem_conditionalBase (h : Rising order paths) {e : List Item × Int}
    (he : e ∈ (ofPaths order paths).conditionalBase x) :
    0 < e.2 ∧ ∃ d ∈ paths, e.1 = sinceAbsent (before x d.1) := by
  obtain ⟨a, ha, rfl⟩ := List.mem_map.1 (List.mem_filter.1 he).1
  obtain ⟨d, hd, hx, hcut⟩ := (mem_addresses h).1 ha
  have hpre := ((eq_before_append_iff (h.nodup hd)).2 ⟨hx, hcut⟩).1
  refine ⟨?_, d, hd, ?_⟩
  · show 0 < (ofPaths order paths).countAt a
    rw [countAt_eq_total (by rw [hcut]; simp)]
    exact total_pos h.pos hd (List.isPrefixOf_iff_prefix.2 hpre)
  · show pathAbove a = _
    rw [pathAbove_eq, hcut, List.dropLast_concat]

/-- A sum over different nodes of which only one counts. -/
theorem sum_map_eq_of_single {nodes : List (List Item)} (hnodup : nodes.Nodup) {b : List Item}
    (hb : b ∈ nodes) {f : List Item → Int} (hzero : ∀ a ∈ nodes, a ≠ b → f a = 0) :
    (nodes.map f).sum = f b := by
  induction nodes with
  | nil => simp at hb
  | cons a nodes ih =>
    obtain ⟨ha, hnodup⟩ := List.nodup_cons.1 hnodup
    rw [List.map_cons, List.sum_cons]
    by_cases hab : a = b
    · have hrest : (nodes.map f).sum = 0 := by
        refine List.sum_eq_zero fun n hn => ?_
        obtain ⟨c, hc, rfl⟩ := List.mem_map.1 hn
        exact hzero c (List.mem_cons_of_mem _ hc) fun hcb => ha (hab ▸ hcb ▸ hc)
      rw [hrest, hab, add_zero]
    · have hb' : b ∈ nodes := (List.mem_cons.1 hb).resolve_left fun e => hab e.symm
      rw [hzero a (List.mem_cons_self ..) hab, zero_add]
      exact ih hnodup hb' fun c hc => hzero c (List.mem_cons_of_mem _ hc)

/-- Along one path, exactly one node of an item is passed. -/
theorem sum_addresses_of_path (h : Rising order paths) {e : List Item × Int} (he : e ∈ paths)
    (q : List Item → Bool) :
    (((ofPaths order paths).addresses x).map fun a =>
        if q a.dropLast && a.isPrefixOf e.1 then e.2 else 0).sum =
      if decide (x ∈ e.1) && q (before x e.1) then e.2 else 0 := by
  have hiff : ∀ a ∈ (ofPaths order paths).addresses x,
      (a.isPrefixOf e.1 = true ↔ x ∈ e.1 ∧ a = before x e.1 ++ [x]) := by
    intro a ha
    rw [List.isPrefixOf_iff_prefix, ← eq_before_append_iff (h.nodup he)]
    exact (and_iff_left (mem_addresses_ofPaths.1 ha).2).symm
  by_cases hx : x ∈ e.1
  · -- the only node passed is the one with the address up to the item
    have hmem := (mem_addresses h).2 ⟨e, he, hx, rfl⟩
    rw [sum_map_eq_of_single ((listed_ofPaths order).nodup x) hmem]
    · rw [List.dropLast_concat, (hiff _ hmem).2 ⟨hx, rfl⟩]
      simp [hx]
    · intro a ha hne
      have hpre : ¬a.isPrefixOf e.1 = true := fun hp => hne ((hiff a ha).1 hp).2
      simp [hpre]
  · have hnone : (((ofPaths order paths).addresses x).map fun a =>
        if q a.dropLast && a.isPrefixOf e.1 then e.2 else 0).sum = 0 := by
      refine List.sum_eq_zero fun n hn => ?_
      obtain ⟨a, ha, rfl⟩ := List.mem_map.1 hn
      have hpre : ¬a.isPrefixOf e.1 = true := fun hp => hx ((hiff a ha).1 hp).1
      simp [hpre]
    simpa [hx] using hnone

/-- A sum over nodes and paths may be taken in either order. -/
theorem sum_map_comm (nodes : List (List Item)) (paths : Paths)
    (f : List Item → List Item × Int → Int) :
    (nodes.map fun a => (paths.map (f a)).sum).sum =
      (paths.map fun e => (nodes.map fun a => f a e).sum).sum := by
  have h := Multiset.sum_map_sum_map (nodes : Multiset (List Item))
    (Multiset.ofList paths) (f := f)
  simpa using h

/-- **The base.** The parts of the paths before an item, from the last absent item on, as a tree
reads them off its nodes, have the totals that they have on the paths. -/
theorem total_conditionalBase (h : Rising order paths) {q : List Item → Bool}
    (hq : q [] = false) :
    total ((ofPaths order paths).conditionalBase x) q =
      paths.total fun path => decide (x ∈ path) && q (sinceAbsent (before x path)) := by
  have hkeep : ∀ e ∈ ((ofPaths order paths).addresses x).map
      (fun a => (pathAbove a, (ofPaths order paths).countAt a)),
      q e.1 = true → (!e.1.isEmpty) = true := by
    intro e _ hqe
    cases hnil : e.1 with
    | nil =>
      rw [hnil, hq] at hqe
      cases hqe
    | cons y ys => rfl
  rw [conditionalBase, total_filter _ _ hkeep, total, List.map_map]
  -- a node counts the paths that pass it, so that nodes and paths can change places
  have hnode : ∀ a ∈ (ofPaths order paths).addresses x,
      (if q (pathAbove a) then (ofPaths order paths).countAt a else 0) =
        (paths.map fun e =>
          if q (sinceAbsent a.dropLast) && a.isPrefixOf e.1 then e.2 else 0).sum := by
    intro a ha
    have hne : a ≠ [] := by
      obtain ⟨d, -, -, rfl⟩ := (mem_addresses h).1 ha
      simp
    rw [pathAbove_eq, countAt_eq_total hne, total]
    by_cases hqa : q (sinceAbsent a.dropLast) = true
    · simp [hqa]
    · simp [hqa]
  have hcomp : ((fun e : List Item × Int => if q e.1 then e.2 else 0) ∘
      fun a => (pathAbove a, (ofPaths order paths).countAt a)) =
      fun a => if q (pathAbove a) then (ofPaths order paths).countAt a else 0 := rfl
  rw [hcomp, List.map_congr_left hnode, sum_map_comm, total]
  refine congrArg List.sum (List.map_congr_left fun e he => ?_)
  exact sum_addresses_of_path h he fun path => q (sinceAbsent path)

/-! ## Trees that stand for paths -/

/-- A tree whose supports and bases are those of some paths. -/
structure StandsFor (t : PatternTree) (order : ItemOrder) (paths : Paths) : Prop
    extends Rising order paths where
  itemSupport_eq : ∀ x, t.itemSupport x = paths.weight {x}
  total_base : ∀ x q, q [] = false → total (t.conditionalBase x) q = (paths.above x).total q
  base_pos : ∀ x, ∀ e ∈ t.conditionalBase x, 0 < e.2
  base_nodup : ∀ x, ∀ e ∈ t.conditionalBase x, e.1.Nodup

/-- A tree of rising paths stands for paths that have the supports and, from the last absent item
on, the parts before an item. -/
theorem standsFor_of_total {parts : Paths} (h : Rising order paths) (hparts : Rising order parts)
    (hweight : ∀ x, paths.weight {x} = parts.weight {x})
    (htotal : ∀ x q, q [] = false →
      (paths.total fun path => decide (x ∈ path) && q (sinceAbsent (before x path))) =
        (parts.above x).total q) :
    (ofPaths order paths).StandsFor order parts where
  toRising := hparts
  itemSupport_eq := fun x => (itemSupport_eq_weight h x).trans (hweight x)
  total_base := fun x q hq => (total_conditionalBase h hq).trans (htotal x q hq)
  base_pos := fun _ _ he => (exists_of_mem_conditionalBase h he).1
  base_nodup := by
    intro x e he
    obtain ⟨-, d, hd, hcut⟩ := exists_of_mem_conditionalBase h he
    rw [hcut]
    exact (h.nodup hd).sublist ((sinceAbsent_sublist _).trans (before_sublist x d.1))

/-- A tree of arranged paths stands for these. -/
theorem standsFor_of_arranged (h : Arranged order paths) :
    (ofPaths order paths).StandsFor order paths := by
  refine standsFor_of_total h.rising h.rising (fun _ => rfl) fun x q _ => ?_
  rw [total_above]
  refine total_congr fun e he => ?_
  rw [sinceAbsent_of_present fun habs => h.present e he ((before_sublist x e.1).subset habs)]

/-! ## The order of a conditional tree -/

theorem foldl_add_support (path : List Item) (n : Int) (supports : Supports) (y : Item) :
    (path.foldl (fun s x => s.add x n) supports).support y =
      supports.support y + path.count y * n := by
  induction path generalizing supports with
  | nil => simp
  | cons z zs ih =>
    rw [List.foldl_cons, ih, Supports.add, Supports.support_modify, List.count_cons]
    by_cases hz : z = y
    · simp only [hz, if_true, beq_self_eq_true, Int.natCast_add, Int.natCast_one, Int.add_mul]
      omega
    · simp [hz]

theorem foldl_add_nodup (path : List Item) (n : Int) {supports : Supports}
    (h : (supports.map Prod.fst).Nodup) :
    ((path.foldl (fun s x => s.add x n) supports).map Prod.fst).Nodup := by
  induction path generalizing supports with
  | nil => exact h
  | cons z zs ih => exact ih (Supports.nodup_keys_modify h z _)

/-- The table of items on paths has each item once, with its count over all occurrences. -/
theorem pathSupports_spec (paths : Paths) :
    ((pathSupports paths).map Prod.fst).Nodup ∧
      ∀ y, (pathSupports paths).support y = (paths.map fun e => (e.1.count y : Int) * e.2).sum := by
  -- the table that the paths are added to is arbitrary, for the induction
  have hfold : ∀ supports : Supports, (supports.map Prod.fst).Nodup →
      ((paths.foldl (fun s e => e.1.foldl (fun s x => s.add x e.2) s) supports).map
        Prod.fst).Nodup ∧
      ∀ y, (paths.foldl (fun s e => e.1.foldl (fun s x => s.add x e.2) s) supports).support y =
        supports.support y + (paths.map fun e => (e.1.count y : Int) * e.2).sum := by
    induction paths with
    | nil => exact fun supports h => ⟨h, fun y => by simp⟩
    | cons e paths ih =>
      intro supports h
      obtain ⟨hnodup, hsupport⟩ := ih _ (foldl_add_nodup e.1 e.2 h)
      refine ⟨hnodup, fun y => ?_⟩
      rw [List.foldl_cons, hsupport, foldl_add_support, List.map_cons, List.sum_cons]
      omega
  obtain ⟨hnodup, hsupport⟩ := hfold [] List.nodup_nil
  exact ⟨hnodup, fun y => by rw [pathSupports, hsupport, Supports.support_nil, Int.zero_add]⟩

/-- On paths without repeated items, the table has the weights of the single items. -/
theorem support_pathSupports {paths : Paths} (hnodup : ∀ e ∈ paths, e.1.Nodup) (y : Item) :
    (pathSupports paths).support y = paths.weight {y} := by
  rw [(pathSupports_spec paths).2, sum_count_eq_weight hnodup]

/-- The order of a conditional tree. -/
def conditionalOrder (t : PatternTree) (item : Item) (minimum : Int) : ItemOrder :=
  ItemOrder.ofSupports (pathSupports (t.conditionalBase item)) minimum

/-- The paths of a conditional tree. -/
def conditionalPaths (t : PatternTree) (item : Item) (minimum : Int) : Paths :=
  (t.conditionalBase item).map fun e => ((t.conditionalOrder item minimum).arrangePath e.1, e.2)

theorem conditional_eq (t : PatternTree) (item : Item) (minimum : Int) :
    t.conditional item minimum =
      ofPaths (t.conditionalOrder item minimum) (t.conditionalPaths item minimum) := rfl

/-- No set without items is held by a path without items. -/
theorem holds_nil {S : Finset Item} (hS : S.Nonempty) : holds S [] = false := by
  obtain ⟨y, hy⟩ := hS
  rw [Bool.eq_false_iff]
  exact fun hall => List.not_mem_nil (holds_iff.1 hall y hy)

variable {t : PatternTree} {minimum : Int} {S : Finset Item}

/-- A conditional tree ranks the items that are frequent before its item. -/
theorem mem_conditionalOrder (h : t.StandsFor order paths) (hmin : 1 ≤ minimum) {y : Item} :
    y ∈ (t.conditionalOrder x minimum).items ↔ minimum ≤ (paths.above x).weight {y} := by
  rw [conditionalOrder, ItemOrder.mem_items_ofSupports_iff (pathSupports_spec _).1 hmin,
    support_pathSupports (h.base_nodup x), weight,
    h.total_base x _ (holds_nil (Finset.singleton_nonempty y)), weight]

/-- A conditional tree ranks no other items than the tree it comes from. -/
theorem mem_items_of_mem_conditionalOrder (h : t.StandsFor order paths) (hmin : 1 ≤ minimum)
    {y : Item} (hy : y ∈ (t.conditionalOrder x minimum).items) : y ∈ order.items := by
  have hle := (mem_conditionalOrder h hmin).1 hy
  have hplace := place_lt_of_weight_above (x := x) (S := {y}) h.toRising (by omega)
  rw [weight_above h.toRising hplace] at hle
  exact h.mem_items_of_weight_pos (S := insert x {y}) (by omega)
    (Finset.mem_insert_of_mem (Finset.mem_singleton_self y))

/-- The paths of a conditional tree are arranged by its order. -/
theorem arranged_conditional (h : t.StandsFor order paths) (x : Item) (minimum : Int) :
    Arranged (t.conditionalOrder x minimum) (t.conditionalPaths x minimum) where
  sublist := by
    intro e he
    obtain ⟨d, hd, rfl⟩ := List.mem_map.1 he
    rw [ItemOrder.arrangePath_of_nodup _ (h.base_nodup x d hd)]
    exact List.filter_sublist
  pos := by
    intro e he
    obtain ⟨d, hd, rfl⟩ := List.mem_map.1 he
    exact h.base_pos x d hd
  present := by
    intro e he habs
    obtain ⟨d, hd, rfl⟩ := List.mem_map.1 he
    exact absent_not_mem_of_mem_conditionalBase hd (ItemOrder.mem_arrangePath.1 habs).2

/-- A conditional tree ranks all items of its paths. -/
theorem ranked_conditional (t : PatternTree) (item : Item) (minimum : Int) :
    Ranked (t.conditionalOrder item minimum) (t.conditionalPaths item minimum) := by
  intro e he
  obtain ⟨d, -, rfl⟩ := List.mem_map.1 he
  exact fun y hy => (ItemOrder.mem_arrangePath.1 hy).1

/-- The paths of a conditional tree are shorter than the longest path, whatever the paths are: each
comes from above a node. -/
theorem length_conditionalPaths_lt {bound : Nat} (hbound : ∀ e ∈ paths, e.1.length ≤ bound)
    {e : List Item × Int} (he : e ∈ (ofPaths order paths).conditionalPaths x minimum) :
    e.1.length < bound := by
  obtain ⟨d, hd, rfl⟩ := List.mem_map.1 he
  obtain ⟨a, ha, rfl⟩ := List.mem_map.1 (List.mem_filter.1 hd).1
  obtain ⟨⟨c, hc, hpre⟩, hlast⟩ := mem_addresses_ofPaths.1 ha
  have hpos : 0 < a.length := List.length_pos_iff.2 fun hnil => by simp [hnil] at hlast
  have harranged := ((ofPaths order paths).conditionalOrder x minimum).length_arrangePath_le
    (pathAbove a)
  have habove := length_pathAbove_le a
  have hle := hpre.length_le
  have hcbound := hbound c hc
  show (((ofPaths order paths).conditionalOrder x minimum).arrangePath (pathAbove a)).length < bound
  omega

/-- So they are no longer than the tree is deep. -/
theorem length_conditionalPaths_le_depth {e : List Item × Int}
    (he : e ∈ (ofPaths order paths).conditionalPaths x minimum) :
    e.1.length ≤ (ofPaths order paths).depth :=
  Nat.le_of_lt (length_conditionalPaths_lt (fun _ hd => length_le_depth hd) he)

/-- A set of items that a conditional tree ranks weighs in it what it weighs before the item. -/
theorem weight_conditionalPaths (h : t.StandsFor order paths) (hS : S.Nonempty)
    (hranked : ∀ y ∈ S, y ∈ (t.conditionalOrder x minimum).items) :
    weight (t.conditionalPaths x minimum) S = (paths.above x).weight S := by
  rw [weight, weight, conditionalPaths, total_map, ← h.total_base x _ (holds_nil hS)]
  refine total_congr fun e _ => ?_
  rw [Bool.eq_iff_iff, holds_iff, holds_iff]
  simp only [ItemOrder.mem_arrangePath]
  exact forall₂_congr fun y hy => and_iff_right (hranked y hy)

/-- **Conditional trees.** The items of a set that is frequent in the conditional tree of an item
come before the item, and the set weighs there what it weighs together with the item. -/
theorem weight_conditional_of_le (h : t.StandsFor order paths) (hmin : 1 ≤ minimum)
    (hS : S.Nonempty)
    (hle : minimum ≤ weight (t.conditionalPaths x minimum) S) :
    (∀ y ∈ S, order.place y < order.place x) ∧
      weight (t.conditionalPaths x minimum) S = paths.weight (insert x S) := by
  have hcond := arranged_conditional h x minimum
  have hranked : ∀ y ∈ S, y ∈ (t.conditionalOrder x minimum).items :=
    fun y hy => hcond.rising.mem_items_of_weight_pos (by omega) hy
  have habove := weight_conditionalPaths h hS hranked
  have hplace := place_lt_of_weight_above (x := x) (S := S) h.toRising (by omega)
  exact ⟨hplace, habove.trans (weight_above h.toRising hplace)⟩

/-- A set of items before an item that is frequent together with it is frequent in the conditional
tree, and weighs there what both weigh together. -/
theorem weight_conditional_of_place (h : t.StandsFor order paths) (hmin : 1 ≤ minimum)
    (hS : S.Nonempty) (hplace : ∀ y ∈ S, order.place y < order.place x)
    (hle : minimum ≤ paths.weight (insert x S)) :
    weight (t.conditionalPaths x minimum) S = paths.weight (insert x S) := by
  have habove := weight_above h.toRising hplace
  have hranked : ∀ y ∈ S, y ∈ (t.conditionalOrder x minimum).items := by
    intro y hy
    have hmono := weight_le_weight (above_pos (x := x) h.pos) (Finset.singleton_subset_iff.2 hy)
    exact (mem_conditionalOrder h hmin).2 (by omega)
  rw [weight_conditionalPaths h hS hranked, habove]

end PatternTree

end TopPatterns

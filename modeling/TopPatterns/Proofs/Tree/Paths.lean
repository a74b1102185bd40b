import Mathlib.Algebra.BigOperators.Group.Multiset.Basic
import Mathlib.Algebra.Order.BigOperators.Group.List
import Mathlib.Data.Finset.Basic
import TopPatterns.Proofs.Ranking.Place
import TopPatterns.Proofs.Tree.Nodes

/-!
# Weighted paths

Paths with counts are the database that a tree stands for. `total` sums the counts of the paths
with a property, and `weight` those of the paths that hold all items of a set. If all counts are
positive, more of the paths make more weight (`total_le_total`), and equal weight means the same
paths (`of_total_eq`).

`Arranged` is what all trees of the miner have in common: on every path the items follow each other
by rising rank, every count is positive, and no item is absent; paths that may have the absent item
are `Rising`. Of a tree in general no more is asked than that the items of its paths have ranks
(`Ranked`).
-/

namespace TopPatterns

/-- Sequences of items, each with a count. -/
abbrev Paths := List (List Item × Int)

namespace Paths

/-- The sum of the counts of the paths with a property. -/
def total (paths : Paths) (q : List Item → Bool) : Int :=
  (paths.map fun e => if q e.1 then e.2 else 0).sum

/-- Whether a path holds all items of a set. -/
def holds (S : Finset Item) (path : List Item) : Bool := decide (∀ x ∈ S, x ∈ path)

/-- The sum of the counts of the paths that hold all items of a set. -/
def weight (paths : Paths) (S : Finset Item) : Int := paths.total (holds S)

theorem holds_iff {S : Finset Item} {path : List Item} :
    holds S path = true ↔ ∀ x ∈ S, x ∈ path := decide_eq_true_iff

theorem holds_union {S T : Finset Item} {path : List Item} :
    holds (S ∪ T) path = true ↔ holds S path = true ∧ holds T path = true := by
  simp only [holds_iff, Finset.mem_union]
  exact ⟨fun h => ⟨fun x hx => h x (Or.inl hx), fun x hx => h x (Or.inr hx)⟩,
    fun h x hx => hx.elim (h.1 x) (h.2 x)⟩

theorem holds_insert {x : Item} {S : Finset Item} {path : List Item} :
    holds (insert x S) path = true ↔ x ∈ path ∧ holds S path = true := by
  simp only [holds_iff, Finset.mem_insert, forall_eq_or_imp]

theorem holds_of_subset {S T : Finset Item} (h : S ⊆ T) {path : List Item}
    (hT : holds T path = true) : holds S path = true :=
  holds_iff.2 fun x hx => holds_iff.1 hT x (h hx)

/-! ## Totals -/

variable {paths : Paths} {q q' : List Item → Bool}

theorem total_cons (e : List Item × Int) (paths : Paths) (q : List Item → Bool) :
    total (e :: paths) q = (if q e.1 then e.2 else 0) + total paths q := rfl

theorem total_append (paths paths' : Paths) (q : List Item → Bool) :
    total (paths ++ paths') q = paths.total q + paths'.total q := by
  rw [total, List.map_append, List.sum_append]
  rfl

theorem total_congr (h : ∀ e ∈ paths, q e.1 = q' e.1) : paths.total q = paths.total q' :=
  congrArg List.sum (List.map_congr_left fun e he => by rw [h e he])

theorem total_map (f : List Item → List Item) (paths : Paths) (q : List Item → Bool) :
    total (paths.map fun e => (f e.1, e.2)) q = paths.total fun path => q (f path) := by
  rw [total, total, List.map_map]
  rfl

/-- Paths without the property need not be there. -/
theorem total_filter (paths : Paths) (keep : List Item × Int → Bool)
    (h : ∀ e ∈ paths, q e.1 = true → keep e = true) :
    total (paths.filter keep) q = paths.total q := by
  induction paths with
  | nil => rfl
  | cons e paths ih =>
    have ih := ih fun d hd => h d (List.mem_cons_of_mem _ hd)
    rw [List.filter_cons, total_cons, ← ih]
    split
    · rfl
    · next hkeep =>
      have hq : ¬q e.1 = true := fun hq => hkeep (h e (List.mem_cons_self ..) hq)
      rw [if_neg hq, Int.zero_add]

theorem total_nonneg (hpos : ∀ e ∈ paths, 0 < e.2) (q : List Item → Bool) : 0 ≤ paths.total q := by
  refine List.sum_nonneg fun n hn => ?_
  obtain ⟨e, he, rfl⟩ := List.mem_map.1 hn
  split
  · exact Int.le_of_lt (hpos e he)
  · exact Int.le_refl 0

theorem total_le_total (hpos : ∀ e ∈ paths, 0 < e.2)
    (himp : ∀ e ∈ paths, q e.1 = true → q' e.1 = true) : paths.total q ≤ paths.total q' := by
  refine List.sum_le_sum fun e he => ?_
  split
  · next h => rw [if_pos (himp e he h)]
  · split
    · exact Int.le_of_lt (hpos e he)
    · exact Int.le_refl 0

/-- If a property and a weaker one have the same total, they are of the same paths. -/
theorem of_total_eq (hpos : ∀ e ∈ paths, 0 < e.2)
    (himp : ∀ e ∈ paths, q e.1 = true → q' e.1 = true) (heq : paths.total q = paths.total q')
    {e : List Item × Int} (he : e ∈ paths) (hq : q' e.1 = true) : q e.1 = true := by
  induction paths with
  | nil => simp at he
  | cons d paths ih =>
    have hpos' : ∀ e ∈ paths, 0 < e.2 := fun e he => hpos e (List.mem_cons_of_mem _ he)
    have himp' : ∀ e ∈ paths, q e.1 = true → q' e.1 = true := fun e he =>
      himp e (List.mem_cons_of_mem _ he)
    have hle := total_le_total hpos' himp'
    have hd := hpos d (List.mem_cons_self ..)
    have hdimp := himp d (List.mem_cons_self ..)
    rw [total_cons, total_cons] at heq
    by_cases hqd : q d.1 = true
    · rw [if_pos hqd, if_pos (hdimp hqd)] at heq
      rcases List.mem_cons.1 he with rfl | he
      · exact hqd
      · exact ih hpos' himp' (by omega) he
    · rw [if_neg hqd] at heq
      by_cases hqd' : q' d.1 = true
      · rw [if_pos hqd'] at heq
        omega
      · rw [if_neg hqd'] at heq
        rcases List.mem_cons.1 he with rfl | he
        · exact absurd hq hqd'
        · exact ih hpos' himp' (by omega) he

/-- A positive total comes from a path with the property. -/
theorem exists_of_total_pos (h : 0 < paths.total q) : ∃ e ∈ paths, q e.1 = true := by
  by_contra hnone
  have hzero : paths.total q = total paths fun _ => false :=
    total_congr fun e he => by
      rw [Bool.eq_false_iff]
      exact fun hq => hnone ⟨e, he, hq⟩
  rw [hzero, total] at h
  simp at h

theorem total_pos (hpos : ∀ e ∈ paths, 0 < e.2) {e : List Item × Int} (he : e ∈ paths)
    (hq : q e.1 = true) : 0 < paths.total q := by
  refine lt_of_le_of_ne (total_nonneg hpos q) fun hzero => ?_
  have hfalse : total paths (fun _ => false) = paths.total q := by
    rw [← hzero]
    simp [total]
  simpa using of_total_eq hpos (fun _ _ h => absurd h (by simp)) hfalse he hq

/-! ## Weights -/

theorem weight_nonneg (hpos : ∀ e ∈ paths, 0 < e.2) (S : Finset Item) : 0 ≤ paths.weight S :=
  total_nonneg hpos _

/-- Larger sets weigh no more. -/
theorem weight_le_weight (hpos : ∀ e ∈ paths, 0 < e.2) {S T : Finset Item} (h : S ⊆ T) :
    paths.weight T ≤ paths.weight S :=
  total_le_total hpos fun _ _ hT => holds_of_subset h hT

/-- Every item on the paths has a rank. -/
def Ranked (order : ItemOrder) (paths : Paths) : Prop := ∀ e ∈ paths, e.1 ⊆ order.items

/-- The paths of an order: on each of them the items follow each other by rising rank, and each has
a positive count. -/
structure Arranged (order : ItemOrder) (paths : Paths) : Prop where
  sublist : ∀ e ∈ paths, e.1.Sublist order.items
  pos : ∀ e ∈ paths, 0 < e.2
  present : ∀ e ∈ paths, Item.absent ∉ e.1

/-- Paths of an order that may have the absent item. -/
structure Rising (order : ItemOrder) (paths : Paths) : Prop where
  sublist : ∀ e ∈ paths, e.1.Sublist order.items
  pos : ∀ e ∈ paths, 0 < e.2

section

variable {order : ItemOrder}

theorem Rising.ranked (h : Rising order paths) : Ranked order paths :=
  fun e he => (h.sublist e he).subset

theorem Rising.nodup (h : Rising order paths) {e : List Item × Int} (he : e ∈ paths) :
    e.1.Nodup := (h.sublist e he).nodup order.nodup_items

/-- A set of some weight has only ranked items. -/
theorem Rising.mem_items_of_weight_pos (h : Rising order paths) {S : Finset Item}
    (hS : 0 < paths.weight S) {x : Item} (hx : x ∈ S) : x ∈ order.items := by
  obtain ⟨e, he, hholds⟩ := exists_of_total_pos hS
  exact h.ranked e he (holds_iff.1 hholds x hx)

theorem Arranged.rising (h : Arranged order paths) : Rising order paths := ⟨h.sublist, h.pos⟩

end

end Paths

/-! ## Trees of paths -/

namespace PatternTree

open Paths

variable {order : ItemOrder} {paths : Paths}

theorem countAt_eq_total {a : List Item} (hne : a ≠ []) :
    (ofPaths order paths).countAt a = paths.total fun path => a.isPrefixOf path := by
  rw [ofPaths, countAt_addPaths _ _ a hne, total]
  simp [empty, countAt, Forest.count?]

/-- On paths without repeated items, the occurrences of an item are the paths that hold it. -/
theorem sum_count_eq_weight (hnodup : ∀ e ∈ paths, e.1.Nodup) (x : Item) :
    (paths.map fun e => (e.1.count x : Int) * e.2).sum = paths.weight {x} := by
  refine congrArg List.sum (List.map_congr_left fun e he => ?_)
  rw [(hnodup e he).count]
  by_cases hx : x ∈ e.1
  · rw [if_pos hx, if_pos (holds_iff.2 (by simpa using hx)), Int.natCast_one, Int.one_mul]
  · rw [if_neg hx, if_neg fun h => hx (holds_iff.1 h x (Finset.mem_singleton_self x))]
    simp

/-- The support of an item is the weight of the item alone. -/
theorem itemSupport_eq_weight (h : Rising order paths) (x : Item) :
    (ofPaths order paths).itemSupport x = paths.weight {x} := by
  rw [ofPaths, itemSupport_addPaths, itemSupport_empty, Int.zero_add]
  exact sum_count_eq_weight (fun e he => h.nodup he) x

/-- The items of a tree are those of its paths, by rising rank. -/
theorem headerItems_eq (h : Ranked order paths) :
    (ofPaths order paths).headerItems =
      .ok (order.items.filter fun x => ((ofPaths order paths).chain? x).isSome) := by
  have hnone : ((ofPaths order paths).chains.find? fun chain =>
      !(ofPaths order paths).order.ranked chain.item) = none := by
    refine List.find?_eq_none.2 fun chain hchain => ?_
    have hsome : ((ofPaths order paths).chain? chain.item).isSome := by
      rw [chain?, Chain.find?, List.find?_isSome]
      exact ⟨chain, hchain, by simp⟩
    obtain ⟨e, he, hx⟩ := isSome_chain?_ofPaths.1 hsome
    rw [order_ofPaths, ItemOrder.ranked]
    simpa using h e he hx
  rw [headerItems, hnone, order_ofPaths]

end PatternTree

end TopPatterns

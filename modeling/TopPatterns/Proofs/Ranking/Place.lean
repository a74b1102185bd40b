import Mathlib.Data.List.Nodup
import Mathlib.Data.List.Perm.Subperm
import Mathlib.Data.List.TakeWhile
import TopPatterns.Ranking.Order

/-!
# Places in an order

The place of an item is its position among the items of an order, and on a path that is arranged by
the order the places rise (`pairwise_place_lt`). So what stands before an item on such a path is
known from the places alone (`mem_before`). `mem_items_ofSupports` says which items an order has
that ranks a table of supports.
-/

namespace TopPatterns

namespace Supports

/-- Which items a table has after a change. -/
theorem mem_keys_modify {supports : Supports} {item x : Item} {change : Int → Int} :
    x ∈ (supports.modify item change).map Prod.fst ↔ x = item ∨ x ∈ supports.map Prod.fst := by
  induction supports with
  | nil => simp [modify]
  | cons pair rest ih =>
    obtain ⟨y, n⟩ := pair
    rw [modify]
    split
    · next h =>
      subst h
      simp
    · rw [List.map_cons, List.mem_cons, ih, List.map_cons, List.mem_cons]
      exact or_left_comm

/-- A change keeps the items of a table different. -/
theorem nodup_keys_modify {supports : Supports} (h : (supports.map Prod.fst).Nodup) (item : Item)
    (change : Int → Int) : ((supports.modify item change).map Prod.fst).Nodup := by
  induction supports with
  | nil => simp [modify]
  | cons pair rest ih =>
    obtain ⟨y, n⟩ := pair
    obtain ⟨hy, hrest⟩ := List.nodup_cons.1 h
    rw [modify]
    split
    · exact h
    · next hne =>
      refine List.nodup_cons.2 ⟨fun hm => ?_, ih hrest⟩
      exact (mem_keys_modify.1 hm).elim hne hy

/-- In a table of different items, an entry is an item of the table with its support. -/
theorem mem_iff_of_nodup {supports : Supports} (h : (supports.map Prod.fst).Nodup) {x : Item}
    {n : Int} : (x, n) ∈ supports ↔ x ∈ supports.map Prod.fst ∧ supports.support x = n := by
  induction supports with
  | nil => simp
  | cons pair rest ih =>
    obtain ⟨y, m⟩ := pair
    obtain ⟨hy, hrest⟩ := List.nodup_cons.1 h
    rw [List.mem_cons, ih hrest, List.map_cons, List.mem_cons, support, Prod.mk.injEq]
    by_cases hxy : y = x
    · subst hxy
      simp [hy, eq_comm]
    · simp [hxy, show ¬x = y from fun e => hxy e.symm]

/-- An item that is not in a table has no support. -/
theorem support_of_not_mem {supports : Supports} {x : Item} (h : x ∉ supports.map Prod.fst) :
    supports.support x = 0 := by
  induction supports with
  | nil => rfl
  | cons pair rest ih =>
    obtain ⟨y, m⟩ := pair
    rw [List.map_cons, List.mem_cons, not_or] at h
    rw [support, if_neg fun e => h.1 e.symm, ih h.2]

/-- In a table of different items, the entries that are not zero are known from the supports. -/
theorem mem_iff_of_pos {supports : Supports} (h : (supports.map Prod.fst).Nodup) {x : Item}
    {n : Int} (hpos : 0 < n) : (x, n) ∈ supports ↔ supports.support x = n := by
  rw [mem_iff_of_nodup h]
  refine and_iff_right_of_imp fun heq => ?_
  by_contra hnot
  rw [support_of_not_mem hnot] at heq
  omega

end Supports

namespace ItemOrder

theorem mem_map_fst_rankFrom {n : Nat} {xs : List Item} {x : Item} :
    x ∈ (rankFrom n xs).map Prod.fst ↔ x ∈ xs := by
  induction xs generalizing n with
  | nil => simp [rankFrom]
  | cons y ys ih =>
    rw [rankFrom]
    split
    · next h =>
      -- an item that comes again is ranked by its last occurrence
      have hy : y ∈ ys := by simpa using h
      rw [ih, List.mem_cons]
      exact ⟨Or.inr, fun hx => hx.elim (fun e => e ▸ hy) id⟩
    · rw [List.map_cons, List.mem_cons, ih, List.mem_cons]

/-- An order of a table ranks the items of enough support. -/
theorem mem_items_ofSupports {supports : Supports} {minimum : Int} {x : Item} :
    x ∈ (ofSupports supports minimum).items ↔ ∃ n, (x, n) ∈ supports ∧ minimum ≤ n := by
  rw [items, ofSupports, ofList, mem_map_fst_rankFrom]
  simp only [List.mem_map, List.mem_mergeSort, List.mem_filter, decide_eq_true_eq]
  constructor
  · intro hx
    obtain ⟨⟨y, n⟩, ⟨hmem, hle⟩, rfl⟩ := hx
    exact ⟨n, hmem, hle⟩
  · intro hx
    obtain ⟨n, hmem, hle⟩ := hx
    exact ⟨(x, n), ⟨hmem, hle⟩, rfl⟩

/-- With a minimum above zero, an order of a table of different items ranks an item exactly if its
support reaches the minimum. -/
theorem mem_items_ofSupports_iff {supports : Supports} (h : (supports.map Prod.fst).Nodup)
    {minimum : Int} (hmin : 1 ≤ minimum) {x : Item} :
    x ∈ (ofSupports supports minimum).items ↔ minimum ≤ supports.support x := by
  rw [mem_items_ofSupports]
  constructor
  · intro hx
    obtain ⟨n, hmem, hle⟩ := hx
    rwa [((Supports.mem_iff_of_nodup h).1 hmem).2]
  · intro hle
    have hpos : 0 < supports.support x := by omega
    exact ⟨_, (Supports.mem_iff_of_pos h hpos).2 rfl, hle⟩

theorem arrange_sublist (order : ItemOrder) (t : Transaction) :
    (order.arrange t).Sublist order.items := List.filter_sublist

@[simp] theorem arrange_nil (order : ItemOrder) : order.arrange [] = [] := by simp [arrange]

@[simp] theorem arrangePath_nil (order : ItemOrder) : order.arrangePath [] = [] := by
  simp [arrangePath]

/-- Arranging a path without repeated items picks its ranked items. -/
theorem arrangePath_of_nodup (order : ItemOrder) {path : List Item} (h : path.Nodup) :
    order.arrangePath path = order.items.filter fun x => decide (x ∈ path) := by
  rw [arrangePath]
  induction order.items with
  | nil => rfl
  | cons x xs ih =>
    rw [List.flatMap_cons, ih, List.filter_cons, List.filter_eq, h.count]
    by_cases hx : x ∈ path
    · simp [hx]
    · simp [hx]

/-- Arranging a path keeps a ranked item as often as it occurs, and drops the others. -/
theorem count_arrangePath (order : ItemOrder) (path : List Item) (y : Item) :
    (order.arrangePath path).count y = if y ∈ order.items then path.count y else 0 := by
  have hnodup := order.nodup_items
  unfold arrangePath
  generalize order.items = items at hnodup ⊢
  induction items with
  | nil => simp
  | cons x xs ih =>
    obtain ⟨hx, hxs⟩ := List.nodup_cons.1 hnodup
    rw [List.flatMap_cons, List.count_append, ih hxs, List.filter_eq, List.count_replicate]
    by_cases hxy : x = y
    · subst hxy
      simp [hx]
    · simp [hxy, show ¬y = x from fun e => hxy e.symm]

theorem length_arrangePath_le (order : ItemOrder) (path : List Item) :
    (order.arrangePath path).length ≤ path.length := by
  refine (List.subperm_ext_iff.2 fun y _ => ?_).length_le
  rw [count_arrangePath]
  split
  · exact Nat.le_refl _
  · exact Nat.zero_le _

/-- The place of an item among the items of an order; past their end if it is not ranked. -/
def place (order : ItemOrder) (x : Item) : Nat := order.items.idxOf x

variable {order : ItemOrder}

theorem eq_of_place_eq {x y : Item} (hx : x ∈ order.items) (h : order.place x = order.place y) :
    x = y :=
  (List.idxOf_inj hx).1 h

/-- On a path arranged by an order, places rise. -/
theorem pairwise_place_lt {path : List Item} (h : path.Sublist order.items) :
    path.Pairwise fun x y => order.place x < order.place y := by
  refine List.Pairwise.sublist h (List.pairwise_iff_getElem.2 fun i j hi hj hij => ?_)
  rw [place, place, order.nodup_items.idxOf_getElem i hi, order.nodup_items.idxOf_getElem j hj]
  exact hij

end ItemOrder

/-! ## Before an item -/

/-- The items of a path before the first occurrence of an item. -/
def before (x : Item) (path : List Item) : List Item := path.takeWhile (· ≠ x)

theorem before_append_cons {x : Item} {front back : List Item} (h : x ∉ front) :
    before x (front ++ x :: back) = front := by
  have hall : ∀ y ∈ front, decide (y ≠ x) = true := fun y hy =>
    decide_eq_true fun e => h (e ▸ hy)
  rw [before, List.takeWhile_append_of_pos hall, List.takeWhile_cons_of_neg (by simp),
    List.append_nil]

theorem before_sublist (x : Item) (path : List Item) : (before x path).Sublist path :=
  List.takeWhile_sublist _

/-- A path with an item is what stands before it, the item, and a rest. -/
theorem exists_eq_before_append {x : Item} {path : List Item} (h : x ∈ path) :
    ∃ back, path = before x path ++ x :: back := by
  obtain ⟨front, back, rfl, hx⟩ := List.eq_append_cons_of_mem h
  exact ⟨back, by rw [before_append_cons hx]⟩

/-- Of a path without repeated items, only one beginning ends in an item. -/
theorem eq_before_append_iff {x : Item} {path a : List Item} (hnodup : path.Nodup) :
    a <+: path ∧ a.getLast? = some x ↔ x ∈ path ∧ a = before x path ++ [x] := by
  constructor
  · intro hpath
    obtain ⟨⟨back, rfl⟩, hlast⟩ := hpath
    obtain ⟨front, rfl⟩ := List.getLast?_eq_some_iff.1 hlast
    have hfront := (List.nodup_append.1 (List.nodup_append.1 hnodup).1).2.2
    have hx : x ∉ front := fun hx => hfront x hx x (List.mem_singleton_self x) rfl
    refine ⟨by simp, ?_⟩
    rw [List.append_assoc, List.singleton_append, before_append_cons hx]
  · intro hpath
    obtain ⟨hx, rfl⟩ := hpath
    obtain ⟨back, hback⟩ := exists_eq_before_append hx
    refine ⟨⟨back, ?_⟩, by simp⟩
    rw [List.append_assoc, List.singleton_append]
    exact hback.symm

/-- On a path arranged by an order, the items of smaller place stand before an item. -/
theorem mem_before {order : ItemOrder} {path : List Item} (h : path.Sublist order.items)
    {x y : Item} (hx : x ∈ path) :
    y ∈ before x path ↔ y ∈ path ∧ order.place y < order.place x := by
  obtain ⟨back, hback⟩ := exists_eq_before_append hx
  have hplace := ItemOrder.pairwise_place_lt h
  rw [hback, List.pairwise_append, List.pairwise_cons] at hplace
  obtain ⟨-, ⟨hafter, -⟩, hfront⟩ := hplace
  constructor
  · exact fun hy => ⟨(before_sublist x path).subset hy, hfront y hy x (List.mem_cons_self ..)⟩
  · intro hy
    obtain ⟨hy, hlt⟩ := hy
    rw [hback, List.mem_append, List.mem_cons] at hy
    rcases hy with hy | rfl | hy
    · exact hy
    · exact absurd hlt (Nat.lt_irrefl _)
    · -- after the item places are larger
      exact absurd hlt (Nat.not_lt.2 (Nat.le_of_lt (hafter y hy)))

end TopPatterns

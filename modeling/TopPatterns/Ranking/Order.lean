import TopPatterns.Item

/-!
# Supports and the order of items

`Supports` says how many transactions hold an item, in a table in the order in which its items were
first entered; `countSupports` makes one from transactions, with its items in ascending order.

Mining ranks items: rank 0 is the item of highest support, and of equal supports the one whose
text comes first. `ItemOrder.ofSupports` ranks the items of a table, and `arrange` puts the ranked
items of a transaction into the order of their ranks. An order lists its items by rising rank, each
item once; both are fields of the type.
-/

namespace TopPatterns

/-! ## Supports by item -/

/-- The items of one transaction. -/
abbrev Transaction := List Item

/-- Items and their supports, in the order of their first entry. -/
abbrev Supports := List (Item × Int)

namespace Supports

/-- Changes the support of an item, or enters the item with the change applied to 0. -/
def modify (item : Item) (change : Int → Int) : Supports → Supports
  | [] => [(item, change 0)]
  | (x, n) :: rest =>
    if x = item then (x, change n) :: rest else (x, n) :: modify item change rest

/-- Adds to the support of an item. -/
def add (item : Item) (n : Int) (supports : Supports) : Supports := supports.modify item (· + n)

/-- A table of pairs: a repeated item keeps its first place and its last support. -/
def ofPairs (pairs : List (Item × Int)) : Supports :=
  pairs.foldl (fun supports (item, n) => modify item (fun _ => n) supports) []

/-- The support of an item, 0 if it was never entered. -/
def support (supports : Supports) (item : Item) : Int :=
  match supports with
  | [] => 0
  | (x, n) :: rest => if x = item then n else support rest item

@[simp] theorem support_nil (item : Item) : support [] item = 0 := rfl

theorem support_modify (supports : Supports) (item other : Item) (change : Int → Int) :
    (supports.modify item change).support other =
      if item = other then change (supports.support item) else supports.support other := by
  induction supports with
  | nil => simp [modify, support]
  | cons pair rest ih =>
    obtain ⟨x, n⟩ := pair
    rw [modify]
    split
    · next h =>
      subst h
      by_cases ho : x = other <;> simp [support, ho]
    · next h =>
      by_cases ho : x = other
      · subst ho
        simp [support, show ¬item = x from fun e => h e.symm]
      · simp [support, ho, h, ih]

end Supports

/-- How many transactions hold each item that occurs; an item repeated in one transaction counts
once. The items must have a common order, and the table lists them in it. -/
def countSupports (transactions : List Transaction) : Except MiningError Supports :=
  match Item.sorted? (Item.distinct transactions.flatten) with
  | none => .error .mixedItems
  | some items =>
    .ok (items.map fun x => (x, ((transactions.countP fun t => t.contains x) : Int)))

/-! ## Orders -/

/-- Ranks the items of a list by their place, starting at a number. Of an item that is repeated
only the last place counts. -/
def rankFrom : Nat → List Item → List (Item × Nat)
  | _, [] => []
  | n, x :: xs => if xs.contains x then rankFrom (n + 1) xs else (x, n) :: rankFrom (n + 1) xs

theorem mem_of_mem_rankFrom {n : Nat} {xs : List Item} {p : Item × Nat} (h : p ∈ rankFrom n xs) :
    p.1 ∈ xs ∧ n ≤ p.2 := by
  induction xs generalizing n with
  | nil => simp [rankFrom] at h
  | cons x xs ih =>
    rw [rankFrom] at h
    split at h
    · have := ih h
      exact ⟨List.mem_cons_of_mem _ this.1, by omega⟩
    · rcases List.mem_cons.1 h with rfl | h
      · exact ⟨List.mem_cons_self .., Nat.le_refl _⟩
      · have := ih h
        exact ⟨List.mem_cons_of_mem _ this.1, by omega⟩

theorem nodup_rankFrom (n : Nat) (xs : List Item) : ((rankFrom n xs).map Prod.fst).Nodup := by
  induction xs generalizing n with
  | nil => simp [rankFrom]
  | cons x xs ih =>
    rw [rankFrom]
    split
    · exact ih _
    · next hx =>
      rw [List.map_cons, List.nodup_cons]
      refine ⟨fun m => ?_, ih _⟩
      obtain ⟨p, hp, rfl⟩ := List.mem_map.1 m
      exact hx (by simpa using (mem_of_mem_rankFrom hp).1)

theorem increasing_rankFrom (n : Nat) (xs : List Item) :
    ((rankFrom n xs).map Prod.snd).Pairwise (· < ·) := by
  induction xs generalizing n with
  | nil => simp [rankFrom]
  | cons x xs ih =>
    rw [rankFrom]
    split
    · exact ih _
    · rw [List.map_cons, List.pairwise_cons]
      refine ⟨fun r m => ?_, ih _⟩
      obtain ⟨p, hp, rfl⟩ := List.mem_map.1 m
      have := (mem_of_mem_rankFrom hp).2
      omega

/-- Items with their ranks, by rising rank. -/
structure ItemOrder where
  ranks : List (Item × Nat)
  nodup : (ranks.map Prod.fst).Nodup
  increasing : (ranks.map Prod.snd).Pairwise (· < ·)

namespace ItemOrder

/-- The order in which an item's rank is its place in a list, the last place if it is repeated. -/
def ofList (items : List Item) : ItemOrder where
  ranks := rankFrom 0 items
  nodup := nodup_rankFrom 0 items
  increasing := increasing_rankFrom 0 items

/-- Whether an item with its support is ranked before or beside another one: by higher support,
then by text. -/
def before (a b : Item × Int) : Bool :=
  decide (b.2 < a.2) || (decide (a.2 = b.2) && a.1.label.le b.1.label)

/-- The order of the items of at least some support. Items of equal support and text keep the
order of the table. -/
def ofSupports (supports : Supports) (minimum : Int) : ItemOrder :=
  ofList (((supports.filter fun p => decide (minimum ≤ p.2)).mergeSort before).map Prod.fst)

/-- The items by rising rank. -/
def items (order : ItemOrder) : List Item := order.ranks.map Prod.fst

theorem nodup_items (order : ItemOrder) : order.items.Nodup := order.nodup

@[simp] theorem items_ofList_nil : (ofList []).items = [] := rfl

/-- Whether an item has a rank. -/
def ranked (order : ItemOrder) (x : Item) : Bool := order.items.contains x

/-- The ranked items of a transaction by rising rank, each once. -/
def arrange (order : ItemOrder) (t : Transaction) : List Item :=
  order.items.filter fun x => t.contains x

/-- The ranked items of a path by rising rank, each as often as it occurs. -/
def arrangePath (order : ItemOrder) (path : List Item) : List Item :=
  order.items.flatMap fun x => path.filter (· = x)

theorem mem_arrange {order : ItemOrder} {t : Transaction} {x : Item} :
    x ∈ order.arrange t ↔ x ∈ order.items ∧ x ∈ t := by
  simp [arrange]

theorem mem_arrangePath {order : ItemOrder} {path : List Item} {x : Item} :
    x ∈ order.arrangePath path ↔ x ∈ order.items ∧ x ∈ path := by
  simp [arrangePath]

end ItemOrder

end TopPatterns

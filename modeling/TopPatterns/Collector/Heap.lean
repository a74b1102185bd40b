import TopPatterns.Pattern

/-!
# The heap of entries

A collector finds its weakest pattern through a heap of entries, each a pattern with the number
under which it was admitted. The weakest entry is the one of least support and, of equal supports,
the one admitted first.

The heap is a tree that keeps the number of its entries and the larger part on the left, so that
`merge` walks down two short right spines. `push`, `pop` and `keep` are merges; `size` is read off
the root.
-/

namespace TopPatterns

/-- A pattern and the number under which it was admitted. -/
structure Entry where
  pattern : Pattern
  number : Nat
deriving DecidableEq, Repr

/-- Whether an entry is at most as strong as another one: by support, then by number. -/
def Entry.weaker (a b : Entry) : Bool :=
  decide (a.pattern.support < b.pattern.support) ||
    (decide (a.pattern.support = b.pattern.support) && decide (a.number ≤ b.number))

theorem Entry.weaker_iff {a b : Entry} :
    a.weaker b = true ↔ a.pattern.support < b.pattern.support ∨
      a.pattern.support = b.pattern.support ∧ a.number ≤ b.number := by
  simp [weaker]

theorem Entry.weaker_total (a b : Entry) : a.weaker b = true ∨ b.weaker a = true := by
  simp only [weaker_iff]; omega

theorem Entry.weaker_trans {a b c : Entry} (hab : a.weaker b = true) (hbc : b.weaker c = true) :
    a.weaker c = true := by
  simp only [weaker_iff] at *; omega

/-- A tree of entries that stores the number of its entries. -/
inductive Heap where
  | empty
  | node (size : Nat) (top : Entry) (left right : Heap)
deriving Repr

namespace Heap

/-- The number of entries. -/
def size : Heap → Nat
  | empty => 0
  | node n _ _ _ => n

@[simp] theorem size_empty : size empty = 0 := rfl

@[simp] theorem size_node (n : Nat) (e : Entry) (l r : Heap) : (node n e l r).size = n := rfl

/-- The weakest entry of a heap in order. -/
def top? : Heap → Option Entry
  | empty => none
  | node _ e _ _ => some e

@[simp] theorem top?_empty : top? empty = none := rfl

@[simp] theorem top?_node (n : Nat) (e : Entry) (l r : Heap) : (node n e l r).top? = some e := rfl

/-- All entries, each before those below it. -/
def toList : Heap → List Entry
  | empty => []
  | node _ e l r => e :: (l.toList ++ r.toList)

@[simp] theorem toList_empty : toList empty = [] := rfl

@[simp] theorem toList_node (n : Nat) (e : Entry) (l r : Heap) :
    (node n e l r).toList = e :: (l.toList ++ r.toList) := rfl

/-- An entry above two heaps, the larger one on the left. -/
def above (e : Entry) (a b : Heap) : Heap :=
  if b.size ≤ a.size then node (a.size + b.size + 1) e a b else node (a.size + b.size + 1) e b a

/-- Merges a heap, given by its top, its left part and the merge with its right part, with another
heap. -/
def mergeTop (e : Entry) (left right : Heap) (mergeRight : Heap → Heap) : Heap → Heap
  | empty => above e left right
  | node n f l r =>
    if e.weaker f then above e left (mergeRight (node n f l r))
    else above f l (mergeTop e left right mergeRight r)

/-- A heap of the entries of two heaps. -/
def merge : Heap → Heap → Heap
  | empty, h => h
  | node _ e l r, h => mergeTop e l r (merge r) h

@[simp] theorem empty_merge (h : Heap) : merge empty h = h := rfl

theorem node_merge_empty (n : Nat) (e : Entry) (l r : Heap) :
    merge (node n e l r) empty = above e l r := rfl

theorem node_merge_node (n m : Nat) (e f : Entry) (l r l' r' : Heap) :
    merge (node n e l r) (node m f l' r') =
      if e.weaker f then above e l (merge r (node m f l' r'))
      else above f l' (merge (node n e l r) r') := rfl

/-- A heap with one more entry. -/
def push (h : Heap) (e : Entry) : Heap := merge (node 1 e empty empty) h

/-- A heap without its weakest entry. -/
def pop : Heap → Heap
  | empty => empty
  | node _ _ l r => merge l r

@[simp] theorem pop_empty : pop empty = empty := rfl

@[simp] theorem pop_node (n : Nat) (e : Entry) (l r : Heap) : (node n e l r).pop = merge l r := rfl

/-- A heap of the entries that pass a test. -/
def keep (test : Entry → Bool) (h : Heap) : Heap := (h.toList.filter test).foldl push empty

/-- Removes weakest entries, at most `steps` of them, until one passes a test. -/
def dropTops (test : Entry → Bool) : Nat → Heap → Heap
  | 0, h => h
  | steps + 1, h =>
    match h.top? with
    | none => h
    | some e => if test e then h else dropTops test steps h.pop

/-- A heap from which weakest entries are removed until one passes a test. -/
def settle (test : Entry → Bool) (h : Heap) : Heap := dropTops test h.size h

/-! ## What a merge holds -/

theorem above_toList (e : Entry) (a b : Heap) :
    (above e a b).toList.Perm (e :: (a.toList ++ b.toList)) := by
  unfold above
  split
  · exact .refl _
  · exact List.Perm.cons e List.perm_append_comm

/-- A merge holds the entries of both heaps. -/
theorem merge_toList (a b : Heap) : (merge a b).toList.Perm (a.toList ++ b.toList) := by
  induction a generalizing b with
  | empty => exact .refl _
  | node n e l r _ ihr =>
    induction b with
    | empty => simpa [node_merge_empty] using above_toList e l r
    | node m f l' r' _ ihb =>
      rw [node_merge_node]
      split
      · refine (above_toList ..).trans ?_
        exact (((ihr _).append_left l.toList).cons e).trans (by simp)
      · refine (above_toList ..).trans ?_
        refine ((ihb.append_left l'.toList).cons f).trans (List.perm_iff_count.2 fun x => ?_)
        simp only [List.count_cons, List.count_append, toList_node]
        omega

theorem push_toList (h : Heap) (e : Entry) : (h.push e).toList.Perm (e :: h.toList) := by
  simpa [push] using merge_toList (node 1 e empty empty) h

/-- A heap holds its top and what is left without it. -/
theorem pop_toList {h : Heap} {e : Entry} (ht : h.top? = some e) :
    h.toList.Perm (e :: h.pop.toList) := by
  cases h with
  | empty => simp at ht
  | node n f l r =>
    obtain rfl : f = e := by simpa using ht
    exact (merge_toList l r).symm.cons f

/-- Rebuilding keeps exactly the entries that pass the test. -/
theorem keep_toList (test : Entry → Bool) (h : Heap) :
    (h.keep test).toList.Perm (h.toList.filter test) := by
  have go : ∀ (es : List Entry) (h : Heap), (es.foldl push h).toList.Perm (es ++ h.toList) := by
    intro es
    induction es with
    | nil => intro h; exact .refl _
    | cons e es ih =>
      intro h
      refine (ih (h.push e)).trans ?_
      exact ((push_toList h e).append_left es).trans List.perm_middle
  simpa [keep] using go (h.toList.filter test) empty

end Heap

end TopPatterns

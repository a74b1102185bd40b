import TopPatterns.Item

/-!
# Counted tries

A forest of nodes, each with an item, a count and nodes below it. Nodes that stand beside each
other have different items and are listed in the order of their making. A node is named by its
address, the items on the way down to it, its own item last.

`add` adds a count to every node along a path and makes the nodes that are missing; `count?_add`
says what every address then counts.
-/

namespace TopPatterns

/-- Nodes beside each other: the first one, the nodes below it, and the others. -/
inductive Forest where
  | nil
  | node (item : Item) (count : Int) (below beside : Forest)
deriving Repr

namespace Forest

/-- Whether a forest has no node. -/
def isEmpty : Forest → Bool
  | nil => true
  | node .. => false

/-- A path without branches, each node with the same count. -/
def ofPath (path : List Item) (n : Int) : Forest :=
  match path with
  | [] => nil
  | x :: xs => node x n (ofPath xs n) nil

/-- Adds a count to every node along a path, making the nodes that are missing. -/
def add (f : Forest) (path : List Item) (n : Int) : Forest :=
  match f, path with
  | nil, path => ofPath path n
  | node y c below beside, [] => node y c below beside
  | node y c below beside, x :: xs =>
    if y = x then node y (c + n) (below.add xs n) beside
    else node y c below (beside.add (x :: xs) n)

/-- The count of the node at an address, if there is one. -/
def count? (f : Forest) (address : List Item) : Option Int :=
  match f, address with
  | nil, _ => none
  | _, [] => none
  | node y c below beside, x :: xs =>
    if y = x then (if xs.isEmpty then some c else below.count? xs) else beside.count? (x :: xs)

/-- How many items of a path lead along nodes that are there. -/
def known (f : Forest) (path : List Item) : Nat :=
  match f, path with
  | nil, _ => 0
  | _, [] => 0
  | node y _ below beside, x :: xs =>
    if y = x then below.known xs + 1 else beside.known (x :: xs)

/-- The length of the longest address. -/
def height : Forest → Nat
  | nil => 0
  | node _ _ below beside => max (below.height + 1) beside.height

/-- All nodes from the top down, each with its depth, its item and its count; the nodes below a
node come before those beside it. -/
def preorder (depth : Nat) : Forest → List (Nat × Item × Int)
  | nil => []
  | node x c below beside =>
    (depth, x, c) :: (below.preorder (depth + 1) ++ beside.preorder depth)

@[simp] theorem add_nil (f : Forest) (n : Int) : f.add [] n = f := by cases f <;> rfl

@[simp] theorem count?_nil (f : Forest) : f.count? [] = none := by cases f <;> rfl

/-- A path counts at the addresses that it passes. -/
theorem count?_ofPath (path address : List Item) (n : Int) :
    (ofPath path n).count? address =
      if address ≠ [] ∧ address <+: path then some n else none := by
  induction path generalizing address with
  | nil => cases address <;> simp [ofPath, count?]
  | cons x xs ih =>
    cases address with
    | nil => simp
    | cons a as =>
      rw [ofPath, count?]
      by_cases hx : x = a
      · subst hx
        cases as with
        | nil => simp
        | cons b bs => simp [ih, List.cons_prefix_cons]
      · simp [hx, count?, List.cons_prefix_cons, show ¬a = x from fun e => hx e.symm]

/-- Adding a path adds its count at the addresses that it passes, and changes no other. -/
theorem count?_add (f : Forest) (path address : List Item) (n : Int) :
    (f.add path n).count? address =
      if address ≠ [] ∧ address <+: path then some ((f.count? address).getD 0 + n)
      else f.count? address := by
  induction f generalizing path address with
  | nil => simp [add, count?_ofPath, count?]
  | node y c below beside ihBelow ihBeside =>
    cases path with
    | nil => cases address <;> simp
    | cons x xs =>
      cases address with
      | nil => simp
      | cons a as =>
        rw [add]
        by_cases hx : y = x
        · subst hx
          by_cases ha : y = a
          · subst ha
            cases as with
            | nil => simp [count?]
            | cons b bs => simp [count?, ihBelow, List.cons_prefix_cons]
          · simp [count?, ha, List.cons_prefix_cons, show ¬a = y from fun e => ha e.symm]
        · by_cases ha : y = a
          · subst ha
            simp [count?, hx, List.cons_prefix_cons]
          · simp [count?, hx, ha, ihBeside]

end Forest

end TopPatterns

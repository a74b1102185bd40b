import Mathlib.Logic.Function.Basic
import TopPatterns.Item

/-!
# Linked trees

The tree of paths as nodes that refer to each other. A node has a parent, children by their items
and a link to the next node of its item. The header table has the first node of each item, and the
last one is known too, so that a new node can be linked behind it. `addPaths` makes and counts the
nodes, and `conditionalBase` follows the links from the header table on, and from each node the
parents up.

Nodes are numbered, and every attribute is a function of the number. `Leads` says where references
lead and that they end; `follow` goes after them.
-/

namespace TopPatterns

open Function (update)

/-! ## Walks along references -/

/-- From some number on, if there is one, references lead through the listed numbers and end. -/
def Leads (next : Nat → Option Nat) (start : Option Nat) : List Nat → Prop
  | [] => start = none
  | n :: ns => start = some n ∧ Leads next (next n) ns

/-- The numbers that a walk of at most so many steps meets. -/
def follow (next : Nat → Option Nat) : Nat → Option Nat → List Nat
  | _, none => []
  | 0, some _ => []
  | steps + 1, some n => n :: follow next steps (next n)

namespace Leads

variable {next next' : Nat → Option Nat} {start : Option Nat} {ns : List Nat}

/-- With enough steps the walk is made to its end. -/
theorem follow_eq (h : Leads next start ns) {steps : Nat} (hsteps : ns.length ≤ steps) :
    follow next steps start = ns := by
  induction ns generalizing start steps with
  | nil =>
    obtain rfl : start = none := h
    cases steps <;> rfl
  | cons n ns ih =>
    obtain ⟨rfl, hrest⟩ := h
    cases steps with
    | zero => exact absurd hsteps (by simp)
    | succ steps =>
      rw [follow, ih hrest (Nat.le_of_succ_le_succ hsteps)]

theorem congr (h : Leads next start ns) (hsame : ∀ n ∈ ns, next' n = next n) :
    Leads next' start ns := by
  induction ns generalizing start with
  | nil => exact h
  | cons n ns ih =>
    obtain ⟨hstart, hrest⟩ := h
    refine ⟨hstart, ?_⟩
    rw [hsame n (List.mem_cons_self ..)]
    exact ih hrest fun m hm => hsame m (List.mem_cons_of_mem _ hm)

/-- A reference from the last number to a new one prolongs the walk. -/
theorem concat {last m : Nat} (h : Leads next start (ns ++ [last]))
    (hsame : ∀ n ∈ ns, next' n = next n) (hlast : next' last = some m) (hend : next' m = none) :
    Leads next' start (ns ++ [last] ++ [m]) := by
  induction ns generalizing start with
  | nil => exact ⟨h.1, hlast, hend⟩
  | cons n ns ih =>
    obtain ⟨hstart, hrest⟩ := h
    refine ⟨hstart, ?_⟩
    rw [hsame n (List.mem_cons_self ..)]
    exact ih hrest fun m hm => hsame m (List.mem_cons_of_mem _ hm)

end Leads

/-! ## The tree -/

/-- Nodes that refer to each other by number. They are numbered in the order of their making, and
number 0 is the root. -/
structure LinkedTree where
  /-- How many nodes there are. -/
  size : Nat
  item : Nat → Item
  count : Nat → Int
  parent : Nat → Option Nat
  /-- The node below a node with an item. -/
  child : Nat → Item → Option Nat
  /-- The next node with the same item. -/
  link : Nat → Option Nat
  /-- The items of the header table in the order of their entry. -/
  headers : List Item
  /-- The node of an item in the header table. -/
  first : Item → Option Nat
  /-- The node of an item that was made last. -/
  last : Item → Option Nat
  support : Item → Int

namespace LinkedTree

/-- A tree of the root alone. -/
def empty : LinkedTree where
  size := 1
  item _ := .absent
  count _ := 0
  parent _ := none
  child _ _ := none
  link _ := none
  headers := []
  first _ := none
  last _ := none
  support _ := 0

/-- A new node with a parent, without children and not linked. -/
def alloc (t : LinkedTree) (x : Item) (above : Nat) : LinkedTree :=
  { t with
    size := t.size + 1
    item := update t.item t.size x
    count := update t.count t.size 0
    parent := update t.parent t.size (some above)
    child := update t.child t.size fun _ => none
    link := update t.link t.size none }

/-- Makes a node the child of another one. -/
def attach (t : LinkedTree) (above : Nat) (x : Item) (n : Nat) : LinkedTree :=
  { t with child := update t.child above (update (t.child above) x (some n)) }

/-- Links a node behind the last one of its item, or enters it into the header table if it is the
first. -/
def enter (t : LinkedTree) (x : Item) (n : Nat) : LinkedTree :=
  match t.last x with
  | some m => { t with link := update t.link m (some n), last := update t.last x (some n) }
  | none =>
    { t with
      headers := t.headers ++ [x]
      first := update t.first x (some n)
      last := update t.last x (some n) }

/-- Makes a node of an item below a node. -/
def make (t : LinkedTree) (above : Nat) (x : Item) : LinkedTree :=
  ((t.alloc x above).attach above x t.size).enter x t.size

/-- Counts a visit to a node of an item. -/
def visit (t : LinkedTree) (x : Item) (m : Nat) (n : Int) : LinkedTree :=
  { t with
    count := update t.count m (t.count m + n)
    support := update t.support x (t.support x + n) }

/-- Goes on to the node below another one with an item, which is made if it is missing, and counts
the visit. -/
def step (t : LinkedTree) (above : Nat) (x : Item) (n : Int) : LinkedTree × Nat :=
  match t.child above x with
  | some m => (t.visit x m n, m)
  | none => ((t.make above x).visit x t.size n, t.size)

/-- Adds a path below a node. -/
def addBelow (t : LinkedTree) (above : Nat) (n : Int) : List Item → LinkedTree
  | [] => t
  | x :: xs => (t.step above x n).1.addBelow (t.step above x n).2 n xs

/-- Adds paths with their counts, one after the other. -/
def addPaths (t : LinkedTree) (paths : List (List Item × Int)) : LinkedTree :=
  paths.foldl (fun t e => t.addBelow 0 e.2 e.1) t

/-- The node that children lead down to from a node. -/
def descend (t : LinkedTree) (n : Nat) : List Item → Option Nat
  | [] => some n
  | x :: xs => (t.child n x).bind fun m => t.descend m xs

/-- The nodes of an item, along the links from the header table on. -/
def chain (t : LinkedTree) (x : Item) : List Nat := follow t.link t.size (t.first x)

/-- A node and those above it, up to the root. -/
def wayUp (t : LinkedTree) (n : Nat) : List Nat := follow t.parent t.size (some n)

/-- The items on the way down from the root to a node. -/
def address (t : LinkedTree) (n : Nat) : List Item := ((t.wayUp n).map t.item).dropLast.reverse

/-- The items above a node, from the first parent up to the first node without an item, read
downwards. -/
def pathAbove (t : LinkedTree) (n : Nat) : List Item :=
  (((follow t.parent t.size (t.parent n)).map t.item).takeWhile (· ≠ .absent)).reverse

/-- The paths that lead to an item's nodes, each with the count of its node. -/
def conditionalBase (t : LinkedTree) (x : Item) : List (List Item × Int) :=
  ((t.chain x).map fun n => (t.pathAbove n, t.count n)).filter fun p => !p.1.isEmpty

end LinkedTree

end TopPatterns

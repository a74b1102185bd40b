import TopPatterns.Ranking.Order
import TopPatterns.Tree.Forest

/-!
# Pattern trees

A pattern tree holds weighted paths of items as a counted trie, and for each item a chain of the
addresses of its nodes in the order of their making. `addPath` adds a path. `conditionalBase` reads
off the paths that lead to an item, and `conditional` is the tree of those paths, with its items
ranked anew by their supports within it.

No node refers to another one here. The header table, the last node of each item, the links and the
parents all appear as addresses: the chains in their order are the header table, the addresses of a
chain are the nodes that the links lead through, the last of them the one that a new node is linked
behind, and an address has the items of the parents. `LinkedTree` is the tree with these references,
and `LinkedTree.realizes_addPaths` says that following them gives the lists of this one.
-/

namespace TopPatterns

/-- The nodes of one item: the sum of their counts, and their addresses in the order of their
making, which is the order of the links from the header table on. -/
structure Chain where
  item : Item
  support : Int
  addresses : List (List Item)
deriving Repr

namespace Chain

/-- Notes a visit to a node of an item with a count, and the node's address if it is new. -/
def visit (item : Item) (n : Int) (made : Option (List Item)) : List Chain → List Chain
  | [] => [⟨item, n, made.toList⟩]
  | chain :: rest =>
    if chain.item = item then
      { chain with
        support := chain.support + n
        addresses := chain.addresses ++ made.toList } :: rest
    else chain :: visit item n made rest

/-- Notes visits to the nodes along a path that starts below an address. The first `known` nodes
are there already. -/
def visitPath (n : Int) (known : Nat) (above : List Item) :
    List Item → List Chain → List Chain
  | [], chains => chains
  | x :: xs, chains =>
    let address := above ++ [x]
    visitPath n (known - 1) address xs
      (visit x n (if known = 0 then some address else none) chains)

/-- The chain of an item. -/
def find? (chains : List Chain) (item : Item) : Option Chain :=
  chains.find? (·.item = item)

/-- A visit adds to the support of its item, and changes no other. -/
theorem support_visit (chains : List Chain) (item other : Item) (n : Int)
    (made : Option (List Item)) :
    ((find? (visit item n made chains) other).map Chain.support).getD 0 =
      ((find? chains other).map Chain.support).getD 0 + if item = other then n else 0 := by
  induction chains with
  | nil => by_cases h : item = other <;> simp [visit, find?, h]
  | cons chain rest ih =>
    simp only [find?] at ih ⊢
    rw [visit]
    split
    · next h =>
      by_cases ho : chain.item = other
      · simp [ho, ← h]
      · simp [ho, ← h]
    · next h =>
      by_cases ho : chain.item = other
      · simp [ho, show ¬item = other from fun e => h (ho.trans e.symm)]
      · simp [ho, ih]

end Chain

/-- A pattern tree: an order of items, a trie, and the chains in the order in which their items
first occurred. -/
structure PatternTree where
  order : ItemOrder
  forest : Forest
  chains : List Chain

namespace PatternTree

/-- A tree without paths. -/
def empty (order : ItemOrder) : PatternTree := ⟨order, .nil, []⟩

/-- Whether a tree has no node. -/
def isEmpty (t : PatternTree) : Bool := t.forest.isEmpty

/-- The length of the longest path. -/
def depth (t : PatternTree) : Nat := t.forest.height

/-- Adds a path with a count. -/
def addPath (t : PatternTree) (path : List Item) (n : Int) : PatternTree :=
  { t with
    forest := t.forest.add path n
    chains := Chain.visitPath n (t.forest.known path) [] path t.chains }

/-- Adds paths with their counts, one after the other. -/
def addPaths (t : PatternTree) (paths : List (List Item × Int)) : PatternTree :=
  paths.foldl (fun t p => t.addPath p.1 p.2) t

/-- The tree of the ranked items of transactions. -/
def ofTransactions (transactions : List Transaction) (order : ItemOrder) : PatternTree :=
  (empty order).addPaths (transactions.map fun t => (order.arrange t, 1))

/-- The chain of an item. -/
def chain? (t : PatternTree) (item : Item) : Option Chain := Chain.find? t.chains item

/-- The sum of the counts of an item's nodes, 0 if it has none. -/
def itemSupport (t : PatternTree) (item : Item) : Int :=
  match t.chain? item with
  | none => 0
  | some chain => chain.support

/-- The addresses of an item's nodes in the order of their making. -/
def addresses (t : PatternTree) (item : Item) : List (List Item) :=
  match t.chain? item with
  | none => []
  | some chain => chain.addresses

/-- The count of the node at an address, 0 if there is none. -/
def countAt (t : PatternTree) (address : List Item) : Int := (t.forest.count? address).getD 0

/-- The items of a tree by rising rank, all of which must have one. -/
def headerItems (t : PatternTree) : Except MiningError (List Item) :=
  match t.chains.find? fun chain => !t.order.ranked chain.item with
  | some chain => .error (.unranked chain.item)
  | none => .ok (t.order.items.filter fun x => (t.chain? x).isSome)

/-- The items on the way down to a node, the node itself left out. The way begins below the last
node without an item, where following the parents up stops. -/
def pathAbove (address : List Item) : List Item :=
  (address.dropLast.reverse.takeWhile (· ≠ .absent)).reverse

/-- The paths that lead to an item's nodes, each with the count of its node, in the order in which
the nodes were made. A node at the top has none. -/
def conditionalBase (t : PatternTree) (item : Item) : List (List Item × Int) :=
  ((t.addresses item).map fun a => (pathAbove a, t.countAt a)).filter fun p => !p.1.isEmpty

/-- The supports of the items on weighted paths, each occurrence counted. -/
def pathSupports (paths : List (List Item × Int)) : Supports :=
  paths.foldl (fun supports p => p.1.foldl (fun s x => s.add x p.2) supports) []

/-- The tree of the paths that lead to an item, with only the items of at least some support
within them, ranked by that support. -/
def conditional (t : PatternTree) (item : Item) (minimum : Int) : PatternTree :=
  let base := t.conditionalBase item
  let order := ItemOrder.ofSupports (pathSupports base) minimum
  (empty order).addPaths (base.map fun p => (order.arrangePath p.1, p.2))

/-! ## Small laws -/

@[simp] theorem isEmpty_empty (order : ItemOrder) : (empty order).isEmpty = true := rfl

@[simp] theorem itemSupport_empty (order : ItemOrder) (x : Item) :
    (empty order).itemSupport x = 0 := rfl

/-- A path without items changes nothing. -/
@[simp] theorem addPath_nil (t : PatternTree) (n : Int) : t.addPath [] n = t := by
  simp [addPath, Chain.visitPath]

/-- What an address counts after a path is added. -/
theorem countAt_addPath (t : PatternTree) (path address : List Item) (n : Int) :
    (t.addPath path n).countAt address =
      if address ≠ [] ∧ address <+: path then t.countAt address + n else t.countAt address := by
  simp only [countAt, addPath, Forest.count?_add]
  split <;> rfl

/-- A path that leads to a node is shorter than the node's address. -/
theorem length_pathAbove_le (address : List Item) :
    (pathAbove address).length ≤ address.length - 1 := by
  have h := (List.takeWhile_sublist (l := address.dropLast.reverse) (· ≠ Item.absent)).length_le
  simpa [pathAbove] using h

end PatternTree

end TopPatterns

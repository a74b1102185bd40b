import TopPatterns.Collector.Basic
import TopPatterns.Tree.Basic

/-!
# Pattern growth

The strongest patterns of a tree, found from the bottom up. For each item of a tree, the patterns
that end in it are those of its conditional tree, extended by the item, and the item alone.
`growBelow` works through the levels: a conditional tree has shorter paths than the tree it comes
from, so there are at most as many levels as the longest path has items, and a tree of no levels
has no patterns.
-/

namespace TopPatterns

namespace PatternTree

/-- Adds the patterns that end in one item of a tree: those of its conditional tree, mined by
`below`, and the item alone. An item is passed over if its support is below the minimum or if no
pattern of that support would be admitted. -/
def growItem (below : PatternTree → Except MiningError Collector) (t : PatternTree)
    (minimum : Int) (c : Collector) (item : Item) : Except MiningError Collector :=
  let support := t.itemSupport item
  if support < minimum then .ok c
  else if !c.admits support then .ok c.tested
  else do
    let c := c.tested
    let conditional := t.conditional item minimum
    let c ←
      if conditional.isEmpty then .ok c
      else do
        let child ← below conditional
        (c.mergeAll child item support).map Prod.snd
    let p ← Pattern.ofSupport [item] support
    .ok (c.insert p)

/-- Adds the patterns that end in the given items of a tree, one item after the other. -/
def growItems (below : PatternTree → Except MiningError Collector) (t : PatternTree)
    (minimum : Int) (c : Collector) (items : List Item) : Except MiningError Collector :=
  items.foldlM (t.growItem below minimum) c

/-- The strongest patterns of a tree whose paths are no longer than the number of levels, added to
an empty collector. -/
def growBelow (empty : Collector) (minimum : Int) :
    Nat → PatternTree → Except MiningError Collector
  | 0, _ => .ok empty
  | levels + 1, t => do
    t.growItems (growBelow empty minimum levels) minimum empty (← t.headerItems)

/-- The strongest patterns of a tree, at most `capacity` of them. With a set of attributes, only
the patterns whose item of highest rank number is an attribute. -/
def grow (t : PatternTree) (capacity minimum : Int) (subsumes : Bool)
    (attributes : Option (List Item)) : Except MiningError Collector := do
  let empty ← Collector.ofCapacity capacity subsumes
  let items ← t.headerItems
  let chosen := match attributes with
    | none => items
    | some attributes => items.filter attributes.contains
  t.growItems (growBelow empty minimum t.depth) minimum empty chosen

end PatternTree

/-- A least support asked for must be at least one. -/
def checkMinimum (minimum : Int) : Except MiningError Unit :=
  if minimum < 1 then .error (.minSupportTooSmall minimum) else .ok ()

/-- The ranks of the items that enough transactions hold. -/
def rankItems (transactions : List Transaction) (minimum : Int) : Except MiningError ItemOrder :=
  (countSupports transactions).map fun supports => ItemOrder.ofSupports supports minimum

/-- The strongest patterns of transactions, at most `capacity` of them. -/
def mine (transactions : List Transaction) (capacity minimum : Int) (subsumes : Bool) :
    Except MiningError Collector := do
  checkMinimum minimum
  if transactions.isEmpty then Collector.ofCapacity capacity subsumes
  else
    let order ← rankItems transactions minimum
    (PatternTree.ofTransactions transactions order).grow capacity minimum subsumes none

end TopPatterns

import TopPatterns.Mining.Growth
import TopPatterns.Number.Binary64

/-!
# Partitioned mining

The ranked items are cut into groups of neighbours. For each group the patterns whose item of
highest rank number lies in the group are mined on their own, from those parts of the transactions
that matter to them, and the strongest patterns of all groups are brought together.
-/

namespace TopPatterns

/-- Cuts a list into pieces of the given width, after `piece`, the items of the current piece, last
one first, in which there is room for `room` more. -/
def piecesFrom (width room : Nat) (piece : List Item) : List Item → List (List Item)
  | [] => if piece.isEmpty then [] else [piece.reverse]
  | x :: xs =>
    match room with
    | 0 => piece.reverse :: piecesFrom width (width - 1) [x] xs
    | room + 1 => piecesFrom width room (x :: piece) xs

/-- Cuts a list into pieces of the given width, which is not zero; the last may be shorter. -/
def pieces (width : Nat) (xs : List Item) : List (List Item) := piecesFrom width width [] xs

/-- How many items a group has: the quotient of items and groups, rounded to floating point and
then up to a whole number. There are never so many items that the quotient is not finite; they would
be one group. -/
def groupWidth (items groups : Nat) : Nat :=
  match (quotient items groups).ceiling? with
  | none => items
  | some width => width.toNat

/-- Cuts the ranked items into at most `groups` groups of neighbours. -/
def groupItems (order : ItemOrder) (groups : Int) : Except MiningError (List (List Item)) :=
  if groups < 1 then .error (.tooFewGroups groups)
  else if order.items.isEmpty then .ok []
  else
    match groupWidth order.items.length groups.toNat with
    | 0 => .error .zeroGroupWidth
    | width => .ok (pieces width order.items)

/-- A list up to its last item that belongs to a group. -/
def upToGroup (group : List Item) (items : List Item) : List Item :=
  (items.reverse.dropWhile fun x => !group.contains x).reverse

/-- The ranked items of each transaction up to the last one that belongs to a group; transactions
without an item of the group are left out. -/
def groupPaths (transactions : List Transaction) (order : ItemOrder) (group : List Item) :
    List (List Item) :=
  (transactions.map fun t => upToGroup group (order.arrange t)).filter fun path => !path.isEmpty

/-- The strongest patterns whose item of highest rank number belongs to a group. -/
def mineGroup (transactions : List Transaction) (order : ItemOrder) (capacity minimum : Int)
    (subsumes : Bool) (group : List Item) : Except MiningError Collector :=
  ((PatternTree.empty order).addPaths ((groupPaths transactions order group).map (·, 1))).grow
    capacity minimum subsumes (some group)

/-- Brings the patterns of a group into a collector, strongest first, passing over those whose
support would not be admitted. -/
def Collector.absorb (c part : Collector) : Collector :=
  part.ranked.foldl (fun c p => if c.admits p.support then c.tested.insert p else c.tested) c

/-- Mining with a number of workers asked for needs at least one. -/
def checkWorkers (workers : Option Int) : Except MiningError Unit :=
  match workers with
  | some n => if n < 1 then .error .noWorkers else .ok ()
  | none => .ok ()

/-- The strongest patterns of transactions, at most `capacity` of them, mined group by group. -/
def minePartitioned (transactions : List Transaction) (capacity minimum : Int) (subsumes : Bool)
    (groups : Int) (workers : Option Int) : Except MiningError Collector := do
  checkMinimum minimum
  if groups < 1 then .error (.tooFewGroups groups)
  else
    let empty ← Collector.ofCapacity capacity subsumes
    if transactions.isEmpty then .ok empty
    else
      let order ← rankItems transactions minimum
      let parts ← groupItems order groups
      checkWorkers workers
      let mined ← parts.mapM (mineGroup transactions order capacity minimum subsumes)
      .ok (mined.foldl Collector.absorb empty)

/-! ## Small laws -/

@[simp] theorem upToGroup_nil (group : List Item) : upToGroup group [] = [] := rfl

end TopPatterns

import TopPatterns.Collector.Heap
import Std.Data.TreeMap.Basic

/-!
# The bounded collector

A collector retains at most `capacity` patterns. A full one admits a pattern only if its support
is above the least support retained, and then gives up the earliest admitted pattern of that least
support. A collector that subsumes also keeps patterns of equal support apart from each other: one
whose items another one has is not retained beside it.

`offer` answers with the collector that retains the pattern, or with `none` where the pattern is
refused; `insert` is the collector after the offer in both cases. The retained patterns are
`retained`, by number of admission. The heap finds the weakest of them; patterns given up for a
more specific one stay in it as stale entries. These leave it in three ways: `settle` removes them
from its top whenever the least support is looked for, `evict` does so before it takes the top, and
`compact` rebuilds the heap when it has more than twice the capacity of entries.

A change that looks up a number no pattern is retained under, or the top of an empty heap, has
nothing to change and leaves the collector as it is. No collector that calls lead to comes to that:
`answers?_eq` says so of the changes with look-ups that may fail.
-/

namespace TopPatterns

/-- At most `capacity` patterns of high support. -/
structure Collector where
  /-- How many patterns are retained at most. -/
  capacity : Nat
  /-- Whether a pattern gives way to a more specific one of the same support. -/
  subsumes : Bool
  /-- Entries of all retained patterns, and stale ones. -/
  heap : Heap
  /-- The retained patterns by number of admission. -/
  live : Std.TreeMap Nat Pattern
  /-- The numbers of the retained patterns by support, if the collector subsumes. -/
  bySupport : Std.TreeMap Nat (List Nat)
  /-- The number of the next admission. -/
  next : Nat
  capacity_pos : 0 < capacity

namespace Collector

/-- A collector without patterns. -/
def empty (capacity : Nat) (subsumes : Bool) (capacity_pos : 0 < capacity) : Collector where
  capacity := capacity
  subsumes := subsumes
  heap := .empty
  live := ∅
  bySupport := ∅
  next := 0
  capacity_pos := capacity_pos

/-- A collector without patterns for a capacity asked for, which must be positive. -/
def ofCapacity (capacity : Int) (subsumes : Bool) : Except MiningError Collector :=
  if h : 0 < capacity.toNat then .ok (empty capacity.toNat subsumes h)
  else .error (.noCapacity capacity)

/-! ## Queries -/

/-- How many patterns are retained. -/
def count (c : Collector) : Nat := c.live.size

/-- Whether there is no room for a further pattern. -/
def isFull (c : Collector) : Bool := c.count = c.capacity

/-- Whether an entry belongs to a retained pattern. -/
def isLive (c : Collector) (e : Entry) : Bool := c.live.contains e.number

/-- Removes stale entries from the top of the heap. -/
def settle (c : Collector) : Collector := { c with heap := c.heap.settle c.isLive }

/-- The least support retained, 0 if nothing is. It is looked for in the settled heap. -/
def leastSupport (c : Collector) : Nat :=
  match c.settle.heap.top? with
  | none => 0
  | some e => e.pattern.support

/-- Whether a pattern of this support would pass the test of capacity. -/
def admits (c : Collector) (support : Int) : Bool :=
  if c.count < c.capacity then true else decide ((c.leastSupport : Int) < support)

/-- A collector after a test of capacity, which looks for the least support if there is no room. -/
def tested (c : Collector) : Collector := if c.isFull then c.settle else c

/-- The retained patterns in the order of their admission. -/
def retained (c : Collector) : List Pattern := c.live.toList.map Prod.snd

/-- The retained patterns by falling support; of equal supports the one admitted first. -/
def ranked (c : Collector) : List Pattern := Pattern.descending c.retained

/-- The numbers and patterns of equal support that a candidate is compared with. -/
def rivals (c : Collector) (support : Nat) : List (Nat × Pattern) :=
  (c.bySupport.getD support []).filterMap fun n => c.live[n]?.map (n, ·)

/-! ## Changes -/

/-- Admits a pattern under the next number. -/
def push (c : Collector) (p : Pattern) : Collector :=
  { c with
    heap := c.heap.push ⟨p, c.next⟩
    live := c.live.insert c.next p
    bySupport :=
      if c.subsumes then c.bySupport.alter p.support fun ns => some (c.next :: ns.getD [])
      else c.bySupport
    next := c.next + 1 }

/-- Gives up the pattern of a number. Its entry stays in the heap. -/
def discard (c : Collector) (number : Nat) : Collector :=
  match c.live[number]? with
  | none => c
  | some p =>
    { c with
      live := c.live.erase number
      bySupport :=
        if c.subsumes then
          c.bySupport.alter p.support fun ns =>
            match (ns.getD []).filter (· ≠ number) with
            | [] => none
            | rest => some rest
        else c.bySupport }

/-- Removes all stale entries if the heap has more than twice the capacity of entries. -/
def compact (c : Collector) : Collector :=
  if 2 * c.capacity < c.heap.size then { c with heap := c.heap.keep c.isLive } else c

/-- Gives up the weakest pattern: of those of least support the one admitted first. -/
def evict (c : Collector) : Collector :=
  let c := c.settle
  match c.heap.top? with
  | none => c
  | some e => discard { c with heap := c.heap.pop } e.number

/-- Puts a pattern in the place of the patterns of some numbers. -/
def replace (c : Collector) (numbers : List Nat) (p : Pattern) : Collector :=
  ((numbers.foldl discard c).push p).compact

/-- The numbers of the retained patterns that a candidate makes redundant, or `none` if one of
them makes the candidate redundant. -/
def redundantTo (c : Collector) (p : Pattern) : Option (List Nat) :=
  let rivals := c.rivals p.support
  if rivals.any fun (_, q) => p.isSubPatternOf q then none
  else some ((rivals.filter fun (_, q) => q.isSubPatternOf p).map Prod.fst)

/-- Admits a pattern, in the place of those that it makes redundant if the collector subsumes;
`none` if it is redundant itself. The flag says whether it took the place of any. -/
def add (c : Collector) (p : Pattern) : Option (Collector × Bool) :=
  if c.subsumes then
    (c.redundantTo p).map fun numbers => (c.replace numbers p, !numbers.isEmpty)
  else some (c.push p, false)

/-- Offers a pattern: the collector that retains it, or `none` if it is refused. -/
def offer (c : Collector) (p : Pattern) : Option Collector :=
  if p.items.isEmpty then none
  else if c.isFull && decide (p.support ≤ c.leastSupport) then none
  else
    (c.tested.add p).map fun added =>
      if c.isFull && !added.2 then added.1.evict else added.1

/-- A collector after it has refused a pattern: of a pattern with items it has tested the
support. -/
def refuse (c : Collector) (p : Pattern) : Collector := if p.items.isEmpty then c else c.tested

/-- A collector after an offer, admitted or refused. -/
def insert (c : Collector) (p : Pattern) : Collector := (c.offer p).getD (c.refuse p)

/-- Folds one pattern of another collector in: extended by an item, its support capped, and
offered if a pattern of that support would pass the test of capacity. The pair counts the patterns
admitted. -/
def mergeStep (item : Item) (support : Int) (state : Nat × Collector) (p : Pattern) :
    Except MiningError (Nat × Collector) :=
  let capped := min support p.support
  let c := state.2.tested
  if state.2.admits capped then
    (p.extend item capped).map fun q =>
      match c.offer q with
      | some admitted => (state.1 + 1, admitted)
      | none => (state.1, c.refuse q)
  else .ok (state.1, c)

/-- Folds all patterns of another collector in, strongest first, each extended by an item and with
its support capped. The answer has the number of patterns admitted. -/
def mergeAll (c child : Collector) (item : Item) (support : Int) :
    Except MiningError (Nat × Collector) :=
  child.ranked.foldlM (mergeStep item support) (0, c)

/-- A collector as a text. -/
def label (c : Collector) : String :=
  "BoundedPatternCollector(max_size=" ++ toString c.capacity ++ ", count=" ++ toString c.count ++
    ", least_support=" ++ toString c.leastSupport ++ ", subpattern_check=" ++
    (if c.subsumes then "True" else "False") ++ ")"

/-! ## Small laws -/

@[simp] theorem count_empty (capacity : Nat) (subsumes : Bool) (h : 0 < capacity) :
    (empty capacity subsumes h).count = 0 := rfl

/-- A refused pattern costs a collector at most stale entries of its heap. -/
theorem insert_of_refused {c : Collector} {p : Pattern} (h : c.offer p = none) :
    c.insert p = c.refuse p := by simp [insert, h]

end Collector

/-- A reading of a collector's ranked patterns one by one. The patterns are those that the collector
has when the first one is read. -/
inductive Reading where
  | waiting
  | remaining (patterns : List Pattern)

/-- The next pattern of a reading, if one is left, and the reading after it. -/
def Reading.next (r : Reading) (c : Collector) : Option Pattern × Reading :=
  let patterns := match r with
    | .waiting => c.ranked
    | .remaining patterns => patterns
  (patterns.head?, .remaining patterns.tail)

end TopPatterns

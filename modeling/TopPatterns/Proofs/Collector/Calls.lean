import Mathlib.Logic.Function.Basic
import TopPatterns.Proofs.Collector.Simulation

/-!
# Runs of calls

A family of collectors is used through calls in any order. `Collector.step` answers one call and
says what is left of the family, stale entries that a query removes included; `Shelf.step` does the
same for a family of plain lists. `step_shelf` is the simulation: one call to valid collectors and
the call to their shelves have the same answer, and leave collectors that are valid and the shelves
of which are those left. By induction on the calls, `answers_eq_shelf_answers`: nothing that a
program can see tells a family of collectors from the plain lists.
-/

namespace TopPatterns

/-- A call to one member of a family. A merge reads a second member, which may be the same. -/
inductive Call (ι : Type) where
  | insert (place : ι) (p : Pattern)
  | merge (place child : ι) (item : Item) (support : Int)
  | addable (place : ι) (support : Int)
  | count (place : ι)
  | isFull (place : ι)
  | leastSupport (place : ι)
  | ranked (place : ι)
deriving Repr

/-- What a call returns. -/
inductive Answer where
  | flag (value : Bool)
  | number (value : Nat)
  | patterns (value : List Pattern)
  | failed (error : MiningError)
deriving DecidableEq, Repr

variable {ι : Type} [DecidableEq ι]

/-- Answers a call to a family of collectors. An insertion answers whether the pattern is retained,
a merge how many patterns were; a merge that fails changes nothing. -/
def Collector.step (family : ι → Collector) : Call ι → Answer × (ι → Collector)
  | .insert i p =>
    (.flag ((family i).offer p).isSome, Function.update family i ((family i).insert p))
  | .merge i j item support =>
    match (family i).mergeAll (family j) item support with
    | .ok (n, c) => (.number n, Function.update family i c)
    | .error e => (.failed e, family)
  | .addable i support =>
    (.flag ((family i).admits support), Function.update family i (family i).tested)
  | .count i => (.number (family i).count, family)
  | .isFull i => (.flag (family i).isFull, family)
  | .leastSupport i =>
    (.number (family i).leastSupport, Function.update family i (family i).settle)
  | .ranked i => (.patterns (family i).ranked, family)

/-- Answers a call to a family of plain lists, of which only insertions and merges change any. -/
def Shelf.step (family : ι → Shelf) : Call ι → Answer × (ι → Shelf)
  | .insert i p =>
    (.flag ((family i).offer p).isSome, Function.update family i ((family i).insert p))
  | .merge i j item support =>
    match (family i).mergeAll (family j) item support with
    | .ok (n, s) => (.number n, Function.update family i s)
    | .error e => (.failed e, family)
  | .addable i support => (.flag ((family i).admits support), family)
  | .count i => (.number (family i).count, family)
  | .isFull i => (.flag (family i).isFull, family)
  | .leastSupport i => (.number (family i).leastSupport, family)
  | .ranked i => (.patterns (family i).ranked, family)

/-- The answers to calls made one after the other. -/
def Collector.answers (family : ι → Collector) : List (Call ι) → List Answer
  | [] => []
  | call :: calls =>
    let (answer, after) := Collector.step family call
    answer :: answers after calls

/-- The answers of plain lists to calls made one after the other. -/
def Shelf.answers (family : ι → Shelf) : List (Call ι) → List Answer
  | [] => []
  | call :: calls =>
    let (answer, after) := Shelf.step family call
    answer :: answers after calls

namespace Collector

/-- The shelves of a family. -/
def shelves (family : ι → Collector) : ι → Shelf := fun i => (family i).shelf

omit [DecidableEq ι] in
theorem shelves_apply (family : ι → Collector) (i : ι) : shelves family i = (family i).shelf := rfl

theorem shelves_update (family : ι → Collector) (i : ι) (c : Collector) :
    shelves (Function.update family i c) = Function.update (shelves family) i c.shelf := by
  funext j
  by_cases h : j = i
  · subst h; simp [shelves]
  · simp [shelves, Function.update_of_ne h]

/-- Updating a member by a collector of the same shelf leaves the shelves as they are. -/
theorem shelves_update_same {family : ι → Collector} {i : ι} {c : Collector}
    (h : c.shelf = (family i).shelf) : shelves (Function.update family i c) = shelves family := by
  rw [shelves_update, h, ← shelves_apply, Function.update_eq_self]

theorem valid_update {family : ι → Collector} (h : ∀ i, (family i).Valid) (i : ι) {c : Collector}
    (hc : c.Valid) (j : ι) : (Function.update family i c j).Valid := by
  by_cases hj : j = i
  · subst hj; rwa [Function.update_self]
  · rw [Function.update_of_ne hj]; exact h j

/-- One call: the answer is that of the shelves, and so are the collectors left behind. -/
theorem step_shelf {family : ι → Collector} (h : ∀ i, (family i).Valid) (call : Call ι) :
    Shelf.step (shelves family) call = ((step family call).1, shelves (step family call).2) ∧
      ∀ i, ((step family call).2 i).Valid := by
  cases call with
  | insert i p =>
    refine ⟨?_, valid_update h i (insert_valid (h i) p)⟩
    simp only [step, Shelf.step, shelves_update, shelves_apply]
    rw [insert_shelf (h i), ← offer_shelf (h i), Option.isSome_map]
  | merge i j item support =>
    -- the child may be the collector itself, for the merge reads its patterns beforehand
    have hmerge := mergeAll_shelf (h i) (family j) item support
    simp only [step, Shelf.step, shelves_apply, ← hmerge]
    cases hm : (family i).mergeAll (family j) item support with
    | error e => exact ⟨rfl, h⟩
    | ok after =>
      refine ⟨?_, valid_update h i (mergeAll_valid (h i) hm)⟩
      simp only [Except.map, outcome, shelves_update]
  | addable i support =>
    refine ⟨?_, valid_update h i (tested_valid (h i))⟩
    simp only [step, Shelf.step, shelves_apply, admits_shelf (h i).toHeaped,
      shelves_update_same (shelf_tested (family i))]
  | count i => exact ⟨by simp only [step, Shelf.step, shelves_apply, count_shelf], h⟩
  | isFull i => exact ⟨by simp only [step, Shelf.step, shelves_apply, isFull_shelf], h⟩
  | leastSupport i =>
    refine ⟨?_, valid_update h i (settle_valid (h i))⟩
    simp only [step, Shelf.step, shelves_apply, leastSupport_shelf (h i).toHeaped,
      shelves_update_same (shelf_settle (family i))]
  | ranked i => exact ⟨by simp only [step, Shelf.step, shelves_apply, ranked_shelf], h⟩

/-- Any calls to valid collectors have the answers that their shelves give. -/
theorem answers_shelves {family : ι → Collector} (h : ∀ i, (family i).Valid)
    (calls : List (Call ι)) : answers family calls = Shelf.answers (shelves family) calls := by
  induction calls generalizing family with
  | nil => rfl
  | cons call calls ih =>
    obtain ⟨hstep, hvalid⟩ := step_shelf h call
    rw [answers, Shelf.answers, hstep]
    exact congrArg _ (ih hvalid)

/-- **Collectors are plain lists.** Whatever the capacities and flags of a family of new collectors,
and whatever calls are made to them in whatever order, every call returns what it returns for the
plain lists. -/
theorem answers_eq_shelf_answers (capacity : ι → Nat) (subsumes : ι → Bool)
    (capacity_pos : ∀ i, 0 < capacity i) (calls : List (Call ι)) :
    answers (fun i => empty (capacity i) (subsumes i) (capacity_pos i)) calls =
      Shelf.answers (fun i => Shelf.empty (capacity i) (subsumes i)) calls :=
  answers_shelves (fun i => empty_valid (capacity_pos i)) calls

/-- A subsuming collector of two places and a plain one: patterns give way to more specific ones
until the heap is rebuilt, a full collector evicts, and a collector is merged into itself. -/
theorem answers_two_collectors :
    let p (items : List Int) (support : Nat) : Pattern := ⟨items.map Item.number, support⟩
    let calls : List (Call Bool) :=
      [.insert true (p [1] 5), .insert true (p [1, 2] 5), .insert true (p [1, 2, 3] 5),
        .insert true (p [4] 3), .insert true (p [1, 2, 3, 4] 5), .leastSupport true,
        .insert true (p [6] 7), .insert false (p [1] 2), .merge false true (.number 9) 6,
        .merge true true (.number 9) 6, .merge false false (.number 7) (-1), .ranked true,
        .ranked false]
    (∀ _ : Bool, 0 < (2 : Nat)) ∧
      answers (fun i : Bool => empty 2 i (by decide)) calls =
        Shelf.answers (fun i : Bool => Shelf.empty 2 i) calls :=
  ⟨by decide, answers_eq_shelf_answers (fun _ => 2) (fun i => i) (by decide) _⟩

end Collector

end TopPatterns

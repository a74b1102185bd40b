import Mathlib.Data.Nat.Bitwise
import Mathlib.Logic.Function.Iterate
import TopPatterns.Text.Basic

/-!
# Sets of code points

Tables of characters are compared with each other through sets of code points. A set is one number
with a bit for each code point in it, so that a membership is looked up in one step, however long
the table is that the set was made from (`testBit_codeSet`).
-/

namespace TopPatterns.Text

theorem toNat_ofNat {n : Nat} (h : n.isValidChar) : (Char.ofNat n).toNat = n := by
  rw [Char.ofNat, dif_pos h]
  rfl

/-- A range that covers a code point. -/
theorem exists_range_of_covers {ranges : List CodeRange} {n : Nat} (h : covers ranges n = true) :
    ∃ range ∈ ranges, range.1 ≤ n ∧ n ≤ range.2 := by
  induction ranges with
  | nil => cases h
  | cons range ranges ih =>
    obtain ⟨first, last⟩ := range
    rw [covers_cons] at h
    split at h
    · cases h
    · next hfirst =>
      split at h
      · next hlast => exact ⟨_, List.mem_cons_self .., by omega, hlast⟩
      · obtain ⟨range, hmem, hrange⟩ := ih h
        exact ⟨range, List.mem_cons_of_mem _ hmem, hrange⟩

/-- In ascending order the search finds each range. -/
theorem covers_of_mem {ranges : List CodeRange}
    (h : ranges.Pairwise fun range later => range.1 ≤ later.1) {n : Nat}
    (hn : ∃ range ∈ ranges, range.1 ≤ n ∧ n ≤ range.2) : covers ranges n = true := by
  obtain ⟨range, hrange, hfirst, hlast⟩ := hn
  induction ranges with
  | nil => cases hrange
  | cons next ranges ih =>
    obtain ⟨first, last⟩ := next
    obtain ⟨hlater, hranges⟩ := List.pairwise_cons.1 h
    rw [covers_cons]
    rcases List.mem_cons.1 hrange with rfl | hrange
    · rw [if_neg (Nat.not_lt.2 hfirst), if_pos hlast]
    · rw [if_neg (Nat.not_lt.2 (Nat.le_trans (hlater range hrange) hfirst))]
      split
      · rfl
      · exact ih hranges hrange

/-- Whether a character is in a set of code points. -/
def inSet (set : Nat) (c : Char) : Bool := set.testBit c.toNat

/-- Some sets with every two neighbours made one. -/
def joinPairs : List Nat → List Nat
  | set :: next :: sets => (set ||| next) :: joinPairs sets
  | sets => sets

/-- The set of what is in one of some sets. Few sets are left after some rounds of joining
neighbours, so the union does not nest as deep as there are sets. -/
def unionSet (sets : List Nat) : Nat := (joinPairs^[10] sets).foldr (· ||| ·) 0

/-- The set of the code points in some ranges. -/
def codeSet (ranges : List CodeRange) : Nat :=
  unionSet (ranges.map fun range => (1 <<< (range.2 + 1 - range.1) - 1) <<< range.1)

/-- The set of some code points. -/
def pointSet (points : List Nat) : Nat := codeSet (points.map fun n => (n, n))

theorem exists_mem_joinPairs (sets : List Nat) (n : Nat) :
    (∃ set ∈ joinPairs sets, set.testBit n = true) ↔ ∃ set ∈ sets, set.testBit n = true := by
  induction sets using joinPairs.induct with
  | case1 set next sets ih =>
    rw [joinPairs]
    simp only [List.mem_cons, exists_eq_or_imp, ih, Nat.testBit_or, Bool.or_eq_true, or_assoc]
  | case2 sets h =>
    rw [joinPairs]
    exact h

theorem testBit_unionSet (sets : List Nat) (n : Nat) :
    (unionSet sets).testBit n = true ↔ ∃ set ∈ sets, set.testBit n = true := by
  have hfoldr : ∀ sets : List Nat, (sets.foldr (· ||| ·) 0).testBit n = true ↔
      ∃ set ∈ sets, set.testBit n = true := by
    intro sets
    induction sets with
    | nil => simp
    | cons set sets ih =>
      rw [List.foldr_cons, Nat.testBit_or, Bool.or_eq_true, ih]
      simp only [List.mem_cons, exists_eq_or_imp]
  rw [unionSet, hfoldr]
  generalize 10 = rounds
  induction rounds generalizing sets with
  | zero => rfl
  | succ rounds ih => exact (ih (joinPairs sets)).trans (exists_mem_joinPairs sets n)

theorem testBit_unionSet_map {α : Type} (f : α → Nat) (xs : List α) (n : Nat) :
    (unionSet (xs.map f)).testBit n = true ↔ ∃ x ∈ xs, (f x).testBit n = true := by
  rw [testBit_unionSet]
  simp only [List.mem_map, exists_exists_and_eq_and]

theorem testBit_codeSet (ranges : List CodeRange) (n : Nat) :
    (codeSet ranges).testBit n = true ↔ ∃ range ∈ ranges, range.1 ≤ n ∧ n ≤ range.2 := by
  rw [codeSet, testBit_unionSet_map]
  refine exists_congr fun range => and_congr_right fun _ => ?_
  rw [Nat.one_shiftLeft, Nat.testBit_shiftLeft, Nat.testBit_two_pow_sub_one, Bool.and_eq_true,
    decide_eq_true_iff, decide_eq_true_iff]
  omega

/-- Whether a code point is in a set, looked up with a mask. What is computed on the way is as long
as the code point and not as the set, so tables are gone through with it. -/
def hasPoint (set n : Nat) : Bool := set &&& 1 <<< n != 0

theorem hasPoint_eq (set : Nat) : hasPoint set = set.testBit := by
  funext n
  unfold hasPoint
  rw [Nat.one_shiftLeft, Nat.and_two_pow]
  cases set.testBit n <;> simp

/-- Nothing in some ranges is in a set apart from them. -/
theorem testBit_eq_false_of_apart {set n : Nat} {ranges : List CodeRange}
    (h : set &&& codeSet ranges = 0) (hn : ∃ range ∈ ranges, range.1 ≤ n ∧ n ≤ range.2) :
    set.testBit n = false := by
  have hand := congrArg (·.testBit n) h
  simpa [Nat.testBit_and, (testBit_codeSet ranges n).2 hn] using hand

theorem testBit_pointSet (points : List Nat) (n : Nat) :
    (pointSet points).testBit n = true ↔ n ∈ points := by
  rw [pointSet, testBit_codeSet]
  constructor
  · intro h
    obtain ⟨range, hrange, hfirst, hlast⟩ := h
    obtain ⟨m, hm, rfl⟩ := List.mem_map.1 hrange
    obtain rfl : m = n := Nat.le_antisymm hfirst hlast
    exact hm
  · intro h
    exact ⟨(n, n), List.mem_map_of_mem h, Nat.le_refl n, Nat.le_refl n⟩

/-- Ranges in ascending order cover just their set. -/
theorem covers_eq_testBit {ranges : List CodeRange}
    (h : ranges.Pairwise fun range later => range.1 ≤ later.1) (n : Nat) :
    covers ranges n = (codeSet ranges).testBit n := by
  rw [Bool.eq_iff_iff, testBit_codeSet]
  exact ⟨exists_range_of_covers, covers_of_mem h⟩

end TopPatterns.Text

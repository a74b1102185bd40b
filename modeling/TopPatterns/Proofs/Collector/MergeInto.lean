import Mathlib
import TopPatterns.Proofs.Collector.Merge

/-!
# Merges into a member of a family

A merge takes the patterns of one collector into another one, which may be the same. With a support
that is not negative it inserts them, extended (`mergeRun_eq`). With a negative support it fails at
its first pattern if there is room for it (`mergeRun_of_room`), and passes over all patterns if there
is none (`mergeRun_of_full`). `mergeInto` is a merge between two members of a family, with what a
failure leaves behind. It is what a call of a family does (`step_merge_eq`), and `mergeInto_outcome`
says what it comes to in all cases.
-/

namespace TopPatterns

namespace Collector

variable {c : Collector} {support : Int}

/-! ## Merges with a negative support -/

/-- A collector admits a negative support exactly if it has room. -/
theorem admits_of_neg (h : c.Valid) (hs : support < 0) : c.admits support = !c.isFull := by
  have hle := h.count_le
  rw [admits, isFull]
  split
  · next hlt => simp [Nat.ne_of_lt hlt]
  · have hnot : ¬(c.leastSupport : Int) < support := by omega
    rw [decide_eq_false hnot, decide_eq_true (by omega : c.count = c.capacity)]
    rfl

/-- A full collector passes over all patterns, which costs it at most stale entries of its heap. -/
theorem mergeRun_of_full (h : c.Valid) (item : Item) (hs : support < 0) (hfull : c.isFull = true)
    (n : Nat) (ps : List Pattern) :
    ∃ left, mergeRun item support (n, c) ps = (.ok n, left) ∧ left.Valid ∧
      left.shelf = c.shelf := by
  induction ps generalizing c with
  | nil => exact ⟨c, rfl, h, rfl⟩
  | cons p ps ih =>
    have hcapped : min support (p.support : Int) = support := Int.min_eq_left (by omega)
    have hadmits : c.admits support = false := by rw [admits_of_neg h hs, hfull]; rfl
    obtain ⟨left, hrun, hvalid, hshelf⟩ := ih (tested_valid h) (isFull_tested.trans hfull)
    refine ⟨left, ?_, hvalid, hshelf.trans (shelf_tested c)⟩
    simp only [mergeRun, mergeStep, hcapped, hadmits]
    exact hrun

/-- A collector with room fails at the first pattern, and is what it was. -/
theorem mergeRun_of_room (h : c.Valid) (item : Item) (hs : support < 0) (hroom : c.isFull = false)
    (n : Nat) (p : Pattern) (ps : List Pattern) :
    mergeRun item support (n, c) (p :: ps) = (.error (.negativeSupport support), c) := by
  have hcapped : min support (p.support : Int) = support := Int.min_eq_left (by omega)
  have hadmits : c.admits support = true := by rw [admits_of_neg h hs, hroom]; rfl
  have hextend := Pattern.extend_of_neg hs item p
  have htested : c.tested = c := by rw [tested, hroom]; rfl
  rw [hcapped] at hextend
  simp only [mergeRun, mergeStep, hcapped, hadmits, hextend, Except.map, htested, if_true]

/-! ## Two members of a family -/

variable {ι : Type} [DecidableEq ι]

/-- Merges the patterns that one member of a family has at the beginning into a member, which may be
the same: what the merge returns or fails with, and the family that it leaves. -/
def mergeInto (family : ι → Collector) (i j : ι) (item : Item) (support : Int) :
    Except MiningError Nat × (ι → Collector) :=
  let run := mergeRun item support (0, family i) (family j).ranked
  (run.1, Function.update family i run.2)

/-- What is seen of a collector: the number of its patterns, whether it is full, its least support,
and its patterns, strongest first. -/
def contents (c : Collector) : Nat × Bool × Nat × List Pattern :=
  (c.count, c.isFull, c.leastSupport, c.ranked)

/-- What is seen of a collector is known from its plain list. -/
theorem contents_eq {d : Collector} (hc : c.Valid) (hd : d.Valid) (h : c.shelf = d.shelf) :
    c.contents = d.contents := by
  rw [contents, contents, ← count_shelf, ← count_shelf, ← isFull_shelf, ← isFull_shelf,
    ← leastSupport_shelf hc.toHeaped, ← leastSupport_shelf hd.toHeaped, ← ranked_shelf,
    ← ranked_shelf, h]

/-- With a negative support a merge fails if there is something to merge and room for it; in all
cases what is seen of a member stays. -/
theorem mergeInto_of_neg {family : ι → Collector} (h : ∀ i, (family i).Valid) (i j : ι)
    (item : Item) (hs : support < 0) :
    ((mergeInto family i j item support).1 =
        if (family j).count ≠ 0 ∧ (family i).isFull = false then .error (.negativeSupport support)
        else .ok 0) ∧
      ∀ m, ((mergeInto family i j item support).2 m).contents = (family m).contents := by
  have hlength : (family j).ranked.length = (family j).count := by
    rw [count_eq_length]
    exact (Pattern.descending_perm _).length_eq
  have hkept : ∀ left : Collector, left.Valid → left.shelf = (family i).shelf →
      ∀ m, (Function.update family i left m).contents = (family m).contents := by
    intro left hvalid hshelf m
    by_cases hm : m = i
    · subst hm
      rw [Function.update_self]
      exact contents_eq hvalid (h m) hshelf
    · rw [Function.update_of_ne hm]
  unfold mergeInto
  cases hfull : (family i).isFull with
  | true =>
    obtain ⟨left, hrun, hvalid, hshelf⟩ := mergeRun_of_full (h i) item hs hfull 0 (family j).ranked
    rw [hrun]
    exact ⟨by simp, hkept left hvalid hshelf⟩
  | false =>
    cases hps : (family j).ranked with
    | nil =>
      rw [hps, List.length_nil] at hlength
      exact ⟨by simp [mergeRun, ← hlength], hkept _ (h i) rfl⟩
    | cons p ps =>
      rw [hps, List.length_cons] at hlength
      rw [mergeRun_of_room (h i) item hs hfull]
      exact ⟨by simp [← hlength], hkept _ (h i) rfl⟩

/-- The call that merges answers with the end of the run and leaves what the run leaves, also if it
fails. -/
theorem step_merge_eq {family : ι → Collector} (h : ∀ i, (family i).Valid) (i j : ι) (item : Item)
    (support : Int) :
    step family (.merge i j item support) =
      match mergeInto family i j item support with
      | (.ok n, left) => (.number n, left)
      | (.error e, left) => (.failed e, left) := by
  rw [step, mergeAll_eq_mergeRun, mergeInto]
  rcases Int.lt_or_le support 0 with hs | hs
  · cases hfull : (family i).isFull with
    | true =>
      obtain ⟨left, hrun, -, -⟩ := mergeRun_of_full (h i) item hs hfull 0 (family j).ranked
      rw [hrun]
    | false =>
      cases (family j).ranked with
      | nil => rfl
      | cons p ps =>
        rw [mergeRun_of_room (h i) item hs hfull]
        show (_, family) = (_, Function.update family i (family i))
        rw [Function.update_eq_self]
  · rw [mergeRun_eq (h i) item hs]

/-- **Merges, failures included.** Take any members of a family, after any calls to new collectors.
A merge with a support that is not negative extends the patterns that the one member has at the
beginning, inserts them into the other member, strongest first, and returns how many were admitted;
all other members are what they were. With a negative support it fails exactly if there is
something to merge and room for it, returns 0 otherwise, and leaves what is seen of every member as
it was. -/
theorem mergeInto_outcome (capacity : ι → Nat) (subsumes : ι → Bool)
    (capacity_pos : ∀ i, 0 < capacity i) (calls : List (Call ι)) (i j : ι) (item : Item)
    (support : Int) :
    let family := after (fun i => empty (capacity i) (subsumes i) (capacity_pos i)) calls
    (0 ≤ support → ∃ offered,
      ((family j).ranked.mapM fun p => p.extend item (min support p.support)) = .ok offered ∧
        mergeInto family i j item support = (.ok ((family i).admissions offered),
          Function.update family i ((family i).insertAll offered))) ∧
      (support < 0 →
        ((mergeInto family i j item support).1 =
          if (family j).count ≠ 0 ∧ (family i).isFull = false then
            .error (.negativeSupport support)
          else .ok 0) ∧
        ∀ m, ((mergeInto family i j item support).2 m).contents = (family m).contents) := by
  intro family
  have hvalid : ∀ i, (family i).Valid := fun i =>
    (after_empty capacity subsumes capacity_pos calls i).1
  constructor
  · intro hs
    refine ⟨_, Pattern.mapM_extend hs item _, ?_⟩
    rw [mergeInto, mergeRun_eq (hvalid i) item hs, Nat.zero_add]
  · exact fun hs => mergeInto_of_neg hvalid i j item hs

/-- A collector merged into itself: capped, its stronger pattern takes the place of the weaker one,
which is redundant beside it afterwards. A negative support fails where there is room. -/
theorem mergeInto_outcome_into_itself :
    let p (items : List Int) (support : Nat) : Pattern := ⟨items.map Item.number, support⟩
    let calls : List (Call Bool) :=
      [.insert true (p [1] 5), .insert true (p [1, 2] 7), .insert false (p [3] 4)]
    let family := after (fun i => empty 3 i (by decide)) calls
    (∀ _ : Bool, 0 < (3 : Nat)) ∧ (0 : Int) ≤ 5 ∧ (-1 : Int) < 0 ∧
      (mergeInto family true true (.number 9) 5).1 = .ok 1 ∧
      ((mergeInto family true true (.number 9) 5).2 true).ranked = [p [1, 2] 7, p [1, 2, 9] 5] ∧
      (mergeInto family false true (.number 9) (-1)).1 = .error (.negativeSupport (-1)) ∧
      ((mergeInto family false true (.number 9) (-1)).2 false).contents =
        (family false).contents := by
  intro p calls family
  obtain ⟨hcapped, -⟩ := mergeInto_outcome (fun _ => 3) (fun i : Bool => i) (by decide) calls true
    true (.number 9) 5
  obtain ⟨-, hneg⟩ := mergeInto_outcome (fun _ => 3) (fun i : Bool => i) (by decide) calls false
    true (.number 9) (-1)
  obtain ⟨offered, hoffered, hmerge⟩ := hcapped (by decide)
  obtain ⟨hfails, hkept⟩ := hneg (by decide)
  have hlist : offered = [p [1, 2, 9] 5, p [1, 9] 5] := by
    have hranked : (family true).ranked = [p [1, 2] 7, p [1] 5] := by
      simp only [family, calls, p]
      cbv
    rw [hranked] at hoffered
    exact (Except.ok.inj hoffered).symm
  subst hlist
  rw [hmerge]
  refine ⟨by decide, by decide, by decide, ?_, ?_, ?_, hkept false⟩
  · simp only [calls, p]
    cbv
  · simp only [calls, p]
    cbv
  · rw [hfails]
    simp only [calls, p]
    cbv

end Collector

end TopPatterns

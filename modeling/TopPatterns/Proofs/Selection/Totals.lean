import Mathlib.Data.Multiset.Sort
import TopPatterns.Proofs.Selection.Selects

/-!
# What a selection says about its family

`Selects` relates the patterns of a shelf to a family of sets. Here the family is finite, and the
largest sets of each kind are its representatives. `Selects.mem_iff` says which sets are retained
above the least support, `Selects.countP_le_support` how many patterns have at least some support,
and `Selects.supports_eq` puts these counts together: the ranked supports are the greatest supports
of the representatives, as many as there is room for.
-/

namespace TopPatterns

/-! ## Falling lists of numbers -/

/-- Of the first places of a falling list, as many hold at least a bound as in the whole list, up
to their number. -/
theorem countP_take_of_falling {l : List Nat} (h : l.Pairwise (· ≥ ·)) (k bound : Nat) :
    (l.take k).countP (fun n => decide (bound ≤ n)) =
      min k (l.countP fun n => decide (bound ≤ n)) := by
  induction l generalizing k with
  | nil => simp
  | cons a l ih =>
    have hm := List.pairwise_cons.1 h
    cases k with
    | zero => simp
    | succ k =>
      rw [List.take_succ_cons, List.countP_cons, List.countP_cons, ih hm.2]
      by_cases ha : bound ≤ a
      · simp only [ha, decide_true, if_true]
        omega
      · -- nothing after the first number is larger, so nothing holds the bound
        have hzero : (l.countP fun n => decide (bound ≤ n)) = 0 := by
          refine List.countP_eq_zero.2 fun n hn hle => ha ?_
          exact Nat.le_trans (of_decide_eq_true hle) (hm.1 n hn)
        simp [ha, hzero]

/-- A falling list is known by how many of its numbers hold at least each bound. -/
theorem eq_of_countP_eq {l l' : List Nat} (h : l.Pairwise (· ≥ ·)) (h' : l'.Pairwise (· ≥ ·))
    (hcount : ∀ bound, l.countP (fun n => decide (bound ≤ n)) =
      l'.countP fun n => decide (bound ≤ n)) : l = l' := by
  -- how often a number occurs is the difference of the counts for two bounds
  have split : ∀ (xs : List Nat) (a : Nat), (xs.countP fun n => decide (a ≤ n)) =
      xs.count a + xs.countP fun n => decide (a + 1 ≤ n) := by
    intro xs a
    induction xs with
    | nil => rfl
    | cons x xs ih =>
      rw [List.countP_cons, List.countP_cons, List.count_cons, ih]
      rcases Nat.lt_trichotomy x a with hlt | rfl | hgt
      · simp [Nat.not_le.2 hlt, Nat.ne_of_lt hlt, Nat.not_le.2 (Nat.lt_succ_of_lt hlt)]
      · have hself : decide (x + 1 ≤ x) = false := decide_eq_false (Nat.not_succ_le_self x)
        simp only [hself, Nat.le_refl, decide_true, beq_self_eq_true, Bool.false_eq_true, if_true,
          if_false]
        omega
      · simp [Nat.le_of_lt hgt, Nat.ne_of_gt hgt, Nat.succ_le_of_lt hgt]
        omega
  refine List.Perm.eq_of_pairwise (fun a b _ _ hab hba => Nat.le_antisymm hba hab) h h' ?_
  refine List.perm_iff_count.2 fun a => ?_
  have hsame := hcount a
  rw [split l a, split l' a, hcount (a + 1)] at hsame
  omega

/-! ## Representatives -/

variable {subsumes : Bool} {w : Weighing subsumes}

/-- Sets of a family, one for all sets that count as the same, with all items of these. -/
structure Represents (w : Weighing subsumes) (family chosen : Finset (Finset Item)) : Prop where
  subset : chosen ⊆ family
  exists_of_mem : ∀ S ∈ family, ∃ C ∈ chosen, w.Alike C S ∧ S ⊆ C
  eq_of_alike : ∀ C ∈ chosen, ∀ D ∈ chosen, w.Alike C D → C = D

/-- Where nothing but equal sets counts as the same, the family represents itself. -/
theorem Represents.of_plain {w : Weighing false} (family : Finset (Finset Item)) :
    Represents w family family where
  subset := Finset.Subset.refl _
  exists_of_mem := fun S hS => ⟨S, hS, w.refl S, Finset.Subset.refl S⟩
  eq_of_alike := fun _ _ _ _ h => w.eq_of_alike rfl h

/-- A rich family has as many representatives. -/
theorem Represents.le_card_of_rich {family chosen : Finset (Finset Item)}
    (h : Represents w family chosen) {k support : Nat} (hr : Rich w k ↑family support) :
    k ≤ (chosen.filter fun S => support ≤ w.support S).card := by
  obtain ⟨sets, rfl, hsets⟩ := hr
  choose rep hrep using h.exists_of_mem
  have hmem : ∀ S ∈ sets, S ∈ family := fun S hS => Finset.mem_coe.1 (hsets S hS).1
  refine Finset.card_le_card_of_injOn (fun S => if hS : S ∈ family then rep S hS else S)
    (fun S hS => ?_) (fun S hS T hT he => ?_)
  · have hS' := hmem S hS
    obtain ⟨hin, halike, -⟩ := hrep S hS'
    simp only [dif_pos hS', Finset.mem_coe, Finset.mem_filter]
    exact ⟨hin, w.support_eq halike ▸ (hsets S hS).2.1⟩
  · -- sets with the same representative count as the same
    have hS' := hmem S hS
    have hT' := hmem T hT
    simp only [dif_pos hS', dif_pos hT'] at he
    refine (hsets S hS).2.2 T hT ?_
    exact Weighing.trans (Weighing.symm (hrep S hS').2.1) (he ▸ (hrep T hT').2.1)

namespace Selects

variable {k : Nat} {family chosen : Finset (Finset Item)} {ps : List Pattern}

/-- **Which sets are retained.** Where the shelf is not blocked, the retained sets are the
representatives. -/
theorem mem_iff (h : Selects w k 0 ↑family ps) (hr : Represents w family chosen)
    {S : Finset Item} (hb : ¬Blocked k ps (w.support S)) :
    (∃ r ∈ ps, r.itemSet = S) ↔ S ∈ chosen := by
  have held : ∀ C ∈ chosen, w.support C = w.support S →
      ∃ r ∈ ps, w.Alike r.itemSet C ∧ C ⊆ r.itemSet := fun C hC hsup =>
    (h.covered C (hr.subset hC) (Nat.zero_le _)).resolve_left (hsup ▸ hb)
  constructor
  · intro hheld
    obtain ⟨r, hmem, rfl⟩ := hheld
    -- a representative stands for the set, and is covered by a pattern that must be the same
    obtain ⟨C, hC, hCr, hsub⟩ := hr.exists_of_mem _ (h.within r hmem)
    obtain ⟨r', hr', hr'C, hCsub⟩ := held C hC (w.support_eq hCr)
    have heq := h.eq_of_alike hmem hr' (Weighing.symm (Weighing.trans hr'C hCr)) (Nat.zero_le _)
      ((h.exact r hmem).support_eq ▸ hb)
    rwa [Finset.Subset.antisymm hsub (heq ▸ hCsub)]
  · intro hS
    obtain ⟨r, hmem, halike, hsub⟩ := held S hS rfl
    obtain ⟨C, hC, hCr, hrC⟩ := hr.exists_of_mem _ (h.within r hmem)
    obtain rfl := hr.eq_of_alike C hC S hS (Weighing.trans hCr halike)
    exact ⟨r, hmem, Finset.Subset.antisymm hrC hsub⟩

/-- The sets of the retained patterns of at least some support, where the shelf is not blocked. -/
theorem image_filter_eq (h : Selects w k 0 ↑family ps) (hr : Represents w family chosen)
    {bound : Nat} (hb : ¬Blocked k ps bound) :
    (ps.filter fun r => decide (bound ≤ r.support)).toFinset.image Pattern.itemSet =
      chosen.filter fun S => bound ≤ w.support S := by
  ext S
  simp only [Finset.mem_image, List.mem_toFinset, List.mem_filter, decide_eq_true_eq,
    Finset.mem_filter]
  constructor
  · intro hS
    obtain ⟨r, ⟨hmem, hle⟩, rfl⟩ := hS
    rw [(h.exact r hmem).support_eq] at hle
    exact ⟨(h.mem_iff hr fun hbr => hb (hbr.mono hle)).1 ⟨r, hmem, rfl⟩, hle⟩
  · intro hS
    obtain ⟨hS, hle⟩ := hS
    obtain ⟨r, hmem, rfl⟩ := (h.mem_iff hr fun hbr => hb (hbr.mono hle)).2 hS
    exact ⟨r, ⟨hmem, (h.exact r hmem).support_eq ▸ hle⟩, rfl⟩

/-- **How many patterns have at least some support.** As many as representatives do, up to the
room there is. -/
theorem countP_le_support (h : Selects w k 0 ↑family ps) (hr : Represents w family chosen)
    (bound : Nat) :
    (ps.countP fun r => decide (bound ≤ r.support)) =
      min k (chosen.filter fun S => bound ≤ w.support S).card := by
  by_cases hb : Blocked k ps bound
  · -- a rich family has enough representatives to fill the shelf
    have hall : (ps.countP fun r => decide (bound ≤ r.support)) = ps.length :=
      List.countP_eq_length.2 fun r hmem => decide_eq_true (hb.2 r hmem)
    have hle := hr.le_card_of_rich (h.rich bound (Nat.zero_le _) hb)
    rw [hall, hb.1, Nat.min_eq_left hle]
  · have hcard : (ps.countP fun r => decide (bound ≤ r.support)) =
        (chosen.filter fun S => bound ≤ w.support S).card := by
      rw [← h.image_filter_eq hr hb, Finset.card_image_of_injOn, List.toFinset_card_of_nodup
        (h.nodup.sublist List.filter_sublist), List.countP_eq_length_filter]
      intro r hmem r' hmem' he
      simp only [Finset.mem_coe, List.mem_toFinset, List.mem_filter] at hmem hmem'
      exact h.eq_of_itemSet_eq hmem.1 hmem'.1 he
    have hle : (ps.countP fun r => decide (bound ≤ r.support)) ≤ k :=
      Nat.le_trans List.countP_le_length h.length_le
    rw [← hcard, Nat.min_eq_right hle]

/-- A shelf retains as many patterns as there are representatives, up to the room there is. -/
theorem length_eq (h : Selects w k 0 ↑family ps) (hr : Represents w family chosen) :
    ps.length = min k chosen.card := by
  have hcount := h.countP_le_support hr 0
  simpa using hcount

/-- **The ranked supports.** They are the greatest supports of the representatives. -/
theorem supports_eq (h : Selects w k 0 ↑family ps) (hr : Represents w family chosen) :
    (Pattern.descending ps).map Pattern.support =
      ((chosen.val.map w.support).sort (· ≥ ·)).take k := by
  have hsorted := (chosen.val.map w.support).pairwise_sort (· ≥ ·)
  refine eq_of_countP_eq (Pattern.pairwise_support_descending ps)
    (hsorted.sublist (List.take_sublist _ _)) fun bound => ?_
  rw [countP_take_of_falling hsorted, List.countP_map, (Pattern.descending_perm ps).countP_eq]
  have hcoe : (((chosen.val.map w.support).sort (· ≥ ·)).countP fun n => decide (bound ≤ n)) =
      (chosen.filter fun S => bound ≤ w.support S).card := by
    rw [← Multiset.coe_countP, Multiset.sort_eq, Multiset.countP_map]
    rfl
  rw [hcoe]
  exact h.countP_le_support hr bound

end Selects

end TopPatterns

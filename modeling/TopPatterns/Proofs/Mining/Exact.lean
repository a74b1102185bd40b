import TopPatterns.Proofs.Mining.Transactions

/-!
# A single pass is exact

`mine_selecting` says that the miner succeeds on uniform transactions and selects from their
frequent sets. What this means for the patterns returned follows from `Selection/Totals`. Without
subsumption they are the strongest frequent sets (`mine_plain_exact`), with it the strongest closed
ones (`mine_closed_exact`); in both cases a set above the least support is never missed, and only
among the sets of the least support may some be left out.
-/

namespace TopPatterns

open Paths PatternTree

variable {transactions : List Transaction} {minimum capacity : Int} {subsumes : Bool}

/-! ## Whole transactions -/

theorem arranged_arrange (order : ItemOrder) (h : Uniform transactions) :
    Arranged order (transactions.map fun t => (order.arrange t, 1)) where
  sublist := by
    intro e he
    obtain ⟨t, -, rfl⟩ := List.mem_map.1 he
    exact order.arrange_sublist t
  pos := pos_of_mem_map_one
  present := by
    intro e he habs
    obtain ⟨t, ht, rfl⟩ := List.mem_map.1 he
    exact h.not_mem_absent ht (ItemOrder.mem_arrange.1 habs).2

/-- The ranked items of the transactions agree with these on all sets of ranked items. -/
theorem agreesOn_arrange (order : ItemOrder) (items : List Item) :
    AgreesOn transactions order (transactions.map fun t => (order.arrange t, 1)) items := by
  intro S hS x _ _
  rw [weight_map_one, supportOf]
  refine congrArg Nat.cast (List.countP_congr fun t _ => ?_)
  rw [holds_iff, decide_eq_true_iff]
  exact forall₂_congr fun y hy => ItemOrder.mem_arrange.trans (and_iff_right (hS y hy))

/-- Mining ranks the items, builds the tree and grows it. Without transactions the tree is skipped,
but there is nothing to grow. -/
theorem mine_eq_grow (capacity : Int) (subsumes : Bool) (hmin : 1 ≤ minimum) {order : ItemOrder}
    (hrank : rankItems transactions minimum = .ok order) :
    mine transactions capacity minimum subsumes =
      (ofPaths order (transactions.map fun t => (order.arrange t, 1))).grow capacity minimum
        subsumes none := by
  have hcheck : checkMinimum minimum = .ok () := if_neg (by omega)
  rw [mine, hcheck, hrank]
  cases transactions with
  | nil =>
    rw [List.map_nil, grow_of_nil capacity minimum order (by simp)]
    rfl
  | cons t transactions => rfl

/-- **A single pass.** Uniform transactions are mined without failure, and the collector selects
from the frequent sets. -/
theorem mine_selecting (subsumes : Bool) (hcap : 1 ≤ capacity) (hmin : 1 ≤ minimum)
    (h : Uniform transactions) :
    ∃ c, mine transactions capacity minimum subsumes = .ok c ∧
      c.Selecting (weighingOf transactions subsumes) capacity.toNat
        ↑(frequent transactions minimum) := by
  obtain ⟨order, hrank, hitems⟩ := rankItems_spec h hmin
  have hranked : ∀ x, minimum ≤ supportOf transactions {x} → x ∈ order.items := fun x =>
    (hitems x).2
  rw [mine_eq_grow capacity subsumes hmin hrank]
  obtain ⟨c, hrun, hc⟩ := grow_of_agreeing subsumes (arranged_arrange order h) hcap hmin
    none hranked (agreesOn_arrange order _)
  rw [chosenItems, ending_items fun S hle => mem_items_of_weight hranked hle,
    frequentSets_transactionPaths hmin] at hc
  exact ⟨c, hrun, hc⟩

/-! ## What a collector holds -/

namespace Collector.Selecting

variable {c : Collector} {w : Weighing subsumes} {k : Nat} {family : Set (Finset Item)}

/-- A collector with room, or with weaker patterns only, is not blocked. -/
theorem not_blocked (h : c.Selecting w k family) {support : Nat}
    (hroom : c.isFull = true → c.leastSupport < support) : ¬Blocked k c.retained support := by
  rw [← h.capacity_eq, blocked_iff h.valid, not_and, Nat.not_le]
  exact hroom

end Collector.Selecting

/-- The item sets of selected patterns are different. -/
theorem Selects.nodup_itemSets {w : Weighing subsumes} {k floor : Nat}
    {family : Set (Finset Item)} {ps : List Pattern} (h : Selects w k floor family ps) :
    (ps.map Pattern.itemSet).Nodup :=
  h.nodup.map_on fun _ hr _ hr' he => h.eq_of_itemSet_eq hr hr' he

theorem support_weighingOf_eq (transactions : List Transaction) (subsumes : Bool) :
    (weighingOf transactions subsumes).support = supportOf transactions :=
  funext support_weighingOf

/-! ## The patterns returned -/

/-- **The strongest frequent sets.** Without subsumption, mining uniform transactions returns as
many patterns as there are frequent sets, or as there is room for. Each has different items, and the
exact support of their set, which is frequent; no set is returned twice. No set above the least
support is missed, none at all if there is room left, and the supports are the greatest of all. -/
theorem mine_plain_exact (transactions : List Transaction) (capacity minimum : Int)
    (hcap : 1 ≤ capacity) (hmin : 1 ≤ minimum) (h : Uniform transactions) :
    ∃ c, mine transactions capacity minimum false = .ok c ∧
      c.count = min capacity.toNat (frequent transactions minimum).card ∧
      (∀ p ∈ c.retained, p.items.Nodup ∧ p.itemSet ∈ frequent transactions minimum ∧
        p.support = supportOf transactions p.itemSet) ∧
      (c.retained.map Pattern.itemSet).Nodup ∧
      (∀ S ∈ frequent transactions minimum,
        (c.isFull = true → c.leastSupport < supportOf transactions S) →
        ∃ p ∈ c.retained, p.itemSet = S) ∧
      c.ranked.map Pattern.support =
        (((frequent transactions minimum).val.map (supportOf transactions)).sort (· ≥ ·)).take
          capacity.toNat := by
  obtain ⟨c, hrun, hc⟩ := mine_selecting false hcap hmin h
  have hsel := hc.retained
  have hrep := Represents.of_plain (w := weighingOf transactions false)
    (frequent transactions minimum)
  refine ⟨c, hrun, ?_, fun p hp => ?_, hsel.nodup_itemSets, fun S hS hroom => ?_, ?_⟩
  · rw [Collector.count_eq_length]
    exact hsel.length_eq hrep
  · have hexact := hsel.exact p hp
    exact ⟨hexact.nodup, hsel.within p hp, hexact.support_eq.trans (support_weighingOf _)⟩
  · exact (hsel.mem_iff hrep (by rw [support_weighingOf]; exact hc.not_blocked hroom)).2 hS
  · rw [← support_weighingOf_eq transactions false]
    exact hsel.supports_eq hrep

/-- Of five frequent sets there is room for two, the strongest and one of the next support. -/
theorem mine_plain_exact_room_for_two :
    let transactions : List Transaction :=
      [[.number 1, .number 2], [.number 2, .number 1, .number 1], [], [.number 3, .number 1]]
    ((1 : Int) ≤ 2 ∧ (1 : Int) ≤ 1 ∧ Uniform transactions) ∧
      ∃ c, mine transactions 2 1 false = .ok c ∧ c.count = 2 ∧
        c.ranked.map Pattern.support = [3, 2] := by
  intro transactions
  have huniform : Uniform transactions := by decide
  refine ⟨⟨by decide, by decide, huniform⟩, ?_⟩
  obtain ⟨c, hrun, hcount, -, -, -, hsupports⟩ :=
    mine_plain_exact transactions 2 1 (by decide) (by decide) huniform
  have hcard : (frequent transactions 1).card = 5 := by decide +kernel
  have hmap : (frequent transactions 1).val.map (supportOf transactions) =
      Multiset.ofList [3, 2, 2, 1, 1] := by decide +kernel
  rw [hmap, Multiset.coe_sort, List.mergeSort_of_pairwise (by decide)] at hsupports
  rw [hcard] at hcount
  exact ⟨c, hrun, hcount, hsupports⟩

/-- **The strongest closed sets.** With subsumption, mining uniform transactions returns as many
patterns as there are closed sets, or as there is room for. Each has different items, and the exact
support of their set, which is frequent, and the supports are the greatest of the closed sets. Above
the least support, or everywhere if there is room left, the sets returned are exactly the closed
ones. -/
theorem mine_closed_exact (transactions : List Transaction) (capacity minimum : Int)
    (hcap : 1 ≤ capacity) (hmin : 1 ≤ minimum) (h : Uniform transactions) :
    ∃ c, mine transactions capacity minimum true = .ok c ∧
      c.count = min capacity.toNat (closedSets transactions minimum).card ∧
      (∀ p ∈ c.retained, p.items.Nodup ∧ p.itemSet ∈ frequent transactions minimum ∧
        p.support = supportOf transactions p.itemSet) ∧
      c.ranked.map Pattern.support =
        (((closedSets transactions minimum).val.map (supportOf transactions)).sort (· ≥ ·)).take
          capacity.toNat ∧
      ∀ S, (c.isFull = true → c.leastSupport < supportOf transactions S) →
        ((∃ p ∈ c.retained, p.itemSet = S) ↔ S ∈ closedSets transactions minimum) := by
  obtain ⟨c, hrun, hc⟩ := mine_selecting true hcap hmin h
  have hsel := hc.retained
  have hrep := represents_closedSets transactions hmin
  refine ⟨c, hrun, ?_, fun p hp => ?_, ?_, fun S hroom => ?_⟩
  · rw [Collector.count_eq_length]
    exact hsel.length_eq hrep
  · have hexact := hsel.exact p hp
    exact ⟨hexact.nodup, hsel.within p hp, hexact.support_eq.trans (support_weighingOf _)⟩
  · rw [← support_weighingOf_eq transactions true]
    exact hsel.supports_eq hrep
  · exact hsel.mem_iff hrep (by rw [support_weighingOf]; exact hc.not_blocked hroom)

/-- Of five frequent sets three are closed, and there is room for all. -/
theorem mine_closed_exact_room_for_five :
    let transactions : List Transaction :=
      [[.number 1, .number 2], [.number 2, .number 1, .number 1], [], [.number 3, .number 1]]
    ((1 : Int) ≤ 5 ∧ (1 : Int) ≤ 1 ∧ Uniform transactions) ∧
      ∃ c, mine transactions 5 1 true = .ok c ∧ c.count = 3 ∧
        c.ranked.map Pattern.support = [3, 2, 1] := by
  intro transactions
  have huniform : Uniform transactions := by decide
  refine ⟨⟨by decide, by decide, huniform⟩, ?_⟩
  obtain ⟨c, hrun, hcount, -, hsupports, -⟩ :=
    mine_closed_exact transactions 5 1 (by decide) (by decide) huniform
  have hcard : (closedSets transactions 1).card = 3 := by decide +kernel
  have hmap : (closedSets transactions 1).val.map (supportOf transactions) =
      Multiset.ofList [3, 2, 1] := by decide +kernel
  rw [hmap, Multiset.coe_sort, List.mergeSort_of_pairwise (by decide)] at hsupports
  rw [hcard] at hcount
  exact ⟨c, hrun, hcount, hsupports⟩

end TopPatterns

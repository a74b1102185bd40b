import TopPatterns.Proofs.Mining.Partition

/-!
# Every pattern belongs to one group

The groups divide the ranked items among them, and with the items the frequent sets: a set is found
in the group of its last item (`finds_iff`) and in no other. So mining group by group does no work
twice and leaves none out (`groupItems_partition`), as long as there are groups at all: where the
number of groups is so large that the quotient of items and groups is rounded to zero, nothing is
mined (`minePartitioned_of_tooMany`).
-/

namespace TopPatterns

open Paths

variable {transactions : List Transaction} {order : ItemOrder} {minimum capacity groups : Int}
  {subsumes : Bool} {group : List Item} {S : Finset Item}

/-- A list that selects plainly from a family no larger than its room retains all of it. -/
theorem Selects.exists_of_card_le {w : Weighing false} {k : Nat} {family : Finset (Finset Item)}
    {ps : List Pattern} (h : Selects w k 0 ↑family ps) (hroom : family.card ≤ k) (hS : S ∈ family) :
    ∃ p ∈ ps, p.itemSet = S := by
  have hlength := h.length_eq (Represents.of_plain family)
  rw [Nat.min_eq_right hroom] at hlength
  have hsub : (ps.map Pattern.itemSet).toFinset ⊆ family := by
    intro T hT
    obtain ⟨p, hp, rfl⟩ := List.mem_map.1 (List.mem_toFinset.1 hT)
    exact h.within p hp
  have hall : (ps.map Pattern.itemSet).toFinset = family := by
    refine Finset.eq_of_subset_of_card_le hsub ?_
    rw [List.toFinset_card_of_nodup h.nodup_itemSets, List.length_map, hlength]
  rw [← hall] at hS
  exact List.mem_map.1 (List.mem_toFinset.1 hS)

/-- Mining a group on its own brings up a set. -/
def Finds (transactions : List Transaction) (order : ItemOrder) (capacity minimum : Int)
    (subsumes : Bool) (group : List Item) (S : Finset Item) : Prop :=
  ∃ c, mineGroup transactions order capacity minimum subsumes group = .ok c ∧
    ∃ p ∈ c.retained, p.itemSet = S

theorem ItemOrder.IsLast.eq {x y : Item} (hx : order.IsLast S x) (hy : order.IsLast S y)
    (hranked : x ∈ order.items) : x = y :=
  eq_of_place_eq hranked (Nat.le_antisymm (hy.place_le x hx.mem) (hx.place_le y hy.mem))

section

variable (hmin : 1 ≤ minimum) (h : Uniform transactions)
  (hranked : ∀ x, minimum ≤ supportOf transactions {x} → x ∈ order.items)
  (hgroup : ∀ x ∈ group, x ∈ order.items)

include hmin h hranked hgroup

/-- Whatever a group finds is a frequent set that ends in the group. -/
theorem isLast_of_finds (hcap : 1 ≤ capacity)
    (hfinds : Finds transactions order capacity minimum subsumes group S) :
    S ∈ frequent transactions minimum ∧ ∃ x ∈ group, order.IsLast S x := by
  obtain ⟨c, hrun, p, hp, rfl⟩ := hfinds
  obtain ⟨c', hrun', hc⟩ := mineGroup_selecting subsumes hcap hmin h hranked hgroup
  obtain rfl := Except.ok.inj (hrun.symm.trans hrun')
  obtain ⟨hle, x, hx, hlast⟩ := hc.retained.within p hp
  rw [weight_transactionPaths] at hle
  exact ⟨(mem_frequent hmin).2 ⟨⟨x, hlast.mem⟩, hle⟩, x, hx, hlast⟩

/-- With room for all frequent sets, a group finds those that end in it. -/
theorem finds_iff (hcap : 1 ≤ capacity) (hroom : (frequent transactions minimum).card ≤ capacity) :
    Finds transactions order capacity minimum false group S ↔
      S ∈ frequent transactions minimum ∧ ∃ x ∈ group, order.IsLast S x := by
  classical
  refine ⟨isLast_of_finds hmin h hranked hgroup hcap, fun hS => ?_⟩
  obtain ⟨c, hrun, hc⟩ := mineGroup_selecting false hcap hmin h hranked hgroup
  -- the family as a finite set, so that its members can be counted
  have hfamily : ending order (transactionPaths transactions) minimum group =
      ↑((frequent transactions minimum).filter fun S => ∃ x ∈ group, order.IsLast S x) := by
    ext T
    rw [Finset.mem_coe, Finset.mem_filter, mem_frequent hmin, ending, Set.mem_ofPred_eq,
      weight_transactionPaths]
    constructor
    · rintro ⟨hle, x, hx, hlast⟩
      exact ⟨⟨⟨x, hlast.mem⟩, hle⟩, x, hx, hlast⟩
    · rintro ⟨⟨-, hle⟩, hlast⟩
      exact ⟨hle, hlast⟩
  have hcard := Finset.card_filter_le (frequent transactions minimum)
    fun S => ∃ x ∈ group, order.IsLast S x
  refine ⟨c, hrun, Selects.exists_of_card_le (hfamily ▸ hc.retained) (by omega) ?_⟩
  exact Finset.mem_filter.2 hS

end

/-- With too many groups, mining group by group fails. -/
theorem minePartitioned_of_tooMany (subsumes : Bool) (hcap : 1 ≤ capacity) (hmin : 1 ≤ minimum)
    (hpos : 1 ≤ groups) (h : TooManyGroups order groups) (workers : Option Int)
    (hrank : rankItems transactions minimum = .ok order) :
    minePartitioned transactions capacity minimum subsumes groups workers =
      .error .zeroGroupWidth := by
  have hcheck : checkMinimum minimum = .ok () := if_neg (by omega)
  have hempty : Collector.ofCapacity capacity subsumes =
      .ok (Collector.empty capacity.toNat subsumes (by omega)) := dif_pos (by omega)
  rw [minePartitioned, hcheck, hempty, hrank]
  simp only [bind, Except.bind, if_neg (show ¬groups < 1 by omega), groupItems_of_tooMany hpos h]
  cases transactions with
  | nil =>
    -- no transactions, no items
    rw [← Except.ok.inj hrank] at h
    exact absurd (by simp [ItemOrder.ofSupports]) h.1
  | cons t transactions => rfl

/-- **Grouping.** Unless there are too many groups for the width to be above zero, the ranked items
are divided into groups of neighbours, of the exact width but for the last one, and every frequent
set is mined in one of them: that group finds it if there is room, and no other group ever does.
With too many groups both the grouping and the mining fail. -/
theorem groupItems_partition (order : ItemOrder) {groups : Int} (hpos : 1 ≤ groups) :
    (TooManyGroups order groups → groupItems order groups = .error .zeroGroupWidth ∧
      ∀ transactions capacity minimum subsumes workers, 1 ≤ capacity → 1 ≤ minimum →
        rankItems transactions minimum = .ok order →
        minePartitioned transactions capacity minimum subsumes groups workers =
          .error .zeroGroupWidth) ∧
      (¬TooManyGroups order groups → ∃ parts, groupItems order groups = .ok parts ∧
        IsGrouping order groups parts ∧
        ∀ transactions minimum, Uniform transactions → 1 ≤ minimum →
          rankItems transactions minimum = .ok order →
          ∀ S ∈ frequent transactions minimum, ∃ part ∈ parts,
            (∀ capacity : Int, (frequent transactions minimum).card ≤ capacity →
              Finds transactions order capacity minimum false part S) ∧
            ∀ capacity subsumes, 1 ≤ capacity → ∀ other ∈ parts,
              Finds transactions order capacity minimum subsumes other S → other = part) := by
  refine ⟨fun hmany => ⟨groupItems_of_tooMany hpos hmany, fun _ _ _ subsumes workers hcap hmin =>
    minePartitioned_of_tooMany subsumes hcap hmin hpos hmany workers⟩, fun hfew => ?_⟩
  obtain ⟨parts, hparts, hgrouping⟩ := exists_isGrouping hpos hfew
  refine ⟨parts, hparts, hgrouping, fun transactions minimum h hmin hrank S hS => ?_⟩
  obtain ⟨order', hrank', hitems⟩ := rankItems_spec h hmin
  obtain rfl := Except.ok.inj (hrank.symm.trans hrank')
  have hranked : ∀ x, minimum ≤ supportOf transactions {x} → x ∈ order.items := fun x =>
    (hitems x).2
  have hgroup : ∀ part ∈ parts, ∀ x ∈ part, x ∈ order.items := fun part hpart x hx =>
    hgrouping.flatten_eq ▸ List.mem_flatten.2 ⟨part, hpart, hx⟩
  obtain ⟨hne, hle⟩ := (mem_frequent hmin).1 hS
  obtain ⟨x, hlast⟩ := order.exists_isLast hne
  have hx : x ∈ order.items :=
    mem_items_of_weight hranked (by rwa [weight_transactionPaths]) x hlast.mem
  -- the group of the last item finds the set; another one would have to have this item too
  obtain ⟨part, ⟨hpart, hxpart⟩, hone⟩ := hgrouping.existsUnique x hx
  refine ⟨part, hpart, fun capacity hroom => ?_,
    fun capacity subsumes hcap other hother hfinds => ?_⟩
  · have hcard := Finset.card_pos.2 ⟨S, hS⟩
    exact (finds_iff hmin h hranked (hgroup part hpart) (by omega) hroom).2 ⟨hS, x, hxpart, hlast⟩
  · obtain ⟨-, y, hy, hlast'⟩ := isLast_of_finds hmin h hranked (hgroup other hother) hcap hfinds
    obtain rfl := hlast.eq hlast' hx
    exact hone other ⟨hother, hy⟩

/-- Seven items in three groups. -/
theorem groupItems_partition_seven :
    let order := ItemOrder.ofList ((List.range 7).map fun n => .number n)
    let parts : List (List Item) := [[.number 0, .number 1, .number 2],
      [.number 3, .number 4, .number 5], [.number 6]]
    (1 : Int) ≤ 3 ∧ groupItems order 3 = .ok parts ∧ IsGrouping order 3 parts := by
  intro order parts
  have hrun : groupItems order 3 = .ok parts := by decide +kernel
  obtain ⟨parts', hrun', hgrouping, -⟩ :=
    (groupItems_partition order (by decide : (1 : Int) ≤ 3)).2 (not_tooManyGroups (by decide))
  obtain rfl := Except.ok.inj (hrun.symm.trans hrun')
  exact ⟨by decide, hrun, hgrouping⟩

/-- One item cannot be divided into so many groups: the quotient is rounded to zero. -/
theorem not_groupItems_ok :
    ¬∀ (order : ItemOrder) (groups : Int), 1 ≤ groups →
      ∃ parts, groupItems order groups = .ok parts := by
  intro h
  have hfail : groupItems (ItemOrder.ofList [.text "a"]) (10 ^ 324) = .error .zeroGroupWidth := by
    decide +kernel
  obtain ⟨parts, hparts⟩ := h (ItemOrder.ofList [.text "a"]) (10 ^ 324) (by decide +kernel)
  rw [hfail] at hparts
  cases hparts

end TopPatterns

import Mathlib
import TopPatterns.Proofs.Mining.Exact
import TopPatterns.Proofs.Mining.Groups

/-!
# Partitioned mining selects the same

The parts of the transactions that a group of items needs hold the same sets ending in the group as
the transactions do (`agreesOn_groupPaths`), so the collector of a group selects from these sets.
The groups come in the order of their places, and so do their patterns: each group brings in sets
that end later than all before (`foldl_absorb_selecting`). In the end the collector selects from all
frequent sets, as that of a single pass does, and two collectors that select from the same family
agree on all that the family determines (`ranked_supports_eq`, `mem_retained_iff`).
-/

namespace TopPatterns

open Paths PatternTree

variable {transactions : List Transaction} {order : ItemOrder} {minimum capacity : Int}
  {subsumes : Bool}

/-! ## The parts that a group needs -/

/-- After the last item of a group come only items that are not of the group. -/
theorem exists_eq_upToGroup_append (group path : List Item) :
    ∃ rest, path = upToGroup group path ++ rest ∧ ∀ y ∈ rest, y ∉ group := by
  refine ⟨(path.reverse.takeWhile fun x => !group.contains x).reverse, ?_, fun y hy => ?_⟩
  · rw [upToGroup, ← List.reverse_append, List.takeWhile_append_dropWhile, List.reverse_reverse]
  · have hnot := List.mem_takeWhile_imp (List.mem_reverse.1 hy)
    simpa using hnot

/-- A set that ends in a group is held by the part of a path up to the group if it is held by the
path. -/
theorem holds_upToGroup {group path : List Item} (hpath : path.Sublist order.items)
    {S : Finset Item} {x : Item} (hx : x ∈ group) (hlast : order.IsLast S x) :
    holds S (upToGroup group path) = holds S path := by
  obtain ⟨rest, hsplit, hrest⟩ := exists_eq_upToGroup_append group path
  rw [Bool.eq_iff_iff, holds_iff, holds_iff]
  constructor
  · intro hall y hy
    rw [hsplit]
    exact List.mem_append_left _ (hall y hy)
  · intro hall y hy
    have hplace := ItemOrder.pairwise_place_lt hpath
    rw [hsplit] at hplace hall
    have hxpart := (List.mem_append.1 (hall x hlast.mem)).resolve_right fun hxr => hrest x hxr hx
    -- an item after the group would come after the last item of the set
    refine (List.mem_append.1 (hall y hy)).resolve_right fun hyr => ?_
    have hlt := (List.pairwise_append.1 hplace).2.2 x hxpart y hyr
    exact absurd (hlast.place_le y hy) (Nat.not_le.2 hlt)

theorem mem_groupPaths {group path : List Item} (h : path ∈ groupPaths transactions order group) :
    ∃ t ∈ transactions, path.Sublist (order.arrange t) := by
  obtain ⟨t, ht, rfl⟩ := List.mem_map.1 (List.mem_filter.1 h).1
  obtain ⟨rest, hsplit, -⟩ := exists_eq_upToGroup_append group (order.arrange t)
  refine ⟨t, ht, ?_⟩
  conv_rhs => rw [hsplit]
  exact List.sublist_append_left _ rest

theorem rising_groupPaths (transactions : List Transaction) (order : ItemOrder)
    (group : List Item) :
    Rising order ((groupPaths transactions order group).map (·, 1)) where
  sublist := by
    intro e he
    obtain ⟨path, hpath, rfl⟩ := List.mem_map.1 he
    obtain ⟨t, -, hsub⟩ := mem_groupPaths hpath
    exact hsub.trans (order.arrange_sublist t)
  pos := by
    intro e he
    obtain ⟨path, -, rfl⟩ := List.mem_map.1 he
    exact Int.one_pos

theorem arranged_groupPaths (order : ItemOrder) (h : Uniform transactions) (group : List Item) :
    Arranged order ((groupPaths transactions order group).map (·, 1)) where
  sublist := (rising_groupPaths transactions order group).sublist
  pos := (rising_groupPaths transactions order group).pos
  present := by
    intro e he habs
    obtain ⟨path, hpath, rfl⟩ := List.mem_map.1 he
    obtain ⟨t, ht, hsub⟩ := mem_groupPaths hpath
    exact h.not_mem_absent ht (ItemOrder.mem_arrange.1 (hsub.subset habs)).2

/-- Transactions without an item of the group have no part in a total, so it does not matter that
they are left out. -/
theorem total_groupPaths (transactions : List Transaction) (order : ItemOrder) (group : List Item)
    {q : List Item → Bool} (hq : q [] = false) :
    total ((groupPaths transactions order group).map fun path => (path, (1 : Int))) q =
      transactions.countP fun t => q (upToGroup group (order.arrange t)) := by
  have hpaths : (groupPaths transactions order group).map (fun path => (path, (1 : Int))) =
      (transactions.map fun t => (upToGroup group (order.arrange t), (1 : Int))).filter
        fun e => !e.1.isEmpty := by
    rw [groupPaths, List.filter_map, List.map_map, List.filter_map]
    rfl
  rw [hpaths, total_filter, total_map_one]
  intro e _ hqe
  cases hnil : e.1 with
  | nil =>
    rw [hnil, hq] at hqe
    cases hqe
  | cons y ys => rfl

/-- **The parts of a group.** They agree with the transactions on the sets that end in the group. -/
theorem agreesOn_groupPaths (order : ItemOrder) (group : List Item) :
    AgreesOn transactions order ((groupPaths transactions order group).map (·, 1))
      (chosenItems order (some group)) := by
  intro S hS x hx hlast
  have hgroup : x ∈ group := by simpa using (List.mem_filter.1 hx).2
  rw [weight, total_groupPaths transactions order group (holds_nil ⟨x, hlast.mem⟩),
    ← agreesOn_arrange order order.items S hS x (hS x hlast.mem) hlast, weight_map_one]
  refine congrArg Nat.cast (List.countP_congr fun t _ => ?_)
  rw [holds_upToGroup (order.arrange_sublist t) hgroup hlast]

/-! ## Fan-in -/

/-- The collector of a group selects from the sets that end in the group. -/
theorem mineGroup_selecting (subsumes : Bool) (hcap : 1 ≤ capacity) (hmin : 1 ≤ minimum)
    (h : Uniform transactions)
    (hranked : ∀ x, minimum ≤ supportOf transactions {x} → x ∈ order.items) {group : List Item}
    (hgroup : ∀ x ∈ group, x ∈ order.items) :
    ∃ c, mineGroup transactions order capacity minimum subsumes group = .ok c ∧
      c.Selecting (weighingOf transactions subsumes) capacity.toNat
        (ending order (transactionPaths transactions) minimum group) := by
  obtain ⟨c, hrun, hc⟩ := grow_of_agreeing subsumes (arranged_groupPaths order h group) hcap hmin
    (some group) hranked (agreesOn_groupPaths order group)
  refine ⟨c, hrun, ?_⟩
  have hfamily : ending order (transactionPaths transactions) minimum
      (chosenItems order (some group)) =
      ending order (transactionPaths transactions) minimum group := by
    ext S
    refine and_congr_right fun _ => exists_congr fun x => and_congr_left fun _ => ?_
    simp only [chosenItems, List.mem_filter, List.contains_iff_mem]
    exact ⟨And.right, fun hx => ⟨hgroup x hx, hx⟩⟩
  rwa [hfamily] at hc

/-- What groups find: the collector of each selects from the sets that end in the group. -/
def FoundBy (transactions : List Transaction) (order : ItemOrder) (capacity minimum : Int)
    (subsumes : Bool) : List (List Item) → List Collector → Prop :=
  List.Forall₂ fun group part => part.Selecting (weighingOf transactions subsumes) capacity.toNat
    (ending order (transactionPaths transactions) minimum group)

/-- Groups are mined without failure. -/
theorem exists_foundBy (subsumes : Bool) (hcap : 1 ≤ capacity) (hmin : 1 ≤ minimum)
    (h : Uniform transactions)
    (hranked : ∀ x, minimum ≤ supportOf transactions {x} → x ∈ order.items)
    {groups : List (List Item)} (hitems : ∀ x ∈ groups.flatten, x ∈ order.items) :
    ∃ mined, groups.mapM (mineGroup transactions order capacity minimum subsumes) = .ok mined ∧
      FoundBy transactions order capacity minimum subsumes groups mined := by
  induction groups with
  | nil => exact ⟨[], rfl, .nil⟩
  | cons group groups ih =>
    rw [List.flatten_cons] at hitems
    obtain ⟨part, hpart, hselecting⟩ := mineGroup_selecting subsumes hcap hmin h hranked
      fun x hx => hitems x (List.mem_append_left _ hx)
    obtain ⟨mined, hmined, hfound⟩ := ih fun x hx => hitems x (List.mem_append_right _ hx)
    refine ⟨part :: mined, ?_, .cons hselecting hfound⟩
    rw [List.mapM_cons, hpart]
    simp only [bind, Except.bind, hmined]
    rfl

/-- The patterns of a group end later than all of earlier items, so they may be merged. -/
theorem mergeable_group {k : Nat} {part : Collector} {earlier group : List Item}
    (hselecting : part.Selecting (weighingOf transactions subsumes) k
      (ending order (transactionPaths transactions) minimum group))
    (hlater : ∀ y ∈ earlier, ∀ x ∈ group, order.place y < order.place x) :
    Mergeable (weighingOf transactions subsumes) k
      (ending order (transactionPaths transactions) minimum earlier)
      (ending order (transactionPaths transactions) minimum group) part.ranked :=
  mergeable_of_later hlater (hselecting.retained.perm (Pattern.descending_perm _).symm)
    (Set.Subset.refl _) fun _ _ _ hJ _ => hJ

/-- **Fan-in.** A collector that has absorbed what groups found, one after the other, selects from
all sets that end in any of them. -/
theorem foldl_absorb_selecting {groups : List (List Item)} {mined : List Collector}
    (h : FoundBy transactions order capacity minimum subsumes groups mined) :
    ∀ (earlier : List Item) {c : Collector},
      (earlier ++ groups.flatten).Pairwise (fun x y => order.place x < order.place y) →
      c.Selecting (weighingOf transactions subsumes) capacity.toNat
        (ending order (transactionPaths transactions) minimum earlier) →
      (mined.foldl Collector.absorb c).Selecting (weighingOf transactions subsumes)
        capacity.toNat
        (ending order (transactionPaths transactions) minimum (earlier ++ groups.flatten)) := by
  induction h with
  | nil =>
    intro earlier c _ hc
    rw [List.flatten_nil, List.append_nil]
    exact hc
  | @cons group part groups mined hselecting _ ih =>
    intro earlier c hrising hc
    rw [List.flatten_cons, ← List.append_assoc] at hrising ⊢
    obtain ⟨hvalid, hshelf⟩ := Collector.absorb_eq hc.valid part
    have hlater := (List.pairwise_append.1 (List.pairwise_append.1 hrising).1).2.2
    have hmerged := hc.of_shelf hvalid hshelf (mergeable_group hselecting hlater)
    rw [← ending_append] at hmerged
    exact ih (earlier ++ group) hrising hmerged

/-- The items of an order are cut into groups if their number has at most 53 binary digits. -/
theorem exists_groupItems (order : ItemOrder) {groups : Int} (hpos : 1 ≤ groups)
    (hgroups : groups ≤ 2 ^ 53) :
    ∃ parts, groupItems order groups = .ok parts ∧ parts.flatten = order.items := by
  obtain ⟨parts, hparts, hgrouping⟩ := exists_isGrouping hpos (not_tooManyGroups hgroups)
  exact ⟨parts, hparts, hgrouping.flatten_eq⟩

theorem checkWorkers_of_pos {workers : Option Int} (h : ∀ n ∈ workers, 1 ≤ n) :
    checkWorkers workers = .ok () := by
  cases workers with
  | none => rfl
  | some n =>
    have hn := h n rfl
    exact if_neg (by omega)

/-- Partitioned mining ranks the items, cuts them into groups, mines the groups and brings together
what it finds. Without transactions all this is skipped, but there are no groups. -/
theorem minePartitioned_eq_foldl (subsumes : Bool) (hk : 0 < capacity.toNat) (hmin : 1 ≤ minimum)
    {groups : Int} (hpos : 1 ≤ groups) {workers : Option Int} (hworkers : ∀ n ∈ workers, 1 ≤ n)
    (hrank : rankItems transactions minimum = .ok order) {parts : List (List Item)}
    (hparts : groupItems order groups = .ok parts) :
    minePartitioned transactions capacity minimum subsumes groups workers =
      (parts.mapM (mineGroup transactions order capacity minimum subsumes)).map fun mined =>
        mined.foldl Collector.absorb (Collector.empty capacity.toNat subsumes hk) := by
  have hcheck : checkMinimum minimum = .ok () := if_neg (by omega)
  have hempty : Collector.ofCapacity capacity subsumes =
      .ok (Collector.empty capacity.toNat subsumes hk) := dif_pos hk
  rw [minePartitioned, hcheck, hempty, hrank, checkWorkers_of_pos hworkers]
  simp only [bind, Except.bind, if_neg (show ¬groups < 1 by omega), hparts]
  cases transactions with
  | nil =>
    have hitems : order.items = [] := by
      rw [← Except.ok.inj hrank]
      simp [ItemOrder.ofSupports]
    rw [groupItems, if_neg (by omega), hitems] at hparts
    obtain rfl := Except.ok.inj hparts
    rfl
  | cons t transactions => rfl

/-- **Partitioned mining.** Like a single pass, it succeeds on uniform transactions and selects from
the frequent sets. -/
theorem minePartitioned_selecting (subsumes : Bool) (hcap : 1 ≤ capacity) (hmin : 1 ≤ minimum)
    (h : Uniform transactions) {groups : Int} (hpos : 1 ≤ groups) (hgroups : groups ≤ 2 ^ 53)
    {workers : Option Int} (hworkers : ∀ n ∈ workers, 1 ≤ n) :
    ∃ c, minePartitioned transactions capacity minimum subsumes groups workers = .ok c ∧
      c.Selecting (weighingOf transactions subsumes) capacity.toNat
        ↑(frequent transactions minimum) := by
  have hk : 0 < capacity.toNat := by omega
  obtain ⟨order, hrank, hitems⟩ := rankItems_spec h hmin
  have hranked : ∀ x, minimum ≤ supportOf transactions {x} → x ∈ order.items := fun x =>
    (hitems x).2
  obtain ⟨parts, hparts, hflatten⟩ := exists_groupItems order hpos hgroups
  have hrising : ([] ++ parts.flatten).Pairwise fun x y => order.place x < order.place y := by
    rw [hflatten]
    exact ItemOrder.pairwise_place_lt (List.Sublist.refl _)
  obtain ⟨mined, hmined, hfound⟩ := exists_foundBy subsumes hcap hmin h hranked
    fun x hx => hflatten ▸ hx
  have hc := foldl_absorb_selecting hfound [] hrising
    (ending_nil ▸ Collector.Selecting.empty _ hk)
  rw [List.nil_append, hflatten, ending_items fun S hle => mem_items_of_weight hranked hle,
    frequentSets_transactionPaths hmin] at hc
  refine ⟨_, ?_, hc⟩
  rw [minePartitioned_eq_foldl subsumes hk hmin hpos hworkers hrank hparts, hmined]
  rfl

/-! ## Agreement -/

namespace Collector.Selecting

variable {c c' : Collector} {w : Weighing subsumes} {k : Nat}
  {family chosen : Finset (Finset Item)}

theorem ranked_supports_eq (h : c.Selecting w k ↑family) (h' : c'.Selecting w k ↑family)
    (hr : Represents w family chosen) :
    c.ranked.map Pattern.support = c'.ranked.map Pattern.support :=
  (h.retained.supports_eq hr).trans (h'.retained.supports_eq hr).symm

theorem count_eq (h : c.Selecting w k ↑family) (h' : c'.Selecting w k ↑family)
    (hr : Represents w family chosen) : c.count = c'.count := by
  rw [count_eq_length, count_eq_length]
  exact (h.retained.length_eq hr).trans (h'.retained.length_eq hr).symm

theorem isFull_eq (h : c.Selecting w k ↑family) (h' : c'.Selecting w k ↑family)
    (hr : Represents w family chosen) : c.isFull = c'.isFull := by
  rw [isFull, isFull, h.count_eq h' hr, h.capacity_eq, h'.capacity_eq]

theorem leastSupport_eq (h : c.Selecting w k ↑family) (h' : c'.Selecting w k ↑family)
    (hr : Represents w family chosen) : c.leastSupport = c'.leastSupport := by
  rw [← leastSupport_shelf h.valid.toHeaped, ← leastSupport_shelf h'.valid.toHeaped]
  refine Pattern.leastOf_eq_of_perm ?_
  exact ((Pattern.descending_perm c.retained).symm.map _).trans
    ((h.ranked_supports_eq h' hr) ▸ (Pattern.descending_perm c'.retained).map _)

/-- Where there is room for more, or above the least support, the sets and supports retained are
those of the representatives. -/
theorem mem_retained_iff (h : c.Selecting w k ↑family) (hr : Represents w family chosen)
    {S : Finset Item} {n : Nat} (hroom : c.isFull = true → c.leastSupport < n) :
    (∃ p ∈ c.retained, p.itemSet = S ∧ p.support = n) ↔ S ∈ chosen ∧ w.support S = n := by
  constructor
  · intro hheld
    obtain ⟨p, hp, rfl, rfl⟩ := hheld
    have hsupport := (h.retained.exact p hp).support_eq
    rw [hsupport] at hroom
    exact ⟨(h.retained.mem_iff hr (h.not_blocked hroom)).1 ⟨p, hp, rfl⟩, hsupport.symm⟩
  · intro hchosen
    obtain ⟨hS, rfl⟩ := hchosen
    obtain ⟨p, hp, rfl⟩ := (h.retained.mem_iff hr (h.not_blocked hroom)).2 hS
    exact ⟨p, hp, rfl, (h.retained.exact p hp).support_eq⟩

end Collector.Selecting

/-- **Partitioned mining agrees with a single pass.** On uniform transactions both succeed, whatever
the number of groups and workers, and return collectors with the same count, the same least support
and the same falling list of supports, both full or neither. Above the least support, or everywhere
if there is room left, they hold the same sets with the same supports. -/
theorem minePartitioned_agrees (transactions : List Transaction) (capacity minimum : Int)
    (subsumes : Bool) (groups : Int) (workers : Option Int) (hcap : 1 ≤ capacity)
    (hmin : 1 ≤ minimum) (h : Uniform transactions) (hpos : 1 ≤ groups)
    (hgroups : groups ≤ 2 ^ 53) (hworkers : ∀ n ∈ workers, 1 ≤ n) :
    ∃ c c', mine transactions capacity minimum subsumes = .ok c ∧
      minePartitioned transactions capacity minimum subsumes groups workers = .ok c' ∧
      c'.count = c.count ∧ c'.isFull = c.isFull ∧ c'.leastSupport = c.leastSupport ∧
      c'.ranked.map Pattern.support = c.ranked.map Pattern.support ∧
      (c.ranked.map Pattern.support).Pairwise (· ≥ ·) ∧
      ∀ S n, (c.isFull = true → c.leastSupport < n) →
        ((∃ p ∈ c'.retained, p.itemSet = S ∧ p.support = n) ↔
          ∃ p ∈ c.retained, p.itemSet = S ∧ p.support = n) := by
  obtain ⟨c, hrun, hc⟩ := mine_selecting subsumes hcap hmin h
  obtain ⟨c', hrun', hc'⟩ := minePartitioned_selecting subsumes hcap hmin h hpos hgroups hworkers
  obtain ⟨chosen, hr⟩ := exists_represents transactions hmin subsumes
  have hfull := hc'.isFull_eq hc hr
  have hleast := hc'.leastSupport_eq hc hr
  refine ⟨c, c', hrun, hrun', hc'.count_eq hc hr, hfull, hleast, hc'.ranked_supports_eq hc hr,
    Pattern.pairwise_support_descending c.retained, fun S n hroom => ?_⟩
  rw [hc.mem_retained_iff hr hroom, hc'.mem_retained_iff hr (by rwa [hfull, hleast])]

/-- Three ranked items in two groups, with patterns that give way to larger ones. -/
theorem minePartitioned_agrees_two_groups :
    let transactions : List Transaction :=
      [[.number 1, .number 2], [.number 2, .number 1, .number 1], [], [.number 3, .number 1]]
    ((1 : Int) ≤ 2 ∧ (1 : Int) ≤ 1 ∧ Uniform transactions ∧ (1 : Int) ≤ 2 ∧
        (2 : Int) ≤ 2 ^ 53 ∧ ∀ n ∈ some (3 : Int), 1 ≤ n) ∧
      ∃ c c', mine transactions 2 1 true = .ok c ∧
        minePartitioned transactions 2 1 true 2 (some 3) = .ok c' ∧
        c'.count = c.count ∧ c'.leastSupport = c.leastSupport ∧
        c'.ranked.map Pattern.support = c.ranked.map Pattern.support ∧
        c'.ranked = [⟨[.number 1], 3⟩, ⟨[.number 1, .number 2], 2⟩] := by
  intro transactions
  have huniform : Uniform transactions := by decide
  have hworkers : ∀ n ∈ some (3 : Int), 1 ≤ n := by
    intro n hn
    obtain rfl := Option.some.inj hn
    decide
  have hcounted : countSupports transactions =
      .ok [(.number 1, 3), (.number 2, 2), (.number 3, 1)] := by
    simp only [transactions]
    cbv
  have hrank : rankItems transactions 1 =
      .ok (ItemOrder.ofList [.number 1, .number 2, .number 3]) := by
    rw [rankItems_of_countSupports hcounted, ItemOrder.ofSupports]
    refine congrArg (fun items => Except.ok (ItemOrder.ofList items)) ?_
    cbv
  have hparts : groupItems (ItemOrder.ofList [.number 1, .number 2, .number 3]) 2 =
      .ok [[.number 1, .number 2], [.number 3]] := by decide +kernel
  have hranked : (minePartitioned transactions 2 1 true 2 (some 3)).map Collector.ranked =
      .ok [⟨[.number 1], 3⟩, ⟨[.number 1, .number 2], 2⟩] := by
    rw [minePartitioned_eq_foldl true (by decide) (by decide) (by decide) hworkers hrank hparts]
    simp only [transactions]
    cbv
  refine ⟨⟨by decide, by decide, huniform, by decide, by decide, hworkers⟩, ?_⟩
  obtain ⟨c, c', hrun, hrun', hcount, -, hleast, hsupports, -, -⟩ :=
    minePartitioned_agrees transactions 2 1 true 2 (some 3) (by decide) (by decide) huniform
      (by decide) (by decide) hworkers
  rw [hrun'] at hranked
  exact ⟨c, c', hrun, hrun', hcount, hleast, hsupports, Except.ok.inj hranked⟩

end TopPatterns

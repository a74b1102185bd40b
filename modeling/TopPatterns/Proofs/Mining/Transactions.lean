import Mathlib.Data.Finset.Powerset
import TopPatterns.Proofs.Mining.Growth
import TopPatterns.Proofs.Selection.Totals

/-!
# Transactions

What is asked of the miner is said here about the transactions alone: the support of a set of items,
the sets that are frequent, and those of them that are closed. `countSupports_spec` and
`rankItems_spec` say that uniform transactions can be counted and ranked, and which items the order
has. `grow_of_agreeing` brings the theorem on growth over to transactions, for any paths that agree
with them on the sets ending in a chosen item: the whole transactions of a single pass, or the parts
of them that a group of items needs.
-/

namespace TopPatterns

open Paths PatternTree

/-- How many transactions hold all items of a set. -/
def supportOf (transactions : List Transaction) (S : Finset Item) : Nat :=
  transactions.countP fun t => decide (∀ x ∈ S, x ∈ t)

/-- The sets with items that at least some number of transactions hold. -/
def frequent (transactions : List Transaction) (minimum : Int) : Finset (Finset Item) :=
  transactions.flatten.toFinset.powerset.filter fun S =>
    S.Nonempty ∧ minimum ≤ supportOf transactions S

/-- The frequent sets that no larger frequent set has the support of. -/
def closedSets (transactions : List Transaction) (minimum : Int) : Finset (Finset Item) :=
  (frequent transactions minimum).filter fun S =>
    ∀ T ∈ frequent transactions minimum, S ⊂ T → supportOf transactions T ≠ supportOf transactions S

/-- All items are texts, or all are numbers. -/
def Uniform (transactions : List Transaction) : Prop :=
  (∀ t ∈ transactions, ∀ x ∈ t, x.text?.isSome) ∨
    ∀ t ∈ transactions, ∀ x ∈ t, x.number?.isSome

instance (transactions : List Transaction) : Decidable (Uniform transactions) :=
  inferInstanceAs (Decidable (_ ∨ _))

variable {transactions : List Transaction} {minimum : Int} {subsumes : Bool}

/-! ## Supports -/

theorem supportOf_pos {S : Finset Item} :
    0 < supportOf transactions S ↔ ∃ t ∈ transactions, ∀ x ∈ S, x ∈ t := by
  simp [supportOf, List.countP_pos_iff]

theorem supportOf_mono {S T : Finset Item} (h : S ⊆ T) :
    supportOf transactions T ≤ supportOf transactions S := by
  refine List.countP_mono_left fun t _ hT => decide_eq_true fun x hx => ?_
  exact of_decide_eq_true hT x (h hx)

/-- A set is frequent if it has items and enough support; that all its items occur follows. -/
theorem mem_frequent (hmin : 1 ≤ minimum) {S : Finset Item} :
    S ∈ frequent transactions minimum ↔ S.Nonempty ∧ minimum ≤ supportOf transactions S := by
  rw [frequent, Finset.mem_filter, Finset.mem_powerset]
  refine and_iff_right_of_imp fun ⟨_, hle⟩ x hx => ?_
  have hpos : 0 < supportOf transactions S := by omega
  obtain ⟨t, ht, hall⟩ := supportOf_pos.1 hpos
  exact List.mem_toFinset.2 (List.mem_flatten.2 ⟨t, ht, hall x hx⟩)

/-- A closed set has more support than any larger set, frequent or not. -/
theorem lt_of_mem_closedSets (hmin : 1 ≤ minimum) {S T : Finset Item}
    (hS : S ∈ closedSets transactions minimum) (hlt : S ⊂ T) :
    supportOf transactions T < supportOf transactions S := by
  obtain ⟨hfrequent, hclosed⟩ := Finset.mem_filter.1 hS
  refine Nat.lt_of_le_of_ne (supportOf_mono hlt.subset) ?_
  -- a larger set of the same support would be frequent, and the set not closed
  intro heq
  obtain ⟨hne, hle⟩ := (mem_frequent hmin).1 hfrequent
  exact hclosed T ((mem_frequent hmin).2 ⟨hne.mono hlt.subset, heq ▸ hle⟩) hlt heq

/-- Every frequent set is within a closed set of its support. -/
theorem exists_closed_of_mem_frequent {S : Finset Item} (hS : S ∈ frequent transactions minimum) :
    ∃ C ∈ closedSets transactions minimum, S ⊆ C ∧
      supportOf transactions C = supportOf transactions S := by
  -- take a set with the most items among those that have the support and all items
  obtain ⟨C, hC, hmax⟩ := ((frequent transactions minimum).filter fun T =>
    S ⊆ T ∧ supportOf transactions T = supportOf transactions S).exists_max_image Finset.card
    ⟨S, Finset.mem_filter.2 ⟨hS, Finset.Subset.refl S, rfl⟩⟩
  obtain ⟨hfrequent, hsub, hsupport⟩ := Finset.mem_filter.1 hC
  refine ⟨C, Finset.mem_filter.2 ⟨hfrequent, fun T hT hlt heq => ?_⟩, hsub, hsupport⟩
  have hle := hmax T (Finset.mem_filter.2
    ⟨hT, Finset.Subset.trans hsub hlt.subset, heq.trans hsupport⟩)
  exact absurd (Finset.card_lt_card hlt) (Nat.not_lt.2 hle)

/-! ## Transactions as paths -/

/-- Each transaction as a path that counts once. -/
def transactionPaths (transactions : List Transaction) : Paths := transactions.map (·, 1)

theorem total_map_one (f : Transaction → List Item) (transactions : List Transaction)
    (q : List Item → Bool) :
    total (transactions.map fun t => (f t, 1)) q = transactions.countP fun t => q (f t) := by
  induction transactions with
  | nil => rfl
  | cons t transactions ih =>
    rw [List.map_cons, total_cons, ih, List.countP_cons]
    by_cases h : q (f t) = true
    · simp only [h, if_true]
      omega
    · simp [h]

theorem weight_map_one (f : Transaction → List Item) (transactions : List Transaction)
    (S : Finset Item) :
    weight (transactions.map fun t => (f t, 1)) S =
      transactions.countP fun t => holds S (f t) := total_map_one f transactions _

theorem weight_transactionPaths (S : Finset Item) :
    (transactionPaths transactions).weight S = supportOf transactions S :=
  weight_map_one id transactions S

theorem pos_of_mem_map_one {f : Transaction → List Item} :
    ∀ e ∈ transactions.map fun t => (f t, (1 : Int)), 0 < e.2 := by
  intro e he
  obtain ⟨t, -, rfl⟩ := List.mem_map.1 he
  exact Int.one_pos

/-- The weighing of transactions. -/
def weighingOf (transactions : List Transaction) (subsumes : Bool) : Weighing subsumes :=
  (transactionPaths transactions).weighing pos_of_mem_map_one subsumes

@[simp] theorem support_weighingOf (S : Finset Item) :
    (weighingOf transactions subsumes).support S = supportOf transactions S := by
  show ((transactionPaths transactions).weight S).toNat = _
  rw [weight_transactionPaths, Int.toNat_natCast]

theorem frequentSets_transactionPaths (hmin : 1 ≤ minimum) :
    (transactionPaths transactions).frequentSets minimum = ↑(frequent transactions minimum) := by
  ext S
  rw [Finset.mem_coe, mem_frequent hmin, frequentSets]
  show S.Nonempty ∧ minimum ≤ weight _ S ↔ _
  rw [weight_transactionPaths]

/-- With subsumption, the closed sets represent the frequent ones. -/
theorem represents_closedSets (transactions : List Transaction) (hmin : 1 ≤ minimum) :
    Represents (weighingOf transactions true) (frequent transactions minimum)
      (closedSets transactions minimum) where
  subset := Finset.filter_subset _ _
  exists_of_mem := by
    intro S hS
    obtain ⟨C, hC, hsub, hsupport⟩ := exists_closed_of_mem_frequent hS
    refine ⟨C, hC, Weighing.symm ((weighingOf transactions true).of_subset rfl hsub ?_), hsub⟩
    rw [support_weighingOf, support_weighingOf, hsupport]
  eq_of_alike := by
    have hsub : ∀ C ∈ closedSets transactions minimum, ∀ D,
        (weighingOf transactions true).Alike C D → D ⊆ C := by
      intro C hC D halike
      have hsupport := (weighingOf transactions true).support_eq
        ((weighingOf transactions true).union halike)
      rw [support_weighingOf, support_weighingOf] at hsupport
      by_contra hnot
      have hlt : C ⊂ C ∪ D :=
        ⟨Finset.subset_union_left, fun h => hnot (Finset.union_subset_iff.1 h).2⟩
      exact absurd hsupport.symm (Nat.ne_of_lt (lt_of_mem_closedSets hmin hC hlt))
    exact fun C hC D hD halike =>
      Finset.Subset.antisymm (hsub D hD C (Weighing.symm halike)) (hsub C hC D halike)

/-- With either flag there are representatives of the frequent sets. -/
theorem exists_represents (transactions : List Transaction) (hmin : 1 ≤ minimum)
    (subsumes : Bool) :
    ∃ chosen, Represents (weighingOf transactions subsumes) (frequent transactions minimum)
      chosen := by
  cases subsumes with
  | true => exact ⟨_, represents_closedSets transactions hmin⟩
  | false => exact ⟨_, Represents.of_plain _⟩

/-! ## Ranking -/

/-- Items that can all be read as values of some kind are the items of these values. -/
theorem exists_mapM_eq {α : Type} {read? : Item → Option α} (make : α → Item)
    (hmake : ∀ x v, read? x = some v → make v = x) {items : List Item}
    (h : ∀ x ∈ items, (read? x).isSome) :
    ∃ values, items.mapM read? = some values ∧ values.map make = items := by
  induction items with
  | nil => exact ⟨[], rfl, rfl⟩
  | cons x items ih =>
    obtain ⟨v, hv⟩ := Option.isSome_iff_exists.1 (h x (List.mem_cons_self ..))
    obtain ⟨values, hvalues, hmap⟩ := ih fun y hy => h y (List.mem_cons_of_mem _ hy)
    refine ⟨v :: values, ?_, by rw [List.map_cons, hmake x v hv, hmap]⟩
    rw [List.mapM_cons, hv, hvalues]
    rfl

theorem text_of_text?_eq {x : Item} {v : CodeText} (h : x.text? = some v) : .text v = x := by
  cases x with
  | text t => rw [Option.some.inj h]
  | number n => simp [Item.text?] at h
  | absent => simp [Item.text?] at h

theorem number_of_number?_eq {x : Item} {v : Int} (h : x.number? = some v) : .number v = x := by
  cases x with
  | text t => simp [Item.number?] at h
  | number n => rw [Option.some.inj h]
  | absent => simp [Item.number?] at h

/-- Items all of one kind have a common order. -/
theorem exists_sorted? {items : List Item}
    (h : (∀ x ∈ items, x.text?.isSome) ∨ ∀ x ∈ items, x.number?.isSome) :
    ∃ sorted, Item.sorted? items = some sorted ∧ sorted.Perm items := by
  match items with
  | [] => exact ⟨[], rfl, List.Perm.refl _⟩
  | [x] => exact ⟨[x], rfl, List.Perm.refl _⟩
  | x :: y :: rest =>
    rcases h with h | h
    · obtain ⟨texts, hread, hmap⟩ := exists_mapM_eq Item.text (fun _ _ => text_of_text?_eq) h
      refine ⟨(texts.mergeSort CodeText.le).map .text, by simp only [Item.sorted?, hread], ?_⟩
      exact ((List.mergeSort_perm ..).map _).trans (hmap ▸ List.Perm.refl _)
    · obtain ⟨numbers, hread, hmap⟩ :=
        exists_mapM_eq Item.number (fun _ _ => number_of_number?_eq) h
      -- texts are tried first, and the first number stops that
      have hnone : (x :: y :: rest).mapM Item.text? = none := by
        obtain ⟨n, hn⟩ := Option.isSome_iff_exists.1 (h x (List.mem_cons_self ..))
        rw [List.mapM_cons, ← number_of_number?_eq hn]
        rfl
      refine ⟨(numbers.mergeSort fun a b => decide (a ≤ b)).map .number,
        by simp only [Item.sorted?, hnone, hread, Option.map_some], ?_⟩
      exact ((List.mergeSort_perm ..).map _).trans (hmap ▸ List.Perm.refl _)

theorem Uniform.not_mem_absent (h : Uniform transactions) {t : Transaction}
    (ht : t ∈ transactions) : Item.absent ∉ t := by
  intro habs
  rcases h with h | h
  · exact absurd (h t ht _ habs) (by simp [Item.text?])
  · exact absurd (h t ht _ habs) (by simp [Item.number?])

theorem Uniform.isSome (h : Uniform transactions) :
    (∀ x ∈ transactions.flatten, x.text?.isSome) ∨
      ∀ x ∈ transactions.flatten, x.number?.isSome := by
  simp only [List.mem_flatten, forall_exists_index, and_imp]
  exact h.imp (fun h x t ht hx => h t ht x hx) fun h x t ht hx => h t ht x hx

/-- **Counting.** The items of uniform transactions are counted without failure, and the table has
each item once, with its support. -/
theorem countSupports_spec (h : Uniform transactions) :
    ∃ supports, countSupports transactions = .ok supports ∧ (supports.map Prod.fst).Nodup ∧
      ∀ x, supports.support x = supportOf transactions {x} := by
  have hkind : (∀ x ∈ Item.distinct transactions.flatten, x.text?.isSome) ∨
      ∀ x ∈ Item.distinct transactions.flatten, x.number?.isSome := by
    simpa only [Item.mem_distinct] using h.isSome
  obtain ⟨sorted, hsorted, hperm⟩ := exists_sorted? hkind
  have hkeys : (sorted.map fun x =>
      (x, ((transactions.countP fun t => t.contains x) : Int))).map Prod.fst = sorted := by
    rw [List.map_map]
    exact List.map_id sorted
  have hnodup : sorted.Nodup := hperm.nodup_iff.2 (Item.nodup_distinct _)
  refine ⟨_, by rw [countSupports, hsorted], hkeys.symm ▸ hnodup, fun x => ?_⟩
  have hsupport : (transactions.countP fun t => t.contains x) = supportOf transactions {x} := by
    refine List.countP_congr fun t _ => ?_
    simp
  rw [← hsupport]
  by_cases hx : x ∈ sorted
  · exact ((Supports.mem_iff_of_nodup (hkeys.symm ▸ hnodup)).1
      (List.mem_map.2 ⟨x, hx, rfl⟩)).2
  · rw [Supports.support_of_not_mem (hkeys.symm ▸ hx), eq_comm, Int.natCast_eq_zero,
      List.countP_eq_zero]
    intro t ht hxt
    exact hx (hperm.mem_iff.2 (Item.mem_distinct.2
      (List.mem_flatten.2 ⟨t, ht, List.contains_iff_mem.1 hxt⟩)))

/-- Once the items are counted, they are ranked by their supports. -/
theorem rankItems_of_countSupports {supports : Supports}
    (h : countSupports transactions = .ok supports) (minimum : Int) :
    rankItems transactions minimum = .ok (ItemOrder.ofSupports supports minimum) := by
  unfold rankItems
  rw [h]
  rfl

/-- **Ranking.** Uniform transactions can be ranked, and the order has the frequent items. -/
theorem rankItems_spec (h : Uniform transactions) (hmin : 1 ≤ minimum) :
    ∃ order, rankItems transactions minimum = .ok order ∧
      ∀ x, x ∈ order.items ↔ minimum ≤ supportOf transactions {x} := by
  obtain ⟨supports, hcount, hnodup, hsupport⟩ := countSupports_spec h
  refine ⟨_, rankItems_of_countSupports hcount minimum, fun x => ?_⟩
  rw [ItemOrder.mem_items_ofSupports_iff hnodup hmin, hsupport]

/-- Items that could all be read are of one kind. -/
theorem isSome_of_mapM {α : Type} {read? : Item → Option α} {items : List Item} {values : List α}
    (h : items.mapM read? = some values) : ∀ x ∈ items, (read? x).isSome := by
  induction items generalizing values with
  | nil => simp
  | cons y items ih =>
    rw [List.mapM_cons] at h
    obtain ⟨v, hv, h⟩ := Option.bind_eq_some_iff.1 h
    obtain ⟨vs, hvs, -⟩ := Option.bind_eq_some_iff.1 h
    intro x hx
    rcases List.mem_cons.1 hx with rfl | hx
    · rw [hv]
      rfl
    · exact ih hvs x hx

/-- Items that can be sorted are of one kind, or there is one item at most. -/
theorem isSome_or_length_le {items sorted : List Item} (h : Item.sorted? items = some sorted) :
    ((∀ x ∈ items, x.text?.isSome) ∨ ∀ x ∈ items, x.number?.isSome) ∨ sorted.length ≤ 1 := by
  unfold Item.sorted? at h
  split at h
  · obtain rfl := Option.some.inj h
    exact Or.inr (Nat.zero_le 1)
  · obtain rfl := Option.some.inj h
    exact Or.inr (Nat.le_refl 1)
  · split at h
    · next texts htexts => exact Or.inl (Or.inl (isSome_of_mapM htexts))
    · obtain ⟨numbers, hnumbers, -⟩ := Option.map_eq_some_iff.1 h
      exact Or.inl (Or.inr (isSome_of_mapM hnumbers))

/-- Transactions that can be ranked are uniform, or at most one item is ranked. -/
theorem uniform_or_length_le {order : ItemOrder}
    (h : rankItems transactions minimum = .ok order) :
    Uniform transactions ∨ order.items.length ≤ 1 := by
  unfold rankItems countSupports at h
  cases hsorted : Item.sorted? (Item.distinct transactions.flatten) with
  | none =>
    rw [hsorted] at h
    cases h
  | some sorted =>
    rw [hsorted] at h
    obtain rfl := Except.ok.inj h
    rcases isSome_or_length_le hsorted with hkind | hone
    · have hmem : ∀ t ∈ transactions, ∀ x ∈ t, x ∈ Item.distinct transactions.flatten :=
        fun t ht x hx => Item.mem_distinct.2 (List.mem_flatten.2 ⟨t, ht, hx⟩)
      exact Or.inl (hkind.imp (fun hall t ht x hx => hall x (hmem t ht x hx))
        fun hall t ht x hx => hall x (hmem t ht x hx))
    · have hsub : ∀ x ∈ (ItemOrder.ofSupports (sorted.map fun x =>
          (x, ((transactions.countP fun t => t.contains x) : Int))) minimum).items,
          x ∈ sorted := by
        intro x hx
        obtain ⟨n, hmem, -⟩ := ItemOrder.mem_items_ofSupports.1 hx
        obtain ⟨y, hy, he⟩ := List.mem_map.1 hmem
        exact (Prod.mk.inj he).1 ▸ hy
      have hle := (List.subperm_of_subset (ItemOrder.nodup_items _) hsub).length_le
      exact Or.inr (Nat.le_trans hle hone)

/-! ## Growth on transactions -/

section Grow

variable {order : ItemOrder}

/-- An order that ranks the frequent items ranks all items of a frequent set. -/
theorem mem_items_of_weight (hranked : ∀ x, minimum ≤ supportOf transactions {x} → x ∈ order.items)
    {S : Finset Item} (hle : minimum ≤ (transactionPaths transactions).weight S) :
    ∀ x ∈ S, x ∈ order.items := by
  intro x hx
  rw [weight_transactionPaths] at hle
  have hmono : supportOf transactions S ≤ supportOf transactions {x} :=
    supportOf_mono (Finset.singleton_subset_iff.2 hx)
  exact hranked x (by omega)

/-- Paths agree with transactions on the sets of ranked items that end in one of a list. -/
def AgreesOn (transactions : List Transaction) (order : ItemOrder) (paths : Paths)
    (items : List Item) : Prop :=
  ∀ S, (∀ y ∈ S, y ∈ order.items) → ∀ x ∈ items, order.IsLast S x →
    paths.weight S = supportOf transactions S

/-- Growth on paths that agree with transactions on the sets ending in a chosen item selects from
the sets of the transactions. -/
theorem grow_of_agreeing (subsumes : Bool) {paths : Paths} (h : Arranged order paths)
    {capacity : Int} (hcap : 1 ≤ capacity) (hmin : 1 ≤ minimum) (attributes : Option (List Item))
    (hranked : ∀ x, minimum ≤ supportOf transactions {x} → x ∈ order.items)
    (hagree : AgreesOn transactions order paths (chosenItems order attributes)) :
    ∃ c, (ofPaths order paths).grow capacity minimum subsumes attributes = .ok c ∧
      c.Selecting (weighingOf transactions subsumes) capacity.toNat
        (ending order (transactionPaths transactions) minimum
          (chosenItems order attributes)) := by
  obtain ⟨c, hrun, hc⟩ := grow_selecting subsumes h.rising.ranked (standsFor_of_arranged h) hcap hmin
    attributes
  have hitems := fun S => mem_items_of_weight (S := S) hranked
  have hsame : ∀ S, (∀ y ∈ S, y ∈ order.items) →
      ∀ x ∈ chosenItems order attributes, order.IsLast S x →
      (transactionPaths transactions).weight S = paths.weight S := fun S hS x hx hlast =>
    weight_transactionPaths S ▸ (hagree S hS x hx hlast).symm
  -- both families have ranked items only, for sets of other items have no weight in either
  have hfamily :
      ending order (transactionPaths transactions) minimum (chosenItems order attributes) =
        ending order paths minimum (chosenItems order attributes) := by
    ext S
    constructor
    · intro hS
      obtain ⟨hle, x, hx, hlast⟩ := hS
      exact ⟨hsame S (hitems S hle) x hx hlast ▸ hle, x, hx, hlast⟩
    · intro hS
      obtain ⟨hle, x, hx, hlast⟩ := hS
      have hS : ∀ y ∈ S, y ∈ order.items := fun y hy =>
        h.rising.mem_items_of_weight_pos (by omega) hy
      exact ⟨(hsame S hS x hx hlast).symm ▸ hle, x, hx, hlast⟩
  rw [hfamily]
  refine ⟨c, hrun, hc.valid, hc.capacity_eq, hc.selects.subsumes_eq, hc.selects.capacity_pos,
    selects_of_weight_eq hc.selects.selects fun S hS T hT => ?_⟩
  obtain ⟨hleS, x, hx, hlastS⟩ := hS
  obtain ⟨hleT, y, hy, hlastT⟩ := hT
  have hunion : ∀ z ∈ S ∪ T, z ∈ order.items := fun z hz =>
    (Finset.mem_union.1 hz).elim (fun hz => h.rising.mem_items_of_weight_pos (by omega) hz)
      fun hz => h.rising.mem_items_of_weight_pos (by omega) hz
  -- the later of the two last items is the last one of the union
  rcases Nat.le_total (order.place y) (order.place x) with hyx | hxy
  · refine hsame _ hunion x hx (hlastS.union fun z hz => ?_)
    exact Nat.le_trans (hlastT.place_le z hz) hyx
  · rw [Finset.union_comm] at hunion ⊢
    refine hsame _ hunion y hy (hlastT.union fun z hz => ?_)
    exact Nat.le_trans (hlastS.place_le z hz) hxy

end Grow

end TopPatterns

import Mathlib.Data.Finset.Max
import TopPatterns.Proofs.Selection.Carry
import TopPatterns.Proofs.Selection.Union
import TopPatterns.Proofs.Tree.Paths

/-!
# Families of frequent sets

Weighted paths give a weighing: a set's support is its weight, and with subsumption two sets count
as the same if the same paths hold them. The miner goes through the items of an order and deals with
the frequent sets that end in each (`ending`). Two such families, one of earlier items and one of
later ones, meet what `Selection/Union` asks for: `mergeable_of_later`.
-/

namespace TopPatterns

namespace Paths

variable {paths : Paths}

/-- Which sets count as the same: with subsumption those held by the same paths, else equal ones. -/
def Alike (paths : Paths) : Bool → Finset Item → Finset Item → Prop
  | true, S, T => ∀ e ∈ paths, holds S e.1 = holds T e.1
  | false, S, T => S = T

theorem weight_eq_of_alike {subsumes : Bool} {S T : Finset Item} (h : paths.Alike subsumes S T) :
    paths.weight S = paths.weight T := by
  cases subsumes with
  | true => exact total_congr h
  | false => rw [show S = T from h]

/-- The weighing of paths. -/
def weighing (paths : Paths) (hpos : ∀ e ∈ paths, 0 < e.2) (subsumes : Bool) :
    Weighing subsumes where
  support S := (paths.weight S).toNat
  Alike := paths.Alike subsumes
  equivalence := by
    cases subsumes with
    | true =>
      exact ⟨fun _ _ _ => rfl, fun h e he => (h e he).symm,
        fun h h' e he => (h e he).trans (h' e he)⟩
    | false => exact ⟨fun _ => rfl, Eq.symm, Eq.trans⟩
  support_eq h := congrArg Int.toNat (weight_eq_of_alike h)
  of_subset := by
    intro hs S T hsub heq
    subst hs
    intro e he
    have hweight : paths.weight T = paths.weight S := by
      have hS := weight_nonneg hpos S
      have hT := weight_nonneg hpos T
      omega
    rw [Bool.eq_iff_iff]
    exact ⟨of_total_eq hpos (fun _ _ => holds_of_subset hsub) hweight he, holds_of_subset hsub⟩
  eq_of_alike := by
    intro hs S T h
    subst hs
    exact h
  union := by
    intro S T h
    cases subsumes with
    | true =>
      intro e he
      rw [Bool.eq_iff_iff, holds_union, ← h e he]
      exact (and_self_iff).symm
    | false =>
      show S = S ∪ T
      rw [← show S = T from h, Finset.union_self]

variable {subsumes : Bool} {hpos : ∀ e ∈ paths, 0 < e.2}

theorem support_weighing (S : Finset Item) :
    ((paths.weighing hpos subsumes).support S : Int) = paths.weight S :=
  Int.toNat_of_nonneg (weight_nonneg hpos S)

theorem weight_eq_of_alike_weighing {S T : Finset Item}
    (h : (paths.weighing hpos subsumes).Alike S T) : paths.weight S = paths.weight T :=
  weight_eq_of_alike h

/-- Which sets count as the same can be told from weights: with subsumption each of the two weighs
what both together weigh. -/
theorem alike_weighing_iff {S T : Finset Item} :
    (paths.weighing hpos subsumes).Alike S T ↔
      if subsumes then paths.weight S = paths.weight (S ∪ T) ∧ paths.weight T = paths.weight (S ∪ T)
      else S = T := by
  cases subsumes with
  | false => exact Iff.rfl
  | true =>
    rw [if_pos rfl]
    constructor
    · intro h
      have hS := (paths.weighing hpos true).union h
      exact ⟨weight_eq_of_alike_weighing hS,
        weight_eq_of_alike_weighing (Weighing.trans (Weighing.symm h) hS)⟩
    · -- the union is held by no more paths, so by the same paths if it weighs as much
      intro hboth e he
      obtain ⟨hS, hT⟩ := hboth
      rw [Bool.eq_iff_iff]
      constructor
      · intro h
        exact (holds_union.1 (of_total_eq hpos (fun _ _ hu => holds_of_subset
          Finset.subset_union_left hu) hS.symm he h)).2
      · intro h
        exact (holds_union.1 (of_total_eq hpos (fun _ _ hu => holds_of_subset
          Finset.subset_union_right hu) hT.symm he h)).1

/-- What is selected on some paths is selected on others, if the unions of any two sets of the
family have equal weights on both. -/
theorem selects_of_weight_eq {paths' : Paths} {hpos' : ∀ e ∈ paths', 0 < e.2} {k : Nat}
    {family : Set (Finset Item)} {ps : List Pattern}
    (h : Selects (paths.weighing hpos subsumes) k 0 family ps)
    (hweight : ∀ S ∈ family, ∀ T ∈ family, paths'.weight (S ∪ T) = paths.weight (S ∪ T)) :
    Selects (paths'.weighing hpos' subsumes) k 0 family ps := by
  have hsame : ∀ S ∈ family, paths'.weight S = paths.weight S := fun S hS => by
    have hself := hweight S hS S hS
    rwa [Finset.union_self] at hself
  have hcarries : Carries (paths.weighing hpos subsumes) (paths'.weighing hpos' subsumes) family
      id := by
    refine ⟨fun S hS => congrArg Int.toNat (hsame S hS), fun S hS T hT => ?_,
      fun S _ T _ => Iff.rfl⟩
    rw [alike_weighing_iff, alike_weighing_iff, id, id, hsame S hS, hsame T hT, hweight S hS T hT]
  have hcarried := h.carry hcarries (f := id) fun p hp => by
    have hexact := h.exact p hp
    refine ⟨⟨hexact.nodup, hexact.nonempty, ?_⟩, rfl⟩
    rw [id, hexact.support_eq]
    exact (hcarries.support _ (h.within p hp)).symm
  rwa [Set.image_id, List.map_id] at hcarried

/-! ## Families -/

/-- The sets with items of at least some weight. -/
def frequentSets (paths : Paths) (minimum : Int) : Set (Finset Item) :=
  { S | S.Nonempty ∧ minimum ≤ paths.weight S }

end Paths

namespace ItemOrder

/-- An item is the last one of a set. -/
structure IsLast (order : ItemOrder) (S : Finset Item) (x : Item) : Prop where
  mem : x ∈ S
  place_le : ∀ y ∈ S, order.place y ≤ order.place x

variable {order : ItemOrder}

theorem exists_isLast (order : ItemOrder) {S : Finset Item} (h : S.Nonempty) :
    ∃ x, order.IsLast S x := by
  obtain ⟨x, hx, hmax⟩ := S.exists_max_image order.place h
  exact ⟨x, hx, hmax⟩

theorem isLast_singleton (order : ItemOrder) (x : Item) : order.IsLast {x} x where
  mem := Finset.mem_singleton_self x
  place_le := by
    intro y hy
    rw [Finset.mem_singleton.1 hy]

/-- The last item of a set is the last one of its union with a set that has no later items. -/
theorem IsLast.union {S T : Finset Item} {x : Item} (h : order.IsLast S x)
    (hT : ∀ z ∈ T, order.place z ≤ order.place x) : order.IsLast (S ∪ T) x where
  mem := Finset.mem_union_left T h.mem
  place_le := by
    intro z hz
    rcases Finset.mem_union.1 hz with hz | hz
    · exact h.place_le z hz
    · exact hT z hz

end ItemOrder

namespace Paths

variable {order : ItemOrder} {paths : Paths} {minimum : Int}

/-- The sets of at least some weight whose last item is one of a list. -/
def ending (order : ItemOrder) (paths : Paths) (minimum : Int) (items : List Item) :
    Set (Finset Item) :=
  { S | minimum ≤ paths.weight S ∧ ∃ x ∈ items, order.IsLast S x }

@[simp] theorem ending_nil : ending order paths minimum [] = ∅ := by
  ext S
  simp [ending]

theorem ending_append (xs ys : List Item) :
    ending order paths minimum (xs ++ ys) =
      ending order paths minimum xs ∪ ending order paths minimum ys := by
  ext S
  constructor
  · intro hS
    obtain ⟨hle, x, hx, hlast⟩ := hS
    exact (List.mem_append.1 hx).imp (fun hx => ⟨hle, x, hx, hlast⟩) fun hx => ⟨hle, x, hx, hlast⟩
  · intro hS
    rcases hS with ⟨hle, x, hx, hlast⟩ | ⟨hle, x, hx, hlast⟩
    · exact ⟨hle, x, List.mem_append_left _ hx, hlast⟩
    · exact ⟨hle, x, List.mem_append_right _ hx, hlast⟩

/-- If an order ranks the items of the frequent sets, each of these ends in an item of the order. -/
theorem ending_items (h : ∀ S, minimum ≤ paths.weight S → ∀ x ∈ S, x ∈ order.items) :
    ending order paths minimum order.items = paths.frequentSets minimum := by
  ext S
  constructor
  · intro hS
    obtain ⟨hle, x, -, hlast⟩ := hS
    exact ⟨⟨x, hlast.mem⟩, hle⟩
  · intro hS
    obtain ⟨hne, hle⟩ := hS
    obtain ⟨x, hlast⟩ := order.exists_isLast hne
    exact ⟨hle, x, h S hle x hlast.mem, hlast⟩

/-- The sets of at least some weight that end in an item and have other items. -/
def extending (order : ItemOrder) (paths : Paths) (minimum : Int) (x : Item) :
    Set (Finset Item) :=
  { S | S ∈ ending order paths minimum [x] ∧ S ≠ {x} }

/-- A list that selects sets ending in later items may be inserted into a shelf that selects the
sets ending in earlier ones, if it speaks of all larger sets. -/
theorem mergeable_of_later {subsumes : Bool} {hpos : ∀ e ∈ paths, 0 < e.2} {k : Nat}
    {earlier later : List Item} {family : Set (Finset Item)} {ps : List Pattern}
    (hplace : ∀ y ∈ earlier, ∀ x ∈ later, order.place y < order.place x)
    (hselects : Selects (paths.weighing hpos subsumes) k 0 family ps)
    (hfamily : family ⊆ ending order paths minimum later)
    (hup : ∀ S ∈ family, ∀ J ∈ ending order paths minimum later, S ⊆ J → J ∈ family) :
    Mergeable (paths.weighing hpos subsumes) k (ending order paths minimum earlier) family ps where
  selects := hselects
  fresh := by
    intro S hS T ⟨_, y, hy, hlastT⟩ hsub
    obtain ⟨-, x, hx, hlastS⟩ := hfamily hS
    exact absurd (hplace y hy x hx) (Nat.not_lt.2 (hlastT.place_le x (hsub hlastS.mem)))
  join := by
    intro S hS T ⟨_, y, hy, hlastT⟩ halike
    obtain ⟨hle, x, hx, hlastS⟩ := hfamily hS
    have hunion := (paths.weighing hpos subsumes).union (Weighing.symm halike)
    have hweight := weight_eq_of_alike_weighing hunion
    -- the earlier set adds no later item, so the union ends where the later set does
    have hlast := hlastS.union fun z hz =>
      Nat.le_of_lt (Nat.lt_of_le_of_lt (hlastT.place_le z hz) (hplace y hy x hx))
    have hJ := hup S hS _ ⟨hweight ▸ hle, x, hx, hlast⟩ Finset.subset_union_left
    exact ⟨S ∪ T, hJ, Weighing.symm hunion, Finset.subset_union_right⟩

end Paths

end TopPatterns

import TopPatterns.Proofs.Number.Quotient
import TopPatterns.Proofs.Ranking.Place

/-!
# Groups of ranked items

A list is cut into pieces of a width (`IsCut`): the pieces follow each other, none is empty, and all
but the last are of the width. The ranked items are cut so, and as they are all different each of
them is in exactly one group (`exists_isGrouping`). There are no more groups than asked for
because the width is not less than the exact quotient (`IsCut.length_le_of_le`). With so many groups
that the width is zero the cut fails (`groupItems_of_tooMany`).
-/

namespace TopPatterns

/-! ## Cutting a list -/

/-- Pieces of a list that follow each other, none of them empty, all of a width but for the last,
which may be shorter. -/
structure IsCut (width : Nat) (xs : List Item) (parts : List (List Item)) : Prop where
  flatten_eq : parts.flatten = xs
  ne_nil : ∀ part ∈ parts, part ≠ []
  length_eq : ∀ part ∈ parts.dropLast, part.length = width
  length_le : ∀ part ∈ parts, part.length ≤ width

namespace IsCut

variable {width : Nat} {xs piece : List Item} {parts : List (List Item)}

theorem nil (width : Nat) : IsCut width [] [] := ⟨rfl, by simp, by simp, by simp⟩

theorem singleton (hpiece : piece ≠ []) (hle : piece.length ≤ width) :
    IsCut width piece [piece] :=
  ⟨by simp, by simpa using hpiece, by simp, by simpa using hle⟩

/-- A piece of the width in front. -/
theorem cons (h : IsCut width xs parts) (hwidth : 0 < width) (hpiece : piece.length = width) :
    IsCut width (piece ++ xs) (piece :: parts) where
  flatten_eq := by rw [List.flatten_cons, h.flatten_eq]
  ne_nil := List.forall_mem_cons.2 ⟨List.ne_nil_of_length_pos (hpiece ▸ hwidth), h.ne_nil⟩
  length_eq := by
    cases parts with
    | nil => simp
    | cons part parts =>
      rw [List.dropLast_cons_cons]
      exact List.forall_mem_cons.2 ⟨hpiece, h.length_eq⟩
  length_le := List.forall_mem_cons.2 ⟨hpiece.le, h.length_le⟩

/-- A cut has no more pieces than there would have to be of the width. -/
theorem length_le_of_le (h : IsCut width xs parts) {groups : Nat}
    (hle : xs.length ≤ groups * width) : parts.length ≤ groups := by
  rcases List.eq_nil_or_concat parts with rfl | ⟨init, last, rfl⟩
  · exact Nat.zero_le _
  · -- all pieces before the last are of the width, and the last one has an item
    have hinit : ∀ part ∈ init, part.length = width := by
      simpa using h.length_eq
    have hlast : 0 < last.length := List.length_pos_iff.2 (h.ne_nil last (by simp))
    have hsum : (init.map List.length).sum = init.length * width := by
      rw [List.map_congr_left hinit, List.map_const', List.sum_replicate_nat]
    have hlength : xs.length = init.length * width + last.length := by
      rw [← h.flatten_eq]
      simp [List.length_flatten, hsum]
    have hlt : init.length * width < groups * width := by omega
    rw [List.length_concat]
    exact Nat.lt_of_mul_lt_mul_right hlt

end IsCut

theorem isCut_piecesFrom {width : Nat} (hwidth : 0 < width) (xs : List Item) :
    ∀ {room : Nat} {piece : List Item}, piece.length + room = width →
      IsCut width (piece.reverse ++ xs) (piecesFrom width room piece xs) := by
  induction xs with
  | nil =>
    intro room piece hroom
    rw [piecesFrom, List.append_nil]
    cases piece with
    | nil => exact IsCut.nil width
    | cons x piece =>
      refine IsCut.singleton (by simp) ?_
      rw [List.length_reverse]
      omega
  | cons x xs ih =>
    intro room piece hroom
    cases room with
    | zero =>
      -- the piece is full, and the next one begins with `x`
      have hrest := @ih (width - 1) [x] (by rw [List.length_singleton]; omega)
      exact hrest.cons hwidth (by rw [List.length_reverse]; omega)
    | succ room =>
      have hrest := @ih room (x :: piece) (by rw [List.length_cons]; omega)
      rwa [List.reverse_cons, List.append_assoc, List.singleton_append] at hrest

theorem isCut_pieces {width : Nat} (hwidth : 0 < width) (xs : List Item) :
    IsCut width xs (pieces width xs) := @isCut_piecesFrom width hwidth xs width [] (Nat.zero_add _)

/-- An item of a list without repeated items is in one of its pieces only. -/
theorem existsUnique_mem_of_flatten {xs : List Item} {parts : List (List Item)}
    (hflatten : parts.flatten = xs) (hnodup : xs.Nodup) {x : Item} (hx : x ∈ xs) :
    ∃! part, part ∈ parts ∧ x ∈ part := by
  rw [← hflatten] at hnodup hx
  obtain ⟨part, hpart, hxpart⟩ := List.mem_flatten.1 hx
  refine ⟨part, ⟨hpart, hxpart⟩, fun other hother => ?_⟩
  obtain ⟨hother, hxother⟩ := hother
  by_contra hne
  have hsymm : Std.Symm (@List.Disjoint Item) := ⟨fun _ _ h => h.symm⟩
  exact (List.nodup_flatten.1 hnodup).2.forall hother hpart hne hxother hxpart

/-! ## Cutting the ranked items -/

/-- Groups of the ranked items: they follow each other by rank, none is empty, and every item is in
exactly one. There are no more than asked for, all of the exact width but for the last, which may
be smaller, as long as the number of items has at most 53 binary digits. -/
structure IsGrouping (order : ItemOrder) (groups : Int) (parts : List (List Item)) : Prop where
  flatten_eq : parts.flatten = order.items
  ne_nil : ∀ part ∈ parts, part ≠ []
  rising : parts.Pairwise fun part later => ∀ x ∈ part, ∀ y ∈ later, order.place x < order.place y
  existsUnique : ∀ x ∈ order.items, ∃! part, part ∈ parts ∧ x ∈ part
  sizes : order.items.length ≤ 2 ^ 53 → parts.length ≤ groups ∧
    (∀ part ∈ parts.dropLast, part.length = ⌈(order.items.length / groups : ℚ)⌉₊) ∧
    ∀ part ∈ parts, part.length ≤ ⌈(order.items.length / groups : ℚ)⌉₊

variable {order : ItemOrder} {groups : Int}

/-- There are no more groups than items. -/
theorem IsGrouping.length_le {parts : List (List Item)} (h : IsGrouping order groups parts) :
    parts.length ≤ order.items.length := by
  have hone : ∀ n ∈ parts.map List.length, 1 ≤ n := by
    intro n hn
    obtain ⟨part, hpart, rfl⟩ := List.mem_map.1 hn
    exact List.length_pos_iff.2 (h.ne_nil part hpart)
  have hle := List.length_le_sum_of_one_le _ hone
  rwa [List.length_map, ← List.length_flatten, h.flatten_eq] at hle

/-- There are so many groups that their width would be zero. -/
def TooManyGroups (order : ItemOrder) (groups : Int) : Prop :=
  order.items ≠ [] ∧ order.items.length * 2 ^ 1075 ≤ groups

/-- A number of groups with at most 53 binary digits is not too large. -/
theorem not_tooManyGroups (h : groups ≤ 2 ^ 53) : ¬TooManyGroups order groups := by
  rintro ⟨hne, hmany⟩
  have hitems : (1 : Int) ≤ order.items.length := by
    exact_mod_cast List.length_pos_iff.2 hne
  have hmore := mul_le_mul_of_nonneg_right hitems (by positivity : (0 : Int) ≤ 2 ^ 1075)
  have hlarge : (2 : Int) ^ 53 < 1 * 2 ^ 1075 := by decide +kernel
  exact absurd (hmore.trans (hmany.trans h)) (not_le.2 hlarge)

theorem groupItems_of_pos (hpos : 1 ≤ groups) (hne : order.items ≠ []) :
    groupItems order groups =
      if groupWidth order.items.length groups.toNat = 0 then .error .zeroGroupWidth
      else .ok (pieces (groupWidth order.items.length groups.toNat) order.items) := by
  rw [groupItems, if_neg (by omega), if_neg (by simpa using hne)]
  cases groupWidth order.items.length groups.toNat <;> rfl

/-- Too many groups, and nothing else, make the cut fail. -/
theorem groupItems_of_tooMany (hpos : 1 ≤ groups) (h : TooManyGroups order groups) :
    groupItems order groups = .error .zeroGroupWidth := by
  obtain ⟨hne, hmany⟩ := h
  rw [groupItems_of_pos hpos hne, if_pos]
  exact (groupWidth_eq_zero_iff (List.length_pos_iff.2 hne) (by omega)).2 (by omega)

/-- A cut of the ranked items is a grouping if its width is the exact one. -/
theorem IsCut.isGrouping {width : Nat} {parts : List (List Item)} (hpos : 1 ≤ groups)
    (h : IsCut width order.items parts)
    (hwidth : order.items.length ≤ 2 ^ 53 → width = ⌈(order.items.length / groups : ℚ)⌉₊) :
    IsGrouping order groups parts where
  flatten_eq := h.flatten_eq
  ne_nil := h.ne_nil
  rising := by
    have hrising := ItemOrder.pairwise_place_lt (List.Sublist.refl order.items)
    rw [← h.flatten_eq] at hrising
    exact (List.pairwise_flatten.1 hrising).2
  existsUnique := fun x hx => existsUnique_mem_of_flatten h.flatten_eq order.nodup_items hx
  sizes := by
    intro hfew
    have hexact := hwidth hfew
    refine ⟨?_, hexact ▸ h.length_eq, hexact ▸ h.length_le⟩
    have hgroups : (0 : ℚ) < groups := by exact_mod_cast (by omega : 0 < groups)
    have hceil := Nat.le_ceil (order.items.length / groups : ℚ)
    rw [← hexact, div_le_iff₀' hgroups] at hceil
    obtain ⟨g, rfl⟩ := Int.eq_ofNat_of_zero_le (by omega : 0 ≤ groups)
    exact Int.ofNat_le.2 (h.length_le_of_le (by exact_mod_cast hceil))

/-- Otherwise the ranked items are grouped. -/
theorem exists_isGrouping (hpos : 1 ≤ groups) (h : ¬TooManyGroups order groups) :
    ∃ parts, groupItems order groups = .ok parts ∧ IsGrouping order groups parts := by
  by_cases hnil : order.items = []
  · refine ⟨[], ?_, (hnil ▸ IsCut.nil _).isGrouping hpos fun _ => rfl⟩
    rw [groupItems, if_neg (by omega), hnil]
    rfl
  · have hitems := List.length_pos_iff.2 hnil
    have hfew : ¬order.items.length * 2 ^ 1075 ≤ groups.toNat := fun hmany =>
      h ⟨hnil, by omega⟩
    have hwidth := mt (groupWidth_eq_zero_iff hitems (by omega)).1 hfew
    refine ⟨_, by rw [groupItems_of_pos hpos hnil, if_neg hwidth],
      (isCut_pieces (Nat.pos_of_ne_zero hwidth) _).isGrouping hpos fun hmost => ?_⟩
    have hcast : ((groups.toNat : Nat) : ℚ) = groups := by
      exact_mod_cast Int.toNat_of_nonneg (by omega : 0 ≤ groups)
    rw [groupWidth_eq hitems hmost (by omega) (not_le.1 hfew), hcast]

/-- What the ranked items are cut into, if at all, is a grouping. -/
theorem isGrouping_of_groupItems {parts : List (List Item)} (hpos : 1 ≤ groups)
    (h : groupItems order groups = .ok parts) : IsGrouping order groups parts := by
  by_cases hmany : TooManyGroups order groups
  · rw [groupItems_of_tooMany hpos hmany] at h
    cases h
  · obtain ⟨parts', hparts, hgrouping⟩ := exists_isGrouping hpos hmany
    rw [hparts] at h
    exact Except.ok.inj h ▸ hgrouping

end TopPatterns

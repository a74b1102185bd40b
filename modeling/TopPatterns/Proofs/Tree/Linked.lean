import TopPatterns.Proofs.Tree.Layout

/-!
# Linked trees and pattern trees

A pattern tree names its nodes by their addresses and has a list of addresses for each item. The
linked tree of the same paths has the same nodes, and its header table, its links and its parents
lead through these lists (`realizes_addPaths`): every walk ends, since links lead to later nodes and
parents to earlier ones, and what it meets is read off the layout (`leads_chain`, `leads_wayUp`,
`descend_eq_some`).
-/

namespace TopPatterns

open Function (update update_self update_of_ne)

namespace LinkedTree

open PatternTree (made addresses_eq_made count?_ofPaths countAt_eq_total itemSupport_addPaths
  itemSupport_empty ofPaths ofPaths_concat)

variable {t : LinkedTree} {nodes : List (List Item)} {weight : List Item → Int}
variable {x : Item} {a : List Item} {k : Nat}

/-! ## What walks meet -/

theorem exists_wayUp (h : t.Layout nodes weight) (hk : nodes[k]? = some a) :
    ∃ ns, Leads t.parent (some k) ns ∧ ns.map t.item = a.reverse ++ [.absent] ∧
      ns.getLast? = some 0 ∧ ns.length ≤ k + 1 := by
  induction a using List.reverseRecOn generalizing k with
  | nil =>
    obtain rfl := h.number_inj hk h.root
    exact ⟨[0], ⟨rfl, h.parent_root⟩, by simp [h.item_root], rfl, Nat.le_refl 1⟩
  | append_singleton a x ih =>
    obtain ⟨j, hjk, hparent, hj⟩ := h.parent k a x hk
    obtain ⟨ns, hleads, hitems, hlast, hlength⟩ := ih hj
    refine ⟨k :: ns, ⟨rfl, hparent ▸ hleads⟩, ?_, ?_, ?_⟩
    · rw [List.map_cons, hitems, h.item k a x hk, List.reverse_concat, List.cons_append]
    · rw [List.getLast?_cons, hlast, Option.getD_some]
    · rw [List.length_cons]
      omega

/-- The parents of a node lead up to the root, along the items of its address. -/
theorem leads_wayUp (h : t.Layout nodes weight) (hk : nodes[k]? = some a) :
    Leads t.parent (some k) (t.wayUp k) ∧ (t.wayUp k).map t.item = a.reverse ++ [.absent] ∧
      (t.wayUp k).getLast? = some 0 := by
  obtain ⟨ns, hleads, hitems, hlast, hlength⟩ := exists_wayUp h hk
  have hns : t.wayUp k = ns := hleads.follow_eq (Nat.le_trans hlength (h.lt_size hk))
  rw [hns]
  exact ⟨hleads, hitems, hlast⟩

theorem address_eq (h : t.Layout nodes weight) (hk : nodes[k]? = some a) : t.address k = a := by
  unfold address
  rw [(leads_wayUp h hk).2.1, List.dropLast_concat, List.reverse_reverse]

theorem takeWhile_concat_absent (items : List Item) :
    (items ++ [Item.absent]).takeWhile (fun x => decide (x ≠ .absent)) =
      items.takeWhile fun x => decide (x ≠ .absent) := by
  induction items with
  | nil => rfl
  | cons x items ih =>
    rw [List.cons_append, List.takeWhile_cons, List.takeWhile_cons, ih]

theorem pathAbove_eq (h : t.Layout nodes weight) (hk : nodes[k]? = some (a ++ [x])) :
    t.pathAbove k = PatternTree.pathAbove (a ++ [x]) := by
  obtain ⟨j, -, hparent, hj⟩ := h.parent k a x hk
  have hitems := (leads_wayUp h hj).2.1
  unfold pathAbove PatternTree.pathAbove
  rw [hparent]
  show (((t.wayUp j).map t.item).takeWhile _).reverse = _
  rw [hitems, List.dropLast_concat, takeWhile_concat_absent]

/-- The links of an item lead from the header table through all of its nodes. -/
theorem leads_chain (h : t.Layout nodes weight) (x : Item) :
    Leads t.link (t.first x) (t.chain x) ∧ t.chain x = places nodes x := by
  have hlength : (places nodes x).length ≤ t.size := by
    unfold places
    rw [List.length_findIdxs, h.size]
    exact List.countP_le_length
  have hchain : t.chain x = places nodes x := (h.links x).follow_eq hlength
  rw [hchain]
  exact ⟨h.links x, rfl⟩

/-- The children lead down along an address to its node. -/
theorem descend_eq_some (h : t.Layout nodes weight) (hk : nodes[k]? = some a) (xs : List Item)
    (m : Nat) : t.descend k xs = some m ↔ nodes[m]? = some (a ++ xs) := by
  induction xs generalizing k a with
  | nil =>
    rw [descend, List.append_nil, Option.some.injEq]
    constructor
    · rintro rfl
      exact hk
    · exact h.number_inj hk
  | cons x xs ih =>
    rw [descend, Option.bind_eq_some_iff]
    constructor
    · rintro ⟨j, hj, hm⟩
      have hbelow := (ih ((h.child k a hk x j).1 hj)).1 hm
      rwa [List.append_assoc, List.singleton_append] at hbelow
    · intro hm
      have hsplit : a ++ x :: xs = a ++ [x] ++ xs := by simp
      rw [hsplit] at hm
      -- the address that the first step leads to is one, since a longer one is
      have hmem : a ++ [x] ∈ nodes := h.mem_of_append (List.mem_of_getElem? hm)
      obtain ⟨j, hj⟩ := List.mem_iff_getElem?.1 hmem
      exact ⟨j, (h.child k a hk x j).2 hj, (ih hj).2 hm⟩

/-! ## Items and their supports -/

theorem items_visit (chains : List Chain) (x : Item) (n : Int) (made : Option (List Item)) :
    (Chain.visit x n made chains).map Chain.item = entered (chains.map Chain.item) x := by
  induction chains with
  | nil => rfl
  | cons chain rest ih =>
    rw [Chain.visit, entered]
    split
    · next h => simp [h]
    · next h =>
      rw [List.map_cons, ih, entered]
      by_cases hmem : x ∈ rest.map Chain.item
      · simp [hmem]
      · simp [hmem, Ne.symm h]

theorem items_visitPath (n : Int) (known : Nat) (above path : List Item) (chains : List Chain) :
    (Chain.visitPath n known above path chains).map Chain.item =
      path.foldl entered (chains.map Chain.item) := by
  induction path generalizing known above chains with
  | nil => rfl
  | cons x xs ih => rw [Chain.visitPath, ih, items_visit, List.foldl_cons]

/-- The header table has the items of the pattern tree's chains. -/
theorem headers_addPaths (order : ItemOrder) (paths : Paths) :
    (empty.addPaths paths).headers = (ofPaths order paths).chains.map Chain.item := by
  induction paths using List.reverseRecOn with
  | nil => rfl
  | append_singleton paths e ih =>
    have h := layout_addPaths order paths
    rw [addPaths_concat, (layout_addBelow h h.root e.2 e.1).2, ih, ofPaths_concat]
    exact (items_visitPath ..).symm

theorem support_step (t : LinkedTree) (k : Nat) (x y : Item) (n : Int) :
    (t.step k y n).1.support x = t.support x + if y = x then n else 0 := by
  have hvisit : ∀ (u : LinkedTree) (m : Nat), (u.visit y m n).support x =
      u.support x + if y = x then n else 0 := by
    intro u m
    show update u.support y (u.support y + n) x = _
    by_cases hyx : y = x
    · subst hyx
      rw [update_self, if_pos rfl]
    · rw [update_of_ne (Ne.symm hyx), if_neg hyx, Int.add_zero]
  unfold step
  split
  · exact hvisit ..
  · show ((t.make k y).visit y t.size n).support x = _
    rw [hvisit, support_make]

theorem support_addBelow (t : LinkedTree) (k : Nat) (n : Int) (xs : List Item) (x : Item) :
    (t.addBelow k n xs).support x = t.support x + (xs.count x : Int) * n := by
  induction xs generalizing t k with
  | nil => simp [addBelow]
  | cons y ys ih =>
    rw [addBelow, ih, support_step, List.count_cons]
    by_cases hyx : y = x
    · simp [hyx, Int.add_mul, Int.add_assoc, Int.add_comm n]
    · simp [hyx]

theorem support_addPaths (t : LinkedTree) (paths : Paths) (x : Item) :
    (t.addPaths paths).support x =
      t.support x + (paths.map fun e => (e.1.count x : Int) * e.2).sum := by
  induction paths using List.reverseRecOn with
  | nil => simp [addPaths]
  | append_singleton paths e ih =>
    rw [addPaths_concat, support_addBelow, ih, List.map_append, List.sum_append, Int.add_assoc,
      List.map_singleton, List.sum_singleton]

/-! ## The trees are the same -/

/-- A linked tree and a pattern tree are the same tree. -/
structure Realizes (t : LinkedTree) (u : PatternTree) : Prop where
  /-- Children lead down to the nodes of the trie. -/
  nodes : ∀ a, a ≠ [] → (t.descend 0 a).map t.count = u.forest.count? a
  /-- The header table has the items of the chains. -/
  headers : t.headers = u.chains.map Chain.item
  /-- The links from the header table on lead through the nodes of an item and end at the last one
  that was made. -/
  links : ∀ x, Leads t.link (t.first x) (t.chain x) ∧ t.last x = (t.chain x).getLast?
  /-- The parents lead up and end at the root. -/
  parents : ∀ k < t.size, Leads t.parent (some k) (t.wayUp k) ∧ (t.wayUp k).getLast? = some 0
  /-- The addresses of a chain are those of the nodes that the links lead through. -/
  addresses : ∀ x, (t.chain x).map t.address = u.addresses x
  supports : ∀ x, t.support x = u.itemSupport x
  bases : ∀ x, t.conditionalBase x = u.conditionalBase x

/-- **The same tree.** Whatever paths with whatever counts are added one after the other, the linked
tree and the pattern tree are the same. -/
theorem realizes_addPaths (order : ItemOrder) (paths : Paths) :
    (empty.addPaths paths).Realizes ((PatternTree.empty order).addPaths paths) := by
  have h := layout_addPaths order paths
  have hplaces : ∀ x, ([] :: made paths).filter (fun a => decide (a.getLast? = some x)) =
      (ofPaths order paths).addresses x := by
    intro x
    rw [addresses_eq_made]
    rfl
  refine ⟨?nodes, headers_addPaths order paths, ?links, ?parents, ?addresses, ?supports, ?bases⟩
  case nodes =>
    intro a ha
    by_cases hmade : a ∈ made paths
    · obtain ⟨k, hk⟩ := List.mem_iff_getElem?.1 (List.mem_cons_of_mem [] hmade)
      have hcount : (ofPaths order paths).forest.count? a =
          some ((ofPaths order paths).countAt a) :=
        (count?_ofPaths order paths a _).2 ⟨hmade, countAt_eq_total ha⟩
      rw [(descend_eq_some h h.root a k).2 hk, Option.map_some, h.counted k a hk]
      exact hcount.symm
    · have hdescend : (empty.addPaths paths).descend 0 a = none := by
        refine Option.eq_none_iff_forall_ne_some.2 fun k hk => ?_
        have hmem := List.mem_of_getElem? ((descend_eq_some h h.root a k).1 hk)
        exact (List.mem_cons.1 hmem).elim ha hmade
      have hcount : (ofPaths order paths).forest.count? a = none := by
        refine Option.eq_none_iff_forall_ne_some.2 fun c hc => ?_
        exact hmade ((count?_ofPaths order paths a c).1 hc).1
      rw [hdescend]
      exact hcount.symm
  case links =>
    intro x
    obtain ⟨hleads, hchain⟩ := leads_chain h x
    exact ⟨hleads, by rw [hchain, h.last x]⟩
  case parents =>
    intro k hk
    rw [h.size] at hk
    obtain ⟨hleads, -, hlast⟩ := leads_wayUp h (List.getElem?_eq_getElem hk)
    exact ⟨hleads, hlast⟩
  case addresses =>
    intro x
    rw [(leads_chain h x).2, map_places (g := id) fun k a hk => address_eq h hk, hplaces,
      List.map_id]
    rfl
  case supports =>
    intro x
    rw [support_addPaths, itemSupport_addPaths, itemSupport_empty]
    rfl
  case bases =>
    intro x
    unfold conditionalBase
    have hbase : ∀ k a, ([] :: made paths)[k]? = some (a ++ [x]) →
        ((empty.addPaths paths).pathAbove k, (empty.addPaths paths).count k) =
          (PatternTree.pathAbove (a ++ [x]), (ofPaths order paths).countAt (a ++ [x])) := by
      intro k a hk
      rw [pathAbove_eq h hk, h.counted k _ hk]
    rw [(leads_chain h x).2, map_places (g := fun a => (PatternTree.pathAbove a,
      (ofPaths order paths).countAt a)) hbase, hplaces]
    rfl

/-- The third path makes nodes 4 and 5 beside those of the first ones, and the links of item 1 lead
from level to level and on to the other branch. -/
example :
    let p (items : List Int) : List Item := items.map Item.number
    let t := empty.addPaths [(p [1, 2, 1], 2), (p [1, 2], -3), (p [2, 1], 5)]
    t.chain (.number 1) = [1, 3, 5] ∧ t.wayUp 3 = [3, 2, 1, 0] ∧ t.count 2 = -1 ∧
      t.conditionalBase (.number 1) = [(p [1, 2], 2), (p [2], 5)] := by
  decide

end LinkedTree

end TopPatterns

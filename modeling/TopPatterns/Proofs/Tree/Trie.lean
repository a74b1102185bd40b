import TopPatterns.Proofs.Tree.Conditional

/-!
# A tree is a trie

Whatever paths are added to a tree, it is the trie of their beginnings. `made` lists the beginnings
in the order in which paths make nodes of them: each path those that are none yet, from the top
down. `TrieOf` says that nothing else is in the tree: one node for each beginning, chains that go
through the nodes of an item in the order of their making, and supports and bases that are read off
the nodes along the chain.

The trie itself may hold no two nodes of one address. That is not in its type, but nodes beside each
other have different items (`Apart`), and a path that is added keeps them so; then `count?`, which
finds the first node of an address, finds the only one (`mem_nodes`).
-/

namespace TopPatterns

namespace Forest

/-! ## All nodes of a forest -/

/-- The nodes, each by its address and with its count. -/
def nodes : Forest → List (List Item × Int)
  | nil => []
  | node x c below beside =>
    ([x], c) :: (below.nodes.map fun e => (x :: e.1, e.2)) ++ beside.nodes

/-- The items of the nodes at the top. -/
def tops : Forest → List Item
  | nil => []
  | node x _ _ beside => x :: beside.tops

/-- Nodes beside each other have different items. -/
def Apart : Forest → Prop
  | nil => True
  | node x _ below beside => x ∉ beside.tops ∧ below.Apart ∧ beside.Apart

theorem mem_tops_add {f : Forest} {path : List Item} {n : Int} {y : Item} :
    y ∈ (f.add path n).tops ↔ y ∈ f.tops ∨ path.head? = some y := by
  induction f with
  | nil => cases path <;> simp [add, ofPath, tops, eq_comm]
  | node z c below beside _ ihBeside =>
    cases path with
    | nil => simp
    | cons x xs =>
      rw [add]
      split
      · next h =>
        subst h
        simp only [tops, List.mem_cons, List.head?_cons, Option.some.injEq]
        rw [eq_comm (a := z)]
        tauto
      · simp only [tops, List.mem_cons, ihBeside, or_assoc]

theorem apart_ofPath (path : List Item) (n : Int) : (ofPath path n).Apart := by
  induction path with
  | nil => trivial
  | cons x xs ih => exact ⟨List.not_mem_nil, ih, trivial⟩

/-- Adding a path keeps nodes beside each other apart: a new one is made where no node at the top
has its item. -/
theorem apart_add {f : Forest} (h : f.Apart) (path : List Item) (n : Int) :
    (f.add path n).Apart := by
  induction f generalizing path with
  | nil => exact apart_ofPath path n
  | node y c below beside ihBelow ihBeside =>
    obtain ⟨hy, hbelow, hbeside⟩ := h
    cases path with
    | nil => exact ⟨hy, hbelow, hbeside⟩
    | cons x xs =>
      rw [add]
      split
      · exact ⟨hy, ihBelow hbelow xs, hbeside⟩
      · next hne =>
        refine ⟨fun hmem => ?_, hbelow, ihBeside hbeside _⟩
        rcases mem_tops_add.1 hmem with hold | hnew
        · exact hy hold
        · exact hne (Option.some.inj hnew).symm

theorem head?_of_mem_nodes {f : Forest} {e : List Item × Int} (he : e ∈ f.nodes) :
    ∃ x ∈ f.tops, e.1.head? = some x := by
  induction f with
  | nil => cases he
  | node y c below beside _ ihBeside =>
    rw [nodes, List.cons_append, List.mem_cons, List.mem_append, List.mem_map] at he
    rcases he with rfl | ⟨d, -, rfl⟩ | he
    · exact ⟨y, List.mem_cons_self .., rfl⟩
    · exact ⟨y, List.mem_cons_self .., rfl⟩
    · obtain ⟨x, hx, hhead⟩ := ihBeside he
      exact ⟨x, List.mem_cons_of_mem _ hx, hhead⟩

/-- In a forest apart the node found at an address is the only one there. -/
theorem mem_nodes {f : Forest} (h : f.Apart) (a : List Item) (c : Int) :
    (a, c) ∈ f.nodes ↔ f.count? a = some c := by
  induction f generalizing a with
  | nil => simp [nodes, count?]
  | node y d below beside ihBelow ihBeside =>
    obtain ⟨hy, hbelow, hbeside⟩ := h
    rw [nodes, List.cons_append, List.mem_cons, List.mem_append, List.mem_map]
    cases a with
    | nil =>
      simp only [count?_nil, reduceCtorEq, iff_false]
      rintro (he | ⟨e, -, he⟩ | he)
      · simp at he
      · simp at he
      · obtain ⟨x, -, hx⟩ := head?_of_mem_nodes he
        cases hx
    | cons x xs =>
      rw [count?]
      split
      · next hyx =>
        subst hyx
        -- a node beside this one has another first item
        have hno : (y :: xs, c) ∉ beside.nodes := fun he => by
          obtain ⟨x, hx, hhead⟩ := head?_of_mem_nodes he
          exact hy (Option.some.inj hhead ▸ hx)
        cases xs with
        | nil =>
          have hroot : ∀ e : List Item × Int, e ∈ below.nodes → e.1 ≠ [] := fun e he hnil => by
            obtain ⟨x, -, hx⟩ := head?_of_mem_nodes he
            rw [hnil] at hx
            cases hx
          simp only [List.isEmpty_nil, if_true, Option.some.injEq, Prod.mk.injEq, true_and]
          constructor
          · rintro (rfl | ⟨e, he, hnil, -⟩ | he)
            · rfl
            · exact absurd (List.cons.inj hnil).2 (hroot e he)
            · exact absurd he hno
          · rintro rfl
            exact Or.inl rfl
        | cons z zs =>
          rw [List.isEmpty_cons, if_neg Bool.false_ne_true, ← ihBelow hbelow]
          constructor
          · rintro (he | ⟨e, he, heq⟩ | he)
            · simp at he
            · obtain ⟨b, m⟩ := e
              simp only [Prod.mk.injEq, List.cons.injEq, true_and] at heq
              obtain ⟨rfl, rfl⟩ := heq
              exact he
            · exact absurd he hno
          · exact fun he => Or.inr (Or.inl ⟨_, he, rfl⟩)
      · next hyx =>
        rw [← ihBeside hbeside]
        constructor
        · rintro (he | ⟨e, -, he⟩ | he)
          · simp only [Prod.mk.injEq, List.cons.injEq] at he
            exact absurd he.1.1.symm hyx
          · simp only [Prod.mk.injEq, List.cons.injEq] at he
            exact absurd he.1.1 hyx
          · exact he
        · exact fun he => Or.inr (Or.inr he)

theorem nodup_nodes {f : Forest} (h : f.Apart) : (f.nodes.map Prod.fst).Nodup := by
  induction f with
  | nil => exact List.nodup_nil
  | node y d below beside ihBelow ihBeside =>
    obtain ⟨hy, hbelow, hbeside⟩ := h
    have hfirst : ∀ a ∈ beside.nodes.map Prod.fst, a.head? ≠ some y := fun a ha hhead => by
      obtain ⟨e, he, rfl⟩ := List.mem_map.1 ha
      obtain ⟨x, hx, hx'⟩ := head?_of_mem_nodes he
      rw [hhead] at hx'
      exact hy (Option.some.inj hx' ▸ hx)
    have hmap : (below.nodes.map fun e => (y :: e.1, e.2)).map Prod.fst =
        (below.nodes.map Prod.fst).map (List.cons y) := by
      rw [List.map_map, List.map_map]
      rfl
    rw [nodes, List.cons_append, List.map_cons, List.map_append, hmap, List.nodup_cons]
    refine ⟨?_, List.Nodup.append ((ihBelow hbelow).map List.cons_injective) (ihBeside hbeside) ?_⟩
    · rw [List.mem_append, not_or]
      refine ⟨fun hm => ?_, fun hm => hfirst _ hm rfl⟩
      obtain ⟨a, ha, hnil⟩ := List.mem_map.1 hm
      obtain ⟨e, he, rfl⟩ := List.mem_map.1 ha
      obtain ⟨x, -, hx⟩ := head?_of_mem_nodes he
      rw [(List.cons.inj hnil).2] at hx
      cases hx
    · intro a ha ha'
      obtain ⟨b, -, rfl⟩ := List.mem_map.1 ha
      exact hfirst _ ha' rfl

end Forest

namespace PatternTree

open Paths

variable {order : ItemOrder} {paths : Paths} {x : Item}

/-! ## The making of nodes -/

/-- The beginnings of a path that have items, by rising length. -/
def starts (path : List Item) : List (List Item) := path.inits.filter fun a => decide (a ≠ [])

/-- The beginnings of paths in the order in which nodes are made of them: each path adds those of
its own that are none yet. -/
def made (paths : Paths) : List (List Item) :=
  paths.foldl (fun nodes e => nodes ++ (starts e.1).removeAll nodes) []

theorem mem_starts {path a : List Item} : a ∈ starts path ↔ a ≠ [] ∧ a <+: path := by
  rw [starts, List.mem_filter, List.mem_inits, decide_eq_true_iff, and_comm]

theorem nodup_inits (path : List Item) : path.inits.Nodup := by
  induction path with
  | nil => simp
  | cons x xs ih =>
    rw [List.inits_cons, List.nodup_cons]
    exact ⟨by simp, ih.map List.cons_injective⟩

theorem nodup_starts (path : List Item) : (starts path).Nodup :=
  (nodup_inits path).sublist List.filter_sublist

theorem filter_starts (x : Item) (path : List Item) :
    (starts path).filter (fun a => decide (a.getLast? = some x)) = beginnings x path := by
  rw [starts, beginnings, List.filter_filter]
  refine List.filter_congr fun a _ => ?_
  by_cases hlast : a.getLast? = some x
  · have hne : a ≠ [] := fun hnil => by simp [hnil] at hlast
    simp [hlast, hne]
  · simp [hlast]

theorem made_append (paths later : Paths) :
    made (paths ++ later) =
      later.foldl (fun nodes e => nodes ++ (starts e.1).removeAll nodes) (made paths) := by
  rw [made, List.foldl_append]
  rfl

theorem made_concat (paths : Paths) (e : List Item × Int) :
    made (paths ++ [e]) = made paths ++ (starts e.1).removeAll (made paths) := made_append paths [e]

/-- Nodes that are made stay where they are in the order. -/
theorem made_prefix {sofar : Paths} (h : sofar <+: paths) : made sofar <+: made paths := by
  obtain ⟨later, rfl⟩ := h
  induction later using List.reverseRecOn with
  | nil => rw [List.append_nil]
  | append_singleton later e ih =>
    rw [← List.append_assoc, made_concat]
    exact ih.trans (List.prefix_append _ _)

/-- Nodes are made of the beginnings that have items. -/
theorem mem_made {a : List Item} : a ∈ made paths ↔ a ≠ [] ∧ ∃ e ∈ paths, a <+: e.1 := by
  induction paths using List.reverseRecOn with
  | nil => simp [made]
  | append_singleton paths e ih =>
    rw [made_concat, List.mem_append, mem_removeAll, mem_starts]
    simp only [List.mem_append, List.mem_singleton, or_and_right, exists_or, exists_eq_left]
    rw [and_or_left, ← ih]
    -- what the last path begins with is a node already or is made one
    by_cases hold : a ∈ made paths
    · simp [hold]
    · simp [hold]

theorem nodup_made (paths : Paths) : (made paths).Nodup := by
  induction paths using List.reverseRecOn with
  | nil => exact List.nodup_nil
  | append_singleton paths e ih =>
    rw [made_concat]
    refine ih.append ((nodup_starts e.1).sublist List.filter_sublist) ?_
    exact fun a ha ha' => (mem_removeAll.1 ha').2 ha

/-! ## Nodes, chains, supports and bases -/

theorem apart_ofPaths (order : ItemOrder) (paths : Paths) : (ofPaths order paths).forest.Apart := by
  induction paths using List.reverseRecOn with
  | nil => trivial
  | append_singleton paths e ih =>
    rw [ofPaths_concat]
    exact Forest.apart_add ih e.1 e.2

/-- A node counts the paths that begin with its address, and there is one exactly if it was made. -/
theorem count?_ofPaths (order : ItemOrder) (paths : Paths) (a : List Item) (c : Int) :
    (ofPaths order paths).forest.count? a = some c ↔
      a ∈ made paths ∧ c = paths.total a.isPrefixOf := by
  have hsome : ((ofPaths order paths).forest.count? a).isSome ↔ a ∈ made paths := by
    rw [ofPaths, isSome_count?_addPaths, mem_made]
    simp [empty, Forest.count?]
  have hcount : a ≠ [] → (ofPaths order paths).countAt a = paths.total a.isPrefixOf := fun hne =>
    countAt_eq_total hne
  rw [countAt] at hcount
  constructor
  · intro hc
    have ha : a ∈ made paths := hsome.1 (by rw [hc]; rfl)
    rw [hc, Option.getD_some] at hcount
    exact ⟨ha, hcount (mem_made.1 ha).1⟩
  · rintro ⟨ha, rfl⟩
    obtain ⟨d, hd⟩ := Option.isSome_iff_exists.1 (hsome.2 ha)
    rw [hd, Option.getD_some] at hcount
    rw [hd, hcount (mem_made.1 ha).1]

/-- **The nodes.** The trie has one node for each beginning of a path, with the sum of the counts of
the paths that begin so. -/
theorem nodes_ofPaths (order : ItemOrder) (paths : Paths) :
    (ofPaths order paths).forest.nodes.Perm
      ((made paths).map fun a => (a, paths.total a.isPrefixOf)) := by
  have hapart := apart_ofPaths order paths
  have hmade : ((made paths).map fun a => (a, paths.total a.isPrefixOf)).Nodup :=
    (nodup_made paths).map fun _ _ hab => congrArg Prod.fst hab
  refine (List.perm_ext_iff_of_nodup (List.Nodup.of_map _ (Forest.nodup_nodes hapart)) hmade).2 ?_
  rintro ⟨a, c⟩
  rw [Forest.mem_nodes hapart, count?_ofPaths, List.mem_map]
  constructor
  · rintro ⟨ha, rfl⟩
    exact ⟨a, ha, rfl⟩
  · rintro ⟨b, hb, heq⟩
    obtain ⟨rfl, rfl⟩ := Prod.mk.inj heq
    exact ⟨hb, rfl⟩

/-- **The chains.** The chain of an item goes through its nodes in the order of their making. -/
theorem addresses_eq_made (order : ItemOrder) (paths : Paths) (x : Item) :
    (ofPaths order paths).addresses x =
      (made paths).filter fun a => decide (a.getLast? = some x) := by
  induction paths using List.reverseRecOn with
  | nil => rfl
  | append_singleton paths e ih =>
    rw [ofPaths_concat, addresses_addPath (listed_ofPaths order), ih, made_concat,
      List.filter_append, ← filter_starts, List.removeAll, List.removeAll, List.filter_filter,
      List.filter_filter]
    -- a node of the item is one of all nodes
    refine congrArg _ (List.filter_congr fun a _ => ?_)
    by_cases hlast : a.getLast? = some x
    · simp [hlast]
    · simp [hlast]

/-- Of an item's nodes a path passes as many as it has occurrences of the item. -/
theorem sum_passed {e : List Item × Int} (he : e ∈ paths) (x : Item) :
    (((ofPaths order paths).addresses x).map fun a => if a.isPrefixOf e.1 then e.2 else 0).sum =
      (e.1.count x : Int) * e.2 := by
  have hperm : (((ofPaths order paths).addresses x).filter fun a => a.isPrefixOf e.1).Perm
      (beginnings x e.1) := by
    refine (List.perm_ext_iff_of_nodup
      (((listed_ofPaths order).nodup x).sublist List.filter_sublist) (nodup_beginnings x e.1)).2 ?_
    intro a
    rw [List.mem_filter, mem_addresses_ofPaths, mem_beginnings, List.isPrefixOf_iff_prefix]
    constructor
    · exact fun h => ⟨h.2, h.1.2⟩
    · exact fun h => ⟨⟨⟨e, he, h.1⟩, h.2⟩, h.1⟩
  have hlength := hperm.length_eq
  rw [length_beginnings, ← List.countP_eq_length_filter] at hlength
  rw [← hlength]
  generalize (ofPaths order paths).addresses x = nodes
  induction nodes with
  | nil => simp
  | cons a nodes ih =>
    rw [List.map_cons, List.sum_cons, ih, List.countP_cons]
    by_cases h : a.isPrefixOf e.1
    · simp only [h, if_true, Int.natCast_add, Int.natCast_one, Int.add_mul]
      omega
    · simp [h]

/-- **The supports.** The support of an item is the sum of the counts along its chain. -/
theorem itemSupport_eq_sum (order : ItemOrder) (paths : Paths) (x : Item) :
    (ofPaths order paths).itemSupport x =
      (((ofPaths order paths).addresses x).map (ofPaths order paths).countAt).sum := by
  have hcount : ∀ a ∈ (ofPaths order paths).addresses x, (ofPaths order paths).countAt a =
      (paths.map fun e => if a.isPrefixOf e.1 then e.2 else 0).sum := by
    intro a ha
    have hlast := (mem_addresses_ofPaths.1 ha).2
    exact countAt_eq_total fun hnil => by simp [hnil] at hlast
  rw [List.map_congr_left hcount, sum_map_comm, ofPaths, itemSupport_addPaths, itemSupport_empty,
    Int.zero_add]
  exact congrArg List.sum (List.map_congr_left fun e he => (sum_passed he x).symm)

/-- **The bases.** The base of an item lists what is above its nodes, those at the top left out. -/
theorem conditionalBase_eq (hpresent : ∀ e ∈ paths, Item.absent ∉ e.1) (x : Item) :
    (ofPaths order paths).conditionalBase x =
      (((ofPaths order paths).addresses x).filter fun a => decide (2 ≤ a.length)).map fun a =>
        (a.dropLast, (ofPaths order paths).countAt a) := by
  have habove : ∀ a ∈ (ofPaths order paths).addresses x, pathAbove a = a.dropLast := by
    intro a ha
    obtain ⟨⟨e, he, hpre⟩, -⟩ := mem_addresses_ofPaths.1 ha
    exact pathAbove_eq_dropLast fun habs => hpresent e he (hpre.subset habs)
  rw [conditionalBase, List.map_congr_left fun a ha => by rw [habove a ha], List.filter_map]
  refine congrArg _ (List.filter_congr fun a _ => ?_)
  show (!a.dropLast.isEmpty) = decide (2 ≤ a.length)
  rw [Bool.eq_iff_iff, Bool.not_eq_true', List.isEmpty_eq_false_iff, ← List.length_pos_iff,
    List.length_dropLast, decide_eq_true_iff]
  omega

/-! ## The tree as a whole -/

/-- A tree is the trie of the beginnings of paths. -/
structure TrieOf (paths : Paths) (t : PatternTree) : Prop where
  /-- There is one node for each beginning that was made a node, with the sum of the counts of the
  paths that begin so. -/
  nodes : t.forest.nodes.Perm ((made paths).map fun a => (a, paths.total a.isPrefixOf))
  /-- The chain of an item goes through all of its nodes, each once and in the order of making. -/
  chains : ∀ x, t.addresses x = (made paths).filter fun a => decide (a.getLast? = some x)
  /-- The support of an item is the sum of the counts along its chain. -/
  supports : ∀ x, t.itemSupport x = ((t.addresses x).map t.countAt).sum
  /-- An item that is on no path has no support. -/
  unknown : ∀ x, (∀ e ∈ paths, x ∉ e.1) → t.itemSupport x = 0
  /-- The base of an item lists what is strictly above its nodes from the second level on, along the
  chain and with their counts. -/
  bases : ∀ x, t.conditionalBase x =
    ((t.addresses x).filter fun a => decide (2 ≤ a.length)).map fun a => (a.dropLast, t.countAt a)

/-- **A tree is a trie.** Whatever paths with whatever counts are added to a new tree one after the
other, if all of their items are present, the tree is the trie of their beginnings. The order of
making has each beginning with items once, and every further path leaves it as it is and adds to its
end. -/
theorem trieOf_addPaths (order : ItemOrder) (paths : Paths)
    (hpresent : ∀ e ∈ paths, Item.absent ∉ e.1) :
    ((empty order).addPaths paths).TrieOf paths ∧ (made paths).Nodup ∧
      (∀ a, a ∈ made paths ↔ a ≠ [] ∧ ∃ e ∈ paths, a <+: e.1) ∧
      ∀ sofar, sofar <+: paths → made sofar <+: made paths := by
  refine ⟨⟨nodes_ofPaths order paths, addresses_eq_made order paths,
    itemSupport_eq_sum order paths, ?_, conditionalBase_eq hpresent⟩, nodup_made paths,
    fun a => mem_made, fun sofar => made_prefix⟩
  intro x hx
  show (ofPaths order paths).itemSupport x = 0
  rw [ofPaths, itemSupport_addPaths, itemSupport_empty, Int.zero_add]
  refine List.sum_eq_zero fun n hn => ?_
  obtain ⟨e, he, rfl⟩ := List.mem_map.1 hn
  rw [List.count_eq_zero.2 (hx e he)]
  simp

/-- Paths that repeat an item, with counts of either sign, in an order that ranks nothing: the chain
of item 1 is visited twice within the first path, and the last path makes a node at the top. -/
theorem trieOf_addPaths_repeated :
    let p (items : List Int) : List Item := items.map Item.number
    let paths : Paths := [(p [1, 2, 1], 2), (p [1, 2, 2], -3), (p [2, 1], 5), ([], 7)]
    let t := (empty (ItemOrder.ofSupports [] 1)).addPaths paths
    (∀ e ∈ paths, Item.absent ∉ e.1) ∧ TrieOf paths t ∧
      made paths = [p [1], p [1, 2], p [1, 2, 1], p [1, 2, 2], p [2], p [2, 1]] ∧
      t.addresses (.number 1) = [p [1], p [1, 2, 1], p [2, 1]] ∧ t.itemSupport (.number 1) = 6 ∧
      t.conditionalBase (.number 1) = [(p [1, 2], 2), (p [2], 5)] := by
  intro p paths t
  have hpresent : ∀ e ∈ paths, Item.absent ∉ e.1 := by decide
  refine ⟨hpresent, (trieOf_addPaths _ paths hpresent).1, ?_, ?_, ?_, ?_⟩
  all_goals decide +kernel

end PatternTree

end TopPatterns

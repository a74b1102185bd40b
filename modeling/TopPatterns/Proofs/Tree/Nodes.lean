import Mathlib.Algebra.BigOperators.Group.List.Basic
import Mathlib.Algebra.Ring.Int.Defs
import Mathlib.Data.List.Infix
import TopPatterns.Tree.Basic

/-!
# The nodes of a tree

A tree to which paths have been added has one node for each beginning of a path. The trie and the
chains are kept apart, and `Listed` says that they agree: the chain of an item has the addresses of
the nodes that end in the item, each once. A path adds those of its beginnings that are no nodes yet
(`addresses_addPath`); this is the step, and it keeps a tree listed (`listed_addPath`). By induction
on the paths `addresses_ofPaths`, `countAt_addPaths` and `itemSupport_addPaths` say what a tree
built from paths holds, whatever the paths are.
-/

namespace TopPatterns

namespace Forest

theorem isSome_count?_add (f : Forest) (path address : List Item) (n : Int) :
    ((f.add path n).count? address).isSome ↔
      (address ≠ [] ∧ address <+: path) ∨ (f.count? address).isSome := by
  rw [count?_add]
  split
  · next h => simp [h]
  · next h => simp [h]

/-- Of the beginnings of a path, those are nodes that are no longer than its known part. -/
theorem isSome_count?_iff_le_known (f : Forest) {path address : List Item}
    (hpre : address <+: path) (hne : address ≠ []) :
    (f.count? address).isSome ↔ address.length ≤ f.known path := by
  induction f generalizing path address with
  | nil =>
    have hpos := List.length_pos_iff.2 hne
    simp only [count?, known, Option.isSome_none, Bool.false_eq_true, false_iff]
    omega
  | node y c below beside ihBelow ihBeside =>
    obtain ⟨a, as, rfl⟩ := List.exists_cons_of_ne_nil hne
    obtain ⟨x, xs, rfl⟩ := List.exists_cons_of_ne_nil (hpre.ne_nil hne)
    obtain ⟨rfl, hpre'⟩ := List.cons_prefix_cons.1 hpre
    rw [count?, known]
    split
    · -- the path goes on below a node with its first item, and beside any other
      cases as with
      | nil => simp
      | cons b bs =>
        simp only [List.isEmpty_cons, Bool.false_eq_true, if_false, List.length_cons]
        rw [ihBelow hpre' (List.cons_ne_nil b bs), List.length_cons]
        omega
    · exact ihBeside hpre (List.cons_ne_nil a as)

/-- No address is longer than the height. -/
theorem length_le_height {f : Forest} {address : List Item} (h : (f.count? address).isSome) :
    address.length ≤ f.height := by
  induction f generalizing address with
  | nil => simp [count?] at h
  | node y c below beside ihBelow ihBeside =>
    cases address with
    | nil => exact Nat.zero_le _
    | cons a as =>
      rw [count?] at h
      rw [height, List.length_cons]
      split at h
      · cases as with
        | nil =>
          rw [List.length_nil]
          omega
        | cons b bs =>
          have := ihBelow (by simpa using h)
          omega
      · have := ihBeside h
        rw [List.length_cons] at this
        omega

/-- A forest without nodes has no address. -/
theorem count?_of_isEmpty {f : Forest} (h : f.isEmpty = true) (address : List Item) :
    f.count? address = none := by
  cases f with
  | nil => rfl
  | node y c below beside => simp [isEmpty] at h

end Forest

namespace Chain

/-- The addresses listed for an item, none if it has no chain. -/
def listed (chains : List Chain) (x : Item) : List (List Item) :=
  ((find? chains x).map Chain.addresses).getD []

/-- A visit lists the address of a new node with its item. -/
theorem listed_visit (chains : List Chain) (item other : Item) (n : Int)
    (made : Option (List Item)) :
    listed (visit item n made chains) other =
      listed chains other ++ if item = other then made.toList else [] := by
  induction chains with
  | nil => by_cases h : item = other <;> simp [visit, listed, find?, h]
  | cons chain rest ih =>
    simp only [listed, find?] at ih ⊢
    rw [visit]
    split
    · next h =>
      by_cases ho : chain.item = other
      · simp [ho, ← h]
      · simp [ho, ← h]
    · next h =>
      by_cases ho : chain.item = other
      · simp [ho, show ¬item = other from fun e => h (ho.trans e.symm)]
      · simp [ho, ih]

/-- A visit gives its item a chain. -/
theorem isSome_find?_visit (chains : List Chain) (item other : Item) (n : Int)
    (made : Option (List Item)) :
    (find? (visit item n made chains) other).isSome ↔
      item = other ∨ (find? chains other).isSome := by
  induction chains with
  | nil => by_cases h : item = other <;> simp [visit, find?, h]
  | cons chain rest ih =>
    simp only [find?] at ih ⊢
    rw [visit]
    split
    · next h =>
      by_cases ho : chain.item = other
      · simp [ho]
      · simp [ho, ← h]
    · by_cases ho : chain.item = other
      · simp [ho]
      · simp [ho, ih]

/-- The addresses of the nodes made along a path, of which the first `known` are there. -/
def madeAlong (known : Nat) (above : List Item) : List Item → List (List Item)
  | [] => []
  | x :: xs =>
    (if known = 0 then [above ++ [x]] else []) ++ madeAlong (known - 1) (above ++ [x]) xs

/-- They are the beginnings of the path that are longer than its known part. -/
theorem madeAlong_eq (known : Nat) (above path : List Item) :
    madeAlong known above path =
      (path.inits.filter fun pre => decide (known < pre.length)).map (above ++ ·) := by
  induction path generalizing known above with
  | nil => simp [madeAlong]
  | cons x xs ih =>
    rw [madeAlong, ih, List.inits_cons, List.filter_cons_of_neg (by simp), List.filter_map,
      List.map_map]
    cases known with
    | zero =>
      -- the node of the first item is made here, and those below it further on
      cases xs <;> simp [Function.comp_def, List.filter_map]
    | succ known => simp [Function.comp_def]

/-- A path lists each node that it makes with the last item of the address. -/
theorem listed_visitPath (n : Int) (known : Nat) (above path : List Item) (chains : List Chain)
    (x : Item) :
    listed (visitPath n known above path chains) x =
      listed chains x ++
        (madeAlong known above path).filter fun a => decide (a.getLast? = some x) := by
  induction path generalizing known above chains with
  | nil => simp [visitPath, madeAlong]
  | cons y ys ih =>
    rw [visitPath, ih, listed_visit, madeAlong, List.filter_append, List.append_assoc]
    by_cases h0 : known = 0
    · by_cases hy : y = x
      · simp [h0, hy]
      · simp [h0, hy]
    · simp [h0]

/-- The items of a path have chains after it. -/
theorem isSome_find?_visitPath (n : Int) (known : Nat) (above path : List Item)
    (chains : List Chain) (x : Item) :
    (find? (visitPath n known above path chains) x).isSome ↔
      x ∈ path ∨ (find? chains x).isSome := by
  induction path generalizing known above chains with
  | nil => simp [visitPath]
  | cons y ys ih =>
    rw [visitPath, ih, isSome_find?_visit, List.mem_cons]
    constructor
    · intro hx
      rcases hx with h | rfl | h
      · exact Or.inl (Or.inr h)
      · exact Or.inl (Or.inl rfl)
      · exact Or.inr h
    · intro hx
      rcases hx with (rfl | h) | h
      · exact Or.inr (Or.inl rfl)
      · exact Or.inl h
      · exact Or.inr (Or.inr h)

/-- A path adds its count to an item's support as often as it passes the item. -/
theorem support_visitPath (n : Int) (known : Nat) (above path : List Item) (chains : List Chain)
    (x : Item) :
    ((find? (visitPath n known above path chains) x).map Chain.support).getD 0 =
      ((find? chains x).map Chain.support).getD 0 + path.count x * n := by
  induction path generalizing known above chains with
  | nil => simp [visitPath]
  | cons y ys ih =>
    rw [visitPath, ih, support_visit, List.count_cons]
    by_cases hy : y = x
    · simp only [hy, if_true, beq_self_eq_true, Int.natCast_add, Int.natCast_one, Int.add_mul]
      omega
    · simp [hy]

end Chain

namespace PatternTree

/-! ## Beginnings of a path -/

section Beginnings

/-- The beginnings of a path that end in an item, by rising length. -/
def beginnings (x : Item) (path : List Item) : List (List Item) :=
  path.inits.filter fun a => decide (a.getLast? = some x)

variable {x : Item} {path a : List Item}

theorem mem_beginnings : a ∈ beginnings x path ↔ a <+: path ∧ a.getLast? = some x := by
  rw [beginnings, List.mem_filter, List.mem_inits, decide_eq_true_iff]

theorem beginnings_concat (x y : Item) (path : List Item) :
    beginnings x (path ++ [y]) = beginnings x path ++ if y = x then [path ++ [y]] else [] := by
  rw [beginnings, List.inits_append, List.filter_append]
  by_cases h : y = x <;> simp [beginnings, h]

theorem nodup_beginnings (x : Item) (path : List Item) : (beginnings x path).Nodup := by
  induction path using List.reverseRecOn with
  | nil => exact List.nodup_nil
  | append_singleton path y ih =>
    rw [beginnings_concat, List.nodup_append]
    refine ⟨ih, by split <;> simp, fun a ha b hb hab => ?_⟩
    split at hb
    · -- the last beginning is longer than those before it
      have hle := (mem_beginnings.1 ha).1.length_le
      rw [hab, List.mem_singleton.1 hb, List.length_append, List.length_singleton] at hle
      omega
    · cases hb

/-- There are as many as the path has occurrences of the item. -/
theorem length_beginnings (x : Item) (path : List Item) :
    (beginnings x path).length = path.count x := by
  induction path using List.reverseRecOn with
  | nil => rfl
  | append_singleton path y ih =>
    rw [beginnings_concat, List.length_append, ih, List.count_append, List.count_singleton]
    by_cases h : y = x <;> simp [h]

/-- Items after the last occurrence add none. -/
theorem beginnings_append {rest : List Item} (hx : x ∉ rest) :
    beginnings x (path ++ rest) = beginnings x path := by
  induction rest using List.reverseRecOn with
  | nil => rw [List.append_nil]
  | append_singleton rest y ih =>
    rw [List.mem_append, List.mem_singleton, not_or] at hx
    rw [← List.append_assoc, beginnings_concat, ih hx.1, if_neg fun h => hx.2 h.symm,
      List.append_nil]

end Beginnings

/-! ## Chains and trie -/

/-- The chains list the nodes of the trie by their items, each node once. -/
structure Listed (t : PatternTree) : Prop where
  mem : ∀ x a, a ∈ t.addresses x ↔ (t.forest.count? a).isSome ∧ a.getLast? = some x
  nodup : ∀ x, (t.addresses x).Nodup

theorem addresses_eq_listed (t : PatternTree) (x : Item) :
    t.addresses x = Chain.listed t.chains x := by
  rw [addresses, chain?, Chain.listed]
  cases Chain.find? t.chains x <;> rfl

theorem listed_empty (order : ItemOrder) : (empty order).Listed :=
  ⟨fun x a => by simp [empty, addresses, chain?, Chain.find?, Forest.count?],
    fun x => by simp [empty, addresses, chain?, Chain.find?]⟩

theorem mem_removeAll {as bs : List (List Item)} {a : List Item} :
    a ∈ as.removeAll bs ↔ a ∈ as ∧ a ∉ bs := by
  simp [List.removeAll]

/-- Adding a path lists the nodes that it makes, which are the beginnings of it that are none. -/
theorem addresses_addPath {t : PatternTree} (h : t.Listed) (path : List Item) (n : Int) (x : Item) :
    (t.addPath path n).addresses x =
      t.addresses x ++ (beginnings x path).removeAll (t.addresses x) := by
  have hvisited : (t.addPath path n).addresses x = t.addresses x ++
      (Chain.madeAlong (t.forest.known path) [] path).filter
        fun a => decide (a.getLast? = some x) := by
    rw [addresses_eq_listed, addresses_eq_listed]
    exact Chain.listed_visitPath ..
  rw [hvisited, Chain.madeAlong_eq, beginnings, List.removeAll]
  simp only [List.nil_append, List.map_id', List.filter_filter]
  refine congrArg _ (List.filter_congr fun a ha => ?_)
  -- of the beginnings that end in the item, those are nodes that are no longer than what is known
  by_cases hlast : a.getLast? = some x
  · have hne : a ≠ [] := fun hnil => by simp [hnil] at hlast
    have hknown := Forest.isSome_count?_iff_le_known t.forest ((List.mem_inits a path).1 ha) hne
    have hmem : (t.addresses x).elem a = decide (a.length ≤ t.forest.known path) := by
      rw [List.elem_eq_mem, decide_eq_decide, h.mem, hknown]
      exact and_iff_left hlast
    rw [hmem, hlast, ← decide_not]
    simp
  · simp [hlast]

/-- Adding a path keeps chains and trie in step. -/
theorem listed_addPath {t : PatternTree} (h : t.Listed) (path : List Item) (n : Int) :
    (t.addPath path n).Listed := by
  constructor
  · intro x a
    rw [addresses_addPath h, List.mem_append, mem_removeAll, mem_beginnings, h.mem, addPath,
      Forest.isSome_count?_add]
    by_cases hlast : a.getLast? = some x
    · have hne : a ≠ [] := fun hnil => by simp [hnil] at hlast
      by_cases hold : (t.forest.count? a).isSome
      · simp [hlast, hold]
      · simp [hlast, hold, hne]
    · simp [hlast]
  · intro x
    rw [addresses_addPath h, List.nodup_append]
    refine ⟨h.nodup x, (nodup_beginnings x path).sublist List.filter_sublist, ?_⟩
    exact fun a ha b hb hab => (mem_removeAll.1 hb).2 (hab ▸ ha)

/-! ## Trees built from paths -/

variable (t : PatternTree) (paths : List (List Item × Int))

@[simp] theorem order_addPaths : (t.addPaths paths).order = t.order := by
  unfold addPaths
  induction paths generalizing t with
  | nil => rfl
  | cons e paths ih => rw [List.foldl_cons, ih]; rfl

theorem listed_addPaths {t : PatternTree} (h : t.Listed) : (t.addPaths paths).Listed := by
  unfold addPaths
  induction paths generalizing t with
  | nil => exact h
  | cons e paths ih => exact ih (listed_addPath h e.1 e.2)

/-- The nodes are the beginnings of the paths. -/
theorem isSome_count?_addPaths (address : List Item) :
    ((t.addPaths paths).forest.count? address).isSome ↔
      (address ≠ [] ∧ ∃ e ∈ paths, address <+: e.1) ∨ (t.forest.count? address).isSome := by
  unfold addPaths
  induction paths generalizing t with
  | nil => simp
  | cons e paths ih =>
    rw [List.foldl_cons, ih, addPath, Forest.isSome_count?_add]
    simp only [List.mem_cons, exists_eq_or_imp]
    rw [and_or_left, or_left_comm, or_assoc]

/-- A node counts the paths that begin with its address. -/
theorem countAt_addPaths (address : List Item) (hne : address ≠ []) :
    (t.addPaths paths).countAt address = t.countAt address +
      (paths.map fun e => if address <+: e.1 then e.2 else 0).sum := by
  unfold addPaths
  induction paths generalizing t with
  | nil => simp
  | cons e paths ih =>
    rw [List.foldl_cons, ih, countAt_addPath, List.map_cons, List.sum_cons]
    by_cases h : address <+: e.1
    · simp only [hne, h, ne_eq, not_false_eq_true, and_self, if_true]
      omega
    · simp [h]

/-- An item's support sums the counts of the paths, each as often as it passes the item. -/
theorem itemSupport_addPaths (x : Item) :
    (t.addPaths paths).itemSupport x =
      t.itemSupport x + (paths.map fun e => (e.1.count x : Int) * e.2).sum := by
  have hsupport : ∀ t : PatternTree, t.itemSupport x =
      ((Chain.find? t.chains x).map Chain.support).getD 0 := by
    intro t
    rw [itemSupport, chain?]
    cases Chain.find? t.chains x <;> rfl
  unfold addPaths
  induction paths generalizing t with
  | nil => simp
  | cons e paths ih =>
    rw [List.foldl_cons, ih, List.map_cons, List.sum_cons, hsupport, hsupport, addPath,
      Chain.support_visitPath]
    omega

/-- The items with a chain are those of the paths. -/
theorem isSome_chain?_addPaths (x : Item) :
    ((t.addPaths paths).chain? x).isSome ↔ (∃ e ∈ paths, x ∈ e.1) ∨ (t.chain? x).isSome := by
  unfold addPaths
  induction paths generalizing t with
  | nil => simp
  | cons e paths ih =>
    rw [List.foldl_cons, ih, chain?, addPath, Chain.isSome_find?_visitPath]
    simp only [List.mem_cons, exists_eq_or_imp, chain?]
    rw [or_left_comm, or_assoc]

/-- The tree of some paths. -/
def ofPaths (order : ItemOrder) (paths : List (List Item × Int)) : PatternTree :=
  (empty order).addPaths paths

@[simp] theorem order_ofPaths (order : ItemOrder) : (ofPaths order paths).order = order :=
  order_addPaths _ _

variable {paths}

theorem listed_ofPaths (order : ItemOrder) : (ofPaths order paths).Listed :=
  listed_addPaths paths (listed_empty order)

/-- The items with a chain are those of the paths. -/
theorem isSome_chain?_ofPaths {order : ItemOrder} {x : Item} :
    ((ofPaths order paths).chain? x).isSome ↔ ∃ e ∈ paths, x ∈ e.1 := by
  rw [ofPaths, isSome_chain?_addPaths]
  simp [empty, chain?, Chain.find?]

theorem eraseDups_of_nodup {as : List (List Item)} (h : as.Nodup) : as.eraseDups = as := by
  induction as with
  | nil => rfl
  | cons a as ih =>
    obtain ⟨ha, has⟩ := List.nodup_cons.1 h
    have hall : as.filter (fun b => !b == a) = as :=
      List.filter_eq_self.2 fun b hb => by simpa using fun e : b = a => ha (e ▸ hb)
    rw [List.eraseDups_cons, hall, ih has]

theorem ofPaths_concat (order : ItemOrder) (paths : List (List Item × Int)) (e : List Item × Int) :
    ofPaths order (paths ++ [e]) = (ofPaths order paths).addPath e.1 e.2 := by
  rw [ofPaths, addPaths, List.foldl_concat]
  rfl

/-- **Chains.** The addresses of an item are the beginnings of the paths that end in it, each once, in
the order in which they first occur. -/
theorem addresses_ofPaths (order : ItemOrder) (paths : List (List Item × Int)) (x : Item) :
    (ofPaths order paths).addresses x =
      (paths.flatMap fun e => beginnings x e.1).eraseDups := by
  induction paths using List.reverseRecOn with
  | nil => rfl
  | append_singleton paths e ih =>
    have hremove : (beginnings x e.1).removeAll ((paths.flatMap fun d => beginnings x d.1).eraseDups) =
        (beginnings x e.1).removeAll (paths.flatMap fun d => beginnings x d.1) := by
      refine List.filter_congr fun a _ => ?_
      rw [List.elem_eq_mem, List.elem_eq_mem, decide_eq_decide.2 List.mem_eraseDups]
    have hnodup : ((beginnings x e.1).removeAll (paths.flatMap fun d => beginnings x d.1)).Nodup :=
      (nodup_beginnings x e.1).sublist List.filter_sublist
    rw [ofPaths_concat, addresses_addPath (listed_ofPaths order), ih, hremove, List.flatMap_append,
      List.eraseDups_append, List.flatMap_singleton, eraseDups_of_nodup hnodup]

/-- The addresses of an item are the beginnings of paths that end in it. -/
theorem mem_addresses_ofPaths {order : ItemOrder} {x : Item} {a : List Item} :
    a ∈ (ofPaths order paths).addresses x ↔
      (∃ e ∈ paths, a <+: e.1) ∧ a.getLast? = some x := by
  rw [addresses_ofPaths, List.mem_eraseDups, List.mem_flatMap]
  simp only [mem_beginnings]
  rw [← exists_and_right]
  exact exists_congr fun e => and_assoc.symm

/-- The beginnings of a path are nodes. -/
theorem isSome_count?_of_mem (order : ItemOrder) {e : List Item × Int} (he : e ∈ paths)
    (hne : e.1 ≠ []) : ((ofPaths order paths).forest.count? e.1).isSome :=
  (isSome_count?_addPaths _ _ _).2 (Or.inl ⟨hne, e, he, List.prefix_refl _⟩)

/-- No path is longer than the tree is deep. -/
theorem length_le_depth {order : ItemOrder} {e : List Item × Int} (he : e ∈ paths) :
    e.1.length ≤ (ofPaths order paths).depth := by
  by_cases hne : e.1 = []
  · simp [hne]
  · exact Forest.length_le_height (isSome_count?_of_mem order he hne)

/-- Paths without items make no nodes. -/
theorem ofPaths_of_nil (order : ItemOrder) (h : ∀ e ∈ paths, e.1 = []) :
    ofPaths order paths = empty order := by
  unfold ofPaths addPaths
  induction paths with
  | nil => rfl
  | cons e paths ih =>
    rw [List.foldl_cons, h e (List.mem_cons_self ..), addPath_nil]
    exact ih fun d hd => h d (List.mem_cons_of_mem _ hd)

/-- A tree has no nodes exactly if its paths have no items. -/
theorem isEmpty_ofPaths {order : ItemOrder} :
    (ofPaths order paths).isEmpty = true ↔ ∀ e ∈ paths, e.1 = [] := by
  constructor
  · intro h e he
    by_contra hne
    have hsome := isSome_count?_of_mem order he hne
    rw [Forest.count?_of_isEmpty h] at hsome
    simp at hsome
  · intro h
    rw [ofPaths_of_nil order h, isEmpty_empty]

end PatternTree

end TopPatterns

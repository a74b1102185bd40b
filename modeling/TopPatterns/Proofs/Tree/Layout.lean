import TopPatterns.Proofs.Tree.Trie
import TopPatterns.Tree.Linked

/-!
# Layouts of linked trees

The linked tree after some paths is laid out over the addresses in the order of their making: the
node of number `k` is that of the `k`th address. `Layout` says so of every attribute. A new node
appends its address (`layout_make`) and a visit changes nothing but a weight (`layout_visit`), so a
step does one or both (`layout_step`); by induction on the path (`layout_addBelow`) and on the paths
the linked tree is laid out over `made`, which is the order of the pattern tree (`layout_addPaths`).
-/

namespace TopPatterns

open Function (update update_self update_of_ne)

namespace LinkedTree

/-! ## Layouts -/

/-- The numbers of the nodes with an item, where the addresses are listed by number. -/
def places (nodes : List (List Item)) (x : Item) : List Nat :=
  nodes.findIdxs fun a => decide (a.getLast? = some x)

/-- A tree has a node for each of the listed addresses, and the node of number `k` is that of the
`k`th one and has its weight. -/
structure Layout (t : LinkedTree) (nodes : List (List Item)) (weight : List Item → Int) :
    Prop where
  size : t.size = nodes.length
  root : nodes[0]? = some []
  nodup : nodes.Nodup
  item_root : t.item 0 = .absent
  parent_root : t.parent 0 = none
  item : ∀ k a x, nodes[k]? = some (a ++ [x]) → t.item k = x
  parent : ∀ k a x, nodes[k]? = some (a ++ [x]) → ∃ j < k, t.parent k = some j ∧ nodes[j]? = some a
  child : ∀ k a, nodes[k]? = some a → ∀ x m, t.child k x = some m ↔ nodes[m]? = some (a ++ [x])
  links : ∀ x, Leads t.link (t.first x) (places nodes x)
  last : ∀ x, t.last x = (places nodes x).getLast?
  headers : ∀ x, x ∈ t.headers ↔ places nodes x ≠ []
  counted : ∀ k a, nodes[k]? = some a → t.count k = weight a
  unmade : ∀ a ∉ nodes, weight a = 0

variable {t : LinkedTree} {nodes : List (List Item)} {weight : List Item → Int}
variable {x : Item} {a : List Item} {k : Nat}

theorem mem_places : k ∈ places nodes x ↔ ∃ a, nodes[k]? = some (a ++ [x]) := by
  unfold places
  rw [List.mem_findIdxs_iff_exists_getElem_pos]
  constructor
  · rintro ⟨hk, hlast⟩
    obtain ⟨a, ha⟩ := List.getLast?_eq_some_iff.1 (of_decide_eq_true hlast)
    exact ⟨a, by rw [List.getElem?_eq_getElem hk, ha]⟩
  · rintro ⟨a, ha⟩
    obtain ⟨hk, ha⟩ := List.getElem?_eq_some_iff.1 ha
    exact ⟨hk, by rw [ha]; simp⟩

theorem lt_of_mem_places (hk : k ∈ places nodes x) : k < nodes.length := by
  obtain ⟨a, ha⟩ := mem_places.1 hk
  exact (List.getElem?_eq_some_iff.1 ha).1

theorem places_concat (nodes : List (List Item)) (a : List Item) (x y : Item) :
    places (nodes ++ [a ++ [x]]) y = places nodes y ++ if x = y then [nodes.length] else [] := by
  unfold places
  rw [List.findIdxs_append, List.findIdxs_singleton]
  by_cases hxy : x = y
  · simp [hxy]
  · simp [hxy]

/-- What is said of the numbers of an item's nodes is said of their addresses. -/
theorem map_places {α : Type} {f : Nat → α} {g : List Item → α} {nodes : List (List Item)}
    (h : ∀ k a, nodes[k]? = some (a ++ [x]) → f k = g (a ++ [x])) :
    (places nodes x).map f =
      (nodes.filter fun a => decide (a.getLast? = some x)).map g := by
  induction nodes using List.reverseRecOn with
  | nil => rfl
  | append_singleton nodes a ih =>
    have hold := ih fun k a hk => h k a (List.getElem?_append_left
      (List.getElem?_eq_some_iff.1 hk).1 ▸ hk)
    unfold places at hold ⊢
    rw [List.findIdxs_append, List.findIdxs_singleton, List.map_append, hold, List.filter_append,
      List.map_append]
    by_cases hlast : a.getLast? = some x
    · obtain ⟨b, rfl⟩ := List.getLast?_eq_some_iff.1 hlast
      have hnew := h nodes.length b (by simp)
      simp [hnew]
    · simp [hlast]

theorem layout_empty : empty.Layout [[]] fun _ => 0 where
  size := rfl
  root := rfl
  nodup := List.nodup_singleton _
  item_root := rfl
  parent_root := rfl
  item := by
    intro k a x hk
    simp [List.getElem?_singleton] at hk
  parent := by
    intro k a x hk
    simp [List.getElem?_singleton] at hk
  child := by
    intro k a _ x m
    simp [empty, List.getElem?_singleton]
  links := fun _ => rfl
  last := fun _ => rfl
  headers := by
    intro x
    simp [empty, places]
  counted := fun _ _ _ => rfl
  unmade := fun _ _ => rfl

/-! ## What a path does -/

theorem getElem?_concat_iff {nodes : List (List Item)} {a b : List Item} {k : Nat} :
    (nodes ++ [a])[k]? = some b ↔ nodes[k]? = some b ∨ (k = nodes.length ∧ a = b) := by
  rw [List.getElem?_append]
  split
  · next hk => simp [Nat.ne_of_lt hk]
  · next hk =>
    rw [List.getElem?_singleton]
    have hnone : nodes[k]? = none := List.getElem?_eq_none (Nat.le_of_not_lt hk)
    by_cases hlast : k = nodes.length
    · simp [hlast]
    · simp [hnone, hlast, show ¬k - nodes.length = 0 by omega]

namespace Layout

variable {j : Nat}

theorem number_inj (h : t.Layout nodes weight) (hj : nodes[j]? = some a)
    (hk : nodes[k]? = some a) : j = k :=
  (List.getElem?_inj (List.getElem?_eq_some_iff.1 hj).1 h.nodup).1 (hj.trans hk.symm)

theorem lt_size (h : t.Layout nodes weight) (hk : nodes[k]? = some a) : k < t.size := by
  rw [h.size]
  exact (List.getElem?_eq_some_iff.1 hk).1

/-- The beginnings of an address are addresses. -/
theorem mem_of_append (h : t.Layout nodes weight) {xs : List Item} (ha : a ++ xs ∈ nodes) :
    a ∈ nodes := by
  induction xs using List.reverseRecOn with
  | nil => rwa [List.append_nil] at ha
  | append_singleton xs x ih =>
    rw [← List.append_assoc] at ha
    obtain ⟨k, hk⟩ := List.mem_iff_getElem?.1 ha
    obtain ⟨j, -, -, hj⟩ := h.parent k (a ++ xs) x hk
    exact ih (List.mem_of_getElem? hj)

end Layout

/-- A visit changes the count of a node, and nothing else of the layout. -/
theorem layout_visit (h : t.Layout nodes weight) (hk : nodes[k]? = some a) (x : Item) (n : Int) :
    (t.visit x k n).Layout nodes (update weight a (weight a + n)) where
  size := h.size
  root := h.root
  nodup := h.nodup
  item_root := h.item_root
  parent_root := h.parent_root
  item := h.item
  parent := h.parent
  child := h.child
  links := h.links
  last := h.last
  headers := h.headers
  counted := by
    intro j b hj
    show update t.count k (t.count k + n) j = _
    by_cases hjk : j = k
    · subst hjk
      obtain rfl : a = b := Option.some.inj (hk.symm.trans hj)
      rw [update_self, update_self, h.counted j a hj]
    · have hba : b ≠ a := by
        rintro rfl
        exact hjk (h.number_inj hj hk)
      rw [update_of_ne hjk, update_of_ne hba, h.counted j b hj]
  unmade := by
    intro b hb
    have hba : b ≠ a := by
      rintro rfl
      exact hb (List.mem_of_getElem? hk)
    rw [update_of_ne hba, h.unmade b hb]

section make

variable (t k x)

@[simp] theorem size_make : (t.make k x).size = t.size + 1 := by
  unfold make enter
  split <;> rfl

@[simp] theorem item_make : (t.make k x).item = update t.item t.size x := by
  unfold make enter
  split <;> rfl

@[simp] theorem count_make : (t.make k x).count = update t.count t.size 0 := by
  unfold make enter
  split <;> rfl

@[simp] theorem parent_make : (t.make k x).parent = update t.parent t.size (some k) := by
  unfold make enter
  split <;> rfl

@[simp] theorem last_make : (t.make k x).last = update t.last x (some t.size) := by
  unfold make enter
  split <;> rfl

@[simp] theorem support_make : (t.make k x).support = t.support := by
  unfold make enter
  split <;> rfl

end make

/-- A new node is the child of the one that it is made below, and has no children. -/
theorem child_make (hk : k < t.size) (x : Item) (j : Nat) (y : Item) :
    (t.make k x).child j y =
      if j = k ∧ y = x then some t.size else if j = t.size then none else t.child j y := by
  have hchild : (t.make k x).child = ((t.alloc x k).attach k x t.size).child := by
    unfold make enter
    split <;> rfl
  rw [hchild]
  show update (update t.child t.size fun _ => none) k _ j y = _
  by_cases hj : j = k
  · subst hj
    rw [update_self]
    show update (update t.child t.size (fun _ => none) j) x (some t.size) y = _
    rw [update_of_ne (Nat.ne_of_lt hk)]
    by_cases hy : y = x
    · simp [hy]
    · simp [hy, Nat.ne_of_lt hk]
  · rw [update_of_ne hj, if_neg fun hboth => hj hboth.1]
    by_cases hnew : j = t.size
    · simp [hnew]
    · simp [hnew]

/-- No node is one of two items. -/
theorem item_of_mem_places {y : Item} (hx : k ∈ places nodes x) (hy : k ∈ places nodes y) :
    x = y := by
  obtain ⟨a, ha⟩ := mem_places.1 hx
  obtain ⟨b, hb⟩ := mem_places.1 hy
  have hlast := (List.append_inj' (Option.some.inj (ha.symm.trans hb)) rfl).2
  exact List.singleton_inj.1 hlast

theorem ne_size_of_mem_places (h : t.Layout nodes weight) (hk : k ∈ places nodes x) :
    k ≠ t.size := by
  rw [h.size]
  exact Nat.ne_of_lt (lt_of_mem_places hk)

/-- A new node of an item that has one is linked behind the last of them. -/
theorem links_make_of_some (h : t.Layout nodes weight) (k : Nat) (a : List Item) {m : Nat}
    (hl : t.last x = some m) (y : Item) :
    Leads (t.make k x).link ((t.make k x).first y) (places (nodes ++ [a ++ [x]]) y) := by
  obtain ⟨front, hfront⟩ := List.getLast?_eq_some_iff.1 ((h.last x).symm.trans hl)
  have hm : m ∈ places nodes x := by simp [hfront]
  have hlink : (t.make k x).link = update (update t.link t.size none) m (some t.size) := by
    simp [make, enter, attach, alloc, hl]
  have hfirst : (t.make k x).first = t.first := by
    simp [make, enter, attach, alloc, hl]
  -- a node other than the last one of the item refers to what it referred to
  have hsame : ∀ {z n}, n ∈ places nodes z → n ≠ m → (t.make k x).link n = t.link n := by
    intro z n hn hne
    rw [hlink, update_of_ne hne, update_of_ne (ne_size_of_mem_places h hn)]
  rw [hfirst, places_concat, ← h.size]
  by_cases hxy : x = y
  · subst hxy
    have hlinks := h.links x
    have hnodup : (places nodes x).Nodup := List.nodup_findIdxs
    rw [hfront] at hlinks hnodup
    rw [if_pos rfl, hfront]
    apply hlinks.concat
    · intro n hn
      have hne : n ≠ m := fun e => (List.nodup_append.1 hnodup).2.2 n hn m (by simp) e
      exact hsame (z := x) (by simp [hfront, hn]) hne
    · rw [hlink, update_self]
    · rw [hlink, update_of_ne (ne_size_of_mem_places h hm).symm, update_self]
  · rw [if_neg hxy, List.append_nil]
    apply (h.links y).congr
    intro n hn
    exact hsame hn fun e => hxy (item_of_mem_places (e ▸ hm) hn)

/-- The first node of an item comes into the header table. -/
theorem links_make_of_none (h : t.Layout nodes weight) (k : Nat) (a : List Item)
    (hl : t.last x = none) (y : Item) :
    Leads (t.make k x).link ((t.make k x).first y) (places (nodes ++ [a ++ [x]]) y) := by
  have hnone : places nodes x = [] := List.getLast?_eq_none_iff.1 ((h.last x).symm.trans hl)
  have hlink : (t.make k x).link = update t.link t.size none := by
    simp [make, enter, attach, alloc, hl]
  have hfirst : (t.make k x).first = update t.first x (some t.size) := by
    simp [make, enter, attach, alloc, hl]
  rw [hlink, hfirst, places_concat, ← h.size]
  by_cases hxy : x = y
  · subst hxy
    rw [if_pos rfl, hnone, update_self]
    exact ⟨rfl, update_self ..⟩
  · rw [if_neg hxy, List.append_nil, update_of_ne (Ne.symm hxy)]
    apply (h.links y).congr
    intro n hn
    exact update_of_ne (ne_size_of_mem_places h hn) ..

/-- A list with one more element, behind the others unless it is among them. -/
def entered {α : Type} [DecidableEq α] (xs : List α) (x : α) : List α :=
  if x ∈ xs then xs else xs ++ [x]

theorem mem_entered {α : Type} [DecidableEq α] {xs : List α} {x y : α} :
    y ∈ entered xs x ↔ y ∈ xs ∨ x = y := by
  unfold entered
  split
  · next hx =>
    constructor
    · exact Or.inl
    · rintro (hy | rfl)
      · exact hy
      · exact hx
  · rw [List.mem_append, List.mem_singleton, eq_comm]

theorem headers_make (h : t.Layout nodes weight) (k : Nat) (x : Item) :
    (t.make k x).headers = entered t.headers x := by
  have hlast := h.last x
  unfold entered
  cases hl : t.last x with
  | some m =>
    have hne : places nodes x ≠ [] := by
      intro hnil
      rw [hl, hnil] at hlast
      cases hlast
    rw [if_pos ((h.headers x).2 hne)]
    simp [make, enter, attach, alloc, hl]
  | none =>
    have hnone : places nodes x = [] := List.getLast?_eq_none_iff.1 (hlast.symm.trans hl)
    rw [if_neg fun hmem => (h.headers x).1 hmem hnone]
    simp [make, enter, attach, alloc, hl]

/-- The children after a node is made below another one. -/
theorem children_make (h : t.Layout nodes weight) (hk : nodes[k]? = some a)
    (hnew : a ++ [x] ∉ nodes) {j : Nat} {b : List Item}
    (hj : (nodes ++ [a ++ [x]])[j]? = some b) (y : Item) (m : Nat) :
    (t.make k x).child j y = some m ↔ (nodes ++ [a ++ [x]])[m]? = some (b ++ [y]) := by
  rw [child_make (h.lt_size hk), getElem?_concat_iff]
  rcases getElem?_concat_iff.1 hj with hold | ⟨rfl, rfl⟩
  · by_cases hboth : j = k ∧ y = x
    · obtain ⟨rfl, rfl⟩ := hboth
      obtain rfl : a = b := Option.some.inj (hk.symm.trans hold)
      have hno : ¬nodes[m]? = some (a ++ [y]) := fun hm => hnew (List.mem_of_getElem? hm)
      simp [hno, h.size, eq_comm]
    · have hne : ¬a ++ [x] = b ++ [y] := by
        intro hab
        obtain ⟨rfl, hxy⟩ := List.append_inj' hab rfl
        exact hboth ⟨h.number_inj hold hk, (List.singleton_inj.1 hxy).symm⟩
      rw [if_neg hboth, if_neg (Nat.ne_of_lt (h.lt_size hold)), h.child j b hold]
      simp [hne]
  · -- the new node has no children, and no address goes on from its own
    have hno : ¬nodes[m]? = some (a ++ [x] ++ [y]) := fun hm =>
      hnew (h.mem_of_append (List.mem_of_getElem? hm))
    have hk' : ¬nodes.length = k := Nat.ne_of_gt (h.size ▸ h.lt_size hk)
    simpa [hk', h.size] using hno

/-- A node that is made below another one is that of the next address. -/
theorem layout_make (h : t.Layout nodes weight) (hk : nodes[k]? = some a)
    (hnew : a ++ [x] ∉ nodes) : (t.make k x).Layout (nodes ++ [a ++ [x]]) weight where
  size := by rw [size_make, List.length_append, h.size, List.length_singleton]
  root := getElem?_concat_iff.2 (Or.inl h.root)
  nodup := List.nodup_append.2 ⟨h.nodup, List.nodup_singleton _, by
    rintro b hb c hc rfl
    exact hnew (List.mem_singleton.1 hc ▸ hb)⟩
  item_root := by
    rw [item_make, update_of_ne (Nat.ne_of_lt (h.lt_size h.root)), h.item_root]
  parent_root := by
    rw [parent_make, update_of_ne (Nat.ne_of_lt (h.lt_size h.root)), h.parent_root]
  item := by
    intro j b y hj
    rw [item_make]
    rcases getElem?_concat_iff.1 hj with hj | ⟨rfl, hab⟩
    · rw [update_of_ne (Nat.ne_of_lt (h.lt_size hj)), h.item j b y hj]
    · rw [← h.size, update_self]
      exact (List.append_inj' hab rfl).2 |> List.singleton_inj.1
  parent := by
    intro j b y hj
    rw [parent_make]
    rcases getElem?_concat_iff.1 hj with hj | ⟨rfl, hab⟩
    · obtain ⟨i, hij, hparent, hi⟩ := h.parent j b y hj
      refine ⟨i, hij, ?_, getElem?_concat_iff.2 (Or.inl hi)⟩
      rw [update_of_ne (Nat.ne_of_lt (h.lt_size hj)), hparent]
    · obtain rfl : a = b := (List.append_inj' hab rfl).1
      refine ⟨k, h.size ▸ h.lt_size hk, ?_, getElem?_concat_iff.2 (Or.inl hk)⟩
      rw [← h.size, update_self]
  child := fun _ _ hj => children_make h hk hnew hj
  links := by
    cases hl : t.last x with
    | some m => exact links_make_of_some h k a hl
    | none => exact links_make_of_none h k a hl
  last := by
    intro y
    rw [last_make, places_concat, ← h.size]
    by_cases hxy : x = y
    · simp [hxy]
    · rw [update_of_ne (Ne.symm hxy), if_neg hxy, List.append_nil, h.last y]
  headers := by
    intro y
    rw [headers_make h, mem_entered, h.headers y, places_concat]
    by_cases hxy : x = y
    · simp [hxy]
    · simp [hxy]
  counted := by
    intro j b hj
    rw [count_make]
    rcases getElem?_concat_iff.1 hj with hj | ⟨rfl, rfl⟩
    · rw [update_of_ne (Nat.ne_of_lt (h.lt_size hj)), h.counted j b hj]
    · rw [← h.size, update_self, h.unmade _ hnew]
  unmade := by
    intro b hb
    exact h.unmade b fun hold => hb (List.mem_append_left _ hold)

/-! ## Paths -/

theorem entered_append_removeAll {nodes rest : List (List Item)} (ha : a ∉ rest) :
    entered nodes a ++ rest.removeAll (entered nodes a) =
      nodes ++ (a :: rest).removeAll nodes := by
  unfold entered
  by_cases hmem : a ∈ nodes
  · rw [if_pos hmem]
    simp [List.removeAll, hmem]
  · have hrest : rest.removeAll (nodes ++ [a]) = rest.removeAll nodes := by
      refine List.filter_congr fun b hb => ?_
      have hba : b ≠ a := fun e => ha (e ▸ hb)
      simp [hba]
    rw [if_neg hmem, hrest]
    simp [List.removeAll, hmem]

theorem length_lt_of_mem_madeAlong {above xs b : List Item}
    (hb : b ∈ Chain.madeAlong 0 above xs) : above.length < b.length := by
  rw [Chain.madeAlong_eq, List.mem_map] at hb
  obtain ⟨pre, hpre, rfl⟩ := hb
  have hpos : 0 < pre.length := of_decide_eq_true (List.mem_filter.1 hpre).2
  rw [List.length_append]
  omega

theorem madeAlong_cons (above : List Item) (x : Item) (xs : List Item) :
    Chain.madeAlong 0 above (x :: xs) =
      (above ++ [x]) :: Chain.madeAlong 0 (above ++ [x]) xs := by
  simp [Chain.madeAlong]

/-- **Steps.** A step enters the address that it leads to and the item of its node, each unless it
is known, and adds the count to the weight of the address. -/
theorem layout_step (h : t.Layout nodes weight) (hk : nodes[k]? = some a) (x : Item) (n : Int) :
    (t.step k x n).1.Layout (entered nodes (a ++ [x]))
        (update weight (a ++ [x]) (weight (a ++ [x]) + n)) ∧
      (entered nodes (a ++ [x]))[(t.step k x n).2]? = some (a ++ [x]) ∧
      (t.step k x n).1.headers = entered t.headers x := by
  unfold step
  cases hc : t.child k x with
  | some m =>
    have hm : nodes[m]? = some (a ++ [x]) := (h.child k a hk x m).1 hc
    have hitem : x ∈ t.headers := (h.headers x).2 (List.ne_nil_of_mem (mem_places.2 ⟨a, hm⟩))
    rw [entered, if_pos (List.mem_of_getElem? hm), entered, if_pos hitem]
    exact ⟨layout_visit h hm x n, hm, rfl⟩
  | none =>
    have hnew : a ++ [x] ∉ nodes := by
      intro hmem
      obtain ⟨m, hm⟩ := List.mem_iff_getElem?.1 hmem
      rw [(h.child k a hk x m).2 hm] at hc
      cases hc
    have hm : (nodes ++ [a ++ [x]])[t.size]? = some (a ++ [x]) :=
      getElem?_concat_iff.2 (Or.inr ⟨h.size, rfl⟩)
    rw [← headers_make h k x, entered, if_neg hnew]
    exact ⟨layout_visit (layout_make h hk hnew) hm x n, hm, rfl⟩

/-- **Paths.** A path makes nodes of the addresses along it that are none yet, adds its count to the
weight of each of them, and enters its items. -/
theorem layout_addBelow (h : t.Layout nodes weight) (hk : nodes[k]? = some a) (n : Int)
    (xs : List Item) :
    (t.addBelow k n xs).Layout (nodes ++ (Chain.madeAlong 0 a xs).removeAll nodes)
        (fun b => if b ∈ Chain.madeAlong 0 a xs then weight b + n else weight b) ∧
      (t.addBelow k n xs).headers = xs.foldl entered t.headers := by
  induction xs generalizing t nodes weight k a with
  | nil =>
    refine ⟨?_, rfl⟩
    simpa [addBelow, Chain.madeAlong, List.removeAll] using h
  | cons x xs ih =>
    obtain ⟨hstep, hnext, hheaders⟩ := layout_step h hk x n
    obtain ⟨hrest, hentered⟩ := ih hstep hnext
    have hself : a ++ [x] ∉ Chain.madeAlong 0 (a ++ [x]) xs := by
      intro hmem
      exact Nat.lt_irrefl _ (length_lt_of_mem_madeAlong hmem)
    rw [entered_append_removeAll hself, ← madeAlong_cons] at hrest
    rw [hheaders] at hentered
    refine ⟨?_, hentered⟩
    show ((t.step k x n).1.addBelow (t.step k x n).2 n xs).Layout _ _
    convert hrest using 1
    -- the path meets no address twice
    funext b
    rw [madeAlong_cons]
    by_cases hb : b = a ++ [x]
    · subst hb
      simp [hself]
    · simp [hb]

open PatternTree (made made_concat starts mem_starts ofPaths ofPaths_concat)

theorem addPaths_concat (t : LinkedTree) (paths : Paths) (e : List Item × Int) :
    t.addPaths (paths ++ [e]) = (t.addPaths paths).addBelow 0 e.2 e.1 := by
  unfold addPaths
  rw [List.foldl_concat]

/-- **The layout.** After some paths there is the root and a node for each address in the order of
making, and each counts what the address counts in the pattern tree. -/
theorem layout_addPaths (order : ItemOrder) (paths : Paths) :
    (empty.addPaths paths).Layout ([] :: made paths) (ofPaths order paths).countAt := by
  induction paths using List.reverseRecOn with
  | nil => exact layout_empty
  | append_singleton paths e ih =>
    have hstarts : Chain.madeAlong 0 [] e.1 = starts e.1 := by
      rw [Chain.madeAlong_eq, starts]
      simp [List.length_pos_iff]
    have hmade :
        (starts e.1).removeAll ([] :: made paths) = (starts e.1).removeAll (made paths) := by
      refine List.filter_congr fun a ha => ?_
      simp [(mem_starts.1 ha).1]
    have hstep := (layout_addBelow ih ih.root e.2 e.1).1
    rw [hstarts, List.cons_append, hmade, ← made_concat] at hstep
    have hcount : (ofPaths order (paths ++ [e])).countAt = fun a =>
        if a ∈ starts e.1 then (ofPaths order paths).countAt a + e.2
        else (ofPaths order paths).countAt a := by
      funext a
      rw [ofPaths_concat, PatternTree.countAt_addPath]
      simp only [mem_starts]
    rw [addPaths_concat, hcount]
    exact hstep

end LinkedTree

end TopPatterns

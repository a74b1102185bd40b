import TopPatterns.Proofs.Tree.Conditional

/-!
# Paths with the absent item

The absent item may be ranked like any other, and then it stands on paths. A tree reads the way
down to a node from the last absent item on, so what comes before that item is lost to the items
after it. Such a tree stands for other paths than those it was made of (`standsFor_cut`): each path
is cut behind its absent item, and both parts are paths on their own.
-/

namespace TopPatterns

open PatternTree

variable {order : ItemOrder} {path front back : List Item} {x : Item}

/-! ## Beginnings of joined paths -/

theorem before_append_of_mem (h : x ∈ front) : before x (front ++ back) = before x front := by
  obtain ⟨first, rest, rfl, hx⟩ := List.eq_append_cons_of_mem h
  rw [List.append_assoc, List.cons_append, before_append_cons hx, before_append_cons hx]

theorem before_append_of_not_mem (h : x ∉ front) :
    before x (front ++ back) = front ++ before x back := by
  refine List.takeWhile_append_of_pos fun y hy => decide_eq_true fun e => h ?_
  exact e ▸ hy

theorem PatternTree.sinceAbsent_append (h : Item.absent ∉ back) :
    sinceAbsent (front ++ .absent :: back) = back := by
  have hback : Item.absent ∉ back.reverse := fun habs => h (List.mem_reverse.1 habs)
  have hreverse : (front ++ .absent :: back).reverse =
      back.reverse ++ .absent :: front.reverse := by simp
  have htake : (front ++ .absent :: back).reverse.takeWhile (· ≠ Item.absent) = back.reverse := by
    rw [hreverse]
    exact before_append_cons hback
  rw [sinceAbsent, htake, List.reverse_reverse]

namespace Paths

/-! ## The cut -/

/-- A path up to its first absent item, that one included. -/
def upToAbsent (path : List Item) : List Item := path.take (path.idxOf .absent + 1)

/-- The rest of a path, behind its first absent item. -/
def pastAbsent (path : List Item) : List Item := path.drop (path.idxOf .absent + 1)

/-- The parts of paths that are cut behind their first absent items. -/
def cut (paths : Paths) : Paths :=
  paths.flatMap fun e => [(upToAbsent e.1, e.2), (pastAbsent e.1, e.2)]

theorem parts_of_present (h : Item.absent ∉ path) :
    upToAbsent path = path ∧ pastAbsent path = [] := by
  have hidx := List.idxOf_eq_length h
  constructor
  · exact List.take_of_length_le (by omega)
  · exact List.drop_of_length_le (by omega)

theorem parts_of_append (h : Item.absent ∉ front) (back : List Item) :
    upToAbsent (front ++ .absent :: back) = front ++ [.absent] ∧
      pastAbsent (front ++ .absent :: back) = back := by
  have hidx : (front ++ .absent :: back).idxOf Item.absent + 1 =
      (front ++ [Item.absent]).length := by
    rw [List.idxOf_append_of_notMem h, List.idxOf_cons_self, List.length_append,
      List.length_singleton]
  unfold upToAbsent pastAbsent
  rw [hidx, List.append_cons front Item.absent back]
  exact ⟨List.take_left, List.drop_left⟩

/-- A path with an absent item: what comes before an item since then comes before it on the part
that the item is on, and no item is on both parts. -/
theorem before_parts_of_append (hnodup : (front ++ .absent :: back).Nodup) (x : Item)
    (q : List Item → Bool) (n : Int) :
    ((if decide (x ∈ front ++ [.absent]) && q (before x (front ++ [.absent])) then n else 0) +
        if decide (x ∈ back) && q (before x back) then n else 0) =
      if decide (x ∈ front ++ .absent :: back) &&
        q (sinceAbsent (before x (front ++ .absent :: back))) then n else 0 := by
  obtain ⟨-, hcons, hdisjoint⟩ := List.nodup_append.1 hnodup
  obtain ⟨hback, -⟩ := List.nodup_cons.1 hcons
  have hfront : Item.absent ∉ front := fun h => hdisjoint _ h _ (List.mem_cons_self ..) rfl
  by_cases hxb : x ∈ back
  · have hxf : x ∉ front := fun h => hdisjoint x h x (List.mem_cons_of_mem _ hxb) rfl
    have hne : x ≠ Item.absent := fun e => hback (e ▸ hxb)
    have hcut : before x (front ++ .absent :: back) = front ++ .absent :: before x back := by
      rw [List.append_cons, before_append_of_not_mem (by simp [hxf, hne]), ← List.append_cons]
    have hsince : Item.absent ∉ before x back := fun h => hback ((before_sublist x back).subset h)
    rw [hcut, sinceAbsent_append hsince]
    simp [hxb, hxf, hne]
  · by_cases hxf : x ∈ front
    · have hsince : Item.absent ∉ before x front := fun h =>
        hfront ((before_sublist x front).subset h)
      rw [before_append_of_mem hxf, before_append_of_mem hxf, sinceAbsent_of_present hsince]
      simp [hxb, hxf]
    · by_cases hxa : x = Item.absent
      · subst hxa
        rw [before_append_cons hfront, before_append_cons hfront, sinceAbsent_of_present hfront]
        simp [hxb]
      · simp [hxb, hxf, hxa]

theorem before_parts (hnodup : path.Nodup) (x : Item) (q : List Item → Bool) (n : Int) :
    ((if decide (x ∈ upToAbsent path) && q (before x (upToAbsent path)) then n else 0) +
        if decide (x ∈ pastAbsent path) && q (before x (pastAbsent path)) then n else 0) =
      if decide (x ∈ path) && q (sinceAbsent (before x path)) then n else 0 := by
  by_cases habs : Item.absent ∈ path
  · obtain ⟨front, back, rfl, hfront⟩ := List.eq_append_cons_of_mem habs
    obtain ⟨hup, hpast⟩ := parts_of_append hfront back
    rw [hup, hpast]
    exact before_parts_of_append hnodup x q n
  · obtain ⟨hup, hpast⟩ := parts_of_present habs
    have hsince : Item.absent ∉ before x path := fun h => habs ((before_sublist x path).subset h)
    rw [hup, hpast, sinceAbsent_of_present hsince]
    simp

variable {paths : Paths}

/-- The parts before an item, from the last absent item on, are those of the cut paths. -/
theorem total_above_cut (hnodup : ∀ e ∈ paths, e.1.Nodup) (x : Item) (q : List Item → Bool) :
    (paths.total fun path => decide (x ∈ path) && q (sinceAbsent (before x path))) =
      (paths.cut.above x).total q := by
  rw [total_above]
  induction paths with
  | nil => rfl
  | cons e paths ih =>
    have ih := ih fun d hd => hnodup d (List.mem_cons_of_mem _ hd)
    have hparts := before_parts (hnodup e (List.mem_cons_self ..)) x q e.2
    show _ = total ((upToAbsent e.1, e.2) :: (pastAbsent e.1, e.2) :: cut paths) _
    rw [total_cons, total_cons, total_cons, ih, ← Int.add_assoc, hparts]

/-- A single item weighs on the cut paths what it weighs on the paths. -/
theorem weight_cut (hnodup : ∀ e ∈ paths, e.1.Nodup) (x : Item) :
    paths.weight {x} = paths.cut.weight {x} := by
  have hsingle : ∀ paths : Paths, paths.weight {x} = paths.total fun path => decide (x ∈ path) :=
    fun paths => total_congr fun e _ => by simp [holds]
  have hcut := total_above_cut hnodup x fun _ => true
  rw [total_above] at hcut
  simpa only [hsingle, Bool.and_true] using hcut

theorem Rising.cut (h : Rising order paths) : Rising order paths.cut := by
  have hparts : ∀ e ∈ paths.cut, ∃ d ∈ paths, e.1.Sublist d.1 ∧ e.2 = d.2 := by
    intro e he
    obtain ⟨d, hd, he⟩ := List.mem_flatMap.1 he
    refine ⟨d, hd, ?_⟩
    rcases List.mem_pair.1 he with rfl | rfl
    · exact ⟨List.take_sublist _ _, rfl⟩
    · exact ⟨List.drop_sublist _ _, rfl⟩
  constructor
  · intro e he
    obtain ⟨d, hd, hsub, -⟩ := hparts e he
    exact hsub.trans (h.sublist d hd)
  · intro e he
    obtain ⟨d, hd, -, hn⟩ := hparts e he
    exact hn ▸ h.pos d hd

/-- **Absent items cut.** A tree of rising paths stands for these paths, cut behind their absent
items. -/
theorem standsFor_cut (h : Rising order paths) :
    (ofPaths order paths).StandsFor order paths.cut :=
  standsFor_of_total h h.cut (weight_cut fun _ he => h.nodup he) fun x q _ =>
    total_above_cut (fun _ he => h.nodup he) x q

end Paths

end TopPatterns

import TopPatterns.Proofs.Text.Decomposition

/-!
# Composing a composed text

A composed text is composed already (`compose_compose`). Taking it apart again gives the characters
that were joined, and bringing their marks in order gives the text that was joined
(`reorder_decomposeText_joinFrom`), so joining it a second time gives the same result.

Joining moves a mark that it joins past the marks between it and its letter. These are of lower
classes, because the text was in order and the mark was not kept from the letter (`Waiting`), so
order puts it back behind them (`reorder_move`).
-/

namespace TopPatterns.Text

/-! ## Texts in order -/

/-- The marks at the start of a text. -/
def leadingMarks (cs : List Char) : List Char := cs.takeWhile fun c => decide (0 < combiningClass c)

theorem mem_leadingMarks_cons {d c : Char} {cs : List Char} :
    d ∈ leadingMarks (c :: cs) ↔ 0 < combiningClass c ∧ (d = c ∨ d ∈ leadingMarks cs) := by
  rw [leadingMarks, List.takeWhile_cons]
  split
  · next hc => simp [leadingMarks, of_decide_eq_true hc]
  · next hc => simp [of_decide_eq_false (Bool.not_eq_true _ ▸ hc)]

/-- Whether the marks after each letter are in the order of their classes. -/
def IsOrdered : List Char → Prop
  | [] => True
  | c :: cs => (∀ d ∈ leadingMarks cs, combiningClass c ≤ combiningClass d) ∧ IsOrdered cs

theorem mem_leadingMarks_placeMark {e c : Char} {ds : List Char}
    (h : e ∈ leadingMarks (placeMark c ds)) : e = c ∨ e ∈ leadingMarks ds := by
  induction ds with
  | nil => exact (mem_leadingMarks_cons.1 h).2
  | cons d ds ih =>
    rw [placeMark] at h
    split at h
    · obtain ⟨hd, he⟩ := mem_leadingMarks_cons.1 h
      rcases he with he | he
      · exact .inr (mem_leadingMarks_cons.2 ⟨hd, .inl he⟩)
      · exact (ih he).imp_right fun he => mem_leadingMarks_cons.2 ⟨hd, .inr he⟩
    · exact (mem_leadingMarks_cons.1 h).2

theorem isOrdered_placeMark (c : Char) {ds : List Char} (h : IsOrdered ds) :
    IsOrdered (placeMark c ds) := by
  induction ds with
  | nil => exact ⟨nofun, trivial⟩
  | cons d ds ih =>
    obtain ⟨hd, hds⟩ := h
    rw [placeMark]
    split
    · next hpass =>
      refine ⟨fun e he => ?_, ih hds⟩
      rcases mem_leadingMarks_placeMark he with rfl | he
      · exact Nat.le_of_lt hpass.2
      · exact hd e he
    · next hstop =>
      refine ⟨fun e he => ?_, hd, hds⟩
      obtain ⟨hmark, he⟩ := mem_leadingMarks_cons.1 he
      have hle : combiningClass c ≤ combiningClass d := by omega
      rcases he with rfl | he
      · exact hle
      · exact Nat.le_trans hle (hd e he)

theorem isOrdered_reorder (cs : List Char) : IsOrdered (reorder cs) := by
  induction cs with
  | nil => trivial
  | cons c cs ih => exact isOrdered_placeMark c ih

theorem reorder_of_isOrdered {cs : List Char} (h : IsOrdered cs) : reorder cs = cs := by
  induction cs with
  | nil => rfl
  | cons c cs ih =>
    obtain ⟨hc, hcs⟩ := h
    show placeMark c (reorder cs) = c :: cs
    rw [ih hcs]
    cases cs with
    | nil => rfl
    | cons d cs =>
      rw [placeMark, if_neg]
      intro hpass
      have hle := hc d (mem_leadingMarks_cons.2 ⟨hpass.1, .inl rfl⟩)
      omega

/-! ## Marks that change places -/

/-- Marks of different classes may be placed one before the other or the other way round. -/
theorem placeMark_placeMark {c d : Char} (hd : 0 < combiningClass d)
    (hlt : combiningClass d < combiningClass c) (cs : List Char) :
    placeMark c (placeMark d cs) = placeMark d (placeMark c cs) := by
  induction cs with
  | nil => simp [placeMark, hd, hlt, Nat.not_lt.2 (Nat.le_of_lt hlt)]
  | cons e cs ih =>
    by_cases hde : 0 < combiningClass e ∧ combiningClass e < combiningClass d
    · have hce : 0 < combiningClass e ∧ combiningClass e < combiningClass c :=
        ⟨hde.1, Nat.lt_trans hde.2 hlt⟩
      simp only [placeMark, if_pos hde, if_pos hce, ih]
    · -- `d` stops before `e`, and `c` moves past `d`
      have hstop : placeMark d (e :: cs) = d :: e :: cs := if_neg hde
      rw [hstop, placeMark, if_pos ⟨hd, hlt⟩]
      by_cases hce : 0 < combiningClass e ∧ combiningClass e < combiningClass c
      · rw [placeMark, if_pos hce, placeMark, if_neg hde]
      · rw [placeMark, if_neg hce, placeMark, if_neg (by omega)]

/-- A mark may be moved past marks of lower classes. -/
theorem reorder_move {c : Char} {marks : List Char}
    (h : ∀ m ∈ marks, 0 < combiningClass m ∧ combiningClass m < combiningClass c)
    (cs : List Char) : reorder (c :: (marks ++ cs)) = reorder (marks ++ c :: cs) := by
  induction marks with
  | nil => rfl
  | cons m marks ih =>
    obtain ⟨hm, hlt⟩ := h m (List.mem_cons_self ..)
    calc
      reorder (c :: m :: (marks ++ cs)) = placeMark m (reorder (c :: (marks ++ cs))) :=
        placeMark_placeMark hm hlt _
      _ = reorder (m :: (marks ++ c :: cs)) := by
        rw [ih fun k hk => h k (List.mem_cons_of_mem _ hk)]
        rfl

theorem reorder_append_congr {cs ds : List Char} (h : reorder cs = reorder ds) (first : List Char) :
    reorder (first ++ cs) = reorder (first ++ ds) := by
  rw [reorder, List.foldr_append, reorder, List.foldr_append]
  exact congrArg (fun rest => first.foldr placeMark rest) h

/-! ## Joined texts taken apart -/

/-- The marks that joining holds back, last one first. -/
def marksHeld (state : Option (Char × List Char)) : List Char :=
  match state with
  | none => []
  | some (_, marks) => marks

/-- Marks that joining holds back before the rest of a text in order. -/
structure Waiting (marks cs : List Char) : Prop where
  simple : ∀ m ∈ marks, Simple m
  class_pos : ∀ m ∈ marks, 0 < combiningClass m
  le_last : ∀ last ∈ marks.head?, ∀ m ∈ marks, combiningClass m ≤ combiningClass last
  le_next : ∀ m ∈ marks, ∀ d ∈ leadingMarks cs, combiningClass m ≤ combiningClass d

theorem waiting_nil (cs : List Char) : Waiting [] cs := ⟨nofun, nofun, nofun, nofun⟩

theorem Waiting.tail {marks cs : List Char} {c : Char} (h : Waiting marks (c :: cs))
    (hc : marks ≠ [] → 0 < combiningClass c) : Waiting marks cs := by
  refine ⟨h.simple, h.class_pos, h.le_last, fun m hm d hd => h.le_next m hm d ?_⟩
  exact mem_leadingMarks_cons.2 ⟨hc (List.ne_nil_of_mem hm), .inr hd⟩

theorem Waiting.push {marks cs : List Char} {c : Char} (h : Waiting marks (c :: cs))
    (hsimple : Simple c) (hc : 0 < combiningClass c) (hordered : IsOrdered (c :: cs)) :
    Waiting (c :: marks) cs := by
  have htail := h.tail fun _ => hc
  refine ⟨?_, ?_, fun last hlast m hm => ?_, fun m hm d hd => ?_⟩
  · exact List.forall_mem_cons.2 ⟨hsimple, h.simple⟩
  · exact List.forall_mem_cons.2 ⟨hc, h.class_pos⟩
  · obtain rfl := Option.some.inj hlast
    rcases List.mem_cons.1 hm with rfl | hm
    · exact Nat.le_refl _
    · exact h.le_next m hm _ (mem_leadingMarks_cons.2 ⟨hc, .inl rfl⟩)
  · rcases List.mem_cons.1 hm with rfl | hm
    · exact hordered.1 d hd
    · exact htail.le_next m hm d hd

/-- A mark that is joined across others is of a higher class than these. -/
theorem Waiting.lt_of_joined {letter whole c : Char} {marks cs : List Char}
    (h : Waiting marks (c :: cs)) (hjoined : joined? letter marks c = some whole) :
    ∀ m ∈ marks, combiningClass m < combiningClass c := by
  intro m hm
  obtain ⟨last, marks, rfl⟩ := List.exists_cons_of_ne_nil (List.ne_nil_of_mem hm)
  have hle := h.le_last last rfl m hm
  unfold joined? at hjoined
  have hreaches := of_decide_eq_true (Option.ite_none_right_eq_some.1 hjoined).1
  omega

/-- Joining a mark across others does not change what the text is taken apart into, in order. -/
theorem Waiting.reorder_joined {letter whole c : Char} {marks cs : List Char}
    (h : Waiting marks (c :: cs)) (hjoined : joined? letter marks c = some whole)
    (hsimple : ∀ d ∈ c :: cs, Simple d) :
    reorder (decomposeText (held (some (whole, marks)) ++ cs)) =
      reorder (decomposeText (held (some (letter, marks)) ++ c :: cs)) := by
  have hmarks : ∀ m ∈ marks.reverse, 0 < combiningClass m ∧ combiningClass m < combiningClass c :=
    fun m hm => ⟨h.class_pos m (List.mem_reverse.1 hm),
      h.lt_of_joined hjoined m (List.mem_reverse.1 hm)⟩
  have hmarksSimple : decomposeText marks.reverse = marks.reverse :=
    decomposeText_of_simple fun m hm => h.simple m (List.mem_reverse.1 hm)
  have hwhole : decomposeChar whole = decomposeChar letter ++ [c] :=
    (decomposeChar_of_compositeOf? (compositeOf?_of_joined? hjoined)).trans
      (congrArg _ (hsimple c (List.mem_cons_self ..)))
  have hrest : decomposeText cs = cs :=
    decomposeText_of_simple fun d hd => hsimple d (List.mem_cons_of_mem _ hd)
  simp only [held, List.cons_append, decomposeText_cons, decomposeText_append, hmarksSimple,
    decomposeText_of_simple hsimple, hrest, hwhole, List.append_assoc, List.nil_append]
  exact reorder_append_congr (reorder_move hmarks cs) _

/-- **Joining a text in order and taking it apart again** gives the text in order. -/
theorem reorder_decomposeText_joinFrom {cs : List Char} (hsimple : ∀ c ∈ cs, Simple c)
    (hordered : IsOrdered cs) (state : Option (Char × List Char))
    (hstate : Waiting (marksHeld state) cs) :
    reorder (decomposeText (joinFrom state cs)) = reorder (decomposeText (held state ++ cs)) := by
  induction cs generalizing state with
  | nil => rw [joinFrom_nil, List.append_nil]
  | cons c cs ih =>
    obtain ⟨hc, hcs⟩ := List.forall_mem_cons.1 hsimple
    have hrest : ∀ state, Waiting (marksHeld state) cs →
        reorder (decomposeText (joinFrom state cs)) =
          reorder (decomposeText (held state ++ cs)) := ih hcs hordered.2
    -- what comes first stays first
    have hfirst : ∀ first state, Waiting (marksHeld state) cs →
        reorder (decomposeText (first ++ joinFrom state cs)) =
          reorder (decomposeText (first ++ (held state ++ cs))) := by
      intro first state hstate
      rw [decomposeText_append, decomposeText_append]
      exact reorder_append_congr (hrest state hstate) _
    cases state with
    | none =>
      rw [joinFrom_none_cons]
      split
      · exact hrest (some (c, [])) (waiting_nil cs)
      · exact hfirst [c] none (waiting_nil cs)
    | some pair =>
      obtain ⟨letter, marks⟩ := pair
      rw [joinFrom_some_cons]
      split
      · next whole hwhole =>
        have htail : Waiting marks cs := hstate.tail fun hne => by
          obtain ⟨m, hm⟩ := List.exists_mem_of_ne_nil _ hne
          exact Nat.zero_lt_of_lt (hstate.lt_of_joined hwhole m hm)
        exact (hrest (some (whole, marks)) htail).trans (hstate.reorder_joined hwhole hsimple)
      · split
        · exact hfirst (letter :: marks.reverse) (some (c, [])) (waiting_nil cs)
        · next hclass =>
          have hpush := hstate.push hc (Nat.pos_of_ne_zero hclass) hordered
          rw [hrest (some (letter, c :: marks)) hpush]
          simp [held]

/-- **Composing a composed text changes nothing.** -/
theorem compose_compose (cs : List Char) : compose (compose cs) = compose cs := by
  have hsimple : ∀ c ∈ reorder (decomposeText cs), Simple c := fun c hc =>
    simple_of_mem_decomposeText ((reorder_perm _).mem_iff.1 hc)
  have hordered : IsOrdered (reorder (decomposeText cs)) := isOrdered_reorder _
  have htext : reorder (decomposeText (compose cs)) = reorder (decomposeText cs) := by
    rw [compose, reorder_decomposeText_joinFrom hsimple hordered none (waiting_nil _)]
    exact (congrArg reorder (decomposeText_of_simple hsimple)).trans (reorder_of_isOrdered hordered)
  rw [compose, htext, ← compose]

end TopPatterns.Text

import TopPatterns.Proofs.Text.CodeSet
import TopPatterns.Text.Canonical

/-!
# Where composition splits a text

Composing reaches from a character to what stands before it in two ways: a mark moves past others to
its place, and a mark or a letter joins the letter before. A character that does neither starts
anew: what stands before it and what comes from it on are composed apart from each other
(`compose_append`). An inert character is one that starts anew and that nothing joins, so that it
stands between two composed texts as it is (`compose_append_cons`).
-/

namespace TopPatterns.Text

/-! ## Pairs -/

/-- The code points that stand first in a pair that is written back as one character. -/
def firsts : Nat := pointSet (composites.map fun pair => pair.2.1)

/-- The code points that stand second in such a pair. -/
def seconds : Nat := pointSet (composites.map fun pair => pair.2.2)

theorem mem_of_compositeFrom? {table : List (Nat × Nat × Nat)} {a b whole : Nat}
    (h : compositeFrom? table a b = some whole) : (whole, a, b) ∈ table := by
  induction table with
  | nil => cases h
  | cons pair table ih =>
    obtain ⟨n, first, second⟩ := pair
    rw [compositeFrom?] at h
    split at h
    · next hpair =>
      obtain ⟨rfl, rfl⟩ := hpair
      obtain rfl := Option.some.inj h
      exact List.mem_cons_self ..
    · exact List.mem_cons_of_mem _ (ih h)

/-- Two characters that join are two parts of a syllable or a pair. -/
theorem of_compositeOf? {a b whole : Char} (h : compositeOf? a b = some whole) :
    ∃ n, whole = Char.ofNat n ∧
      (syllableOf? a.toNat b.toNat = some n ∨ (n, a.toNat, b.toNat) ∈ composites) := by
  rw [compositeOf?] at h
  split at h
  · cases h
  · obtain ⟨n, hn, rfl⟩ := Option.map_eq_some_iff.1 h
    refine ⟨n, rfl, ?_⟩
    cases hsyllable : syllableOf? a.toNat b.toNat with
    | some m => exact Or.inl (by rwa [hsyllable] at hn)
    | none =>
      rw [hsyllable] at hn
      exact Or.inr (mem_of_compositeFrom? hn)

/-- The first part of a syllable is a leading consonant or a syllable, the second part a vowel or a
trailing consonant. -/
theorem of_syllableOf? {a b n : Nat} (h : syllableOf? a b = some n) :
    (0x1100 ≤ a ∧ a ≤ 0x1112 ∨ 0xAC00 ≤ a ∧ a ≤ 0xD7A3) ∧
      (0x1161 ≤ b ∧ b ≤ 0x1175 ∨ 0x11A8 ≤ b ∧ b ≤ 0x11C2) ∧ 0xAC00 ≤ n ∧ n ≤ 0xD7A3 := by
  rw [syllableOf?] at h
  split at h
  · obtain rfl := Option.some.inj h
    omega
  · split at h
    · obtain rfl := Option.some.inj h
      omega
    · cases h

/-- Whether a character may join one before it. -/
def mayJoin (c : Char) : Bool :=
  seconds.testBit c.toNat || covers [(0x1161, 0x1175), (0x11A8, 0x11C2)] c.toNat

theorem compositeOf?_of_mayJoin {c : Char} (h : mayJoin c = false) (letter : Char) :
    compositeOf? letter c = none := by
  rw [mayJoin, Bool.or_eq_false_iff] at h
  rw [Option.eq_none_iff_forall_ne_some]
  intro whole hwhole
  obtain ⟨n, -, hsyllable | hpair⟩ := of_compositeOf? hwhole
  · have hrange := (of_syllableOf? hsyllable).2.1
    have hcovers := h.2
    simp only [covers_cons, covers_nil] at hcovers
    split at hcovers <;> simp at hcovers <;> omega
  · have hsecond : seconds.testBit c.toNat = true :=
      (testBit_pointSet _ _).2 (List.mem_map_of_mem (f := fun pair => pair.2.2) hpair)
    rw [h.1] at hsecond
    cases hsecond

/-! ## The order of marks -/

theorem placeMark_of_class_zero {s : Char} (hs : combiningClass s = 0) (cs : List Char) :
    placeMark s cs = s :: cs := by
  cases cs with
  | nil => rfl
  | cons d ds => rw [placeMark, if_neg (by omega)]

/-- No mark moves past a character of class 0. -/
theorem placeMark_append {s : Char} (hs : combiningClass s = 0) (c : Char) (xs ys : List Char) :
    placeMark c (xs ++ s :: ys) = placeMark c xs ++ s :: ys := by
  induction xs with
  | nil =>
    show placeMark c (s :: ys) = c :: s :: ys
    rw [placeMark, if_neg (by omega)]
  | cons d ds ih =>
    rw [List.cons_append, placeMark, placeMark]
    split
    · rw [ih, List.cons_append]
    · rfl

theorem reorder_append {s : Char} (hs : combiningClass s = 0) (xs ys : List Char) :
    reorder (xs ++ s :: ys) = reorder xs ++ s :: reorder ys := by
  induction xs with
  | nil => exact placeMark_of_class_zero hs _
  | cons c cs ih =>
    show placeMark c (reorder (cs ++ s :: ys)) = placeMark c (reorder cs) ++ s :: reorder ys
    rw [ih, placeMark_append hs]

/-! ## Joining -/

/-- The character that a letter with marks after it, last one first, makes with the next character,
if that one reaches the letter and joins it. -/
def joined? (letter : Char) (marks : List Char) (c : Char) : Option Char :=
  let reaches := match marks with
    | [] => true
    | mark :: _ => decide (combiningClass mark < combiningClass c)
  if reaches then compositeOf? letter c else none

theorem compositeOf?_of_joined? {letter c whole : Char} {marks : List Char}
    (h : joined? letter marks c = some whole) : compositeOf? letter c = some whole := by
  unfold joined? at h
  exact (Option.ite_none_right_eq_some.1 h).2

theorem joined?_eq_none {letter c : Char} (h : compositeOf? letter c = none) (marks : List Char) :
    joined? letter marks c = none := by
  simp [joined?, h]

theorem joinFrom_none_cons (c : Char) (cs : List Char) :
    joinFrom none (c :: cs) =
      if combiningClass c = 0 then joinFrom (some (c, [])) cs else c :: joinFrom none cs := by
  rw [joinFrom]

theorem joinFrom_some_nil (letter : Char) (marks : List Char) :
    joinFrom (some (letter, marks)) [] = letter :: marks.reverse := by
  rw [joinFrom]

/-- The characters that joining holds back, in their order. -/
def held (state : Option (Char × List Char)) : List Char :=
  match state with
  | none => []
  | some (letter, marks) => letter :: marks.reverse

theorem joinFrom_nil (state : Option (Char × List Char)) : joinFrom state [] = held state := by
  cases state with
  | none => rfl
  | some pair => exact joinFrom_some_nil pair.1 pair.2

theorem joinFrom_some_cons (letter : Char) (marks : List Char) (c : Char) (cs : List Char) :
    joinFrom (some (letter, marks)) (c :: cs) =
      match joined? letter marks c with
      | some whole => joinFrom (some (whole, marks)) cs
      | none =>
        if combiningClass c = 0 then letter :: (marks.reverse ++ joinFrom (some (c, [])) cs)
        else joinFrom (some (letter, c :: marks)) cs := by
  cases marks <;> rfl

/-- A character of class 0 that joins nothing ends what stands before it. -/
theorem joinFrom_append {s : Char} (hs : combiningClass s = 0)
    (hjoin : ∀ letter, compositeOf? letter s = none) (state : Option (Char × List Char))
    (xs ys : List Char) :
    joinFrom state (xs ++ s :: ys) = joinFrom state xs ++ joinFrom none (s :: ys) := by
  induction xs generalizing state with
  | nil =>
    cases state with
    | none => rfl
    | some pair =>
      obtain ⟨letter, marks⟩ := pair
      rw [List.nil_append, joinFrom_some_cons, joined?_eq_none (hjoin letter), joinFrom_some_nil,
        joinFrom_none_cons]
      simp [hs]
  | cons c cs ih =>
    cases state with
    | none =>
      rw [List.cons_append, joinFrom_none_cons, joinFrom_none_cons]
      split
      · exact ih _
      · rw [ih, List.cons_append]
    | some pair =>
      obtain ⟨letter, marks⟩ := pair
      rw [List.cons_append, joinFrom_some_cons, joinFrom_some_cons]
      split
      · exact ih _
      · split
        · rw [ih, List.cons_append, List.append_assoc]
        · exact ih _

/-- What nothing joins stands with the marks after it as they are. -/
theorem joinFrom_of_not_joined {letter : Char} (h : ∀ c, compositeOf? letter c = none)
    (marks cs : List Char) :
    joinFrom (some (letter, marks)) cs = letter :: (marks.reverse ++ joinFrom none cs) := by
  induction cs generalizing marks with
  | nil => rw [joinFrom_some_nil, joinFrom, List.append_nil]
  | cons c cs ih =>
    rw [joinFrom_some_cons, joined?_eq_none (h c), joinFrom_none_cons]
    dsimp only
    split
    · rfl
    · rw [ih, List.reverse_cons, List.append_assoc, List.singleton_append]

/-! ## Composing in parts -/

/-- Whether composing may reach from a character to what stands before it: taken apart it begins
with a mark, or with a character that may join. -/
def attaches (c : Char) : Bool :=
  match decomposeChar c with
  | [] => true
  | d :: _ => decide (0 < combiningClass d) || mayJoin d

theorem decomposeText_append (cs ds : List Char) :
    decomposeText (cs ++ ds) = decomposeText cs ++ decomposeText ds :=
  List.flatMap_append

theorem decomposeText_cons (c : Char) (cs : List Char) :
    decomposeText (c :: cs) = decomposeChar c ++ decomposeText cs :=
  List.flatMap_cons

/-- **A text is composed in parts** where the second part begins with a character that starts
anew. -/
theorem compose_append (cs : List Char) {ds : List Char}
    (h : ∀ d ∈ ds.head?, attaches d = false) : compose (cs ++ ds) = compose cs ++ compose ds := by
  cases ds with
  | nil => simp
  | cons d ds =>
    have hd := h d rfl
    rw [attaches] at hd
    cases hparts : decomposeChar d with
    | nil => rw [hparts] at hd; cases hd
    | cons s parts =>
      rw [hparts] at hd
      simp only [Bool.or_eq_false_iff, decide_eq_false_iff_not, Nat.not_lt, Nat.le_zero] at hd
      obtain ⟨hs, hjoin⟩ := hd
      have hsplit : decomposeText (d :: ds) = s :: (parts ++ decomposeText ds) := by
        rw [decomposeText, List.flatMap_cons, hparts]; rfl
      rw [compose, compose, compose, decomposeText_append, hsplit, reorder_append hs,
        joinFrom_append hs (compositeOf?_of_mayJoin hjoin)]
      congr 2
      exact (placeMark_of_class_zero hs _).symm

/-- A character without parts that starts anew. -/
structure Base (c : Char) : Prop where
  decomposeChar_eq : decomposeChar c = [c]
  class_eq : combiningClass c = 0
  not_joins : mayJoin c = false

theorem Base.attaches_eq {c : Char} (h : Base c) : attaches c = false := by
  simp [attaches, h.decomposeChar_eq, h.class_eq, h.not_joins]

theorem Base.compose_singleton {c : Char} (h : Base c) : compose [c] = [c] := by
  have hparts : decomposeText [c] = [c] := (List.flatMap_singleton ..).trans h.decomposeChar_eq
  rw [compose, hparts]
  show joinFrom none [c] = [c]
  rw [joinFrom_none_cons, if_pos h.class_eq]
  rfl

/-- A character that composing leaves where it is, apart from what stands around it. -/
structure Inert (v : Char) : Prop extends Base v where
  not_joined : ∀ c, compositeOf? v c = none

theorem Inert.compose_cons {v : Char} (h : Inert v) (cs : List Char) :
    compose (v :: cs) = v :: compose cs := by
  have hreorder : reorder (decomposeText (v :: cs)) = v :: reorder (decomposeText cs) := by
    rw [decomposeText, List.flatMap_cons, h.decomposeChar_eq]
    exact placeMark_of_class_zero h.class_eq _
  rw [compose, hreorder, joinFrom_none_cons, if_pos h.class_eq, joinFrom_of_not_joined h.not_joined]
  rfl

/-- Composing sees of a text only what it is taken apart into. -/
theorem compose_congr {cs ds : List Char} (h : decomposeText cs = decomposeText ds) :
    compose cs = compose ds := by
  rw [compose, compose, h]

/-- **An inert character parts a text**, and so does one that is taken apart into it. What stands
before it and what comes after it are composed apart from each other. -/
theorem Inert.compose_append_of_parts {v c : Char} (h : Inert v) (hc : decomposeChar c = [v])
    (cs ds : List Char) : compose (cs ++ c :: ds) = compose cs ++ v :: compose ds := by
  have hanew : ∀ d ∈ (v :: ds).head?, attaches d = false := by simp [h.attaches_eq]
  have hsame : compose (cs ++ c :: ds) = compose (cs ++ v :: ds) := by
    refine compose_congr ?_
    rw [decomposeText_append, decomposeText_append, decomposeText_cons, decomposeText_cons, hc,
      h.decomposeChar_eq]
  rw [hsame, compose_append cs hanew, h.compose_cons]

theorem Inert.compose_append_cons {v : Char} (h : Inert v) (cs ds : List Char) :
    compose (cs ++ v :: ds) = compose cs ++ v :: compose ds :=
  h.compose_append_of_parts h.decomposeChar_eq cs ds

end TopPatterns.Text

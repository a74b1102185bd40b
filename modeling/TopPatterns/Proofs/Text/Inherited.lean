import TopPatterns.Proofs.Text.Decomposition

/-!
# Kinds of characters that composing keeps

Composing writes other characters for those of a text. A set of code points is inherited if each
step of taking a character apart leaves as many of its members as there were, so none appears and
none is lost (`isInherited`). A composed text has as many members of such a set as the text
(`countP_compose`).
-/

namespace TopPatterns.Text

/-! ## Inherited sets -/

/-- Whether composing keeps the number of members of a set: those that the tables take apart have
one member among their parts, the others none, and no part of a syllable is a member. -/
def isInherited (set : Nat) : Bool :=
  (tableParts.all fun step => step.2.countP set.testBit == [step.1].countP set.testBit) &&
    set &&& codeSet [(0x1100, 0x11C2), (0xAC00, 0xD7A3)] == 0

theorem isInherited_eq (set : Nat) : isInherited set =
    ((tableParts.all fun step => step.2.countP (hasPoint set) == [step.1].countP (hasPoint set)) &&
      set &&& codeSet [(0x1100, 0x11C2), (0xAC00, 0xD7A3)] == 0) := by
  rw [hasPoint_eq]
  rfl

section

variable {set : Nat}

/-- Neither syllables nor their parts are members. -/
theorem testBit_of_syllable (h : isInherited set = true) {n : Nat}
    (hn : 0x1100 ≤ n ∧ n ≤ 0x11C2 ∨ 0xAC00 ≤ n ∧ n ≤ 0xD7A3) : set.testBit n = false := by
  rw [isInherited, Bool.and_eq_true] at h
  exact testBit_eq_false_of_apart (eq_of_beq h.2) (by simpa using hn)

theorem countP_of_partsOf? (h : isInherited set = true) {n : Nat} {parts : List Nat}
    (hparts : partsOf? n = some parts) :
    parts.countP set.testBit = [n].countP set.testBit := by
  rcases of_partsOf? hparts with ⟨hn, hall⟩ | hstep
  · have hnone : parts.countP set.testBit = 0 := List.countP_eq_zero.2 fun part hpart => by
      rw [testBit_of_syllable h (.inl (hall part hpart))]
      exact Bool.false_ne_true
    rw [hnone, List.countP_singleton, testBit_of_syllable h (.inr hn)]
    rfl
  · rw [isInherited, Bool.and_eq_true] at h
    exact eq_of_beq (List.all_eq_true.1 h.1 _ hstep)

/-! ## Taking apart -/

theorem countP_flatMap_of_forall {α : Type} {p : α → Bool} {f : α → List α} {cs : List α}
    (h : ∀ c ∈ cs, (f c).countP p = [c].countP p) : (cs.flatMap f).countP p = cs.countP p := by
  induction cs with
  | nil => rfl
  | cons c cs ih =>
    rw [List.flatMap_cons, List.countP_append, h c (List.mem_cons_self ..),
      ih fun d hd => h d (List.mem_cons_of_mem _ hd), ← List.countP_append]
    rfl

theorem countP_decomposeIn (h : isInherited set = true) (steps n : Nat) :
    (decomposeIn steps n).countP set.testBit = [n].countP set.testBit := by
  induction steps generalizing n with
  | zero => rfl
  | succ steps ih =>
    rw [decomposeIn]
    split
    · rfl
    · next hparts =>
      rw [countP_flatMap_of_forall fun part _ => ih part, countP_of_partsOf? h hparts]

theorem countP_decomposeChar (h : isInherited set = true) (c : Char) :
    (decomposeChar c).countP (inSet set) = [c].countP (inSet set) := by
  have hnumbers : ∀ m ∈ decomposeIn decompositionSteps c.toNat,
      (inSet set ∘ Char.ofNat) m = true ↔ set.testBit m = true := by
    intro m hm
    rw [Function.comp, inSet, toNat_ofNat (isValidChar_of_mem_decomposeIn c.valid hm)]
  rw [decomposeChar, List.countP_map, List.countP_congr hnumbers, countP_decomposeIn h]
  rfl

/-! ## Joining -/

theorem countP_of_compositeOf? (h : isInherited set = true) {a b whole : Char}
    (hwhole : compositeOf? a b = some whole) :
    [whole].countP (inSet set) = [a, b].countP (inSet set) := by
  rw [← countP_decomposeChar h, decomposeChar_of_compositeOf? hwhole, List.countP_append,
    countP_decomposeChar h, countP_decomposeChar h, ← List.countP_append]
  rfl

theorem countP_joinFrom (h : isInherited set = true) (state : Option (Char × List Char))
    (cs : List Char) :
    (joinFrom state cs).countP (inSet set) = (held state ++ cs).countP (inSet set) := by
  induction cs generalizing state with
  | nil => rw [joinFrom_nil, List.append_nil]
  | cons c cs ih =>
    cases state with
    | none =>
      rw [joinFrom_none_cons]
      split
      · exact ih _
      · rw [List.countP_cons, ih]
        exact (List.countP_cons ..).symm
    | some pair =>
      obtain ⟨letter, marks⟩ := pair
      rw [joinFrom_some_cons]
      split
      · next whole hwhole =>
        have hcount := countP_of_compositeOf? h (compositeOf?_of_joined? hwhole)
        rw [ih]
        simp only [held, List.countP_append, List.countP_cons, List.countP_nil] at hcount ⊢
        omega
      · split
        · rw [List.countP_cons, List.countP_append, ih]
          simp only [held, List.countP_append, List.countP_cons, List.countP_nil, List.reverse_nil]
          omega
        · rw [ih]
          simp only [held, List.countP_append, List.countP_cons, List.reverse_cons, List.countP_nil]
          omega

/-- **Composing keeps the number of members of an inherited set.** -/
theorem countP_compose (h : isInherited set = true) (cs : List Char) :
    (compose cs).countP (inSet set) = cs.countP (inSet set) := by
  rw [compose, countP_joinFrom h, held, List.nil_append, (reorder_perm _).countP_eq, decomposeText,
    countP_flatMap_of_forall fun c _ => countP_decomposeChar h c]

/-- A composed text has members of an inherited set only if the text has. -/
theorem not_inSet_compose (h : isInherited set = true) {cs : List Char}
    (hcs : ∀ c ∈ cs, inSet set c = false) : ∀ c ∈ compose cs, inSet set c = false := by
  have hnone : (compose cs).countP (inSet set) = 0 := by
    rw [countP_compose h, List.countP_eq_zero]
    exact fun c hc => by rw [hcs c hc]; exact Bool.false_ne_true
  exact fun c hc => Bool.eq_false_iff.2 (List.countP_eq_zero.1 hnone c hc)

end

end TopPatterns.Text

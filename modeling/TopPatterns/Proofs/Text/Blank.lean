import TopPatterns.Text.CodePoint

/-!
# Trimmed texts

A text is bare of a kind of characters if it has none of them at its ends. Trimming leaves a text
bare (`bare_trimOf`), and leaves a bare text as it is (`trimOf_eq_self_iff`). It keeps what is not of
the kind (`filter_trimOf`).
-/

namespace TopPatterns.Text

variable {α : Type} {drop : α → Bool} {cs : List α}

/-- Whether neither end of a text is of a kind. -/
def Bare (drop : α → Bool) (cs : List α) : Prop :=
  (∀ c ∈ cs.head?, drop c = false) ∧ ∀ c ∈ cs.getLast?, drop c = false

theorem dropWhile_eq_self (h : ∀ c ∈ cs.head?, drop c = false) : cs.dropWhile drop = cs := by
  cases cs with
  | nil => rfl
  | cons c cs => rw [List.dropWhile_cons_of_neg (by simp [h c rfl])]

theorem eq_false_of_mem_head?_dropWhile :
    ∀ c ∈ (cs.dropWhile drop).head?, drop c = false := by
  intro c hc
  have hnot := List.head?_dropWhile_not drop cs
  rw [Option.mem_def.1 hc] at hnot
  exact hnot

theorem bare_trimOf (drop : α → Bool) (cs : List α) : Bare drop (trimOf drop cs) := by
  constructor
  · intro c hc
    -- what is left begins as the text without its first blanks does
    obtain ⟨front, hfront⟩ := List.dropWhile_suffix drop (l := (cs.dropWhile drop).reverse)
    have hprefix := congrArg List.reverse hfront
    rw [List.reverse_append, List.reverse_reverse] at hprefix
    have hfirst : ∀ c ∈ (cs.dropWhile drop).head?, drop c = false :=
      eq_false_of_mem_head?_dropWhile
    refine hfirst c ?_
    rw [trimOf, Option.mem_def] at hc
    rw [← hprefix, List.head?_append, hc]
    rfl
  · intro c hc
    rw [trimOf, List.getLast?_reverse] at hc
    exact eq_false_of_mem_head?_dropWhile c hc

theorem trimOf_eq_self_iff : trimOf drop cs = cs ↔ Bare drop cs := by
  constructor
  · intro h
    exact h ▸ bare_trimOf drop cs
  · intro h
    have hlast : ∀ c ∈ cs.reverse.head?, drop c = false := by
      rw [List.head?_reverse]
      exact h.2
    rw [trimOf, dropWhile_eq_self h.1, dropWhile_eq_self hlast, List.reverse_reverse]

theorem trimOf_isInfix (cs : List α) : trimOf drop cs <:+: cs := by
  have hprefix : trimOf drop cs <+: cs.dropWhile drop := by
    rw [trimOf, ← List.reverse_suffix, List.reverse_reverse]
    exact List.dropWhile_suffix drop
  exact hprefix.isInfix.trans (List.dropWhile_suffix drop).isInfix

/-- A text that begins with what is not of the kind still does when it is trimmed. -/
theorem exists_trimOf_cons {c : α} (hc : drop c = false) (cs : List α) :
    ∃ rest, trimOf drop (c :: cs) = c :: rest := by
  have hnot : ¬drop c = true := by simp [hc]
  rw [trimOf, List.dropWhile_cons_of_neg hnot, List.reverse_cons, List.dropWhile_append]
  split
  · exact ⟨[], by rw [List.dropWhile_cons_of_neg hnot]; rfl⟩
  · exact ⟨_, List.reverse_append⟩

theorem filter_dropWhile {p : α → Bool} (h : ∀ c, drop c = true → p c = false) (cs : List α) :
    (cs.dropWhile drop).filter p = cs.filter p := by
  induction cs with
  | nil => rfl
  | cons c cs ih =>
    by_cases hc : drop c = true
    · rw [List.dropWhile_cons_of_pos hc, ih, List.filter_cons_of_neg (by simp [h c hc])]
    · rw [List.dropWhile_cons_of_neg hc]

/-- Trimming takes away only what is of the kind. -/
theorem filter_trimOf {p : α → Bool} (h : ∀ c, drop c = true → p c = false) (cs : List α) :
    (trimOf drop cs).filter p = cs.filter p := by
  rw [trimOf, List.filter_reverse, filter_dropWhile h, ← List.filter_reverse, List.reverse_reverse,
    filter_dropWhile h]

/-- A bare text that is not empty has something that is not of the kind. -/
theorem Bare.all_eq_false (h : Bare drop cs) (hne : cs ≠ []) : cs.all drop = false := by
  cases cs with
  | nil => exact absurd rfl hne
  | cons c cs => simp [h.1 c rfl]

/-- A text between bare ones does not show at the ends. -/
theorem Bare.append_cons {ds : List α} (hc : Bare drop cs) (hcs : cs ≠ []) (hd : Bare drop ds)
    (hds : ds ≠ []) (d : α) : Bare drop (cs ++ d :: ds) := by
  obtain ⟨c, cs, rfl⟩ := List.exists_cons_of_ne_nil hcs
  obtain ⟨e, ds, rfl⟩ := List.exists_cons_of_ne_nil hds
  constructor
  · exact hc.1
  · rw [List.getLast?_append, List.getLast?_cons_cons, List.getLast?_cons, Option.some_or,
      ← List.getLast?_cons]
    exact hd.2

end TopPatterns.Text

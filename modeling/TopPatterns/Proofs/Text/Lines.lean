import TopPatterns.Proofs.Text.Blank
import TopPatterns.Text.Basic

/-!
# Cutting what was joined

Lines joined by line feeds are cut into these lines again (`lines_intercalate`), and fields joined
by a separator into these fields (`splitOn_intercalate`), as long as no line has a line end and no
field the separator. Joining texts that are bare at their ends gives such a text
(`bare_intercalate`).

What was read before a text belongs to its first line and to its first field, and changes nothing
after them (`linesFrom_eq_cons`, `splitFrom_eq_cons`). A separator cuts no part of a line in which it
does not occur (`exists_field_of_isInfix`).
-/

namespace TopPatterns.Text

theorem intercalate_cons_cons (d : Char) (x y : List Char) (ys : List (List Char)) :
    [d].intercalate (x :: y :: ys) = x ++ d :: [d].intercalate (y :: ys) := by
  rw [List.intercalate_cons_cons, List.append_assoc, List.singleton_append]

/-- What is joined is the first text alone, or goes on with the separator after it. -/
theorem intercalate_cons_cases (d : Char) (x : List Char) (xs : List (List Char)) :
    [d].intercalate (x :: xs) = x ∨
      [d].intercalate (x :: xs) = x ++ d :: [d].intercalate xs := by
  cases xs with
  | nil => exact .inl (List.intercalate_singleton ..)
  | cons y ys => exact .inr (intercalate_cons_cons d x y ys)

/-- A character of what is joined is the separator or one of a text. -/
theorem eq_or_exists_of_mem_intercalate {c d : Char} {xs : List (List Char)}
    (h : c ∈ [d].intercalate xs) : c = d ∨ ∃ x ∈ xs, c ∈ x := by
  induction xs with
  | nil => cases h
  | cons x xs ih =>
    have hfirst : c ∈ x → c = d ∨ ∃ y ∈ x :: xs, c ∈ y :=
      fun hc => .inr ⟨x, List.mem_cons_self .., hc⟩
    rcases intercalate_cons_cases d x xs with e | e
    · exact hfirst (e ▸ h)
    · rw [e, List.mem_append, List.mem_cons] at h
      rcases h with h | h | h
      · exact hfirst h
      · exact .inl h
      · rcases ih h with h | ⟨y, hy, hc⟩
        · exact .inl h
        · exact .inr ⟨y, List.mem_cons_of_mem _ hy, hc⟩

theorem intercalate_ne_nil {x : List Char} (hx : x ≠ []) (d : Char) (xs : List (List Char)) :
    [d].intercalate (x :: xs) ≠ [] := by
  rcases intercalate_cons_cases d x xs with e | e
  · rw [e]
    exact hx
  · rw [e]
    exact List.append_ne_nil_of_left_ne_nil hx _

/-- Joining bare texts leaves the ends bare. -/
theorem bare_intercalate {drop : Char → Bool} {xs : List (List Char)}
    (h : ∀ x ∈ xs, Bare drop x ∧ x ≠ []) (d : Char) : Bare drop ([d].intercalate xs) := by
  induction xs with
  | nil => exact ⟨nofun, nofun⟩
  | cons x xs ih =>
    obtain ⟨hx, hne⟩ := h x (List.mem_cons_self ..)
    cases xs with
    | nil =>
      rw [List.intercalate_singleton]
      exact hx
    | cons y ys =>
      have hrest := ih fun z hz => h z (List.mem_cons_of_mem _ hz)
      have hy := (h y (List.mem_cons_of_mem _ (List.mem_cons_self ..))).2
      rw [intercalate_cons_cons]
      exact hx.append_cons hne hrest (intercalate_ne_nil hy d ys) d

/-- What stands before the next separator joins the field read so far. -/
theorem splitFrom_append {d : Char} {cs : List Char} (h : d ∉ cs) (field rest : List Char) :
    splitFrom [d] 0 field (cs ++ rest) = splitFrom [d] 0 (cs.reverse ++ field) rest := by
  induction cs generalizing field with
  | nil => rfl
  | cons c cs ih =>
    have hc : d ≠ c := fun e => h (e ▸ List.mem_cons_self ..)
    have hcs : d ∉ cs := fun m => h (List.mem_cons_of_mem _ m)
    rw [List.cons_append, splitFrom, if_neg (by simp [List.isPrefixOf, hc]), ih hcs]
    simp

theorem splitOn_intercalate {d : Char} {fields : List (List Char)} (hne : fields ≠ [])
    (h : ∀ field ∈ fields, d ∉ field) : splitOn [d] ([d].intercalate fields) = fields := by
  induction fields with
  | nil => exact absurd rfl hne
  | cons field fields ih =>
    have hfield := h field (List.mem_cons_self ..)
    cases fields with
    | nil =>
      rw [List.intercalate_singleton]
      exact splitOn_eq_singleton hfield
    | cons next fields =>
      have hrest := ih (List.cons_ne_nil _ _) fun f hf => h f (List.mem_cons_of_mem _ hf)
      rw [splitOn] at hrest
      rw [intercalate_cons_cons, splitOn, splitFrom_append hfield, splitFrom,
        if_pos (by simp [List.isPrefixOf]), List.append_nil, List.reverse_reverse,
        List.length_singleton, Nat.sub_self, hrest]

/-- What stands before the next line end joins the line read so far. -/
theorem linesFrom_append {cs : List Char} (h : ∀ c ∈ cs, isLineEnd c = false)
    (line rest : List Char) :
    linesFrom line (cs ++ rest) = linesFrom (cs.reverse ++ line) rest := by
  induction cs generalizing line with
  | nil => rfl
  | cons c cs ih =>
    have hc := h c (List.mem_cons_self ..)
    -- a line feed after a carriage return would make one line end with it
    have hreturn : c ≠ '\r' := by
      rintro rfl
      cases hc
    rw [List.cons_append, linesFrom_cons fun _ e => absurd e hreturn, if_neg (by simp [hc]),
      ih fun d hd => h d (List.mem_cons_of_mem _ hd)]
    simp

theorem lines_intercalate {ls : List (List Char)} (hne : ∀ l ∈ ls, l ≠ [])
    (h : ∀ l ∈ ls, ∀ c ∈ l, isLineEnd c = false) : lines (['\n'].intercalate ls) = ls := by
  induction ls with
  | nil => rfl
  | cons l ls ih =>
    have hl := h l (List.mem_cons_self ..)
    cases ls with
    | nil =>
      have happend := linesFrom_append hl [] []
      rw [List.append_nil, List.append_nil] at happend
      rw [List.intercalate_singleton, lines, happend, linesFrom_nil]
      simp [hne l (List.mem_cons_self ..)]
    | cons next ls =>
      have hrest := ih (fun m hm => hne m (List.mem_cons_of_mem _ hm))
        fun m hm => h m (List.mem_cons_of_mem _ hm)
      have hend : isLineEnd '\n' = true := by decide
      rw [lines] at hrest
      have hfeed : '\n' ≠ '\r' := by decide
      rw [intercalate_cons_cons, lines, linesFrom_append hl,
        linesFrom_cons fun _ e => absurd e hfeed, if_pos hend, List.append_nil,
        List.reverse_reverse, hrest]

/-! ## What was read before -/

theorem splitFrom_eq_cons (d : Char) (cs : List Char) :
    ∃ first rest, ∀ field, splitFrom [d] 0 field cs = (field.reverse ++ first) :: rest := by
  induction cs with
  | nil => exact ⟨[], [], fun field => by rw [splitFrom, List.append_nil]⟩
  | cons c cs ih =>
    by_cases hc : [d].isPrefixOf (c :: cs) = true
    · exact ⟨[], splitFrom [d] 0 [] cs, fun field => by
        rw [splitFrom, if_pos hc, List.append_nil, List.length_singleton]⟩
    · obtain ⟨first, rest, h⟩ := ih
      exact ⟨c :: first, rest, fun field => by
        rw [splitFrom, if_neg hc, h, List.reverse_cons, List.append_assoc]; rfl⟩

/-- A part of a line without the separator is part of a field. -/
theorem exists_field_of_isInfix {d : Char} {part line : List Char} (hd : d ∉ part)
    (h : part <:+: line) : ∃ field ∈ splitOn [d] line, part <:+: field := by
  obtain ⟨before, after, rfl⟩ := h
  suffices hread : ∀ read, ∃ field ∈ splitFrom [d] 0 read (before ++ (part ++ after)),
      part <:+: field by
    rw [splitOn, List.append_assoc]
    exact hread []
  intro read
  induction before generalizing read with
  | nil =>
    obtain ⟨first, rest, heq⟩ := splitFrom_eq_cons d after
    rw [List.nil_append, splitFrom_append hd, heq]
    exact ⟨_, List.mem_cons_self .., read.reverse, first, by simp⟩
  | cons c before ih =>
    rw [List.cons_append, splitFrom]
    split
    · obtain ⟨field, hfield, hpart⟩ := ih []
      exact ⟨field, List.mem_cons_of_mem _ hfield, hpart⟩
    · exact ih _

theorem linesFrom_eq_cons (cs : List Char) :
    ∃ first rest, ∀ line, line ≠ [] ∨ cs ≠ [] →
      linesFrom line cs = (line.reverse ++ first) :: rest := by
  induction cs with
  | nil =>
    refine ⟨[], [], fun line hline => ?_⟩
    have hne : ¬line.isEmpty = true := by simpa using hline
    rw [linesFrom_nil, if_neg hne, List.append_nil]
  | cons c cs ih =>
    by_cases hreturn : c = '\r' ∧ ∃ rest, cs = '\n' :: rest
    · obtain ⟨rfl, rest, rfl⟩ := hreturn
      exact ⟨[], linesFrom [] rest, fun line _ => by rw [linesFrom_return, List.append_nil]⟩
    · have hone : ∀ line, linesFrom line (c :: cs) =
          if isLineEnd c then line.reverse :: linesFrom [] cs else linesFrom (c :: line) cs :=
        linesFrom_cons fun rest hc hcs => hreturn ⟨hc, rest, hcs⟩
      by_cases hend : isLineEnd c = true
      · exact ⟨[], linesFrom [] cs, fun line _ => by rw [hone, if_pos hend, List.append_nil]⟩
      · obtain ⟨first, rest, h⟩ := ih
        refine ⟨c :: first, rest, fun line _ => ?_⟩
        rw [hone, if_neg hend, h _ (.inl (List.cons_ne_nil _ _)), List.reverse_cons,
          List.append_assoc]
        rfl

end TopPatterns.Text

import TopPatterns.Proofs.Dataset.Fields

/-!
# Invisible characters in items

Five characters are not seen where they stand in a text. `Interspersed x y` says that `y` is `x` with
such characters put in. Composing comes before their removal, so one that stands between a letter
and a mark keeps the two from being joined (`not_clean_interspersed`). In all other places it makes
no difference to the clean text: at the start, at the end, and before a character that composing
does not reach back from (`clean_interspersed`). Two such texts are then one item of a line.
-/

namespace TopPatterns.Dataset

open Text (attaches compose)

/-- The characters that are not seen: the zero-width space, non-joiner and joiner, the byte order
mark and the soft hyphen. -/
def invisibles : List Char := ['\u200b', '\u200c', '\u200d', '\ufeff', '\u00ad']

/-- Whether a character is not seen. -/
def isInvisible (c : Char) : Bool := invisibles.contains c

/-- A text without the characters that are not seen. -/
def visible (cs : List Char) : List Char := cs.filter fun c => !isInvisible c

/-- The second text is the first one with invisible characters put in. -/
inductive Interspersed : List Char → List Char → Prop
  | nil : Interspersed [] []
  | keep (c : Char) {cs ds : List Char} : Interspersed cs ds → Interspersed (c :: cs) (c :: ds)
  | insert {v : Char} {cs ds : List Char} :
      isInvisible v = true → Interspersed cs ds → Interspersed cs (v :: ds)

/-- Whether after every invisible character the next visible one, if there is one, starts anew. -/
def isLoose : List Char → Bool
  | [] => true
  | c :: cs => (!isInvisible c || (visible cs).head?.all fun d => !attaches d) && isLoose cs

/-- Whether invisible characters separate nothing that composing joins: after those at the start,
all are followed by visible ones that start anew. -/
def isHarmless (cs : List Char) : Bool := isLoose (cs.dropWhile isInvisible)

/-! ## Composing -/

/-- Composing treats an invisible character apart from what is around it, and it is not kept. -/
theorem inert_and_not_isKept {v : Char} (h : isInvisible v = true) :
    Text.Inert v ∧ isKept v = false := by
  have htable : (invisibles.all fun v => Text.isInert v && !isKept v) = true := by decide +kernel
  have hv := List.all_eq_true.1 htable v (List.contains_iff_mem.1 h)
  rw [Bool.and_eq_true, Bool.not_eq_true'] at hv
  exact hv.imp_left Text.inert_of_isInert

theorem visible_cons_of_isInvisible {v : Char} (h : isInvisible v = true) (cs : List Char) :
    visible (v :: cs) = visible cs := by
  simp [visible, h]

theorem visible_cons {c : Char} (h : isInvisible c = false) (cs : List Char) :
    visible (c :: cs) = c :: visible cs := by
  simp [visible, h]

/-- An invisible character parts what is composed, and is not kept. -/
theorem kept_compose_append_cons {v : Char} (h : isInvisible v = true) (cs ds : List Char) :
    (compose (cs ++ v :: ds)).filter isKept =
      (compose cs).filter isKept ++ (compose ds).filter isKept := by
  obtain ⟨hinert, hkept⟩ := inert_and_not_isKept h
  rw [hinert.compose_append_cons, List.filter_append, List.filter_cons, hkept]
  rfl

/-- An invisible character at the start makes no difference. -/
theorem clean_cons_of_isInvisible {v : Char} (h : isInvisible v = true) (lowercase : Bool)
    (cs : List Char) : clean lowercase (v :: cs) = clean lowercase cs := by
  rw [clean, clean, ← List.nil_append (v :: cs), kept_compose_append_cons h]
  rfl

/-- What is before a loose text does not change that its invisible characters separate nothing. -/
theorem kept_compose_append {cs : List Char} (h : isLoose cs = true) (before : List Char) :
    (compose (before ++ cs)).filter isKept = (compose (before ++ visible cs)).filter isKept := by
  induction cs generalizing before with
  | nil => rfl
  | cons c cs ih =>
    rw [isLoose, Bool.and_eq_true, Bool.or_eq_true, Bool.not_eq_true'] at h
    obtain ⟨hnext, hloose⟩ := h
    by_cases hc : isInvisible c = true
    · have hanew : ∀ d ∈ (visible cs).head?, attaches d = false := by
        have hall := hnext.resolve_left (by simp [hc])
        intro d hd
        rw [Option.mem_def.1 hd] at hall
        simpa using hall
      rw [kept_compose_append_cons hc, visible_cons_of_isInvisible hc,
        Text.compose_append before hanew, List.filter_append, ← List.nil_append cs, ih hloose]
      rfl
    · rw [visible_cons (by simpa using hc), List.append_cons before c cs,
        List.append_cons before c (visible cs), ih hloose]

/-- **Composing passes over harmless characters.** -/
theorem kept_compose_visible {cs : List Char} (h : isHarmless cs = true) :
    (compose cs).filter isKept = (compose (visible cs)).filter isKept := by
  induction cs with
  | nil => rfl
  | cons c cs ih =>
    by_cases hc : isInvisible c = true
    · have hcs : isHarmless cs = true := by rwa [isHarmless, List.dropWhile_cons_of_pos hc] at h
      rw [visible_cons_of_isInvisible hc, ← ih hcs, ← List.nil_append (c :: cs),
        kept_compose_append_cons hc]
      rfl
    · rw [isHarmless, List.dropWhile_cons_of_neg hc] at h
      exact kept_compose_append h []

theorem clean_visible {cs : List Char} (h : isHarmless cs = true) (lowercase : Bool) :
    clean lowercase cs = clean lowercase (visible cs) := by
  rw [clean, clean, kept_compose_visible h]

/-! ## Characters put in -/

theorem Interspersed.visible_eq {cs ds : List Char} (h : Interspersed cs ds) :
    visible ds = visible cs := by
  induction h with
  | nil => rfl
  | keep c _ ih => simp only [visible, List.filter_cons] at ih ⊢; rw [ih]
  | insert hv _ ih => rw [visible_cons_of_isInvisible hv, ih]

theorem Interspersed.isLoose_eq {cs ds : List Char} (h : Interspersed cs ds)
    (hds : isLoose ds = true) : isLoose cs = true := by
  induction h with
  | nil => rfl
  | keep c hrest ih =>
    rw [isLoose, Bool.and_eq_true] at hds ⊢
    rw [← hrest.visible_eq]
    exact ⟨hds.1, ih hds.2⟩
  | insert _ _ ih =>
    rw [isLoose, Bool.and_eq_true] at hds
    exact ih hds.2

theorem Interspersed.dropWhile {cs ds : List Char} (h : Interspersed cs ds) :
    Interspersed (cs.dropWhile isInvisible) (ds.dropWhile isInvisible) := by
  induction h with
  | nil => exact .nil
  | keep c hrest ih =>
    by_cases hc : isInvisible c = true
    · rwa [List.dropWhile_cons_of_pos hc, List.dropWhile_cons_of_pos hc]
    · rw [List.dropWhile_cons_of_neg hc, List.dropWhile_cons_of_neg hc]
      exact .keep c hrest
  | insert hv _ ih => rwa [List.dropWhile_cons_of_pos hv]

/-- Every text is its visible part with invisible characters put in. -/
theorem interspersed_visible (cs : List Char) : Interspersed (visible cs) cs := by
  induction cs with
  | nil => exact .nil
  | cons c cs ih =>
    by_cases hc : isInvisible c = true
    · rw [visible_cons_of_isInvisible hc]
      exact .insert hc ih
    · rw [visible_cons (by simpa using hc)]
      exact .keep c ih

/-- **Invisible characters separate no equal items.** Put invisible characters into a text, but none
between a visible character and one that composing reaches back from. The clean text is the same,
and of a line that has both texts as fields the second one adds no item. -/
theorem clean_interspersed (lowercase : Bool) {x y : List Char} (h : Interspersed x y)
    (hy : isHarmless y = true) :
    clean lowercase y = clean lowercase x ∧
      ∀ (d : Char) (before later : List (List Char)), x ∈ before →
        (∀ field ∈ before ++ y :: later, d ∉ field) →
        lineItems lowercase [d] ([d].intercalate (before ++ y :: later)) =
          lineItems lowercase [d] ([d].intercalate (before ++ later)) := by
  have hx : isHarmless x = true := h.dropWhile.isLoose_eq hy
  have hclean : clean lowercase y = clean lowercase x := by
    rw [clean_visible hy, h.visible_eq, ← clean_visible hx]
  exact ⟨hclean, fun d before later hbefore hd => lineItems_append_cons hbefore hclean hd⟩

/-- A byte order mark at the start, a soft hyphen inside a word, a space of no width after an accent
and a joiner before a blank: the line has one item for both spellings. -/
theorem clean_interspersed_accented :
    let x := "Cafe\u0301 au lait".toList
    let y := "\uFEFFCa\u00ADfe\u0301\u200B au\u200D lait".toList
    let fields := ["tea".toList, x]
    (Interspersed x y ∧ isHarmless y = true ∧ x ∈ fields ∧ ∀ field ∈ fields ++ [y], ',' ∉ field) ∧
      clean true y = clean true x ∧
      lineItems true [','] ([','].intercalate (fields ++ [y])) =
        lineItems true [','] ([','].intercalate fields) := by
  intro x y fields
  have hinterspersed : Interspersed x y := by
    have hvisible : x = visible y := by decide +kernel
    exact hvisible ▸ interspersed_visible y
  have hharmless : isHarmless y = true := by decide +kernel
  have hfields : x ∈ fields ∧ ∀ field ∈ fields ++ [y], ',' ∉ field := by decide +kernel
  obtain ⟨hclean, hitems⟩ := clean_interspersed true hinterspersed hharmless
  refine ⟨⟨hinterspersed, hharmless, hfields⟩, hclean, ?_⟩
  have hline := hitems ',' fields [] hfields.1 hfields.2
  rwa [List.append_nil] at hline

/-- A zero-width space between a letter and its accent keeps them apart, although it is not seen in
the clean text either. -/
theorem not_clean_interspersed :
    ¬∀ x y, Interspersed x y → clean false y = clean false x := by
  intro h
  have heq := h ['e', '\u0301'] ['e', '\u200b', '\u0301']
    (.keep 'e' (.insert (by decide) (.keep '\u0301' .nil)))
  revert heq
  decide +kernel

end TopPatterns.Dataset

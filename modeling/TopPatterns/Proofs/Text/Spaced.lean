import Mathlib.Data.List.Induction
import TopPatterns.Proofs.Text.Decomposition
import TopPatterns.Text.Basic

/-!
# Blanks in a composed text

A blank is composed into one blank, apart from what stands around it (`exists_blank`). So a blank
text stays blank when it is composed (`isBlankText_compose`), and a composed text stays composed when
blanks, or other characters of this kind, are trimmed off (`compose_trimOf`).
-/

namespace TopPatterns.Text

/-- Each blank character is inert, or is taken apart into one that is. -/
theorem blank_parts : (blankRanges.all fun range =>
    (List.range' range.1 (range.2 + 1 - range.1)).all fun n => isInert (Char.ofNat n) ||
      match decomposeChar (Char.ofNat n) with
      | [b] => isBlank b && isInert b
      | _ => false) = true := by
  decide +kernel

theorem exists_blank {c : Char} (h : isBlank c = true) :
    ∃ b, decomposeChar c = [b] ∧ isBlank b = true ∧ Inert b := by
  obtain ⟨range, hrange, hfirst, hlast⟩ := exists_range_of_covers h
  have hparts := List.all_eq_true.1 (List.all_eq_true.1 blank_parts range hrange) c.toNat
    (List.mem_range'_1.2 (by omega))
  rw [Char.ofNat_toNat, Bool.or_eq_true] at hparts
  rcases hparts with hinert | hparts
  · have hc := inert_of_isInert hinert
    exact ⟨c, hc.decomposeChar_eq, h, hc⟩
  · split at hparts
    · next b hb =>
      rw [Bool.and_eq_true] at hparts
      exact ⟨b, hb, hparts.1, inert_of_isInert hparts.2⟩
    · cases hparts

theorem isBlankText_compose {cs : List Char} (h : isBlankText cs = true) :
    isBlankText (compose cs) = true := by
  induction cs with
  | nil => rfl
  | cons c cs ih =>
    rw [isBlankText, List.all_cons, Bool.and_eq_true] at h
    obtain ⟨b, hparts, hblank, hb⟩ := exists_blank h.1
    rw [← List.nil_append (c :: cs), hb.compose_append_of_parts hparts, compose_nil,
      List.nil_append, isBlankText, List.all_cons, hblank]
    exact ih h.2

/-! ## Trimming -/

section

variable {drop : Char → Bool} (hdrop : ∀ c, drop c = true → ∃ b, decomposeChar c = [b] ∧ Inert b)

include hdrop

theorem compose_dropWhile {cs : List Char} (h : compose cs = cs) :
    compose (cs.dropWhile drop) = cs.dropWhile drop := by
  induction cs with
  | nil => rfl
  | cons c cs ih =>
    by_cases hc : drop c = true
    · obtain ⟨b, hparts, hb⟩ := hdrop c hc
      rw [← List.nil_append (c :: cs), hb.compose_append_of_parts hparts] at h
      rw [List.dropWhile_cons_of_pos hc]
      exact ih (List.cons.inj h).2
    · rwa [List.dropWhile_cons_of_neg hc]

theorem compose_reverse_dropWhile {cs : List Char} (h : compose cs = cs) :
    compose (cs.reverse.dropWhile drop).reverse = (cs.reverse.dropWhile drop).reverse := by
  induction cs using List.reverseRecOn with
  | nil => rfl
  | append_singleton cs c ih =>
    rw [List.reverse_append, List.reverse_singleton, List.singleton_append]
    by_cases hc : drop c = true
    · obtain ⟨b, hparts, hb⟩ := hdrop c hc
      rw [hb.compose_append_of_parts hparts, compose_nil] at h
      rw [List.dropWhile_cons_of_pos hc]
      exact ih (List.append_inj' h rfl).1
    · rwa [List.dropWhile_cons_of_neg hc, List.reverse_cons, List.reverse_reverse]

/-- **A composed text that is trimmed** stays composed, if nothing that is trimmed joins with what
stands beside it. -/
theorem compose_trimOf {cs : List Char} (h : compose cs = cs) :
    compose (trimOf drop cs) = trimOf drop cs :=
  compose_reverse_dropWhile hdrop (compose_dropWhile hdrop h)

end

theorem compose_trim {cs : List Char} (h : compose cs = cs) : compose (trim cs) = trim cs := by
  refine compose_trimOf (fun c hc => ?_) h
  obtain ⟨b, hparts, -, hb⟩ := exists_blank hc
  exact ⟨b, hparts, hb⟩

end TopPatterns.Text

import Mathlib.Data.List.Chain
import TopPatterns.Proofs.Text.Blank
import TopPatterns.Proofs.Text.CodeSet
import TopPatterns.Text.Lowercase

/-!
# What lower case leaves alone

A character is caseless if it is the lowercase form of no other one. Blanks are caseless
(`caseless_of_isBlank`), and so are the separators of data files. A caseless character of a
lowercase text is one of the text itself (`mem_of_mem_lower`), so a text without blanks at its ends
has none there in lower case either (`bare_lower`).

The sigma of a word ends the word also where a character follows that has no case and that a case
context does not skip. The lowercase form of a text up to such a character does not depend on what
comes after (`lowerAfter_append_cons`).
-/

namespace TopPatterns.Text

/-! ## Forms of a character -/

/-- The lowercase forms that a character has in some context. -/
def lowerForms (c : Char) : List Char := if c = 'Σ' then ['ς', 'σ'] else lowerChar c

/-- The letters of a run. -/
def CaseRun.letters (run : CaseRun) : List Nat :=
  (List.range' run.first (run.last + 1 - run.first)).filter fun n =>
    (n - run.first) % run.stride == 0

theorem CaseRun.mem_letters {run : CaseRun} {n : Nat} :
    n ∈ run.letters ↔ run.first ≤ n ∧ n ≤ run.last ∧ (n - run.first) % run.stride = 0 := by
  rw [letters, List.mem_filter, List.mem_range'_1, beq_iff_eq]
  omega

/-- The code point of a letter's lowercase form. -/
def CaseRun.form (run : CaseRun) (n : Nat) : Nat := (n + run.shift : Int).toNat

/-- The runs are in ascending order. -/
theorem caseRuns_ascending : caseRuns.Pairwise fun run later => run.first ≤ later.first := by
  have hchain : (caseRuns.map CaseRun.first).IsChain (· ≤ ·) := by decide +kernel
  exact List.pairwise_map.1 hchain.pairwise

/-- In ascending runs a letter is mapped as its run says, and any other code point is its own. -/
theorem lowerFromRuns_cases {runs : List CaseRun}
    (h : runs.Pairwise fun run later => run.first ≤ later.first) (n : Nat) :
    (∀ run ∈ runs, n ∉ run.letters) ∧ lowerFromRuns runs n = n ∨
      ∃ run ∈ runs, n ∈ run.letters ∧ lowerFromRuns runs n = run.form n := by
  induction runs with
  | nil => exact .inl ⟨nofun, rfl⟩
  | cons run runs ih =>
    obtain ⟨hlater, hruns⟩ := List.pairwise_cons.1 h
    rw [lowerFromRuns]
    split
    · next hfirst =>
      -- the runs that follow begin even later
      refine .inl ⟨fun other hother hn => ?_, rfl⟩
      have hlow := (CaseRun.mem_letters.1 hn).1
      rcases List.mem_cons.1 hother with rfl | hother
      · omega
      · have := hlater other hother
        omega
    · next hfirst =>
      split
      · next hlast =>
        exact .inr ⟨run, List.mem_cons_self ..,
          CaseRun.mem_letters.2 ⟨Nat.not_lt.1 hfirst, hlast⟩, rfl⟩
      · next hlast =>
        rcases ih hruns with ⟨hnone, heq⟩ | ⟨other, hmem, hother⟩
        · refine .inl ⟨fun other hother hn => ?_, heq⟩
          rcases List.mem_cons.1 hother with rfl | hother
          · exact hlast (CaseRun.mem_letters.1 hn).2
          · exact hnone other hother hn
        · exact .inr ⟨other, List.mem_cons_of_mem _ hmem, hother⟩

/-- Whether a code point may be the form of a letter in a run. -/
def CaseRun.reaches (run : CaseRun) (n : Nat) : Bool :=
  decide (run.first + run.shift ≤ n) && decide ((n : Int) ≤ run.last + run.shift)

/-- The run reaches the form of its letter, or the form is zero: where the distance leads below zero,
as in no table of Unicode. -/
theorem CaseRun.form_cases {run : CaseRun} {n : Nat} (h : n ∈ run.letters) :
    run.form n = 0 ∨ run.reaches (run.form n) = true := by
  obtain ⟨hfirst, hlast, -⟩ := mem_letters.1 h
  by_cases hneg : (n + run.shift : Int) ≤ 0
  · exact .inl (Int.toNat_of_nonpos hneg)
  · refine .inr ?_
    rw [reaches, form, Bool.and_eq_true, decide_eq_true_iff, decide_eq_true_iff,
      Int.toNat_of_nonneg (by omega)]
    omega

/-- A number is that of its character, unless it is that of no character. -/
theorem toNat_ofNat_or (n : Nat) : (Char.ofNat n).toNat = n ∨ Char.ofNat n = '\x00' := by
  by_cases h : n.isValidChar
  · exact Or.inl (toNat_ofNat h)
  · rw [Char.ofNat, dif_neg h]
    exact Or.inr rfl

/-- The forms that do not come from the table. -/
def specialForms : List Char := ['ς', 'σ', 'i', '\u0307', '\x00']

/-- The characters that have a form in the table: the form itself, and the letters that a run maps
to it. -/
def withForm (x : Char) : List Char :=
  x :: caseRuns.flatMap fun run => (run.letters.filter (run.form · == x.toNat)).map Char.ofNat

theorem lowerForms_of_mem {x c : Char} (hx : x ∉ specialForms) (h : x ∈ lowerForms c) :
    lowerForms c = [x] ∧ x = Char.ofNat (lowerFromRuns caseRuns c.toNat) := by
  rw [lowerForms] at h ⊢
  split at h
  · exact absurd (List.Sublist.subset (by decide) h) hx
  · next hsigma =>
    rw [lowerChar] at h ⊢
    split at h
    · exact absurd (List.Sublist.subset (by decide) h) hx
    · next hdotted =>
      obtain rfl := List.mem_singleton.1 h
      rw [if_neg hsigma, if_neg hdotted]
      exact ⟨rfl, rfl⟩

theorem mem_withForm {x c : Char} (hx : x ∉ specialForms) (h : x ∈ lowerForms c) :
    c ∈ withForm x := by
  obtain ⟨-, hform⟩ := lowerForms_of_mem hx h
  have hnumber : x.toNat = lowerFromRuns caseRuns c.toNat := by
    rw [hform]
    exact (toNat_ofNat_or _).resolve_right fun hnull => hx (hform.trans hnull ▸ by decide)
  rcases lowerFromRuns_cases caseRuns_ascending c.toNat with ⟨-, heq⟩ | ⟨run, hrun, hc, heq⟩
  · exact List.mem_cons.2 (.inl (Char.toNat_inj.1 (hnumber.trans heq)).symm)
  · refine List.mem_cons_of_mem _ (List.mem_flatMap.2 ⟨run, hrun, List.mem_map.2 ⟨c.toNat, ?_, ?_⟩⟩)
    · exact List.mem_filter.2 ⟨hc, beq_iff_eq.2 (heq.symm.trans hnumber.symm)⟩
    · exact Char.ofNat_toNat c

/-- Whether a character is the lowercase form of no other one. -/
def Caseless (c : Char) : Prop := ∀ d, c ∈ lowerForms d → d = c

theorem caseless_of_not_reaches {c : Char} (hruns : ∀ run ∈ caseRuns, run.reaches c.toNat = false)
    (hspecial : c ∉ specialForms) : Caseless c := by
  intro d hc
  rcases List.mem_cons.1 (mem_withForm hspecial hc) with h | h
  · exact h
  · obtain ⟨run, hrun, hd⟩ := List.mem_flatMap.1 h
    obtain ⟨n, hn, -⟩ := List.mem_map.1 hd
    obtain ⟨hletter, hform⟩ := List.mem_filter.1 hn
    rw [beq_iff_eq] at hform
    rcases run.form_cases hletter with hzero | hreach
    · have hnull : c = '\x00' := Char.toNat_inj.1 (hform.symm.trans hzero)
      exact absurd (hnull ▸ by decide) hspecial
    · rw [hform, hruns run hrun] at hreach
      cases hreach

/-! ## Caseless characters -/

/-- No run of letters meets a range of blanks. -/
theorem blankRanges_apart : (blankRanges.all fun range => caseRuns.all fun run =>
    decide ((range.2 : Int) < run.first + run.shift) ||
      decide ((run.last + run.shift : Int) < range.1)) = true := by
  decide +kernel

theorem caseless_of_isBlank {c : Char} (h : isBlank c = true) : Caseless c := by
  obtain ⟨range, hmem, hlow, hhigh⟩ := exists_range_of_covers h
  refine caseless_of_not_reaches (fun run hrun => ?_) fun hc => ?_
  · have hapart := List.all_eq_true.1 (List.all_eq_true.1 blankRanges_apart range hmem) run hrun
    rw [Bool.or_eq_true, decide_eq_true_iff, decide_eq_true_iff] at hapart
    rw [CaseRun.reaches, Bool.and_eq_false_iff, decide_eq_false_iff_not, decide_eq_false_iff_not]
    omega
  · have hnone : (specialForms.all fun c => !isBlank c) = true := by decide
    have hblank := List.all_eq_true.1 hnone c hc
    rw [h] at hblank
    cases hblank

/-! ## Characters of a lowercase text -/

/-- Every character of a text has one form of its own in the lowercase text, or two of which the
first is an `i`. -/
theorem exists_lowerAfter_cons_cases (before : List Char) (c : Char) (rest : List Char) :
    ∃ forms, ((∃ form, forms = [form]) ∨ forms = ['i', '\u0307']) ∧ forms ⊆ lowerForms c ∧
      lowerAfter before (c :: rest) = forms ++ lowerAfter (c :: before) rest := by
  rw [lowerAfter, lowerForms]
  refine ⟨_, ?_, ?_, rfl⟩
  · rw [lowerChar]
    split
    · exact .inl ⟨_, rfl⟩
    · split
      · exact .inr rfl
      · exact .inl ⟨_, rfl⟩
  · split
    · split <;> decide
    · exact List.Subset.refl _

theorem exists_lowerAfter_cons (before : List Char) (c : Char) (rest : List Char) :
    ∃ forms, forms ≠ [] ∧ forms ⊆ lowerForms c ∧
      lowerAfter before (c :: rest) = forms ++ lowerAfter (c :: before) rest := by
  obtain ⟨forms, hcases, h⟩ := exists_lowerAfter_cons_cases before c rest
  refine ⟨forms, ?_, h⟩
  rcases hcases with ⟨form, rfl⟩ | rfl <;> exact List.cons_ne_nil _ _

theorem lowerAfter_ne_nil {before cs : List Char} (h : cs ≠ []) : lowerAfter before cs ≠ [] := by
  cases cs with
  | nil => exact absurd rfl h
  | cons c cs =>
    obtain ⟨forms, hne, -, heq⟩ := exists_lowerAfter_cons before c cs
    rw [heq]
    exact List.append_ne_nil_of_left_ne_nil hne _

theorem mem_lowerAfter {x : Char} {before cs : List Char} (h : x ∈ lowerAfter before cs) :
    ∃ c ∈ cs, x ∈ lowerForms c := by
  induction cs generalizing before with
  | nil => cases h
  | cons c cs ih =>
    obtain ⟨forms, -, hsub, heq⟩ := exists_lowerAfter_cons before c cs
    rw [heq, List.mem_append] at h
    rcases h with h | h
    · exact ⟨c, List.mem_cons_self .., hsub h⟩
    · obtain ⟨d, hd, hx⟩ := ih h
      exact ⟨d, List.mem_cons_of_mem _ hd, hx⟩

theorem mem_head?_lowerAfter {x : Char} {before cs : List Char}
    (h : x ∈ (lowerAfter before cs).head?) : ∃ c ∈ cs.head?, x ∈ lowerForms c := by
  cases cs with
  | nil => cases h
  | cons c cs =>
    obtain ⟨forms, hne, hsub, heq⟩ := exists_lowerAfter_cons before c cs
    obtain ⟨form, forms, rfl⟩ := List.exists_cons_of_ne_nil hne
    rw [heq, List.cons_append, List.head?_cons, Option.mem_some_iff] at h
    exact ⟨c, rfl, h ▸ hsub (List.mem_cons_self ..)⟩

theorem mem_getLast?_lowerAfter {x : Char} {before cs : List Char}
    (h : x ∈ (lowerAfter before cs).getLast?) : ∃ c ∈ cs.getLast?, x ∈ lowerForms c := by
  induction cs generalizing before with
  | nil => cases h
  | cons c cs ih =>
    obtain ⟨forms, -, hsub, heq⟩ := exists_lowerAfter_cons before c cs
    rw [heq] at h
    by_cases hcs : cs = []
    · rw [hcs, lowerAfter, List.append_nil] at h
      exact ⟨c, by rw [hcs]; rfl, hsub (List.mem_of_mem_getLast? h)⟩
    · rw [List.getLast?_append,
        List.getLast?_eq_some_getLast (lowerAfter_ne_nil hcs), Option.some_or,
        ← List.getLast?_eq_some_getLast] at h
      obtain ⟨d, hd, hx⟩ := ih h
      refine ⟨d, ?_, hx⟩
      rw [Option.mem_def] at hd ⊢
      rw [List.getLast?_cons, hd]
      rfl

/-- Each character has a form of its own in the lowercase text. -/
theorem exists_mem_lowerAfter {c : Char} (before : List Char) {cs : List Char} (h : c ∈ cs) :
    ∃ x ∈ lowerForms c, x ∈ lowerAfter before cs := by
  induction cs generalizing before with
  | nil => cases h
  | cons d cs ih =>
    obtain ⟨forms, hne, hsub, heq⟩ := exists_lowerAfter_cons before d cs
    rw [heq]
    rcases List.mem_cons.1 h with rfl | h
    · obtain ⟨x, forms, rfl⟩ := List.exists_cons_of_ne_nil hne
      exact ⟨x, hsub (List.mem_cons_self ..), List.mem_append_left _ (List.mem_cons_self ..)⟩
    · obtain ⟨x, hform, hx⟩ := ih (d :: before) h
      exact ⟨x, hform, List.mem_append_right _ hx⟩

/-- Characters that stand side by side in lower case are forms of such characters. The first one is
no `i`, which may be one form with the character after it. -/
theorem exists_adjacent_of_lowerAfter {x y : Char} (hx : x ≠ 'i') {before cs first rest : List Char}
    (h : lowerAfter before cs = first ++ x :: y :: rest) :
    ∃ c d, [c, d] <:+: cs ∧ x ∈ lowerForms c ∧ y ∈ lowerForms d := by
  induction cs generalizing before first with
  | nil => simp [lowerAfter] at h
  | cons c cs ih =>
    have hlater : ∀ first, lowerAfter (c :: before) cs = first ++ x :: y :: rest →
        ∃ c' d, [c', d] <:+: c :: cs ∧ x ∈ lowerForms c' ∧ y ∈ lowerForms d := by
      intro first h
      obtain ⟨c', d, hinfix, hforms⟩ := ih h
      exact ⟨c', d, List.infix_cons hinfix, hforms⟩
    obtain ⟨forms, hcases, hsub, heq⟩ := exists_lowerAfter_cons_cases before c cs
    rw [heq] at h
    rcases List.append_eq_append_iff.1 h with ⟨more, -, hmore⟩ | ⟨more, hforms, hmore⟩
    · exact hlater _ hmore
    · rcases more with _ | ⟨form, more⟩
      · exact hlater [] hmore.symm
      · obtain ⟨rfl, hnext⟩ := List.cons.inj hmore
        have hform : x ∈ lowerForms c := hsub (hforms ▸ by simp)
        -- nothing follows the form, since it is no `i`
        have hend : more = [] := by
          rcases hcases with ⟨form, rfl⟩ | rfl
          · have hsingle : first = [] ∧ x = form ∧ more = [] := by
              simpa [eq_comm, List.append_eq_cons_iff] using hforms
            exact hsingle.2.2
          · rcases first with _ | ⟨i, first⟩
            · exact absurd (List.cons.inj hforms).1.symm hx
            · have hsingle : first = [] ∧ x = '\u0307' ∧ more = [] := by
                simpa [eq_comm, List.append_eq_cons_iff] using (List.cons.inj hforms).2
              exact hsingle.2.2
        have hfirst : y ∈ (lowerAfter (c :: before) cs).head? := by
          subst hend
          exact congrArg List.head? hnext.symm
        obtain ⟨d, hd, hy⟩ := mem_head?_lowerAfter hfirst
        obtain ⟨cs, rfl⟩ := List.head?_eq_some_iff.1 hd
        exact ⟨c, d, ⟨[], cs, rfl⟩, hform, hy⟩

theorem mem_of_mem_lower {c : Char} (hc : Caseless c) {cs : List Char} (h : c ∈ lower cs) :
    c ∈ cs := by
  obtain ⟨d, hd, hform⟩ := mem_lowerAfter h
  exact hc d hform ▸ hd

/-- A character that is not blank has no blank forms. -/
theorem isBlank_of_mem_lowerForms {x c : Char} (hform : x ∈ lowerForms c)
    (hc : isBlank c = false) : isBlank x = false := by
  cases hx : isBlank x with
  | false => rfl
  | true => rwa [caseless_of_isBlank hx c hform, hx] at hc

/-- A text without blanks at its ends has none there in lower case. -/
theorem bare_lower {cs : List Char} (h : Bare isBlank cs) : Bare isBlank (lower cs) := by
  constructor
  · intro x hx
    obtain ⟨c, hc, hform⟩ := mem_head?_lowerAfter hx
    exact isBlank_of_mem_lowerForms hform (h.1 c hc)
  · intro x hx
    obtain ⟨c, hc, hform⟩ := mem_getLast?_lowerAfter hx
    exact isBlank_of_mem_lowerForms hform (h.2 c hc)

/-! ## Separators -/

/-- A character that a case context stops at, and that lower case leaves as it is. -/
structure Neutral (c : Char) : Prop where
  caseless : Caseless c
  not_skipped : isCaseIgnorable c = false
  not_cased : isCased c = false
  ne_sigma : c ≠ 'Σ'
  lowerChar_eq : lowerChar c = [c]

theorem Neutral.startsCased_append_cons {d : Char} (h : Neutral d) (cs rest : List Char) :
    startsCased (cs ++ d :: rest) = startsCased cs := by
  induction cs with
  | nil => simp [startsCased, h.not_skipped, h.not_cased]
  | cons c cs ih =>
    unfold startsCased at ih ⊢
    by_cases hc : isCaseIgnorable c = true
    · rw [List.cons_append, List.dropWhile_cons_of_pos hc, List.dropWhile_cons_of_pos hc, ih]
    · rw [List.cons_append, List.dropWhile_cons_of_neg hc, List.dropWhile_cons_of_neg hc]

/-- What comes after a neutral character does not change the lowercase form before it. -/
theorem Neutral.lowerAfter_append_cons {d : Char} (h : Neutral d) (before cs rest : List Char) :
    lowerAfter before (cs ++ d :: rest) =
      lowerAfter before cs ++ d :: lowerAfter (d :: (cs.reverse ++ before)) rest := by
  induction cs generalizing before with
  | nil => simp [lowerAfter, h.ne_sigma, h.lowerChar_eq]
  | cons c cs ih =>
    rw [List.cons_append, lowerAfter, lowerAfter, ih, isFinalSigma, isFinalSigma,
      h.startsCased_append_cons]
    simp

end TopPatterns.Text

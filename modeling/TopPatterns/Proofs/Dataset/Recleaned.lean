import TopPatterns.Proofs.Dataset.Cleaning
import TopPatterns.Proofs.Text.Capitals
import TopPatterns.Proofs.Text.Recomposed
import TopPatterns.Proofs.Text.Spaced

/-!
# Cleaning an item again

The passes that make a text clean come in a fixed order, and a later pass may leave work for an
earlier one. `clean_eq_self_iff` says which texts cleaning leaves as they are: composed ones without
blanks or quotes at their ends. That such a text is composed is seen by counting. What cleaning
removes is of kinds that composing neither makes nor loses, so a text that is the same in the end
lost nothing on the way.

A clean text is all of this but for two things. Removing characters or putting letters into lower
case may bring together what composing joins, and removing quotes may bring forth a blank with
quotes behind it. It is clean for good if neither is the case (`clean_clean`). A text with nothing to
remove from its inside and no letter to change is clean when its composed form is unwrapped, and
what is unwrapped stays composed (`clean_eq_unwrap`, `compose_unwrap`).
-/

namespace TopPatterns.Dataset

open Text (Bare NoCapital compose inSet isBlank trim trimOf)

/-- The characters that are not kept. -/
def hidden : Nat := Text.others ^^^ Text.pointSet ['\t'.toNat]

/-- The set of the quotes. -/
def quotes : Nat := Text.pointSet ['"'.toNat, '\''.toNat]

/-- Composing keeps what cleaning looks at: what it removes, what is not kept, and the quotes. -/
theorem inherited_kinds : ∀ set ∈ [removable, hidden, quotes], Text.isInherited set = true := by
  simp only [Text.isInherited_eq]
  decide +kernel

/-- A text that is the same after it was composed and freed of what is removable lost nothing on the
way. -/
theorem compose_eq_self_of_unwrap {cs : List Char}
    (h : unwrap ((compose cs).filter isKept) = cs) : compose cs = cs := by
  have hsub : cs.Sublist (compose cs) := by
    have hunwrap := (unwrap_sublist _).trans (List.filter_sublist (p := isKept) (l := compose cs))
    rwa [h] at hunwrap
  have hremoved : (cs.filter (inSet removable)).length =
      ((compose cs).filter (inSet removable)).length := by
    rw [← List.countP_eq_length_filter, ← List.countP_eq_length_filter,
      Text.countP_compose (inherited_kinds removable (by simp))]
  have hrest : cs.filter (fun c => !inSet removable c) =
      (compose cs).filter fun c => !inSet removable c := by
    rw [← filter_unwrap_filter (compose cs), h]
  refine (hsub.eq_of_length ?_).symm
  rw [List.length_eq_length_filter_add (inSet removable), hremoved, hrest,
    ← List.length_eq_length_filter_add]

/-! ## Clean texts -/

/-- Whether each pass of cleaning leaves a text as it is. -/
structure IsClean (lowercase : Bool) (cs : List Char) : Prop where
  composed : compose cs = cs
  kept : ∀ c ∈ cs, isKept c = true
  no_blank : Bare isBlank cs
  no_quote : Bare isQuote cs
  no_capital : lowercase = true → NoCapital cs

theorem unwrap_eq_self_iff {cs : List Char} :
    unwrap cs = cs ↔ Bare isBlank cs ∧ Bare isQuote cs := by
  constructor
  · intro h
    have hblank : Bare isBlank cs := h ▸ Text.bare_trimOf isBlank _
    rw [unwrap, trim, trim, Text.trimOf_eq_self_iff.2 hblank] at h
    have hquote : trimOf isQuote cs = cs := by
      refine (Text.trimOf_isInfix cs).sublist.eq_of_length_le ?_
      have hle : (trimOf isBlank (trimOf isQuote cs)).length ≤ (trimOf isQuote cs).length :=
        (Text.trimOf_isInfix _).length_le
      rwa [h] at hle
    exact ⟨hblank, Text.trimOf_eq_self_iff.1 hquote⟩
  · intro h
    rw [unwrap, trim, trim, Text.trimOf_eq_self_iff.2 h.1, Text.trimOf_eq_self_iff.2 h.2,
      Text.trimOf_eq_self_iff.2 h.1]

/-- A text that cleaning with lower case leaves as it is has no letter that lower case changes, so
the pass before has left it too. -/
theorem unwrap_of_clean_eq_self {lowercase : Bool} {cs : List Char} (h : clean lowercase cs = cs) :
    unwrap ((compose cs).filter isKept) = cs ∧ (lowercase = true → NoCapital cs) := by
  rw [clean] at h
  split at h
  · have hcapital : NoCapital cs := h ▸ Text.noCapital_lower _
    have hcomposed : NoCapital (compose cs) := Text.noCapital_compose hcapital
    have hunwrapped : NoCapital (unwrap ((compose cs).filter isKept)) := fun c hc =>
      hcomposed c (List.mem_filter.1 ((unwrap_sublist _).subset hc)).1
    rw [Text.lower_eq_self hunwrapped] at h
    exact ⟨h, fun _ => hcapital⟩
  · next hlower => exact ⟨h, fun hc => absurd hc hlower⟩

theorem clean_eq_self_iff {lowercase : Bool} {cs : List Char} :
    clean lowercase cs = cs ↔ IsClean lowercase cs := by
  constructor
  · intro h
    obtain ⟨hunwrap, hcapital⟩ := unwrap_of_clean_eq_self h
    have hcomposed := compose_eq_self_of_unwrap hunwrap
    rw [hcomposed] at hunwrap
    have hkept : ∀ c ∈ cs, isKept c = true := fun c hc => by
      have hc : c ∈ unwrap (cs.filter isKept) := hunwrap.symm ▸ hc
      exact (List.mem_filter.1 ((unwrap_sublist _).subset hc)).2
    rw [List.filter_eq_self.2 hkept] at hunwrap
    obtain ⟨hblank, hquote⟩ := unwrap_eq_self_iff.1 hunwrap
    exact ⟨hcomposed, hkept, hblank, hquote, hcapital⟩
  · intro h
    rw [clean, h.composed, List.filter_eq_self.2 h.kept,
      unwrap_eq_self_iff.2 ⟨h.no_blank, h.no_quote⟩]
    split
    · next hlower => exact Text.lower_eq_self (h.no_capital hlower)
    · rfl

/-! ## Clean for good -/

/-- A lowercase form of a kept character is kept. -/
theorem isKept_of_mem_lowerForms {x c : Char} (h : x ∈ Text.lowerForms c)
    (hc : isKept c = true) : isKept x = true := by
  rcases (Text.of_mem_lowerForms h).2 with rfl | hx
  · exact hc
  · rw [isKept, hx, Bool.not_false, Bool.or_true]

theorem isKept_of_mem_clean {lowercase : Bool} {cs : List Char} :
    ∀ c ∈ clean lowercase cs, isKept c = true := by
  have hunwrap : ∀ c ∈ unwrap ((compose cs).filter isKept), isKept c = true := fun c hc =>
    (List.mem_filter.1 ((unwrap_sublist _).subset hc)).2
  rw [clean]
  split
  · intro x hx
    obtain ⟨c, hc, hform⟩ := Text.mem_lowerAfter hx
    exact isKept_of_mem_lowerForms hform (hunwrap c hc)
  · exact hunwrap

theorem noCapital_clean (cs : List Char) : NoCapital (clean true cs) := by
  rw [clean, if_pos rfl]
  exact Text.noCapital_lower _

/-! ### Composed texts -/

theorem inSet_hidden (c : Char) : inSet hidden c = !isKept c := by
  have htab : inSet Text.others '\t' = true :=
    (Text.testBit_codeSet _ _).2 ⟨_, List.mem_cons_self .., by decide, by decide⟩
  have hpoint : (Text.pointSet ['\t'.toNat]).testBit c.toNat = decide (c = '\t') := by
    rw [Bool.eq_iff_iff, Text.testBit_pointSet, List.mem_singleton, Char.toNat_inj,
      decide_eq_true_iff]
  rw [isKept, Text.isOther_eq, inSet, hidden, Nat.testBit_xor, hpoint, ← inSet]
  by_cases hc : c = '\t'
  · rw [hc, htab]
    rfl
  · rw [decide_eq_false hc, Bool.xor_false, Bool.false_or, Bool.not_not]

/-- A text of kept characters is composed into kept characters. -/
theorem isKept_of_mem_compose {cs : List Char} (h : ∀ c ∈ cs, isKept c = true) :
    ∀ c ∈ compose cs, isKept c = true := by
  have hhidden : ∀ c ∈ cs, inSet hidden c = false := fun c hc => by
    rw [inSet_hidden, h c hc, Bool.not_true]
  intro c hc
  have hc := Text.not_inSet_compose (inherited_kinds hidden (by simp)) hhidden c hc
  rwa [inSet_hidden, Bool.not_eq_false'] at hc

/-- Composing treats a quote apart from what is around it, and a quote is the lowercase form of no
other character. -/
theorem inert_and_caseless_of_isQuote {c : Char} (h : isQuote c = true) :
    Text.Inert c ∧ Text.Caseless c := by
  have htable : (['"', '\''].all fun c => Text.isInert c &&
      (Text.caseRuns.all fun run => !run.reaches c.toNat) && decide (c ∉ Text.specialForms)) =
        true := by decide +kernel
  have hmem : c ∈ ['"', '\''] := by simpa [isQuote] using h
  have hc := List.all_eq_true.1 htable c hmem
  simp only [Bool.and_eq_true, List.all_eq_true, Bool.not_eq_true', decide_eq_true_iff] at hc
  obtain ⟨⟨hinert, hruns⟩, hspecial⟩ := hc
  exact ⟨Text.inert_of_isInert hinert, Text.caseless_of_not_reaches hruns hspecial⟩

theorem compose_unwrap {cs : List Char} (h : compose cs = cs) : compose (unwrap cs) = unwrap cs := by
  have hquote : ∀ c, isQuote c = true → ∃ b, Text.decomposeChar c = [b] ∧ Text.Inert b :=
    fun c hc =>
      have hinert := (inert_and_caseless_of_isQuote hc).1
      ⟨c, hinert.decomposeChar_eq, hinert⟩
  exact Text.compose_trim (Text.compose_trimOf hquote (Text.compose_trim h))

/-- Where no character is removed from between others and no letter changes, the clean text is the
composed one without the blanks and quotes around it. -/
theorem clean_eq_unwrap {lowercase : Bool} {cs : List Char} (hkept : ∀ c ∈ cs, isKept c = true)
    (hcapital : lowercase = true → NoCapital cs) : clean lowercase cs = unwrap (compose cs) := by
  rw [clean, List.filter_eq_self.2 (isKept_of_mem_compose hkept)]
  split
  · next hlower =>
    exact Text.lower_eq_self fun c hc =>
      Text.noCapital_compose (hcapital hlower) c ((unwrap_sublist _).subset hc)
  · rfl

theorem compose_clean {lowercase : Bool} {cs : List Char} (hkept : ∀ c ∈ cs, isKept c = true)
    (hcapital : lowercase = true → NoCapital cs) :
    compose (clean lowercase cs) = clean lowercase cs := by
  rw [clean_eq_unwrap hkept hcapital]
  exact compose_unwrap (Text.compose_compose cs)

/-! ### Texts without quotes -/

theorem inSet_quotes (c : Char) : inSet quotes c = isQuote c := by
  rw [Bool.eq_iff_iff, inSet, quotes, Text.testBit_pointSet, isQuote, Bool.or_eq_true,
    decide_eq_true_iff, decide_eq_true_iff, List.mem_cons, List.mem_singleton, Char.toNat_inj,
    Char.toNat_inj]

/-- No pass of cleaning writes a quote. -/
theorem isQuote_of_mem_clean {lowercase : Bool} {cs : List Char}
    (h : ∀ c ∈ cs, isQuote c = false) : ∀ c ∈ clean lowercase cs, isQuote c = false := by
  have hcomposed : ∀ c ∈ compose cs, isQuote c = false := fun c hc => by
    rw [← inSet_quotes]
    exact Text.not_inSet_compose (inherited_kinds quotes (by simp))
      (fun d hd => (inSet_quotes d).trans (h d hd)) c hc
  have hunwrapped : ∀ c ∈ unwrap ((compose cs).filter isKept), isQuote c = false := fun c hc =>
    hcomposed c (List.mem_filter.1 ((unwrap_sublist _).subset hc)).1
  intro c hc
  rw [clean] at hc
  split at hc
  · rw [Bool.eq_false_iff]
    intro hquote
    have hbefore := hunwrapped c (Text.mem_of_mem_lower (inert_and_caseless_of_isQuote hquote).2 hc)
    rw [hquote] at hbefore
    cases hbefore
  · exact hunwrapped c hc

/-! ### Cleaning again -/

/-- **Cleaning again changes nothing** just if the clean text is composed and has no quotes at its
ends: all the other passes have nothing left to do. It is composed if there are no characters to
remove from the text and no letters to put into lower case, and no quotes are at its ends if there
are none in the text. -/
theorem clean_clean (lowercase : Bool) (cs : List Char) :
    (clean lowercase (clean lowercase cs) = clean lowercase cs ↔
      compose (clean lowercase cs) = clean lowercase cs ∧ Bare isQuote (clean lowercase cs)) ∧
    ((∀ c ∈ cs, isKept c = true) → (lowercase = true → NoCapital cs) →
      compose (clean lowercase cs) = clean lowercase cs) ∧
    ((∀ c ∈ cs, isQuote c = false) → Bare isQuote (clean lowercase cs)) := by
  refine ⟨?_, compose_clean, fun hquote => ?_⟩
  · rw [clean_eq_self_iff]
    constructor
    · intro h
      exact ⟨h.composed, h.no_quote⟩
    · intro h
      refine ⟨h.1, isKept_of_mem_clean, bare_clean lowercase cs, h.2, ?_⟩
      rintro rfl
      exact noCapital_clean cs
  · have hnone : ∀ c ∈ clean lowercase cs, isQuote c = false := isQuote_of_mem_clean hquote
    exact ⟨fun c hc => hnone c (List.mem_of_mem_head? hc),
      fun c hc => hnone c (List.mem_of_mem_getLast? hc)⟩

/-- An accent that is composed, blanks around the word and a tab in it: one cleaning is enough. -/
theorem clean_clean_accented :
    let cs := " cafe\u0301\tau lait ".toList
    ((∀ c ∈ cs, isKept c = true) ∧ NoCapital cs ∧ ∀ c ∈ cs, isQuote c = false) ∧
      clean true (clean true cs) = clean true cs := by
  intro cs
  have hplain : (cs.all fun c => isKept c && !inSet Text.capitals c && !isQuote c) = true := by
    decide +kernel
  have hchars : ∀ c ∈ cs,
      (isKept c = true ∧ inSet Text.capitals c = false) ∧ isQuote c = false := fun c hc => by
    simpa only [Bool.and_eq_true, Bool.not_eq_true'] using List.all_eq_true.1 hplain c hc
  have hkept : ∀ c ∈ cs, isKept c = true := fun c hc => (hchars c hc).1.1
  have hcapital : NoCapital cs := fun c hc => (hchars c hc).1.2
  have hquote : ∀ c ∈ cs, isQuote c = false := fun c hc => (hchars c hc).2
  obtain ⟨hiff, hcomposed, hbare⟩ := clean_clean true cs
  exact ⟨⟨hkept, hcapital, hquote⟩, hiff.2 ⟨hcomposed hkept fun _ => hcapital, hbare hquote⟩⟩

/-- Quotes inside quotes with a blank between them: each cleaning takes one pair away. -/
theorem not_clean_clean :
    ¬∀ lowercase cs, clean lowercase (clean lowercase cs) = clean lowercase cs := by
  intro h
  have heq := h false "\" \"a\" \"".toList
  revert heq
  decide +kernel

end TopPatterns.Dataset

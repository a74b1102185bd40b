import TopPatterns.Proofs.Text.Inherited
import TopPatterns.Proofs.Text.Lowercase
import TopPatterns.Text.Other

/-!
# Letters that lower case changes

A text without capitals is its own lowercase form (`lower_eq_self`). No form of a letter is a
capital (`of_mem_lowerForms`), so putting a text into lower case a second time changes nothing
(`lower_lower`). Composing a text without capitals writes no capital (`noCapital_compose`).
-/

namespace TopPatterns.Text

/-- The letters that lower case changes. -/
def capitals : Nat :=
  pointSet ['Σ'.toNat, '\u0130'.toNat] ||| unionSet (caseRuns.map fun run => pointSet run.letters)

/-- Whether a text has no letter that lower case changes. -/
def NoCapital (cs : List Char) : Prop := ∀ c ∈ cs, inSet capitals c = false

theorem isInherited_capitals : isInherited capitals = true := by
  rw [isInherited_eq]
  decide +kernel

theorem noCapital_compose {cs : List Char} (h : NoCapital cs) : NoCapital (compose cs) :=
  not_inSet_compose isInherited_capitals h

/-! ## Characters that carry no text -/

/-- The characters that carry no text. -/
def others : Nat := codeSet otherRanges

theorem isOther_eq (c : Char) : isOther c = inSet others c := by
  have hchain : (otherRanges.map Prod.fst).IsChain (· ≤ ·) := by decide +kernel
  exact covers_eq_testBit (List.pairwise_map.1 hchain.pairwise) c.toNat

/-! ## Forms -/

theorem inSet_capitals_iff {c : Char} :
    inSet capitals c = true ↔
      (c = 'Σ' ∨ c = '\u0130') ∨ ∃ run ∈ caseRuns, c.toNat ∈ run.letters := by
  rw [inSet, capitals, Nat.testBit_or, Bool.or_eq_true, testBit_unionSet_map]
  simp only [testBit_pointSet, List.mem_cons, List.not_mem_nil, or_false, Char.toNat_inj]

theorem lowerChar_eq_self {c : Char} (h : inSet capitals c = false) : lowerChar c = [c] := by
  rw [Bool.eq_false_iff, Ne, inSet_capitals_iff, not_or, not_or] at h
  obtain ⟨⟨-, hdotted⟩, hruns⟩ := h
  rw [lowerChar, if_neg hdotted]
  rcases lowerFromRuns_cases caseRuns_ascending c.toNat with ⟨-, heq⟩ | ⟨run, hrun, hc, -⟩
  · rw [heq, Char.ofNat_toNat]
  · exact absurd ⟨run, hrun, hc⟩ hruns

/-- The code points that lower case may write for another one. -/
def writtenForms : List Nat :=
  ['ς', 'σ', 'i', '\u0307'].map Char.toNat ++
    caseRuns.flatMap fun run => run.letters.map run.form

/-- They are numbers of characters that are no capitals and that carry text. -/
theorem of_mem_writtenForms {n : Nat} (h : n ∈ writtenForms) :
    n.isValidChar ∧ capitals.testBit n = false ∧ others.testBit n = false := by
  have htable : (writtenForms.all fun n =>
      decide n.isValidChar && (!hasPoint capitals n && !hasPoint others n)) = true := by
    decide +kernel
  simpa only [hasPoint_eq, Bool.and_eq_true, decide_eq_true_iff, Bool.not_eq_true']
    using List.all_eq_true.1 htable n h

/-- A lowercase form is no capital, and it carries text unless it is the character itself. -/
theorem of_mem_lowerForms {x c : Char} (h : x ∈ lowerForms c) :
    inSet capitals x = false ∧ (x = c ∨ isOther x = false) := by
  have hspecial : ∀ x ∈ ['ς', 'σ', 'i', '\u0307'], inSet capitals x = false ∧ isOther x = false :=
    fun x hx => isOther_eq x ▸
      (of_mem_writtenForms (List.mem_append_left _ (List.mem_map_of_mem hx))).2
  rw [lowerForms] at h
  split at h
  · exact (hspecial x (List.Sublist.subset (by decide) h)).imp_right .inr
  · next hsigma =>
    rw [lowerChar] at h
    split at h
    · exact (hspecial x (List.Sublist.subset (by decide) h)).imp_right .inr
    · next hdotted =>
      obtain rfl := List.mem_singleton.1 h
      rcases lowerFromRuns_cases caseRuns_ascending c.toNat with ⟨hnone, heq⟩ | ⟨run, hrun, hc, heq⟩
      · rw [heq, Char.ofNat_toNat]
        refine ⟨?_, .inl rfl⟩
        rw [Bool.eq_false_iff, Ne, inSet_capitals_iff]
        rintro ((hc | hc) | ⟨run, hrun, hc⟩)
        · exact hsigma hc
        · exact hdotted hc
        · exact hnone run hrun hc
      · obtain ⟨hvalid, hcapital, hother⟩ := of_mem_writtenForms
          (List.mem_append_right _ (List.mem_flatMap.2 ⟨run, hrun, List.mem_map_of_mem hc⟩))
        rw [heq, isOther_eq, inSet, inSet, toNat_ofNat hvalid]
        exact ⟨hcapital, .inr hother⟩

/-! ## Texts -/

theorem lower_eq_self {cs : List Char} (h : NoCapital cs) : lower cs = cs := by
  have hsigma : 'Σ' ∉ cs := fun hmem => by
    have hcapital := inSet_capitals_iff.2 (.inl (.inl rfl : 'Σ' = 'Σ' ∨ _))
    rw [h _ hmem] at hcapital
    cases hcapital
  calc
    lower cs = cs.flatMap lowerChar := lowerAfter_of_not_sigma hsigma []
    _ = cs.flatMap fun c => [c] := List.flatMap_congr fun c hc => lowerChar_eq_self (h c hc)
    _ = cs := List.flatMap_singleton' cs

theorem noCapital_lower (cs : List Char) : NoCapital (lower cs) := by
  intro x hx
  obtain ⟨c, -, hform⟩ := mem_lowerAfter hx
  exact (of_mem_lowerForms hform).1

theorem lower_lower (cs : List Char) : lower (lower cs) = lower cs :=
  lower_eq_self (noCapital_lower cs)

end TopPatterns.Text

import Mathlib.Data.List.Basic
import Mathlib.Data.List.Chain
import TopPatterns.Proofs.Text.Composition

/-!
# Taking characters apart

A character that is taken apart is a syllable or in the tables (`of_partsOf?`). No part of what is
taken apart has parts of its own (`simple_of_mem_decomposeChar`): after the steps that are taken no
code point of the tables is left unfinished. A character that two others join to has the parts of
these two (`decomposeChar_of_compositeOf?`).
-/

namespace TopPatterns.Text

/-! ## The steps -/

/-- The code points that the tables take apart, with their parts. -/
def tableParts : List (Nat × List Nat) :=
  ((composites ++ decomposedOnly).map fun pair => (pair.1, [pair.2.1, pair.2.2])) ++
    duplicateRuns.flatMap fun run => (run.2.zipIdx run.1).map fun (target, n) => (n, [target])

theorem mem_of_pairFrom? {table : List (Nat × Nat × Nat)} {n a b : Nat}
    (h : pairFrom? table n = some (a, b)) : (n, a, b) ∈ table := by
  induction table with
  | nil => cases h
  | cons pair table ih =>
    obtain ⟨whole, first, second⟩ := pair
    rw [pairFrom?] at h
    split at h
    · cases h
    · split at h
      · next hwhole =>
        obtain ⟨rfl, rfl⟩ := Prod.mk.inj (Option.some.inj h)
        exact hwhole ▸ List.mem_cons_self ..
      · exact List.mem_cons_of_mem _ (ih h)

theorem mem_of_duplicateFrom? {table : List (Nat × List Nat)} {n target : Nat}
    (h : duplicateFrom? table n = some target) :
    ∃ run ∈ table, (target, n) ∈ run.2.zipIdx run.1 := by
  induction table with
  | nil => cases h
  | cons run table ih =>
    obtain ⟨start, targets⟩ := run
    rw [duplicateFrom?] at h
    split at h
    · cases h
    · next hstart =>
      split at h
      · next hget =>
        refine ⟨_, List.mem_cons_self .., ?_⟩
        rw [List.mk_mem_zipIdx_iff_le_and_getElem?_sub]
        exact ⟨Nat.not_lt.1 hstart, hget.trans h⟩
      · obtain ⟨run, hrun, hmem⟩ := ih h
        exact ⟨run, List.mem_cons_of_mem _ hrun, hmem⟩

/-- A code point that is taken apart is a syllable or in the tables. -/
theorem of_partsOf? {n : Nat} {parts : List Nat} (h : partsOf? n = some parts) :
    (0xAC00 ≤ n ∧ n ≤ 0xD7A3) ∧ (∀ part ∈ parts, 0x1100 ≤ part ∧ part ≤ 0x11C2) ∨
      (n, parts) ∈ tableParts := by
  rw [partsOf?] at h
  split at h
  · next hsyllable =>
    obtain rfl := Option.some.inj h
    rw [syllableParts?] at hsyllable
    split at hsyllable
    · refine .inl ⟨by omega, fun part hpart => ?_⟩
      obtain rfl := Option.some.inj hsyllable
      split at hpart <;> simp only [List.mem_cons, List.not_mem_nil, or_false] at hpart <;> omega
    · cases hsyllable
  · refine .inr (List.mem_append.2 ?_)
    split at h
    · next a b hpair =>
      obtain rfl := Option.some.inj h
      refine .inl (List.mem_map.2 ⟨(n, a, b), List.mem_append.2 ?_, rfl⟩)
      rw [Option.orElse_eq_orElse, Option.orElse_eq_or, Option.or_eq_some_iff] at hpair
      rcases hpair with hpair | ⟨-, hpair⟩
      · exact .inl (mem_of_pairFrom? hpair)
      · exact .inr (mem_of_pairFrom? hpair)
    · obtain ⟨target, htarget, rfl⟩ := Option.map_eq_some_iff.1 h
      obtain ⟨run, hrun, hmem⟩ := mem_of_duplicateFrom? htarget
      exact .inr (List.mem_flatMap.2 ⟨run, hrun, List.mem_map.2 ⟨_, hmem, rfl⟩⟩)

/-- The tables have numbers of characters only. -/
theorem isValidChar_of_mem_tableParts {step : Nat × List Nat} (h : step ∈ tableParts) :
    step.1.isValidChar ∧ ∀ part ∈ step.2, part.isValidChar := by
  have htable : (tableParts.all fun step =>
      decide (step.1.isValidChar ∧ ∀ part ∈ step.2, part.isValidChar)) = true := by decide +kernel
  exact of_decide_eq_true (List.all_eq_true.1 htable step h)

theorem isValidChar_of_mem_decomposeIn {steps n m : Nat} (hn : n.isValidChar)
    (hm : m ∈ decomposeIn steps n) : m.isValidChar := by
  induction steps generalizing n with
  | zero => exact List.mem_singleton.1 hm ▸ hn
  | succ steps ih =>
    rw [decomposeIn] at hm
    split at hm
    · exact List.mem_singleton.1 hm ▸ hn
    · next hparts =>
      obtain ⟨part, hpart, hm⟩ := List.mem_flatMap.1 hm
      refine ih ?_ hm
      rcases of_partsOf? hparts with ⟨-, hall⟩ | hstep
      · have hrange := hall part hpart
        exact .inl (by omega)
      · exact (isValidChar_of_mem_tableParts hstep).2 part hpart

/-! ## Taking apart to the end -/

/-- The code points that are taken apart: those in the tables, and the syllables. -/
def divisible : Nat := pointSet (tableParts.map Prod.fst) ||| codeSet [(0xAC00, 0xD7A3)]

/-- The code points that the tables have with a part in a set. -/
def withPartIn (set : Nat) : Nat :=
  pointSet ((tableParts.filter fun step => step.2.any set.testBit).map Prod.fst)

/-- The code points of which a part may be left to take apart after some steps. -/
def unfinished : Nat → Nat
  | 0 => divisible
  | steps + 1 => withPartIn (unfinished steps)

theorem withPartIn_eq (set : Nat) : withPartIn set =
    pointSet ((tableParts.filter fun step => step.2.any (hasPoint set)).map Prod.fst) := by
  rw [hasPoint_eq]
  rfl

theorem unfinished_decompositionSteps : unfinished decompositionSteps = 0 := by
  simp only [decompositionSteps, unfinished, withPartIn_eq]
  decide +kernel

/-- No letter of a syllable is taken apart. -/
theorem divisible_letter {n : Nat} (h : 0x1100 ≤ n ∧ n ≤ 0x11C2) : divisible.testBit n = false := by
  have hnone : divisible &&& codeSet [(0x1100, 0x11C2)] = 0 := by decide +kernel
  exact testBit_eq_false_of_apart hnone (by simpa using h)

theorem divisible_of_mem_tableParts {n : Nat} {parts : List Nat} (h : (n, parts) ∈ tableParts) :
    divisible.testBit n = true := by
  rw [divisible, Nat.testBit_or, Bool.or_eq_true, testBit_pointSet]
  exact .inl (List.mem_map_of_mem (f := Prod.fst) h)

theorem divisible_of_unfinished {steps n : Nat} (h : (unfinished steps).testBit n = true) :
    divisible.testBit n = true := by
  cases steps with
  | zero => exact h
  | succ steps =>
    rw [unfinished, withPartIn, testBit_pointSet] at h
    obtain ⟨⟨m, parts⟩, hstep, rfl⟩ := List.mem_map.1 h
    exact divisible_of_mem_tableParts (List.mem_filter.1 hstep).1

theorem partsOf?_eq_none {n : Nat} (h : divisible.testBit n = false) : partsOf? n = none := by
  rw [Option.eq_none_iff_forall_ne_some]
  intro parts hparts
  have hdivisible : divisible.testBit n = true := by
    rcases of_partsOf? hparts with ⟨hn, -⟩ | hstep
    · rw [divisible, Nat.testBit_or, Bool.or_eq_true, testBit_codeSet]
      exact .inr ⟨_, List.mem_cons_self .., hn⟩
    · exact divisible_of_mem_tableParts hstep
  rw [h] at hdivisible
  cases hdivisible

/-- A part of what is finished in one more step is finished. -/
theorem finished_part {steps n part : Nat} {parts : List Nat}
    (h : (unfinished (steps + 1)).testBit n = false) (hparts : partsOf? n = some parts)
    (hpart : part ∈ parts) : (unfinished steps).testBit part = false := by
  rw [Bool.eq_false_iff] at h ⊢
  intro hopen
  rcases of_partsOf? hparts with ⟨-, hletters⟩ | hstep
  · have hdivisible := divisible_of_unfinished hopen
    rw [divisible_letter (hletters part hpart)] at hdivisible
    cases hdivisible
  · refine h ?_
    rw [unfinished, withPartIn, testBit_pointSet]
    exact List.mem_map_of_mem (f := Prod.fst)
      (List.mem_filter.2 ⟨hstep, List.any_eq_true.2 ⟨part, hpart, hopen⟩⟩)

theorem partsOf?_of_mem_decomposeIn {steps n m : Nat}
    (h : (unfinished steps).testBit n = false) (hm : m ∈ decomposeIn steps n) :
    partsOf? m = none := by
  induction steps generalizing n with
  | zero => exact List.mem_singleton.1 hm ▸ partsOf?_eq_none h
  | succ steps ih =>
    rw [decomposeIn] at hm
    split at hm
    · next hnone => exact List.mem_singleton.1 hm ▸ hnone
    · next hparts =>
      obtain ⟨part, hpart, hm⟩ := List.mem_flatMap.1 hm
      exact ih (finished_part h hparts hpart) hm

theorem decomposeIn_of_none {n : Nat} (h : partsOf? n = none) (steps : Nat) :
    decomposeIn steps n = [n] := by
  cases steps with
  | zero => rfl
  | succ steps => rw [decomposeIn, h]

/-- One step more takes apart what is left. -/
theorem decomposeIn_succ (steps n : Nat) :
    decomposeIn (steps + 1) n = (decomposeIn steps n).flatMap (decomposeIn 1) := by
  induction steps generalizing n with
  | zero => exact (List.flatMap_singleton ..).symm
  | succ steps ih =>
    rw [decomposeIn.eq_2 n (steps + 1), decomposeIn.eq_2 n steps]
    cases hparts : partsOf? n with
    | none =>
      show [n] = [n].flatMap (decomposeIn 1)
      rw [List.flatMap_singleton, decomposeIn_of_none hparts]
    | some parts =>
      show parts.flatMap (decomposeIn (steps + 1)) = (parts.flatMap (decomposeIn steps)).flatMap _
      rw [List.flatMap_assoc, funext ih]

theorem decomposeIn_succ_of_finished {steps n : Nat}
    (h : (unfinished steps).testBit n = false) :
    decomposeIn (steps + 1) n = decomposeIn steps n := by
  calc
    decomposeIn (steps + 1) n = (decomposeIn steps n).flatMap (decomposeIn 1) := decomposeIn_succ ..
    _ = (decomposeIn steps n).flatMap fun m => [m] := List.flatMap_congr fun m hm =>
      decomposeIn_of_none (partsOf?_of_mem_decomposeIn h hm) 1
    _ = decomposeIn steps n := List.flatMap_singleton' _

/-- A character that is taken apart is so into its parts taken apart. -/
theorem decomposeIn_of_partsOf? {n : Nat} {parts : List Nat} (h : partsOf? n = some parts) :
    decomposeIn decompositionSteps n = parts.flatMap (decomposeIn decompositionSteps) := by
  have hn : (unfinished 3).testBit n = false := by
    rw [show unfinished 3 = 0 from unfinished_decompositionSteps, Nat.zero_testBit]
  rw [decompositionSteps, decomposeIn.eq_2, h]
  exact List.flatMap_congr fun part hpart =>
    (decomposeIn_succ_of_finished (finished_part hn h hpart)).symm

/-- Whether a character has no parts. -/
def Simple (c : Char) : Prop := decomposeChar c = [c]

theorem simple_of_mem_decomposeChar {c d : Char} (h : d ∈ decomposeChar c) : Simple d := by
  obtain ⟨m, hm, rfl⟩ := List.mem_map.1 h
  have hn : (unfinished decompositionSteps).testBit c.toNat = false := by
    rw [unfinished_decompositionSteps, Nat.zero_testBit]
  rw [Simple, decomposeChar, toNat_ofNat (isValidChar_of_mem_decomposeIn c.valid hm),
    decomposeIn_of_none (partsOf?_of_mem_decomposeIn hn hm)]
  rfl

theorem decomposeText_of_simple {cs : List Char} (h : ∀ c ∈ cs, Simple c) :
    decomposeText cs = cs :=
  (List.flatMap_congr h).trans (List.flatMap_singleton' cs)

theorem simple_of_mem_decomposeText {cs : List Char} {d : Char} (h : d ∈ decomposeText cs) :
    Simple d := by
  obtain ⟨c, -, hd⟩ := List.mem_flatMap.1 h
  exact simple_of_mem_decomposeChar hd

/-! ## Joined characters taken apart -/

theorem pairFrom?_of_mem {table : List (Nat × Nat × Nat)}
    (h : table.Pairwise fun pair later => pair.1 < later.1) {n a b : Nat}
    (hmem : (n, a, b) ∈ table) : pairFrom? table n = some (a, b) := by
  induction table with
  | nil => cases hmem
  | cons pair table ih =>
    obtain ⟨whole, first, second⟩ := pair
    obtain ⟨hlater, htable⟩ := List.pairwise_cons.1 h
    rw [pairFrom?]
    rcases List.mem_cons.1 hmem with heq | hmem
    · obtain ⟨rfl, rfl, rfl⟩ : n = whole ∧ a = first ∧ b = second := by simpa using heq
      rw [if_neg (Nat.lt_irrefl n), if_pos rfl]
    · have hlt := hlater _ hmem
      rw [if_neg (by omega), if_neg (by omega), ih htable hmem]

theorem partsOf?_of_mem_composites {n a b : Nat} (h : (n, a, b) ∈ composites) :
    partsOf? n = some [a, b] := by
  have hascending : composites.Pairwise fun pair later => pair.1 < later.1 := by
    have hchain : (composites.map Prod.fst).IsChain (· < ·) := by decide +kernel
    exact List.pairwise_map.1 hchain.pairwise
  have hapart : (composites.all fun pair => decide (pair.1 < 0xAC00 ∨ 0xD7A3 < pair.1)) = true := by
    decide +kernel
  have hn := of_decide_eq_true (List.all_eq_true.1 hapart _ h)
  have hsyllable : syllableParts? n = none := if_neg (by omega)
  rw [partsOf?, hsyllable, pairFrom?_of_mem hascending h]
  rfl

/-- The syllable with the letters of some indices; the trailing index is zero for no consonant. -/
def syllableAt (leading vowel trailing : Nat) : Nat :=
  0xAC00 + (leading * 21 + vowel) * 28 + trailing

theorem partsOf?_syllableAt {leading vowel trailing : Nat} (hleading : leading < 19)
    (hvowel : vowel < 21) (htrailing : trailing < 28) :
    partsOf? (syllableAt leading vowel trailing) =
      some (if trailing = 0 then [0x1100 + leading, 0x1161 + vowel]
        else [0x1100 + leading, 0x1161 + vowel, 0x11A7 + trailing]) := by
  have hindex : syllableAt leading vowel trailing - 0xAC00 =
      (leading * 21 + vowel) * 28 + trailing := by
    rw [syllableAt]
    omega
  have hfirst : ((leading * 21 + vowel) * 28 + trailing) / 588 = leading := by omega
  have hsecond : ((leading * 21 + vowel) * 28 + trailing) % 588 / 28 = vowel := by omega
  have hthird : ((leading * 21 + vowel) * 28 + trailing) % 28 = trailing := by omega
  have hrange : 0xAC00 ≤ syllableAt leading vowel trailing ∧
      syllableAt leading vowel trailing < 0xAC00 + 11172 := by
    rw [syllableAt]
    omega
  rw [partsOf?, syllableParts?, if_pos hrange]
  dsimp only
  rw [hindex, hfirst, hsecond, hthird]

/-- Two letters join to a syllable, or a syllable of two letters joins with a third one. -/
theorem syllableOf?_cases {a b n : Nat} (h : syllableOf? a b = some n) :
    ∃ leading < 19, ∃ vowel < 21,
      (a = 0x1100 + leading ∧ b = 0x1161 + vowel ∧ n = syllableAt leading vowel 0) ∨
        ∃ trailing < 28, 0 < trailing ∧ a = syllableAt leading vowel 0 ∧ b = 0x11A7 + trailing ∧
          n = syllableAt leading vowel trailing := by
  rw [syllableOf?] at h
  simp only [syllableAt]
  split at h
  · obtain rfl := Option.some.inj h
    exact ⟨a - 0x1100, by omega, b - 0x1161, by omega, .inl (by omega)⟩
  · split at h
    · obtain rfl := Option.some.inj h
      exact ⟨(a - 0xAC00) / 588, by omega, (a - 0xAC00) % 588 / 28, by omega,
        .inr ⟨b - 0x11A7, by omega, by omega, by omega, by omega, by omega⟩⟩
    · cases h

theorem mem_tableParts_of_mem_composites {n a b : Nat} (h : (n, a, b) ∈ composites) :
    (n, [a, b]) ∈ tableParts :=
  List.mem_append_left _ (List.mem_map.2 ⟨_, List.mem_append_left _ h, rfl⟩)

/-- The number of what is joined is that of a character. -/
theorem isValidChar_of_joined {n a b : Nat}
    (h : syllableOf? a b = some n ∨ (n, a, b) ∈ composites) : n.isValidChar := by
  rcases h with hsyllable | hpair
  · have hn := (of_syllableOf? hsyllable).2.2
    exact .inl (by omega)
  · exact (isValidChar_of_mem_tableParts (mem_tableParts_of_mem_composites hpair)).1

theorem decomposeIn_of_pair {a b n : Nat} (h : partsOf? n = some [a, b]) :
    decomposeIn decompositionSteps n =
      decomposeIn decompositionSteps a ++ decomposeIn decompositionSteps b := by
  rw [decomposeIn_of_partsOf? h, List.flatMap_cons, List.flatMap_singleton]

theorem decomposeIn_of_syllableOf? {a b n : Nat} (h : syllableOf? a b = some n) :
    decomposeIn decompositionSteps n =
      decomposeIn decompositionSteps a ++ decomposeIn decompositionSteps b := by
  obtain ⟨leading, hleading, vowel, hvowel, hcases⟩ := syllableOf?_cases h
  have hopen := partsOf?_syllableAt hleading hvowel (Nat.zero_lt_succ 27)
  rcases hcases with ⟨rfl, rfl, rfl⟩ | ⟨trailing, htrailing, hpos, rfl, rfl, rfl⟩
  · exact decomposeIn_of_pair hopen
  · have hclosed := partsOf?_syllableAt hleading hvowel htrailing
    rw [if_neg (Nat.ne_of_gt hpos)] at hclosed
    rw [decomposeIn_of_pair hopen, decomposeIn_of_partsOf? hclosed]
    simp only [List.flatMap_cons, List.flatMap_nil, List.append_nil, List.append_assoc]

/-- What is joined has the parts of the two that were joined. -/
theorem decomposeChar_of_compositeOf? {a b whole : Char} (h : compositeOf? a b = some whole) :
    decomposeChar whole = decomposeChar a ++ decomposeChar b := by
  obtain ⟨n, rfl, hjoined⟩ := of_compositeOf? h
  have hnumbers : decomposeIn decompositionSteps n =
      decomposeIn decompositionSteps a.toNat ++ decomposeIn decompositionSteps b.toNat := by
    rcases hjoined with hsyllable | hpair
    · exact decomposeIn_of_syllableOf? hsyllable
    · exact decomposeIn_of_pair (partsOf?_of_mem_composites hpair)
  rw [decomposeChar, toNat_ofNat (isValidChar_of_joined hjoined), hnumbers, List.map_append]
  rfl

/-! ## Characters that start anew -/

/-- Whether the tables do not take a character apart and have it neither as a mark nor as the second
of a pair. -/
def isBase (c : Char) : Bool :=
  !divisible.testBit c.toNat && decide (combiningClass c = 0) && !mayJoin c

theorem base_of_isBase {c : Char} (h : isBase c = true) : Base c := by
  simp only [isBase, Bool.and_eq_true, decide_eq_true_iff, Bool.not_eq_true'] at h
  obtain ⟨⟨hparts, hclass⟩, hsecond⟩ := h
  refine ⟨?_, hclass, hsecond⟩
  rw [decomposeChar, decomposeIn_of_none (partsOf?_eq_none hparts), List.map_singleton,
    Char.ofNat_toNat]

/-- Whether the tables do not have such a character as the first of a pair either. -/
def isInert (c : Char) : Bool :=
  isBase c && !firsts.testBit c.toNat && !covers [(0x1100, 0x1112), (0xAC00, 0xD7A3)] c.toNat

theorem inert_of_isInert {c : Char} (h : isInert c = true) : Inert c := by
  simp only [isInert, Bool.and_eq_true, Bool.not_eq_true'] at h
  obtain ⟨⟨hbase, hfirst⟩, hsyllable⟩ := h
  refine ⟨base_of_isBase hbase, fun d => ?_⟩
  rw [Option.eq_none_iff_forall_ne_some]
  intro whole hwhole
  obtain ⟨n, -, hpart | hpair⟩ := of_compositeOf? hwhole
  · have hrange := (of_syllableOf? hpart).1
    simp only [covers_cons, covers_nil] at hsyllable
    split at hsyllable <;> simp at hsyllable <;> omega
  · have hmem : firsts.testBit c.toNat = true :=
      (testBit_pointSet _ _).2 (List.mem_map_of_mem (f := fun pair => pair.2.1) hpair)
    rw [hfirst] at hmem
    cases hmem

end TopPatterns.Text

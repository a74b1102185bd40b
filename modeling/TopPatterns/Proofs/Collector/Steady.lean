import TopPatterns.Proofs.Collector.Merge
import TopPatterns.Proofs.Selection.Single

/-!
# Steady changes of a collector

A change is steady if the collector has no fewer patterns after it and, if it was full, is still
full and has no lower least support. A test of capacity always is. An insertion need not be, for a
pattern may take the place of several.

`testSteadily` and `insertSteadily` do what a test and an insertion do, but fail where the change is
not steady, and the insertion also where more than one pattern gives way. `mergeAllSteadily` and
`absorbSteadily` are a merge and the fan-in of a part, made of these. Where each pattern takes the
place of one at most, all four come to what they are made after (`mergeAllSteadily_eq`,
`absorbSteadily_eq`).
-/

namespace TopPatterns

namespace Collector

/-- How many retained patterns a pattern takes the place of if it is inserted. -/
def replacements (c : Collector) (p : Pattern) : Nat :=
  if c.subsumes && (c.offer p).isSome then
    c.retained.countP fun q => decide (q.support = p.support) && q.isSubPatternOf p
  else 0

/-- What a collector becomes has no fewer patterns. If the collector is full, it is full as well,
and its least support is no lower. -/
def Steady (c c' : Collector) : Prop :=
  c.count ≤ c'.count ∧
    (c.isFull = true → c'.isFull = true ∧ c.leastSupport ≤ c'.leastSupport)

instance (c c' : Collector) : Decidable (c.Steady c') := inferInstanceAs (Decidable (_ ∧ _))

/-- If single changes are steady, so is what they lead to in the end. -/
theorem Steady.trans {c d e : Collector} (h : c.Steady d) (h' : d.Steady e) : c.Steady e := by
  refine ⟨Nat.le_trans h.1 h'.1, fun hfull => ?_⟩
  obtain ⟨hfull', hle⟩ := h.2 hfull
  obtain ⟨hfull'', hle'⟩ := h'.2 hfull'
  exact ⟨hfull'', Nat.le_trans hle hle'⟩

/-- A change of a collector, which fails if it is not steady. -/
def changeSteadily (failure : MiningError) (c c' : Collector) : Except MiningError Collector :=
  if c.Steady c' then .ok c' else .error failure

/-- A test of capacity, which fails if it is not steady. -/
def testSteadily (failure : MiningError) (c : Collector) : Except MiningError Collector :=
  c.changeSteadily failure c.tested

/-- Inserts a pattern, and fails if it takes the place of more than one or if that is not steady. -/
def insertSteadily (failure : MiningError) (c : Collector) (p : Pattern) :
    Except MiningError Collector :=
  if c.replacements p ≤ 1 then c.changeSteadily failure (c.insert p) else .error failure

/-- Folds one pattern of another collector in, step by steady step. -/
def mergeStepSteadily (failure : MiningError) (item : Item) (support : Int) (c : Collector)
    (p : Pattern) : Except MiningError Collector := do
  let capped := min support p.support
  let tested ← c.testSteadily failure
  if c.admits capped then do
    let q ← p.extend item capped
    tested.insertSteadily failure q
  else .ok tested

/-- Folds all patterns of another collector in, step by steady step. -/
def mergeAllSteadily (failure : MiningError) (c child : Collector) (item : Item) (support : Int) :
    Except MiningError Collector :=
  child.ranked.foldlM (mergeStepSteadily failure item support) c

/-- Brings one pattern of a group into a collector, step by steady step. -/
def absorbStepSteadily (failure : MiningError) (c : Collector) (p : Pattern) :
    Except MiningError Collector := do
  let tested ← c.testSteadily failure
  if c.admits p.support then tested.insertSteadily failure p else .ok tested

/-- Brings the patterns of a group into a collector, step by steady step. -/
def absorbSteadily (failure : MiningError) (c part : Collector) : Except MiningError Collector :=
  part.ranked.foldlM (absorbStepSteadily failure) c

variable {failure : MiningError} {c : Collector} {p : Pattern} {item : Item} {support : Int}

/-! ## Single steps -/

/-- Whether a change is steady can be told from the plain lists. -/
theorem steady_of_shelf {c' : Collector} (h : c.Valid) (h' : c'.Valid)
    (hcount : c.shelf.count ≤ c'.shelf.count)
    (hfull : c.shelf.isFull = true →
      c'.shelf.isFull = true ∧ c.shelf.leastSupport ≤ c'.shelf.leastSupport) : c.Steady c' := by
  rw [count_shelf, count_shelf] at hcount
  rw [isFull_shelf, isFull_shelf, leastSupport_shelf h.toHeaped, leastSupport_shelf h'.toHeaped]
    at hfull
  exact ⟨hcount, hfull⟩

theorem changeSteadily_eq {c' : Collector} (h : c.Steady c') :
    c.changeSteadily failure c' = .ok c' := if_pos h

/-- A test of capacity is steady. -/
theorem testSteadily_eq (h : c.Valid) : c.testSteadily failure = .ok c.tested := by
  refine changeSteadily_eq (steady_of_shelf h (tested_valid h) ?_ fun hfull => ?_)
  · rw [shelf_tested]
  · rw [shelf_tested]
    exact ⟨hfull, Nat.le_refl _⟩

theorem replacements_le_one (h : c.Valid) (hsingle : c.shelf.Single p) :
    c.replacements p ≤ 1 := by
  unfold replacements
  split
  · next hadmitted =>
    obtain ⟨hsubsumes, hsome⟩ := Bool.and_eq_true_iff.1 hadmitted
    have hoffer : c.shelf.offer p ≠ none := by
      rw [← offer_shelf h, Ne, Option.map_eq_none_iff]
      exact Option.ne_none_iff_isSome.2 hsome
    have hreplaced := hsingle hoffer
    rwa [Shelf.replacedBy, subsumes_shelf, if_pos hsubsumes] at hreplaced
  · exact Nat.zero_le 1

/-- An insertion that takes the place of one pattern at most is steady. -/
theorem insertSteadily_eq (h : c.Valid) (hsingle : c.shelf.Single p) :
    c.insertSteadily failure p = .ok (c.insert p) := by
  rw [insertSteadily, if_pos (replacements_le_one h hsingle)]
  refine changeSteadily_eq (steady_of_shelf h (insert_valid h p) ?_ fun hfull => ?_)
  · rw [insert_shelf h]
    exact hsingle.count_le
  · rw [insert_shelf h]
    exact ⟨hsingle.isFull hfull, Shelf.leastSupport_le_insert c.capacity_pos hfull p⟩

/-- A pattern may take the place of two, and then there are fewer patterns. -/
example :
    let c := (empty 3 true (by decide)).insertAll [⟨[.number 2], 5⟩, ⟨[.number 3], 5⟩]
    c.replacements ⟨[.number 3, .number 2], 5⟩ = 2 ∧
      (c.insert ⟨[.number 3, .number 2], 5⟩).count = 1 := by
  decide +kernel

/-! ## Merges and fan-in -/

theorem mergeStepSteadily_eq (h : c.Valid) (hs : 0 ≤ support)
    (hsingle : c.shelf.Single (p.extended item support)) :
    mergeStepSteadily failure item support c p = .ok (c.insert (p.extended item support)) := by
  have hne := p.extended_items_ne_nil item support
  have hcapped := Pattern.support_extended hs item p
  have hextend := Pattern.extend_of_nonneg hs item p
  rw [← hcapped] at hextend
  simp only [mergeStepSteadily, testSteadily_eq h, ← hcapped, hextend]
  show (if c.admits (p.extended item support).support then
    c.tested.insertSteadily failure (p.extended item support) else .ok c.tested) = _
  split
  · rw [insertSteadily_eq (tested_valid h) (by rwa [shelf_tested]), insert_tested h hne]
  · next hadmits =>
    rw [insert_of_not_admits h hne (by simpa using hadmits)]

/-- **A merge.** It is steady throughout if each pattern takes the place of one at most. -/
theorem mergeAllSteadily_eq (failure : MiningError) (h : c.Valid) (child : Collector)
    (item : Item) (hs : 0 ≤ support)
    (hsingles : c.shelf.Singles (child.ranked.map (Pattern.extended item support))) :
    c.mergeAllSteadily failure child item support =
      .ok (c.insertAll (child.ranked.map (Pattern.extended item support))) := by
  unfold mergeAllSteadily
  generalize child.ranked = ps at hsingles ⊢
  induction ps generalizing c with
  | nil => rfl
  | cons p ps ih =>
    obtain ⟨hsingle, hrest⟩ := hsingles
    rw [← insert_shelf h] at hrest
    rw [List.foldlM_cons, mergeStepSteadily_eq h hs hsingle]
    exact ih (insert_valid h _) hrest

theorem absorbStepSteadily_eq (h : c.Valid) (hsingle : c.shelf.Single p) :
    absorbStepSteadily failure c p =
      .ok (if c.admits p.support then c.tested.insert p else c.tested) := by
  unfold absorbStepSteadily
  rw [testSteadily_eq h]
  show (if c.admits p.support then c.tested.insertSteadily failure p else .ok c.tested) = _
  split
  · exact insertSteadily_eq (tested_valid h) (by rwa [shelf_tested])
  · rfl

/-- **Fan-in.** It is steady throughout if each pattern takes the place of one at most. -/
theorem absorbSteadily_eq (h : c.Valid) (part : Collector)
    (hsingles : c.shelf.Singles part.ranked) :
    c.absorbSteadily failure part = .ok (c.absorb part) := by
  unfold absorbSteadily absorb
  generalize part.ranked = ps at hsingles ⊢
  induction ps generalizing c with
  | nil => rfl
  | cons p ps ih =>
    obtain ⟨hsingle, hrest⟩ := hsingles
    obtain ⟨hvalid, hshelf⟩ := absorbStep_shelf h p
    rw [List.foldlM_cons, absorbStepSteadily_eq h hsingle]
    exact ih hvalid (hshelf ▸ hrest)

end Collector

end TopPatterns

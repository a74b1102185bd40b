import TopPatterns.Proofs.Collector.Calls

/-!
# What calls lead to

`Collector.after` is the family that calls leave behind, whatever their order. Its members are
valid, and what holds of the plain lists of a family and is kept by every insertion holds of the
plain lists of all families reached from it (`after_preserves`). A merge is no exception: each of
its steps inserts a pattern or changes nothing.
-/

namespace TopPatterns

variable {ι : Type} [DecidableEq ι]

namespace Shelf

variable {s child : Shelf} {item : Item} {support : Int}

/-- A step of a merge that succeeds inserts a pattern or changes nothing. -/
theorem mergeStep_eq_or {state next : Nat × Shelf} {p : Pattern}
    (h : mergeStep item support state p = .ok next) :
    next.2 = state.2 ∨ ∃ q, next.2 = state.2.insert q := by
  rw [mergeStep] at h
  split at h
  · cases hq : p.extend item (min support p.support) with
    | error e =>
      rw [hq] at h
      cases h
    | ok q =>
      rw [hq] at h
      obtain rfl := Except.ok.inj h
      refine Or.inr ⟨q, ?_⟩
      dsimp only
      rw [insert]
      cases state.2.offer q with
      | none => rfl
      | some s => rfl
  · obtain rfl := Except.ok.inj h
    exact Or.inl rfl

/-- What every insertion keeps, a merge keeps. -/
theorem mergeAll_preserves {P : Shelf → Prop} (hinsert : ∀ s p, P s → P (s.insert p)) (h : P s)
    {after : Nat × Shelf} (hm : s.mergeAll child item support = .ok after) : P after.2 := by
  -- count and shelf change with every pattern, so both are arbitrary in the induction
  have hfold : ∀ (ps : List Pattern) (state : Nat × Shelf), P state.2 →
      ∀ after, ps.foldlM (mergeStep item support) state = .ok after → P after.2 := by
    intro ps
    induction ps with
    | nil =>
      intro state hstate after ha
      obtain rfl := Except.ok.inj ha
      exact hstate
    | cons p ps ih =>
      intro state hstate after ha
      rw [List.foldlM_cons] at ha
      cases hs : mergeStep item support state p with
      | error e =>
        rw [hs] at ha
        cases ha
      | ok next =>
        rw [hs] at ha
        refine ih next ?_ after ha
        rcases mergeStep_eq_or hs with he | ⟨q, he⟩
        · exact he ▸ hstate
        · exact he ▸ hinsert _ q hstate
  exact hfold child.ranked (0, s) h after hm

/-- What every insertion into a plain list keeps, every call to a family keeps. -/
theorem step_preserves {P : ι → Shelf → Prop} (hinsert : ∀ i s p, P i s → P i (s.insert p))
    {family : ι → Shelf} (h : ∀ i, P i (family i)) (call : Call ι) (i : ι) :
    P i ((step family call).2 i) := by
  have hupdate : ∀ j s, P j s → ∀ i, P i (Function.update family j s i) := by
    intro j s hs
    exact (Function.forall_update_iff family _).2 ⟨hs, fun i _ => h i⟩
  cases call with
  | insert j p => exact hupdate j _ (hinsert j _ p (h j)) i
  | merge j child item support =>
    rw [step]
    cases hm : (family j).mergeAll (family child) item support with
    | error e => exact h i
    | ok after => exact hupdate j _ (mergeAll_preserves (hinsert j) (h j) hm) i
  | addable j support => exact h i
  | count j => exact h i
  | isFull j => exact h i
  | leastSupport j => exact h i
  | ranked j => exact h i

end Shelf

namespace Collector

/-- The family that calls leave behind. -/
def after (family : ι → Collector) (calls : List (Call ι)) : ι → Collector :=
  calls.foldl (fun family call => (step family call).2) family

/-- What holds of the plain lists of a family and is kept by every insertion holds of the plain
lists of all families that calls lead to. -/
theorem after_preserves {P : ι → Shelf → Prop} (hinsert : ∀ i s p, P i s → P i (s.insert p))
    {family : ι → Collector} (hvalid : ∀ i, (family i).Valid) (h : ∀ i, P i (family i).shelf)
    (calls : List (Call ι)) (i : ι) :
    (after family calls i).Valid ∧ P i (after family calls i).shelf := by
  induction calls generalizing family with
  | nil => exact ⟨hvalid i, h i⟩
  | cons call calls ih =>
    obtain ⟨hstep, hnext⟩ := step_shelf hvalid call
    refine ih hnext fun j => ?_
    have hkept : P j ((Shelf.step (shelves family) call).2 j) :=
      Shelf.step_preserves hinsert h call j
    rwa [hstep] at hkept

/-- The members that calls to new collectors lead to are valid, and have the capacity and the flag
that they were made with. -/
theorem after_empty (capacity : ι → Nat) (subsumes : ι → Bool)
    (capacity_pos : ∀ i, 0 < capacity i) (calls : List (Call ι)) (i : ι) :
    let c := after (fun i => empty (capacity i) (subsumes i) (capacity_pos i)) calls i
    c.Valid ∧ c.capacity = capacity i ∧ c.subsumes = subsumes i := by
  refine after_preserves (P := fun i s => s.capacity = capacity i ∧ s.subsumes = subsumes i) ?_
    (fun i => empty_valid (capacity_pos i)) (fun i => ⟨rfl, rfl⟩) calls i
  intro i s p hs
  rwa [Shelf.capacity_insert, Shelf.subsumes_insert]

/-- The collector that insertions one after the other leave behind. -/
def insertAll (c : Collector) (ps : List Pattern) : Collector := ps.foldl insert c

/-- Insertions leave a valid collector, the plain list of which is that of the insertions. -/
theorem insertAll_shelf {c : Collector} (h : c.Valid) (ps : List Pattern) :
    (c.insertAll ps).Valid ∧ (c.insertAll ps).shelf = ps.foldl Shelf.insert c.shelf := by
  unfold insertAll
  induction ps generalizing c with
  | nil => exact ⟨h, rfl⟩
  | cons p ps ih =>
    rw [List.foldl_cons, List.foldl_cons, ← insert_shelf h]
    exact ih (insert_valid h p)

end Collector

end TopPatterns

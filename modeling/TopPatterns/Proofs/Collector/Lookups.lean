import TopPatterns.Proofs.Collector.Tables

/-!
# Look-ups that find what they look for

A change of a collector looks numbers up in the live table and in the index, and takes the top off
the heap. Where it finds nothing it is defined to leave the collector as it is. Here every such
look-up counts: `discard?`, `rivals?` and `evict?` have no result if one fails, and neither has what
is built from them, up to the answers to a whole run of calls (`answers?`).

On tables in step no look-up fails. The numbers of the index are those of retained patterns, and it
lists none twice, so that each of those to be discarded is still there when its turn comes
(`foldlM_discard?_eq`); and a pattern has just been pushed when the weakest one is given up, so
that there is one (`evict?_eq`). By induction on the calls `answers?_eq`: a family of new collectors
never comes to a look-up that fails.
-/

namespace TopPatterns

variable {ι : Type} [DecidableEq ι]

namespace Collector

/-! ## Changes whose look-ups may fail -/

/-- Gives up the pattern of a number, which must be retained and, if the collector subsumes, listed
under its support. -/
def discard? (c : Collector) (number : Nat) : Option Collector :=
  match c.live[number]? with
  | none => none
  | some p =>
    if c.subsumes = true ∧ number ∉ c.bySupport.getD p.support [] then none
    else some (c.discard number)

/-- Gives up the weakest pattern, of which there must be one. -/
def evict? (c : Collector) : Option Collector :=
  match c.settle.heap.top? with
  | none => none
  | some e => discard? { c.settle with heap := c.settle.heap.pop } e.number

/-- The numbers and patterns that a candidate is compared with; every number listed must be that of
a retained pattern. -/
def rivals? (c : Collector) (support : Nat) : Option (List (Nat × Pattern)) :=
  (c.bySupport.getD support []).mapM fun n => c.live[n]?.map (n, ·)

/-- The numbers that a candidate makes redundant, or `none` within if it is redundant itself. -/
def redundantTo? (c : Collector) (p : Pattern) : Option (Option (List Nat)) :=
  (c.rivals? p.support).map fun rivals =>
    if rivals.any fun (_, q) => p.isSubPatternOf q then none
    else some ((rivals.filter fun (_, q) => q.isSubPatternOf p).map Prod.fst)

/-- Puts a pattern in the place of the patterns of some numbers, each of which is given up. -/
def replace? (c : Collector) (numbers : List Nat) (p : Pattern) : Option Collector :=
  (numbers.foldlM discard? c).map fun c => (c.push p).compact

/-- Admits a pattern as `add` does. -/
def add? (c : Collector) (p : Pattern) : Option (Option (Collector × Bool)) :=
  if c.subsumes then
    match c.redundantTo? p with
    | none => none
    | some none => some none
    | some (some numbers) =>
      (c.replace? numbers p).map fun replaced => some (replaced, !numbers.isEmpty)
  else some (some (c.push p, false))

/-- Offers a pattern as `offer` does. -/
def offer? (c : Collector) (p : Pattern) : Option (Option Collector) :=
  if p.items.isEmpty then some none
  else if c.isFull && decide (p.support ≤ c.leastSupport) then some none
  else
    match c.tested.add? p with
    | none => none
    | some none => some none
    | some (some added) =>
      if c.isFull && !added.2 then added.1.evict?.map some else some (some added.1)

/-- Folds one pattern of another collector in as `mergeStep` does. -/
def mergeStep? (item : Item) (support : Int) (state : Nat × Collector) (p : Pattern) :
    Option (Except MiningError (Nat × Collector)) :=
  let capped := min support p.support
  let c := state.2.tested
  if state.2.admits capped then
    match p.extend item capped with
    | .error e => some (.error e)
    | .ok q =>
      (c.offer? q).map fun offered =>
        match offered with
        | some admitted => .ok (state.1 + 1, admitted)
        | none => .ok (state.1, c.refuse q)
  else some (.ok (state.1, c))

/-- Folds patterns in, one after the other, up to the first error. -/
def mergeFrom? (item : Item) (support : Int) (state : Nat × Collector) :
    List Pattern → Option (Except MiningError (Nat × Collector))
  | [] => some (.ok state)
  | p :: ps =>
    match mergeStep? item support state p with
    | none => none
    | some (.error e) => some (.error e)
    | some (.ok next) => mergeFrom? item support next ps

/-- Answers a call to a family of collectors as `step` does. -/
def step? (family : ι → Collector) : Call ι → Option (Answer × (ι → Collector))
  | .insert i p =>
    ((family i).offer? p).map fun offered =>
      (.flag offered.isSome, Function.update family i (offered.getD ((family i).refuse p)))
  | .merge i j item support =>
    (mergeFrom? item support (0, family i) (family j).ranked).map fun merged =>
      match merged with
      | .ok (n, c) => (.number n, Function.update family i c)
      | .error e => (.failed e, family)
  | call => some (step family call)

/-- The answers to calls made one after the other. -/
def answers? (family : ι → Collector) : List (Call ι) → Option (List Answer)
  | [] => some []
  | call :: calls =>
    match step? family call with
    | none => none
    | some (answer, after) => (answers? after calls).map (answer :: ·)

variable {c : Collector} {p : Pattern}

/-! ## Discarding -/

theorem discard?_eq (h : c.Indexed) {n : Nat} (hn : c.live[n]? = some p) :
    c.discard? n = some (c.discard n) := by
  unfold discard?
  rw [hn]
  have hlisted : ¬(c.subsumes = true ∧ n ∉ c.bySupport.getD p.support []) := by
    intro hfails
    exact hfails.2 ((h.listed hfails.1 p.support n).2 ⟨p, hn, rfl⟩)
  exact if_neg hlisted

/-- Numbers of retained patterns, none of them twice, can be discarded one after the other. -/
theorem foldlM_discard?_eq (h : c.Indexed) {numbers : List Nat} (hnodup : numbers.Nodup)
    (hlive : ∀ n ∈ numbers, ∃ q, c.live[n]? = some q) :
    numbers.foldlM discard? c = some (numbers.foldl discard c) := by
  induction numbers generalizing c with
  | nil => rfl
  | cons n ns ih =>
    obtain ⟨hn, hns⟩ := List.nodup_cons.1 hnodup
    obtain ⟨q, hq⟩ := hlive n (List.mem_cons_self ..)
    rw [List.foldlM_cons, discard?_eq h hq]
    refine ih (discard_indexed h n) hns ?_
    intro m hm
    -- the numbers that are left differ from the one given up
    have hne : ¬n = m := fun e => hn (e ▸ hm)
    rw [getElem?_live_discard, if_neg hne]
    exact hlive m (List.mem_cons_of_mem _ hm)

/-- A collector that retains a pattern can give its weakest one up. -/
theorem evict?_eq (h : c.Sound) (hne : c.retained ≠ []) : c.evict? = some c.evict := by
  unfold evict?
  rw [evict]
  cases ht : c.settle.heap.top? with
  | none => exact absurd (settled_none h.toHeaped ht) hne
  | some e =>
    have hpopped : ({ c.settle with heap := c.settle.heap.pop } : Collector).Indexed :=
      ⟨h.listed, h.nonempty⟩
    show discard? _ e.number = some (discard _ e.number)
    apply discard?_eq hpopped
    exact (settled_top h.toHeaped ht).1

/-! ## Admitting -/

theorem mapM_eq_filterMap {α β : Type} {f : α → Option β} {xs : List α}
    (h : ∀ x ∈ xs, ∃ y, f x = some y) : xs.mapM f = some (xs.filterMap f) := by
  induction xs with
  | nil => rfl
  | cons x xs ih =>
    obtain ⟨y, hy⟩ := h x (List.mem_cons_self ..)
    rw [List.mapM_cons, hy, ih fun z hz => h z (List.mem_cons_of_mem _ hz), List.filterMap_cons, hy]
    rfl

theorem rivals?_eq (h : c.Indexed) (hs : c.subsumes = true) (support : Nat) :
    c.rivals? support = some (c.rivals support) := by
  apply mapM_eq_filterMap
  intro n hn
  obtain ⟨q, hq, -⟩ := (h.listed hs support n).1 hn
  exact ⟨(n, q), by rw [hq]; rfl⟩

theorem redundantTo?_eq (h : c.Indexed) (hs : c.subsumes = true) (p : Pattern) :
    c.redundantTo? p = some (c.redundantTo p) := by
  unfold redundantTo?
  rw [rivals?_eq h hs]
  rfl

/-- The numbers that a candidate makes redundant are listed once. -/
theorem nodup_of_redundantTo (hf : c.Falling) {numbers : List Nat}
    (hr : c.redundantTo p = some numbers) : numbers.Nodup := by
  have hrivals : ((c.rivals p.support).map Prod.fst).Sublist (c.bySupport.getD p.support []) := by
    unfold rivals
    induction c.bySupport.getD p.support [] with
    | nil => exact List.Sublist.slnil
    | cons n ns ih =>
      rw [List.filterMap_cons]
      cases c.live[n]? with
      | none => exact ih.cons n
      | some q => exact ih.cons_cons n
  have hnodup : (c.bySupport.getD p.support []).Nodup :=
    (hf p.support).imp fun hlt => Nat.ne_of_gt hlt
  rw [redundantTo] at hr
  split at hr
  · cases hr
  · obtain rfl := Option.some.inj hr
    exact hnodup.sublist ((List.filter_sublist.map Prod.fst).trans hrivals)

theorem replace?_eq (h : c.Sound) (hf : c.Falling) (hs : c.subsumes = true) {numbers : List Nat}
    (hr : c.redundantTo p = some numbers) : c.replace? numbers p = some (c.replace numbers p) := by
  have hlive : ∀ n ∈ numbers, ∃ q, c.live[n]? = some q := by
    intro n hn
    obtain ⟨q, hq, -⟩ := (mem_of_redundantTo h.toIndexed hs hr n).1 hn
    exact ⟨q, hq⟩
  unfold replace?
  rw [foldlM_discard?_eq h.toIndexed (nodup_of_redundantTo hf hr) hlive]
  rfl

theorem add?_eq (h : c.Sound) (hf : c.Falling) (p : Pattern) : c.add? p = some (c.add p) := by
  unfold add?
  rw [add]
  by_cases hs : c.subsumes = true
  · rw [if_pos hs, if_pos hs, redundantTo?_eq h.toIndexed hs]
    cases hr : c.redundantTo p with
    | none => rfl
    | some numbers =>
      show (c.replace? numbers p).map _ = _
      rw [replace?_eq h hf hs hr]
      rfl
  · rw [if_neg hs, if_neg hs]

/-- **Offers.** No look-up of an offer fails. -/
theorem offer?_eq (h : c.Valid) (ht : c.Tidy) (p : Pattern) : c.offer? p = some (c.offer p) := by
  have hadd := add?_eq (tested_sound h.toSound) (tested_falling ht.falling) p
  have hspec := add_spec (tested_sound h.toSound) p
  unfold offer?
  rw [offer]
  split
  · rfl
  split
  · rfl
  rw [hadd]
  cases ha : c.tested.add p with
  | none => rfl
  | some added =>
    rw [ha] at hspec
    obtain ⟨-, hsound, -, -, hretained, -⟩ := hspec
    -- the pattern itself has been pushed, so that there is one to give up
    have hne : added.1.retained ≠ [] := by
      rw [hretained]
      exact List.append_ne_nil_of_right_ne_nil _ (List.cons_ne_nil p [])
    show (if _ then _ else _) = some (some (if _ then _ else _))
    split
    · rw [evict?_eq hsound hne]
      rfl
    · rfl

/-! ## Calls -/

theorem mergeStep?_eq (item : Item) (support : Int) {state : Nat × Collector}
    (h : state.2.Valid) (ht : state.2.Tidy) (p : Pattern) :
    mergeStep? item support state p = some (mergeStep item support state p) := by
  simp only [mergeStep?, mergeStep]
  split
  · cases p.extend item (min support p.support) with
    | error e => rfl
    | ok q =>
      have hoffer := offer?_eq (tested_valid h) (tested_tidy h ht) q
      simp only [hoffer, Option.map_some, Except.map]
      cases state.2.tested.offer q <;> rfl
  · rfl

theorem mergeFrom?_eq (item : Item) (support : Int) {state : Nat × Collector}
    (h : state.2.Valid) (ht : state.2.Tidy) (ps : List Pattern) :
    mergeFrom? item support state ps = some (ps.foldlM (mergeStep item support) state) := by
  induction ps generalizing state with
  | nil => rfl
  | cons p ps ih =>
    rw [mergeFrom?, mergeStep?_eq item support h ht p, List.foldlM_cons]
    cases hs : mergeStep item support state p with
    | error e => rfl
    | ok next => exact ih ((mergeStep_shelf item support h p).2 next hs) (mergeStep_tidy h ht hs)

/-- One call: no look-up of it fails. -/
theorem step?_eq {family : ι → Collector} (hvalid : ∀ i, (family i).Valid)
    (htidy : ∀ i, (family i).Tidy) (call : Call ι) :
    step? family call = some (step family call) := by
  cases call with
  | insert i p =>
    rw [step?, offer?_eq (hvalid i) (htidy i) p]
    rfl
  | merge i j item support =>
    have hmerge : mergeFrom? item support (0, family i) (family j).ranked =
        some ((family i).mergeAll (family j) item support) :=
      mergeFrom?_eq item support (hvalid i) (htidy i) (family j).ranked
    rw [step?, hmerge, step]
    cases (family i).mergeAll (family j) item support <;> rfl
  | addable i support => rfl
  | count i => rfl
  | isFull i => rfl
  | leastSupport i => rfl
  | ranked i => rfl

/-- Any calls to collectors with tables in step are answered without a look-up that fails. -/
theorem answers?_of_tidy {family : ι → Collector} (hvalid : ∀ i, (family i).Valid)
    (htidy : ∀ i, (family i).Tidy) (calls : List (Call ι)) :
    answers? family calls = some (answers family calls) := by
  induction calls generalizing family with
  | nil => rfl
  | cons call calls ih =>
    have hrest := ih (step_shelf hvalid call).2 (step_tidy hvalid htidy call)
    rw [answers?, step?_eq hvalid htidy call]
    show (answers? (step family call).2 calls).map _ = some (answers family (call :: calls))
    rw [hrest]
    rfl

/-- **No look-up fails.** Whatever the capacities and flags of a family of new collectors, and
whatever calls are made to them in whatever order, every number that is looked up belongs to a
retained pattern, and the heap has a top whenever it is taken off. -/
theorem answers?_eq (capacity : ι → Nat) (subsumes : ι → Bool) (capacity_pos : ∀ i, 0 < capacity i)
    (calls : List (Call ι)) :
    let family := fun i => empty (capacity i) (subsumes i) (capacity_pos i)
    answers? family calls = some (answers family calls) := by
  intro family
  apply answers?_of_tidy
  · intro i
    exact empty_valid (capacity_pos i)
  · intro i
    exact empty_tidy (capacity_pos i)

end Collector

end TopPatterns

import TopPatterns.Proofs.Number.Rounding
import TopPatterns.Service.Basic

/-!
# Which parameters are refused

An object gives the parameters that its fields are read as, if these are within their bounds
(`ofFields_eq_ok_iff`), and an error otherwise. The error is a refusal, answered with status 400,
unless it lies in the kind or the size of a value. Which values these are is said for each reader
apart (`onlyRefuses_wholeOf`, `onlyRefuses_floatOf`); flags and bounds only refuse
(`onlyRefuses_flagOf`, `onlyRefuses_checked`). As the first bad field is the one that is reported, a
value of the wrong kind comes to light only if all fields before can be read
(`onlyRefuses_ofFields`).
-/

namespace TopPatterns.Params

/-! ## Refusals -/

/-- An outcome is a value or a refusal. -/
def OnlyRefuses {α : Type} (r : Except Error α) : Prop :=
  ∀ e, r = .error e → e.isRefusal = true

variable {α β : Type}

@[simp] theorem onlyRefuses_ok (a : α) : OnlyRefuses (.ok a) := fun _ h => nomatch h

@[simp] theorem onlyRefuses_error (e : Error) :
    OnlyRefuses (.error e : Except Error α) ↔ e.isRefusal = true := by
  refine ⟨fun h => h e rfl, fun h e' he => ?_⟩
  cases he
  exact h

/-- Of two steps, the second one is taken if the first gives a value. -/
theorem onlyRefuses_bind {r : Except Error α} {f : α → Except Error β} :
    OnlyRefuses (r >>= f) ↔ OnlyRefuses r ∧ ∀ a, r = .ok a → OnlyRefuses (f a) := by
  cases r with
  | ok a => simp [bind, Except.bind]
  | error e => simp [bind, Except.bind]

theorem ok_of_bind {r : Except Error α} {f : α → Except Error β} {b : β}
    (h : (r >>= f) = .ok b) : ∃ a, r = .ok a ∧ f a = .ok b := by
  cases r with
  | ok a => exact ⟨a, rfl, h⟩
  | error e => cases h

@[simp] theorem onlyRefuses_mapError {r : Except NumeralError α} :
    OnlyRefuses (r.mapError Error.numeral) := by
  cases r with
  | ok a => exact onlyRefuses_ok a
  | error e => exact (onlyRefuses_error _).2 rfl

/-! ## Values of one field -/

/-- Values of a kind that is never read as a number. -/
def noNumber : Json → Bool
  | .null | .array _ | .object _ => true
  | _ => false

/-- Values that are no whole number for their kind, or because they are infinite. -/
def noWholeNumber : Json → Bool
  | .float (.infinite _) => true
  | value => noNumber value

/-- Values that are no number of floating point for their kind, or because they are too large. -/
def noFloatNumber : Json → Bool
  | .int n => decide (Binary64.overflow ≤ n.natAbs)
  | value => noNumber value

theorem onlyRefuses_wholeOf (value : Json) :
    OnlyRefuses (wholeOf value) ↔ noWholeNumber value = false := by
  cases value with
  | float x =>
    cases x <;> simp [wholeOf, noWholeNumber, noNumber, Binary64.truncate?, Error.isRefusal]
  | _ => simp [wholeOf, noWholeNumber, noNumber, Error.isRefusal]

theorem onlyRefuses_floatOfInt (n : Int) :
    OnlyRefuses (floatOfInt n) ↔ n.natAbs < Binary64.overflow := by
  rw [← not_le, ← Binary64.ofInt_eq_infinite_iff, floatOfInt]
  split
  · next s hinfinite =>
    rw [hinfinite]
    exact iff_of_false (by simp [Error.isRefusal]) (not_not.2 ⟨s, rfl⟩)
  · next hfinite => exact iff_of_true (onlyRefuses_ok _) fun ⟨s, hs⟩ => hfinite s hs

theorem onlyRefuses_floatOf (value : Json) :
    OnlyRefuses (floatOf value) ↔ noFloatNumber value = false := by
  cases value with
  | int n => simp [floatOf, noFloatNumber, onlyRefuses_floatOfInt]
  | bool b =>
    refine iff_of_true ((onlyRefuses_floatOfInt _).2 ?_) rfl
    cases b <;> decide +kernel
  | _ => simp [floatOf, noFloatNumber, noNumber, Error.isRefusal]

theorem onlyRefuses_flagOf (name : String) (value : Json) : OnlyRefuses (flagOf name value) := by
  cases value with
  | string t =>
    simp only [flagOf]
    split
    · exact onlyRefuses_ok _
    · split
      · exact onlyRefuses_ok _
      · exact (onlyRefuses_error _).2 rfl
  | bool b => exact onlyRefuses_ok b
  | _ => exact (onlyRefuses_error _).2 rfl

theorem onlyRefuses_checked (p : Params) : OnlyRefuses (checked p) := by
  unfold checked
  split_ifs <;> simp [Error.isRefusal]

/-! ## Objects -/

/-- Parameters are within their bounds. -/
structure Within (p : Params) : Prop where
  topK : 1 ≤ p.topK ∧ p.topK ≤ 10000
  minSupport : 0 < p.minSupport.value ∧ p.minSupport.value ≤ 1
  partitions : 1 ≤ p.partitions ∧ p.partitions ≤ 64

theorem checked_eq_ok_iff {p q : Params} : checked p = .ok q ↔ p = q ∧ p.Within := by
  have hwithin : p.Within ↔ (0 < p.topK ∧ p.topK ≤ maxTopK) ∧
      (p.minSupport.isPositive && p.minSupport.isAtMostOne) = true ∧
        (0 < p.partitions ∧ p.partitions ≤ maxPartitions) := by
    rw [Bool.and_eq_true, Binary64.isPositive_and_isAtMostOne_iff]
    exact ⟨fun h => ⟨h.topK, h.minSupport, h.partitions⟩, fun h => ⟨h.1, h.2.1, h.2.2⟩⟩
  rw [hwithin, checked]
  by_cases htop : 0 < p.topK ∧ p.topK ≤ maxTopK
  · rw [if_neg (not_not.2 htop)]
    cases hmin : p.minSupport.isPositive && p.minSupport.isAtMostOne with
    | false => exact iff_of_false nofun fun h => Bool.false_ne_true h.2.2.1
    | true =>
      rw [Bool.not_true, if_neg Bool.false_ne_true]
      by_cases hparts : 0 < p.partitions ∧ p.partitions ≤ maxPartitions
      · rw [if_neg (not_not.2 hparts), Except.ok.injEq]
        exact (and_iff_left ⟨htop, rfl, hparts⟩).symm
      · rw [if_pos hparts]
        exact iff_of_false nofun fun h => hparts h.2.2.2
  · rw [if_pos htop]
    exact iff_of_false nofun fun h => htop h.2.1

variable (fields : List (CodeText × Json))

/-- The value of a field of an object, or what stands for it if it is missing. -/
def given (name : CodeText) (missing : Json) : Json := (Json.field? fields name).getD missing

/-- What the fields of an object are read as, whether it is within its bounds or not. -/
structure Reads (p : Params) : Prop where
  topK : wholeOf (given fields "top_k" (.int 50)) = .ok p.topK
  minSupport : floatOf (given fields "min_support" (.float defaultMinSupport)) = .ok p.minSupport
  subsumption : flagOf "subsumption" (given fields "subsumption" (.bool true)) = .ok p.subsumption
  partitions : wholeOf (given fields "partitions" (.int 1)) = .ok p.partitions

/-- The parameters of an object are those that its fields are read as, within their bounds. -/
theorem ofFields_eq_ok_iff {p : Params} :
    ofFields fields = .ok p ↔ Reads fields p ∧ p.Within := by
  constructor
  · intro h
    obtain ⟨topK, htop, h⟩ := ok_of_bind h
    obtain ⟨minSupport, hmin, h⟩ := ok_of_bind h
    obtain ⟨subsumption, hsub, h⟩ := ok_of_bind h
    obtain ⟨partitions, hparts, h⟩ := ok_of_bind h
    obtain ⟨rfl, hwithin⟩ := checked_eq_ok_iff.1 h
    exact ⟨⟨htop, hmin, hsub, hparts⟩, hwithin⟩
  · intro h
    obtain ⟨⟨htop, hmin, hsub, hparts⟩, hwithin⟩ := h
    rw [given] at htop hmin hsub hparts
    simp only [ofFields, htop, hmin, hsub, hparts, bind, Except.bind]
    exact checked_eq_ok_iff.2 ⟨rfl, hwithin⟩

/-- The first bad field of an object has a value of the wrong kind or size. -/
def Faulty : Prop :=
  let topK := given fields "top_k" (.int 50)
  let minSupport := given fields "min_support" (.float defaultMinSupport)
  let subsumption := given fields "subsumption" (.bool true)
  let partitions := given fields "partitions" (.int 1)
  noWholeNumber topK = true ∨
    (∃ n, wholeOf topK = .ok n) ∧ (noFloatNumber minSupport = true ∨
      (∃ x, floatOf minSupport = .ok x) ∧ (∃ b, flagOf "subsumption" subsumption = .ok b) ∧
        noWholeNumber partitions = true)

theorem onlyRefuses_ofFields : OnlyRefuses (ofFields fields) ↔ ¬Faulty fields := by
  simp only [ofFields, onlyRefuses_bind, onlyRefuses_wholeOf, onlyRefuses_floatOf,
    onlyRefuses_flagOf, onlyRefuses_checked, implies_true, true_and, and_true]
  simp only [Faulty, given, not_or, not_and, forall_exists_index, Bool.not_eq_true]

/-! ## Answers -/

/-- A request whose parameters cannot be read is answered with status 400 if they are refused, and
with 500 otherwise. -/
theorem topk_of_error {fields : List (CodeText × Json)} {e : Error}
    (h : ofJson (.object fields) = .error e) (store : Store) :
    Service.topk (.value (.object fields)) store =
      if e.isRefusal then .failed 400 e.message else Service.miningFailed e.message := by
  have hdata : Service.requestData (.value (.object fields)) = .ok (.object fields) := by
    cases fields <;> rfl
  simp only [Service.topk, hdata, h]

/-- **Parameters of an object.** An object gives parameters exactly if all its fields can be read and
what is read is within its bounds. Otherwise it is refused with status 400, unless the first bad
field has a value of the wrong kind or size: then the request fails with status 500. -/
theorem ofJson_object (fields : List (CodeText × Json)) (store : Store) :
    (∀ p, ofJson (.object fields) = .ok p ↔ Reads fields p ∧ p.Within) ∧
      ((∃ p, ofJson (.object fields) = .ok p ∧ ¬Faulty fields) ∨
        ∃ e, ofJson (.object fields) = .error e ∧
          ((¬Faulty fields ∧ e.isRefusal = true ∧
              Service.topk (.value (.object fields)) store = .failed 400 e.message) ∨
            (Faulty fields ∧ e.isRefusal = false ∧
              Service.topk (.value (.object fields)) store =
                .failed 500 ("Mining failed: " ++ e.message)))) := by
  have hrefuses : OnlyRefuses (ofJson (.object fields)) ↔ ¬Faulty fields :=
    onlyRefuses_ofFields fields
  refine ⟨fun p => ofFields_eq_ok_iff fields, ?_⟩
  cases h : ofJson (.object fields) with
  | ok p =>
    rw [h] at hrefuses
    exact .inl ⟨p, rfl, hrefuses.1 (onlyRefuses_ok p)⟩
  | error e =>
    rw [h, onlyRefuses_error] at hrefuses
    have hanswer := topk_of_error h store
    refine .inr ⟨e, rfl, ?_⟩
    cases hrefusal : e.isRefusal with
    | true =>
      rw [hrefusal, if_pos rfl] at hanswer
      exact .inl ⟨hrefuses.1 hrefusal, rfl, hanswer⟩
    | false =>
      rw [hrefusal, if_neg Bool.false_ne_true] at hanswer
      refine .inr ⟨by_contra fun hnot => ?_, rfl, hanswer⟩
      exact absurd (hrefusal.symm.trans (hrefuses.2 hnot)) Bool.false_ne_true

/-- The values that stand for missing fields are within their bounds. -/
example : ofJson (.object []) = .ok ⟨50, defaultMinSupport, true, 1⟩ := by decide +kernel

/-- Null as a number of patterns is not refused. -/
theorem not_onlyRefuses_ofJson : ¬∀ fields, OnlyRefuses (ofJson (.object fields)) := by
  intro h
  exact absurd (h [("top_k", .null)] (.noWhole "NoneType") rfl) Bool.false_ne_true

end TopPatterns.Params

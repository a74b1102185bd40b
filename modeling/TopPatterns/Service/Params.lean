import TopPatterns.Json.Value
import TopPatterns.Number.Numeral
import TopPatterns.Text.Basic
import TopPatterns.Text.Lowercase

/-!
# Parameters of a request

A request for mining may give the number of patterns, the least support as a fraction, whether
patterns subsume others, and the number of partitions. `Params.ofJson` reads them: each field takes
numbers and texts of numbers, a missing field has its default, and the first bad field is reported
in the order of the fields, before any bound is checked.
-/

namespace TopPatterns

/-- The parameters of a request. -/
structure Params where
  topK : Int
  minSupport : Binary64
  subsumption : Bool
  partitions : Int
deriving DecidableEq, Repr

namespace Params

/-- The most patterns that a request may ask for. -/
def maxTopK : Int := 10000

/-- The most partitions that a request may ask for. -/
def maxPartitions : Int := 64

/-- Why parameters are refused. -/
inductive Error where
  /-- The parameters are not an object. -/
  | notObject (kind : String)
  /-- A text is not a number. -/
  | numeral (error : NumeralError)
  /-- A value of this kind is no whole number. -/
  | noWhole (kind : String)
  /-- A value of this kind is no number. -/
  | noFloat (kind : String)
  /-- Not a number has no whole part. -/
  | wholeOfNan
  /-- An infinity has no whole part. -/
  | wholeOfInfinity
  /-- A whole number lies beyond floating point. -/
  | tooLarge
  /-- A value of this field is neither true nor false. -/
  | notFlag (name : String)
  /-- The number of patterns is out of bounds. -/
  | topKBounds
  /-- The least support is out of bounds. -/
  | minSupportBounds
  /-- The number of partitions is out of bounds. -/
  | partitionsBounds
deriving DecidableEq, Repr

/-- The wording of an error. -/
def Error.message : Error → String
  | .notObject kind => "'" ++ kind ++ "' object has no attribute 'get'"
  | .numeral error => error.message
  | .noWhole kind =>
    "int() argument must be a string, a bytes-like object or a real number, not '" ++ kind ++ "'"
  | .noFloat kind => "float() argument must be a string or a real number, not '" ++ kind ++ "'"
  | .wholeOfNan => "cannot convert float NaN to integer"
  | .wholeOfInfinity => "cannot convert float infinity to integer"
  | .tooLarge => "int too large to convert to float"
  | .notFlag name => name ++ " must be true or false"
  | .topKBounds => "top_k must be between 1 and " ++ toString maxTopK
  | .minSupportBounds => "min_support must be between 0 and 1"
  | .partitionsBounds => "partitions must be between 1 and " ++ toString maxPartitions

/-- Whether an error lies in a value and not in its kind or its size. -/
def Error.isRefusal : Error → Bool
  | .notObject _ | .noWhole _ | .noFloat _ | .wholeOfInfinity | .tooLarge => false
  | _ => true

/-- The whole number of a value: of floating point the whole part, of a truth value 0 or 1. -/
def wholeOf : Json → Except Error Int
  | .int n => .ok n
  | .bool b => .ok (if b then 1 else 0)
  | .string t => (Numeral.wholeNumber t).mapError .numeral
  | .float .nan => .error .wholeOfNan
  | .float x =>
    match x.truncate? with
    | some n => .ok n
    | none => .error .wholeOfInfinity
  | value => .error (.noWhole value.kind)

/-- The number of floating point nearest to a whole number, unless that is beyond all of them. -/
def floatOfInt (n : Int) : Except Error Binary64 :=
  match Binary64.ofInt n with
  | .infinite _ => .error .tooLarge
  | x => .ok x

/-- The number of floating point of a value. -/
def floatOf : Json → Except Error Binary64
  | .float x => .ok x
  | .int n => floatOfInt n
  | .bool b => floatOfInt (if b then 1 else 0)
  | .string t => (Numeral.floatNumber t).mapError .numeral
  | value => .error (.noFloat value.kind)

/-- The truth value of a value: true and false themselves, and some words for them. -/
def flagOf (name : String) : Json → Except Error Bool
  | .bool b => .ok b
  | .string t =>
    let word := String.ofList (Text.lower (Text.trim (t.chars?.getD [])))
    if word = "true" ∨ word = "1" ∨ word = "yes" then .ok true
    else if word = "false" ∨ word = "0" ∨ word = "no" then .ok false
    else .error (.notFlag name)
  | _ => .error (.notFlag name)

/-- The least support without a word about it, one in a hundred. -/
def defaultMinSupport : Binary64 := Binary64.ofDecimal false 1 (-2)

/-- Parameters within their bounds. -/
def checked (p : Params) : Except Error Params :=
  if ¬(0 < p.topK ∧ p.topK ≤ maxTopK) then .error .topKBounds
  else if !(p.minSupport.isPositive && p.minSupport.isAtMostOne) then .error .minSupportBounds
  else if ¬(0 < p.partitions ∧ p.partitions ≤ maxPartitions) then .error .partitionsBounds
  else .ok p

/-- The parameters that the fields of an object give. -/
def ofFields (fields : List (CodeText × Json)) : Except Error Params := do
  let field (name : String) (missing : Json) := (Json.field? fields name).getD missing
  let topK ← wholeOf (field "top_k" (.int 50))
  let minSupport ← floatOf (field "min_support" (.float defaultMinSupport))
  let subsumption ← flagOf "subsumption" (field "subsumption" (.bool true))
  let partitions ← wholeOf (field "partitions" (.int 1))
  checked ⟨topK, minSupport, subsumption, partitions⟩

/-- The parameters that a value gives, which must be an object. -/
def ofJson : Json → Except Error Params
  | .object fields => ofFields fields
  | value => .error (.notObject value.kind)

/-- The fraction of a number of transactions, rounded up, and at least one: the product is a number
of floating point. -/
def minimumCount (p : Params) (transactions : Nat) : Int :=
  max 1 ((p.minSupport.mul (Binary64.ofInt transactions)).ceiling?.getD 0)

theorem one_le_minimumCount (p : Params) (transactions : Nat) :
    1 ≤ p.minimumCount transactions := Int.le_max_left ..

end Params

end TopPatterns

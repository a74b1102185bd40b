import TopPatterns.Json.Value

/-!
# Columns of values

The values of a column that has been read settle on one kind where they have one in common. Numbers
become numbers of floating point if one of them is or one is missing, as far as whole numbers fit
into words of one kind, and a missing value among texts or such numbers becomes "not a number". All
other columns stay as they are.
-/

namespace TopPatterns.Dataset.Column

/-- What the values so far have been. -/
structure Seen where
  missing : Bool
  undefined : Bool
  truth : Bool
  fraction : Bool
  whole : Bool
  negative : Bool
  large : Bool

/-- No values. -/
def Seen.nothing : Seen := ⟨false, false, false, false, false, false, false⟩

/-- Whether values are numbers with a common kind of floating point. -/
def Seen.isFloating (s : Seen) : Bool :=
  !s.truth && (s.fraction || s.undefined || s.missing && s.whole)

/-- Half the number of 64-bit words. A word with a sign holds a whole number from its negative up to
below it, a word without one those from zero up to below twice it. -/
def wordBound : Int := 0x8000000000000000

/-- One more whole number. -/
def Seen.addWhole (s : Seen) (n : Int) : Seen :=
  { s with
    whole := true
    negative := s.negative || decide (n < 0)
    large := s.large || decide (wordBound ≤ n) }

/-- Whether a whole number fits into a word, with or without a sign. -/
def fitsWord (n : Int) : Bool := decide (-wordBound ≤ n) && decide (n < 2 * wordBound)

/-- Whether the values are numbers, of which some are of floating point or missing, and whole
numbers fit into words of one kind. -/
def isFloating (s : Seen) : List Json → Bool
  | [] => s.isFloating
  | .null :: rest => isFloating { s with missing := true } rest
  | .bool _ :: rest => isFloating { s with truth := true } rest
  | .float .nan :: rest => isFloating { s with undefined := true } rest
  | .float _ :: rest => isFloating { s with fraction := true } rest
  | .int n :: rest =>
    let s := s.addWhole n
    if fitsWord n && !(s.negative && s.large) then isFloating s rest else false
  | _ => false

/-- Whether a value is a text, missing or not a number. -/
def isTextOrGap : Json → Bool
  | .string _ | .null | .float .nan => true
  | _ => false

/-- Whether a value is a text. -/
def isText : Json → Bool
  | .string _ => true
  | _ => false

/-- A value as a number of floating point, missing values as "not a number"; other values stay as
they are. -/
def toFloating : Json → Json
  | .null => .float .nan
  | .int n => .float (.ofInt n)
  | value => value

/-- A missing value as "not a number"; other values stay as they are. -/
def fillGap : Json → Json
  | .null => .float .nan
  | value => value

/-- The values of a column as they settle. -/
def settle (values : List Json) : List Json :=
  if isFloating .nothing values then values.map toFloating
  else if values.all isTextOrGap && values.any isText then values.map fillGap
  else values

/-! ## Small laws -/

/-- A column that starts with a list stays as it is. -/
@[simp] theorem settle_array (items : List Json) (rest : List Json) :
    settle (.array items :: rest) = .array items :: rest := by
  simp [settle, isFloating, isTextOrGap]

end TopPatterns.Dataset.Column

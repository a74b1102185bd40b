import TopPatterns.Number.Binary64
import TopPatterns.Text.Basic
import TopPatterns.Text.CodePoint

/-!
# Numerals

Numbers written as text. Blanks around a numeral are passed over, a sign may stand in front, and an
underscore may stand between two digits. Digits may come from any script. `wholeNumber` reads whole
numbers and `floatNumber` decimals, infinities and texts for "not a number".
-/

namespace TopPatterns

/-- Why a text is not a number. -/
inductive NumeralError where
  /-- The text is not a whole number. -/
  | notWhole (text : CodeText)
  /-- The text is not a number of floating point. -/
  | notFloat (text : CodeText)
  /-- The whole number has more digits than are read. -/
  | tooManyDigits (digits : Nat)
deriving DecidableEq, Repr

/-- How many digits of a whole number are read. -/
def digitLimit : Nat := 4300

/-- The wording for a whole number of too many digits. -/
def tooManyDigitsMessage (digits : Nat) : String :=
  "Exceeds the limit (" ++ toString digitLimit ++
    " digits) for integer string conversion: value has " ++ toString digits ++
    " digits; use sys.set_int_max_str_digits() to increase the limit"

/-- The wording of an error. Of a text that is not a whole number, 200 characters are shown. -/
def NumeralError.message : NumeralError → String
  | .notWhole text =>
    "invalid literal for int() with base 10: " ++
      String.ofList ((Text.quoted text).take 200)
  | .notFloat text => "could not convert string to float: " ++ Text.quotedString text
  | .tooManyDigits digits => tooManyDigitsMessage digits

namespace Numeral

/-- Whether a character is one of the digits `0` to `9`. -/
def isDigit (c : Char) : Bool := decide ('0' ≤ c) && decide (c ≤ '9')

/-- The value of a digit. -/
def digitValue (c : Char) : Nat := c.toNat - 48

/-- The value of a list of digits. -/
def valueOf (digits : List Char) : Nat := digits.foldl (fun n c => n * 10 + digitValue c) 0

/-- A blank or digit of any script as the plain blank or digit; other characters beyond ASCII as a
question mark, which no numeral has. -/
def plainChar (c : Char) : Char :=
  if c.toNat < 0x80 then c
  else if Text.isBlank c then ' '
  else match Text.decimalDigit? c with
    | some d => Char.ofNat (48 + d)
    | none => '?'

/-- A code point as a plain character, the half of a surrogate pair as a question mark. -/
def plainPoint : CodePoint → Char
  | .char c => plainChar c
  | .half _ => '?'

/-- Whether a character may stand around a numeral: a space, or a control from tab to carriage
return. -/
def isPadding (c : Char) : Bool := c = ' ' || (decide ('\t' ≤ c) && decide (c ≤ '\r'))

/-- A text in plain characters and without the blanks around it. -/
def plain (text : CodeText) : List Char := Text.trimOf isPadding (text.map plainPoint)

/-- The sign in front of a text, whether it is a minus, and the rest. -/
def splitSign : List Char → Bool × List Char
  | '-' :: rest => (true, rest)
  | '+' :: rest => (false, rest)
  | cs => (false, cs)

/-- How many characters the sign in front of a text takes. -/
def signLength : List Char → Nat
  | '-' :: _ => 1
  | '+' :: _ => 1
  | _ => 0

/-- Removes the underscores of a text, given the character before it; `none` if one of them does
not stand between two digits. -/
def dropUnderscores (previous : Char) : List Char → Option (List Char)
  | [] => if previous = '_' then none else some []
  | c :: rest =>
    if c = '_' then
      if isDigit previous then dropUnderscores c rest else none
    else if previous = '_' ∧ !isDigit c then none
    else (dropUnderscores c rest).map (c :: ·)

/-- The run of digits and underscores at the start of a text, as far as no underscore follows
another one. -/
def digitRun (cs : List Char) : List Char := cs.takeWhile fun c => isDigit c || c = '_'

/-- A whole number written as text. A number of too many digits is reported also where something
else follows it. -/
def wholeNumber (text : CodeText) : Except NumeralError Int :=
  let (negative, rest) := splitSign (plain text)
  let run := digitRun rest
  match dropUnderscores ' ' run with
  | none | some [] => .error (.notWhole text)
  | some digits =>
    if digitLimit < digits.length then .error (.tooManyDigits digits.length)
    else if run.length < rest.length then .error (.notWhole text)
    else .ok (if negative then -(valueOf digits : Int) else valueOf digits)

/-- The letters `a` to `z` for `A` to `Z`, all else as it is. -/
def asciiLower (c : Char) : Char :=
  if 'A' ≤ c ∧ c ≤ 'Z' then Char.ofNat (c.toNat + 32) else c

/-- The exponent at the end of a numeral: 0 if there is none, and `none` if the text is not an
exponent. -/
def exponentOf? : List Char → Option Int
  | [] => some 0
  | c :: rest =>
    if c = 'e' ∨ c = 'E' then
      let (negative, digits) := splitSign rest
      if digits.isEmpty || !digits.all isDigit then none
      else some (if negative then -(valueOf digits : Int) else valueOf digits)
    else none

/-- A decimal without sign: digits with or without a point, and an exponent. -/
def decimal? (negative : Bool) (cs : List Char) : Option Binary64 :=
  let whole := cs.takeWhile isDigit
  let rest := cs.dropWhile isDigit
  let (places, tail) := match rest with
    | '.' :: after => (after.takeWhile isDigit, after.dropWhile isDigit)
    | _ => ([], rest)
  if whole.isEmpty && places.isEmpty then none
  else
    (exponentOf? tail).map fun exponent =>
      Binary64.ofDecimal negative (valueOf (whole ++ places)) (exponent - places.length)

/-- The texts of numbers that have no digits. -/
def special? (negative : Bool) (cs : List Char) : Option Binary64 :=
  let word := String.ofList (cs.map asciiLower)
  if word = "inf" ∨ word = "infinity" then some (.infinite negative)
  else if word = "nan" then some .nan
  else none

/-- A number of floating point written as text. -/
def floatNumber (text : CodeText) : Except NumeralError Binary64 :=
  match dropUnderscores ' ' (plain text) with
  | none => .error (.notFloat text)
  | some cs =>
    let (negative, rest) := splitSign cs
    match special? negative rest <|> decimal? negative rest with
    | some x => .ok x
    | none => .error (.notFloat text)

end Numeral

end TopPatterns

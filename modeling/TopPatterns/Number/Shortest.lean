import TopPatterns.Number.Binary64

/-!
# The shortest decimal of a number

The text of a finite number has the fewest digits that read back as the number, and of the texts
with so few digits the one nearest to it. `shortest` finds the digits: on the grid of `n` decimal
digits it tries the two neighbours of the number, for `n` from 1 to 17. Seventeen digits always
read back.
-/

namespace TopPatterns.Binary64

/-- How many zeros follow the point before the first digit of a quotient below one, at most
`steps`. -/
def leadingZeros : Nat → Nat → Nat → Nat
  | 0, _, _ => 0
  | steps + 1, num, den => if den ≤ num * 10 then 0 else leadingZeros steps (num * 10) den + 1

/-- The place of the first digit of a quotient: how many digits stand before the point, or, below
one, minus the number of zeros after it. -/
def pointPlace (num den : Nat) : Int :=
  if den ≤ num then ((Nat.toDigits 10 (num / den)).length : Int)
  else -(leadingZeros 330 num den : Int)

/-- Of the two neighbours of a number on the grid of multiples of `10 ^ exponent`, the one that
reads back as the number; if both do, the nearer one, and half-way between them the even one. -/
def onGrid? (m : Nat) (e : Int) (exponent : Int) : Option Nat :=
  let (num, den) := fraction m e
  let scaledNum := num * Nat.pow 10 (-exponent).toNat
  let scaledDen := den * Nat.pow 10 exponent.toNat
  let low := scaledNum / scaledDen
  let readsBack (digits : Nat) : Bool := ofDecimal false digits exponent = .finite false m e
  match readsBack low, readsBack (low + 1) with
  | true, true => some (roundHalfEven scaledNum scaledDen)
  | true, false => some low
  | false, true => some (low + 1)
  | false, false => none

/-- The digits of the shortest decimal and its exponent, trying grids of at least `count` digits
and no more than `count + steps`. -/
def shortestFrom (m : Nat) (e : Int) (place : Int) : Nat → Nat → Nat × Int
  | 0, count => (((onGrid? m e (place - count)).getD 0), place - count)
  | steps + 1, count =>
    match onGrid? m e (place - count) with
    | some digits => (digits, place - count)
    | none => shortestFrom m e place steps (count + 1)

/-- The digits of the shortest decimal that reads back as `m * 2 ^ e`, and its exponent. -/
def shortest (m : Nat) (e : Int) : Nat × Int :=
  shortestFrom m e (pointPlace (fraction m e).1 (fraction m e).2) 16 1

/-- The digits of a number without the zeros at their end, and how many those are; at least one
digit stays. -/
def dropZeros : List Char → List Char
  | [] => []
  | c :: cs =>
    match dropZeros cs with
    | [] => if c = '0' then [] else [c]
    | rest => c :: rest

/-- An exponent: a sign and at least two digits. -/
def exponentText (e : Int) : String :=
  (if e < 0 then "e-" else "e+") ++ (if e.natAbs < 10 then "0" else "") ++ toString e.natAbs

/-- Digits with the point at a place: written out from four zeros after the point up to sixteen
digits before it, and with an exponent beyond. A whole number written out ends in `.0`. -/
def placeDigits (digits : List Char) (place : Int) : String :=
  if -4 < place ∧ place ≤ 16 then
    if place ≤ 0 then
      "0." ++ String.ofList (List.replicate (-place).toNat '0' ++ digits)
    else
      let whole := digits.take place.toNat
      let zeros := List.replicate (place.toNat - digits.length) '0'
      let rest := digits.drop place.toNat
      String.ofList (whole ++ zeros ++ ('.' :: if rest.isEmpty then ['0'] else rest))
  else
    match digits with
    | [] => "0.0"
    | d :: rest =>
      String.ofList (d :: if rest.isEmpty then [] else '.' :: rest) ++ exponentText (place - 1)

/-- A number as a text. -/
def label : Binary64 → String
  | .nan => "nan"
  | .infinite negative => if negative then "-inf" else "inf"
  | .finite negative m e =>
    let sign := if negative then "-" else ""
    if m = 0 then sign ++ "0.0"
    else
      let (digits, exponent) := shortest m e
      let written := Nat.toDigits 10 digits
      sign ++ placeDigits (dropZeros written) (written.length + exponent)

end TopPatterns.Binary64

namespace TopPatterns

/-- A number of units of `10 ^ -places` with a point and exactly that many places. -/
def fixedText (places units : Nat) : String :=
  let digits := Nat.toDigits 10 units
  let padded := List.replicate (places + 1 - digits.length) '0' ++ digits
  let whole := padded.length - places
  String.ofList (padded.take whole ++ '.' :: padded.drop whole)

end TopPatterns

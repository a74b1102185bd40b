import TopPatterns.Text.Canonical.Classes
import TopPatterns.Text.Canonical.Pairs
import TopPatterns.Text.Canonical.Singles

/-!
# Canonical composition

Texts that differ only in how an accented letter is encoded have one composed form. `compose`
takes every character apart (`decomposeText`), brings the marks after each letter into their
canonical order (`reorder`) and joins letters with marks again (`joinFrom`).
-/

namespace TopPatterns.Text

/-! ## Hangul syllables -/

/-- The leading consonant, vowel and, if there is one, trailing consonant of a syllable. -/
def syllableParts? (n : Nat) : Option (List Nat) :=
  if 0xAC00 ≤ n ∧ n < 0xAC00 + 11172 then
    let index := n - 0xAC00
    let leading := 0x1100 + index / 588
    let vowel := 0x1161 + index % 588 / 28
    let trailing := index % 28
    some (if trailing = 0 then [leading, vowel] else [leading, vowel, 0x11A7 + trailing])
  else none

/-- The syllable of a leading consonant and a vowel, or of such a syllable and a trailing
consonant. -/
def syllableOf? (first second : Nat) : Option Nat :=
  if 0x1100 ≤ first ∧ first < 0x1100 + 19 ∧ 0x1161 ≤ second ∧ second < 0x1161 + 21 then
    some (0xAC00 + ((first - 0x1100) * 21 + (second - 0x1161)) * 28)
  else if 0xAC00 ≤ first ∧ first < 0xAC00 + 11172 ∧ (first - 0xAC00) % 28 = 0 ∧
      0x11A7 < second ∧ second < 0x11A7 + 28 then
    some (first + (second - 0x11A7))
  else none

/-! ## Taking characters apart -/

/-- The pair of a code point in a table in ascending order. -/
def pairFrom? : List (Nat × Nat × Nat) → Nat → Option (Nat × Nat)
  | [], _ => none
  | (whole, first, second) :: rest, n =>
    if n < whole then none else if n = whole then some (first, second) else pairFrom? rest n

/-- The character that a code point duplicates, in a table of runs in ascending order. -/
def duplicateFrom? : List (Nat × List Nat) → Nat → Option Nat
  | [], _ => none
  | (start, targets) :: rest, n =>
    if n < start then none
    else match targets[n - start]? with
      | some target => some target
      | none => duplicateFrom? rest n

/-- One step of taking a code point apart: its parts, or `none` if it has none. -/
def partsOf? (n : Nat) : Option (List Nat) :=
  match syllableParts? n with
  | some parts => some parts
  | none =>
    match pairFrom? composites n <|> pairFrom? decomposedOnly n with
    | some (first, second) => some [first, second]
    | none => (duplicateFrom? duplicateRuns n).map fun target => [target]

/-- How many steps take any character apart: no chain of canonical pairs is longer. -/
def decompositionSteps : Nat := 3

/-- A code point taken apart in at most the given number of steps. -/
def decomposeIn : Nat → Nat → List Nat
  | 0, n => [n]
  | steps + 1, n =>
    match partsOf? n with
    | none => [n]
    | some parts => parts.flatMap (decomposeIn steps)

/-- A character taken apart. -/
def decomposeChar (c : Char) : List Char := (decomposeIn decompositionSteps c.toNat).map Char.ofNat

/-- A text with every character taken apart. -/
def decomposeText (cs : List Char) : List Char := cs.flatMap decomposeChar

/-! ## The order of marks -/

/-- Puts a character before an ordered text: it moves past the marks of a lower class. -/
def placeMark (c : Char) : List Char → List Char
  | [] => [c]
  | d :: ds =>
    if 0 < combiningClass d ∧ combiningClass d < combiningClass c then d :: placeMark c ds
    else c :: d :: ds

/-- A text with the marks after each letter in the order of their classes; marks of one class
keep their order. -/
def reorder (cs : List Char) : List Char := cs.foldr placeMark []

theorem placeMark_perm (c : Char) (ds : List Char) : (placeMark c ds).Perm (c :: ds) := by
  induction ds with
  | nil => exact .refl _
  | cons d ds ih =>
    rw [placeMark]
    split
    · exact (ih.cons d).trans (.swap c d ds)
    · exact .refl _

/-- Reordering loses no character. -/
theorem reorder_perm (cs : List Char) : (reorder cs).Perm cs := by
  induction cs with
  | nil => exact .refl _
  | cons c cs ih => exact (placeMark_perm c _).trans (ih.cons c)

/-! ## Joining letters with marks -/

/-- The character of a pair in a table of composites. -/
def compositeFrom? : List (Nat × Nat × Nat) → Nat → Nat → Option Nat
  | [], _, _ => none
  | (whole, first, second) :: rest, a, b =>
    if first = a ∧ second = b then some whole else compositeFrom? rest a b

/-- The one character that two characters join to. No second character lies below U+0300. -/
def compositeOf? (a b : Char) : Option Char :=
  if b.toNat < 0x0300 then none
  else (syllableOf? a.toNat b.toNat <|> compositeFrom? composites a.toNat b.toNat).map Char.ofNat

/-- Joins the letters of an ordered text with their marks. The pair holds the last letter and the
marks after it that did not join, last one first. A mark may join the letter unless the mark right
before it has the same or a higher class. -/
def joinFrom : Option (Char × List Char) → List Char → List Char
  | none, [] => []
  | none, c :: cs =>
    if combiningClass c = 0 then joinFrom (some (c, [])) cs else c :: joinFrom none cs
  | some (letter, marks), [] => letter :: marks.reverse
  | some (letter, marks), c :: cs =>
    let reaches := match marks with
      | [] => true
      | mark :: _ => decide (combiningClass mark < combiningClass c)
    match if reaches then compositeOf? letter c else none with
    | some whole => joinFrom (some (whole, marks)) cs
    | none =>
      if combiningClass c = 0 then letter :: (marks.reverse ++ joinFrom (some (c, [])) cs)
      else joinFrom (some (letter, c :: marks)) cs

/-- The composed form of a text. -/
def compose (cs : List Char) : List Char := joinFrom none (reorder (decomposeText cs))

@[simp] theorem compose_nil : compose [] = [] := rfl

end TopPatterns.Text

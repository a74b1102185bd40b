/-!
# Characters by class, and the cutting of texts

A character property is given by a list of ranges in ascending order, so a search can stop at the
first range that lies above the code point (`covers`).

A character is blank if it separates words or lines: the spaces of every script, the line and
paragraph separators, and the controls from tab to carriage return and from file separator to unit
separator. `trim` takes the blank characters from both ends of a text, `lines` cuts a text at every
line boundary that Unicode knows, and `splitOn` cuts a line at every occurrence of a separator
(`splitOn_eq_singleton` is the case without an occurrence).

Digits are the decimal digits of every script, and the hexadecimal ones, written in lower case and
padded with zeros to a width (`hexPadded_length`).
-/

set_option maxRecDepth 8000

namespace TopPatterns.Text

/-! ## Ranges of code points -/

/-- First and last code point of a range, both included. -/
abbrev CodeRange := Nat × Nat

/-- Whether one of the ranges, given in ascending order, covers a code point. -/
def covers : List CodeRange → Nat → Bool
  | [], _ => false
  | (first, last) :: rest, n =>
    if n < first then false else if n ≤ last then true else covers rest n

theorem covers_nil (n : Nat) : covers [] n = false := rfl

theorem covers_cons (first last n : Nat) (rest : List CodeRange) :
    covers ((first, last) :: rest) n =
      if n < first then false else if n ≤ last then true else covers rest n := rfl

/-! ## Blank characters and trimming -/

/-- The code points that are blank. -/
def blankRanges : List CodeRange :=
  [
    (0x0009, 0x000D), (0x001C, 0x0020), (0x0085, 0x0085), (0x00A0, 0x00A0), (0x1680, 0x1680),
    (0x2000, 0x200A), (0x2028, 0x2029), (0x202F, 0x202F), (0x205F, 0x205F), (0x3000, 0x3000)
  ]

/-- Whether a character separates words or lines. -/
def isBlank (c : Char) : Bool := covers blankRanges c.toNat

/-- A text without the elements of one kind at its two ends. -/
def trimOf {α : Type} (drop : α → Bool) (cs : List α) : List α :=
  ((cs.dropWhile drop).reverse.dropWhile drop).reverse

/-- A text without the blank characters at its two ends. -/
def trim (cs : List Char) : List Char := trimOf isBlank cs

/-- Whether a text has no character that is not blank. -/
def isBlankText (cs : List Char) : Bool := cs.all isBlank

/-! ## Lines and fields -/

/-- Whether a character ends a line: line feed, vertical tab, form feed, carriage return, the
separators of files, groups and records, next line, and the line and paragraph separators. -/
def isLineEnd (c : Char) : Bool :=
  c = '\n' || c = '\x0b' || c = '\x0c' || c = '\r' || c = '\x1c' || c = '\x1d' || c = '\x1e' ||
    c = '\u0085' || c = '\u2028' || c = '\u2029'

/-- The lines of a text after `line`, the characters of the current line read so far, last one
first. A carriage return with a line feed after it ends one line, and the end of the text ends a
line only if that line has characters. -/
def linesFrom (line : List Char) : List Char → List (List Char)
  | [] => if line.isEmpty then [] else [line.reverse]
  | '\r' :: '\n' :: rest => line.reverse :: linesFrom [] rest
  | c :: rest =>
    if isLineEnd c then line.reverse :: linesFrom [] rest else linesFrom (c :: line) rest

theorem linesFrom_nil (line : List Char) :
    linesFrom line [] = if line.isEmpty then [] else [line.reverse] := rfl

/-- A carriage return and the line feed after it end one line. -/
theorem linesFrom_return (line rest : List Char) :
    linesFrom line ('\r' :: '\n' :: rest) = line.reverse :: linesFrom [] rest := rfl

/-- Any other character ends a line alone or joins it. -/
theorem linesFrom_cons {c : Char} {rest : List Char} (h : ∀ more, c = '\r' → rest ≠ '\n' :: more)
    (line : List Char) : linesFrom line (c :: rest) =
      if isLineEnd c then line.reverse :: linesFrom [] rest else linesFrom (c :: line) rest := by
  rw [linesFrom.eq_def]
  split
  · next heq => cases heq
  · next more heq =>
    obtain ⟨hc, hrest⟩ := List.cons.inj heq
    exact absurd hrest (h more hc)
  · next heq =>
    obtain ⟨rfl, rfl⟩ := List.cons.inj heq
    rfl

/-- The lines of a text, without their ends. -/
def lines (cs : List Char) : List (List Char) := linesFrom [] cs

/-- The fields of a text after `field`, the characters of the current field read so far, last one
first; the first `skip` characters belong to a separator already found. -/
def splitFrom (sep : List Char) (skip : Nat) (field : List Char) : List Char → List (List Char)
  | [] => [field.reverse]
  | c :: rest =>
    match skip with
    | skip + 1 => splitFrom sep skip field rest
    | 0 =>
      if sep.isPrefixOf (c :: rest) then
        field.reverse :: splitFrom sep (sep.length - 1) [] rest
      else splitFrom sep 0 (c :: field) rest

/-- The fields between the occurrences of a separator that is not empty, found from the left. -/
def splitOn (sep cs : List Char) : List (List Char) := splitFrom sep 0 [] cs

/-- A text in which no character starts the separator is one field. -/
theorem splitOn_eq_singleton {d : Char} {sep cs : List Char} (h : d ∉ cs) :
    splitOn (d :: sep) cs = [cs] := by
  have go : ∀ field, splitFrom (d :: sep) 0 field cs = [field.reverse ++ cs] := by
    induction cs with
    | nil => simp [splitFrom]
    | cons c rest ih =>
      intro field
      have hc : d ≠ c := fun e => h (e ▸ List.mem_cons_self ..)
      have hr : d ∉ rest := fun m => h (List.mem_cons_of_mem _ m)
      simp [splitFrom, List.isPrefixOf, hc, ih hr]
  simpa [splitOn] using go []

/-! ## Decimal digits

Unicode 14.0 encodes decimal digits in runs of ten, zero first, so a run is given by its zero. -/

/-- The zeros of the runs of decimal digits, in ascending order. -/
def decimalZeros : List Nat :=
  [
    0x0030, 0x0660, 0x06F0, 0x07C0, 0x0966, 0x09E6, 0x0A66, 0x0AE6, 0x0B66, 0x0BE6, 0x0C66,
    0x0CE6, 0x0D66, 0x0DE6, 0x0E50, 0x0ED0, 0x0F20, 0x1040, 0x1090, 0x17E0, 0x1810, 0x1946,
    0x19D0, 0x1A80, 0x1A90, 0x1B50, 0x1BB0, 0x1C40, 0x1C50, 0xA620, 0xA8D0, 0xA900, 0xA9D0,
    0xA9F0, 0xAA50, 0xABF0, 0xFF10, 0x104A0, 0x10D30, 0x11066, 0x110F0, 0x11136, 0x111D0,
    0x112F0, 0x11450, 0x114D0, 0x11650, 0x116C0, 0x11730, 0x118E0, 0x11950, 0x11C50, 0x11D50,
    0x11DA0, 0x16A60, 0x16AC0, 0x16B50, 0x1D7CE, 0x1D7D8, 0x1D7E2, 0x1D7EC, 0x1D7F6, 0x1E140,
    0x1E2F0, 0x1E950, 0x1FBF0
  ]

/-- The value of a code point as a decimal digit, looked up in a list of zeros. -/
def digitFrom : List Nat → Nat → Option Nat
  | [], _ => none
  | start :: rest, n =>
    if n < start then none else if n < start + 10 then some (n - start) else digitFrom rest n

/-- The value of a character as a decimal digit of its script. -/
def decimalDigit? (c : Char) : Option Nat := digitFrom decimalZeros c.toNat

/-! ## Hexadecimal digits -/

/-- The digit of a value below 16. -/
def hexDigit (n : Nat) : Char := if n < 10 then Char.ofNat (48 + n) else Char.ofNat (87 + n)

/-- The last `width` hexadecimal digits of a number. -/
def hexPadded : Nat → Nat → List Char
  | 0, _ => []
  | width + 1, n => hexPadded width (n / 16) ++ [hexDigit (n % 16)]

theorem hexPadded_length (width n : Nat) : (hexPadded width n).length = width := by
  induction width generalizing n with
  | zero => rfl
  | succ width ih => simp [hexPadded, ih]

/-- The value of a hexadecimal digit. -/
def hexValue? (c : Char) : Option Nat :=
  if '0' ≤ c ∧ c ≤ '9' then some (c.toNat - 48)
  else if 'a' ≤ c ∧ c ≤ 'f' then some (c.toNat - 87)
  else if 'A' ≤ c ∧ c ≤ 'F' then some (c.toNat - 55)
  else none

end TopPatterns.Text

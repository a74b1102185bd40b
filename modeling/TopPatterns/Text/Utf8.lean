/-!
# UTF-8 and sets of one byte

`Utf8.decode` reads well-formed UTF-8 only: no overlong form, no surrogate, nothing above U+10FFFF
and no sequence cut short. `Utf8.decodeIgnoring` reads any bytes and passes over what is not well
formed. `Utf8.encode` writes UTF-8. Latin-1 reads every byte as the character of that number, and
Windows-1252 has printed characters in the place of 27 controls and leaves five bytes without one.
-/

namespace TopPatterns.Text

/-- Whether a byte continues a sequence. -/
def isTail (b : UInt8) : Bool := 0x80 ≤ b && b ≤ 0xBF

/-- The six bits that a continuing byte carries. -/
def tailBits (b : UInt8) : Nat := b.toNat % 64

/-- The character of a sequence of two bytes. -/
def charOfTwo (a b : UInt8) : Option Char :=
  if 0xC2 ≤ a && a ≤ 0xDF && isTail b then some (Char.ofNat (a.toNat % 32 * 64 + tailBits b))
  else none

/-- The character of a sequence of three bytes: the second byte is bounded after `E0`, so that no
shorter form exists, and after `ED`, so that no surrogate arises. -/
def charOfThree (a b c : UInt8) : Option Char :=
  if 0xE0 ≤ a && a ≤ 0xEF && isTail b && isTail c && !(a = 0xE0 && b < 0xA0) &&
      !(a = 0xED && 0xA0 ≤ b) then
    some (Char.ofNat (a.toNat % 16 * 4096 + tailBits b * 64 + tailBits c))
  else none

/-- The character of a sequence of four bytes: the second byte is bounded after `F0`, so that no
shorter form exists, and after `F4`, so that the character lies within Unicode. -/
def charOfFour (a b c d : UInt8) : Option Char :=
  if 0xF0 ≤ a && a ≤ 0xF4 && isTail b && isTail c && isTail d && !(a = 0xF0 && b < 0x90) &&
      !(a = 0xF4 && 0x90 ≤ b) then
    some (Char.ofNat
      (a.toNat % 8 * 262144 + tailBits b * 4096 + tailBits c * 64 + tailBits d))
  else none

/-- The text of a byte sequence, or `none` if the sequence is not well formed. -/
def Utf8.decode : List UInt8 → Option (List Char)
  | [] => some []
  | a :: rest =>
    if a < 0x80 then (decode rest).map (Char.ofNat a.toNat :: ·)
    else match rest with
      | [] => none
      | b :: rest =>
        match charOfTwo a b with
        | some x => (decode rest).map (x :: ·)
        | none =>
          match rest with
          | [] => none
          | c :: rest =>
            match charOfThree a b c with
            | some x => (decode rest).map (x :: ·)
            | none =>
              match rest with
              | [] => none
              | d :: rest =>
                match charOfFour a b c d with
                | some x => (decode rest).map (x :: ·)
                | none => none

/-- The text of a byte sequence that may have faults: a byte at which no well-formed sequence begins
is passed over. So the bytes of a sequence that is cut short go one after the other, since none of
its later bytes begins another one. -/
def Utf8.decodeIgnoring : List UInt8 → List Char
  | [] => []
  | a :: rest =>
    if a < 0x80 then Char.ofNat a.toNat :: decodeIgnoring rest
    else match rest with
      | [] => []
      | b :: two =>
        match charOfTwo a b with
        | some x => x :: decodeIgnoring two
        | none =>
          match two with
          | [] => decodeIgnoring [b]
          | c :: three =>
            match charOfThree a b c with
            | some x => x :: decodeIgnoring three
            | none =>
              match three with
              | [] => decodeIgnoring [b, c]
              | d :: four =>
                match charOfFour a b c d with
                | some x => x :: decodeIgnoring four
                | none => decodeIgnoring (b :: c :: d :: four)

/-- The bytes of a character. -/
def Utf8.encodeChar (c : Char) : List UInt8 :=
  let n := c.toNat
  if n < 0x80 then [n.toUInt8]
  else if n < 0x800 then [(0xC0 + n / 64).toUInt8, (0x80 + n % 64).toUInt8]
  else if n < 0x10000 then
    [(0xE0 + n / 4096).toUInt8, (0x80 + n / 64 % 64).toUInt8, (0x80 + n % 64).toUInt8]
  else
    [(0xF0 + n / 262144).toUInt8, (0x80 + n / 4096 % 64).toUInt8, (0x80 + n / 64 % 64).toUInt8,
      (0x80 + n % 64).toUInt8]

/-- The bytes of a text. -/
def Utf8.encode (cs : List Char) : List UInt8 := cs.flatMap encodeChar

/-- A text without a byte order mark at its start. -/
def dropMark : List Char → List Char
  | '\uFEFF' :: rest => rest
  | cs => cs

/-- The bytes of the byte order mark. -/
def Utf8.mark : List UInt8 := [0xEF, 0xBB, 0xBF]

/-- A byte sequence without a byte order mark at its start. -/
def Utf8.afterMark (bytes : List UInt8) : List UInt8 :=
  if mark.isPrefixOf bytes then bytes.drop mark.length else bytes

/-- The text of a byte sequence with a character for each byte. -/
def Latin1.decode (bytes : List UInt8) : List Char := bytes.map fun b => Char.ofNat b.toNat

/-- The characters of the bytes from `80` to `9F`. -/
def Windows1252.printed : List (Option Char) :=
  [some '€', none, some '‚', some 'ƒ', some '„', some '…', some '†', some '‡',
    some 'ˆ', some '‰', some 'Š', some '‹', some 'Œ', none, some 'Ž', none,
    none, some '‘', some '’', some '“', some '”', some '•', some '–', some '—',
    some '˜', some '™', some 'š', some '›', some 'œ', none, some 'ž', some 'Ÿ']

/-- The character of a byte, if it has one. -/
def Windows1252.char? (b : UInt8) : Option Char :=
  if 0x80 ≤ b ∧ b < 0xA0 then (printed[b.toNat - 0x80]?).join else some (Char.ofNat b.toNat)

end TopPatterns.Text

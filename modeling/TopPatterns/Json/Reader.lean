import TopPatterns.Json.Value
import TopPatterns.Number.Numeral
import TopPatterns.Text.Utf8

/-!
# Reading JSON

`Json.read` reads one value and reports the first place at which the text stops being JSON, with
the line, the column and the number of characters before it. `NaN`, `Infinity` and `-Infinity` are
read as numbers; a number with a point or an exponent is one of floating point. Of fields of one
name the last one counts. Half of a surrogate pair may stand in a text as it is or as an escape.
Lists and objects may lie in each other down to a depth, `depthLimit`.

A reading step takes the rest of the text and answers with a value and the rest after it. The steps
for values, lists and objects call each other. A bound on the depth of their calls makes them
total: of two calls inside each other at least one takes a character off, so a bound of twice the
length of the text is never met. `room` is how many lists and objects may still be opened inside
each other.

A JSON text given as bytes does not say how its characters are laid out. As it starts with two
characters of ASCII, or with one and ends there, the zeros among its first bytes do: `layoutOf`
finds the layout, and `decodeText` the code points. In units of two or four bytes, half of a
surrogate pair may stand alone.
-/

namespace TopPatterns.Json

/-- What is wrong at a place of a text. -/
inductive Fault where
  | expectingValue
  | expectingName
  | expectingColon
  | expectingComma
  | unterminatedString
  | controlCharacter
  | badEscape
  | badUnicodeEscape
  | extraData
  | byteOrderMark
deriving DecidableEq, Repr

/-- The wording of a fault. -/
def Fault.message : Fault → String
  | expectingValue => "Expecting value"
  | expectingName => "Expecting property name enclosed in double quotes"
  | expectingColon => "Expecting ':' delimiter"
  | expectingComma => "Expecting ',' delimiter"
  | unterminatedString => "Unterminated string starting at"
  | controlCharacter => "Invalid control character at"
  | badEscape => "Invalid \\escape"
  | badUnicodeEscape => "Invalid \\uXXXX escape"
  | extraData => "Extra data"
  | byteOrderMark => "Unexpected UTF-8 BOM (decode using utf-8-sig)"

/-- A value with parts. -/
inductive Nest where
  | array
  | object
deriving DecidableEq, Repr

/-- How many lists and objects may lie in each other. -/
def depthLimit : Nat := 980

/-- The wording for a value with parts that lies too deep. -/
def Nest.tooDeepMessage (nest : Nest) : String :=
  "maximum recursion depth exceeded while decoding a JSON " ++
    (match nest with
      | array => "array"
      | object => "object") ++ " from a unicode string"

/-- Why a text is not read: a fault at a number of characters from the start, a whole number of too
many digits, or a list or an object that lies too deep. -/
inductive Stop where
  | fault (fault : Fault) (offset : Nat)
  | tooManyDigits (digits : Nat)
  | tooDeep (nest : Nest)
deriving DecidableEq, Repr

/-- The rest of a text and the number of characters before it. -/
structure Cursor where
  offset : Nat
  rest : CodeText

/-- Whether a code point may stand between the parts of a value. -/
def isSpace : CodePoint → Bool
  | .char c => c = ' ' || c = '\t' || c = '\n' || c = '\r'
  | .half _ => false

/-- Passes over a number of characters. -/
def Cursor.skip (c : Cursor) (n : Nat) : Cursor := ⟨c.offset + n, c.rest.drop n⟩

/-- Passes over the spaces at a cursor. -/
def Cursor.skipSpace (c : Cursor) : Cursor := c.skip (c.rest.takeWhile isSpace).length

/-- A fault at a cursor. -/
def Cursor.stop (c : Cursor) (fault : Fault) : Stop := .fault fault c.offset

/-! ## Texts -/

/-- The character of a short escape. -/
def shortEscape? (c : Char) : Option Char :=
  match c with
  | '"' => some '"'
  | '\\' => some '\\'
  | '/' => some '/'
  | 'b' => some '\x08'
  | 'f' => some '\x0c'
  | 'n' => some '\n'
  | 'r' => some '\r'
  | 't' => some '\t'
  | _ => none

/-- The value of four hexadecimal digits at the start of a text that goes on after them. -/
def unit? : CodeText → Option Nat
  | .char a :: .char b :: .char c :: .char d :: _ :: _ =>
    match Text.hexValue? a, Text.hexValue? b, Text.hexValue? c, Text.hexValue? d with
    | some a, some b, some c, some d => some (((a * 16 + b) * 16 + c) * 16 + d)
    | _, _, _, _ => none
  | _ => none

/-- The code point of an escape, given the text after its backslash, and how many characters of
that text it takes: two escapes of the halves of a surrogate pair are one character. A fault comes
with its distance from the backslash. -/
def escape (t : CodeText) : Except (Fault × Nat) (CodePoint × Nat) :=
  match t with
  | .char 'u' :: rest =>
    match unit? rest with
    | none => .error (.badUnicodeEscape, 1)
    | some high =>
      if 0xD800 ≤ high ∧ high < 0xDC00 then
        match rest.drop 4 with
        | .char '\\' :: .char 'u' :: more =>
          if (more.drop 4).isEmpty then .ok (.ofNat high, 5)
          else match unit? more with
            | none => .error (.badUnicodeEscape, 7)
            | some low =>
              if 0xDC00 ≤ low ∧ low < 0xE000 then
                .ok (.ofNat (CodePoint.joinHalves high low), 11)
              else .ok (.ofNat high, 5)
        | _ => .ok (.ofNat high, 5)
      else .ok (.ofNat high, 5)
  | point :: _ =>
    match point.char?.bind shortEscape? with
    | some d => .ok (.char d, 1)
    | none => .error (.badEscape, 0)
  | [] => .error (.unterminatedString, 0)

/-- Reads a text up to its closing quote. `start` is the place of the opening quote, `read` holds
the code points read so far, last one first, and the first `skip` code points belong to an escape
already read. -/
def readPoints (start : Nat) (read : CodeText) (skip offset : Nat) :
    CodeText → Except Stop (CodeText × Cursor)
  | [] => .error (.fault .unterminatedString start)
  | point :: rest =>
    match skip with
    | skip + 1 => readPoints start read skip (offset + 1) rest
    | 0 =>
      if point = .char '"' then .ok (read.reverse, ⟨offset + 1, rest⟩)
      else if point = .char '\\' then
        match escape rest with
        | .ok (escaped, taken) => readPoints start (escaped :: read) taken (offset + 1) rest
        | .error (.unterminatedString, _) => .error (.fault .unterminatedString start)
        | .error (fault, distance) => .error (.fault fault (offset + distance))
      else if point.toNat < 0x20 then .error (.fault .controlCharacter offset)
      else readPoints start (point :: read) 0 (offset + 1) rest

/-- Reads a text at its opening quote. -/
def readString (c : Cursor) : Except Stop (CodeText × Cursor) :=
  readPoints c.offset [] 0 (c.offset + 1) c.rest.tail

/-! ## Numbers -/

/-- The exponent at the start of a text, and how many characters it takes; nothing if no digit
follows the letter. -/
def exponentAt (cs : List Char) : Option (Int × Nat) :=
  match cs with
  | [] => none
  | c :: rest =>
    if c = 'e' ∨ c = 'E' then
      let (negative, digits) := Numeral.splitSign rest
      let run := digits.takeWhile Numeral.isDigit
      if run.isEmpty then none
      else
        let value : Int := Numeral.valueOf run
        some (if negative then -value else value, 1 + Numeral.signLength rest + run.length)
    else none

/-- The digits after a point at the start of a text; none if no digit follows the point. -/
def placesAt : List Char → List Char
  | '.' :: rest => rest.takeWhile Numeral.isDigit
  | _ => []

/-- The digits in front of a number: a zero alone, or digits that do not start with one. -/
def wholeAt (cs : List Char) : List Char :=
  match cs with
  | '0' :: _ => ['0']
  | _ => cs.takeWhile Numeral.isDigit

/-- Whether a code point may stand in a number. -/
def isNumeric : CodePoint → Bool
  | .char c => Numeral.isDigit c || c = '-' || c = '+' || c = '.' || c = 'e' || c = 'E'
  | .half _ => false

/-- Reads a number, given the characters after its sign and how many the sign has. -/
def readUnsigned (negative : Bool) (signLength : Nat) (cs : List Char) (c : Cursor) :
    Except Stop (Json × Cursor) :=
  let whole := wholeAt cs
  if whole.isEmpty then .error (c.stop .expectingValue)
  else
    let afterWhole := cs.drop whole.length
    let places := placesAt afterWhole
    let pointLength := if places.isEmpty then 0 else places.length + 1
    let length := signLength + whole.length + pointLength
    let digits := Numeral.valueOf (whole ++ places)
    match exponentAt (afterWhole.drop pointLength), places.isEmpty with
    | none, true =>
      if digitLimit < whole.length then .error (.tooManyDigits whole.length)
      else .ok (.int (if negative then -(digits : Int) else digits), c.skip length)
    | none, false =>
      .ok (.float (Binary64.ofDecimal negative digits (-places.length)), c.skip length)
    | some (exponent, taken), _ =>
      .ok (.float (Binary64.ofDecimal negative digits (exponent - places.length)),
        c.skip (length + taken))

/-- Reads a number. -/
def readNumber (c : Cursor) : Except Stop (Json × Cursor) :=
  match CodeText.toChars (c.rest.takeWhile isNumeric) with
  | '-' :: cs => readUnsigned true 1 cs c
  | cs => readUnsigned false 0 cs c

/-- The words that stand for values. -/
def words : List (CodeText × Json) :=
  [("null", .null), ("true", .bool true), ("false", .bool false), ("NaN", .float .nan),
    ("Infinity", .float (.infinite false)), ("-Infinity", .float (.infinite true))]

/-- The word at the start of a text. -/
def wordAt? (t : CodeText) : Option (CodeText × Json) := words.find? fun w => w.1.isPrefixOf t

/-- Reads a value that has no parts: a word or a number. -/
def readScalar (c : Cursor) : Except Stop (Json × Cursor) :=
  match wordAt? c.rest with
  | some (word, value) => .ok (value, c.skip word.length)
  | none => readNumber c

/-! ## Values -/

/-- Reads the name of a field and the colon after it. -/
def readName (c : Cursor) : Except Stop (CodeText × Cursor) :=
  match c.rest with
  | .char '"' :: _ => do
    let (name, c) ← readString c
    let c := c.skipSpace
    match c.rest with
    | .char ':' :: _ => .ok (name, (c.skip 1).skipSpace)
    | _ => .error (c.stop .expectingColon)
  | _ => .error (c.stop .expectingName)

mutual

/-- Reads a value. -/
def readValue : Nat → Nat → Cursor → Except Stop (Json × Cursor)
  | 0, _, c => .error (c.stop .expectingValue)
  | level + 1, room, c =>
    match c.rest with
    | .char '"' :: _ => (readString c).map fun (s, c) => (.string s, c)
    | .char '[' :: _ =>
      match room with
      | 0 => .error (.tooDeep .array)
      | room + 1 =>
        let c := (c.skip 1).skipSpace
        match c.rest with
        | .char ']' :: _ => .ok (.array [], c.skip 1)
        | _ => readItems level room [] c
    | .char '\x7b' :: _ =>
      match room with
      | 0 => .error (.tooDeep .object)
      | room + 1 =>
        let c := (c.skip 1).skipSpace
        match c.rest with
        | .char '\x7d' :: _ => .ok (.object [], c.skip 1)
        | _ => readFields level room [] c
    | _ => readScalar c

/-- Reads the items of a list from the next one on, after those already read, last one first. -/
def readItems : Nat → Nat → List Json → Cursor → Except Stop (Json × Cursor)
  | 0, _, _, c => .error (c.stop .expectingValue)
  | level + 1, room, read, c => do
    let (value, c) ← readValue level room c
    let c := c.skipSpace
    match c.rest with
    | .char ']' :: _ => .ok (.array (value :: read).reverse, c.skip 1)
    | .char ',' :: _ => readItems level room (value :: read) (c.skip 1).skipSpace
    | _ => .error (c.stop .expectingComma)

/-- Reads the fields of an object from the next one on, after those already read. -/
def readFields : Nat → Nat → List (CodeText × Json) → Cursor → Except Stop (Json × Cursor)
  | 0, _, _, c => .error (c.stop .expectingValue)
  | level + 1, room, fields, c => do
    let (name, c) ← readName c
    let (value, c) ← readValue level room c
    let fields := setField name value fields
    let c := c.skipSpace
    match c.rest with
    | .char '\x7d' :: _ => .ok (.object fields, c.skip 1)
    | .char ',' :: _ => readFields level room fields (c.skip 1).skipSpace
    | _ => .error (c.stop .expectingComma)

end

/-- Reads a text that holds one value and nothing else. -/
def readText (t : CodeText) : Except Stop Json :=
  match t with
  | .char '\uFEFF' :: _ => .error (.fault .byteOrderMark 0)
  | _ => do
    let (value, c) ← readValue (2 * t.length + 2) depthLimit (Cursor.skipSpace ⟨0, t⟩)
    let c := c.skipSpace
    if c.rest.isEmpty then .ok value else .error (c.stop .extraData)

/-! ## Places -/

/-- The line and the column of a place in a text, both counted from 1. -/
def placeOf (t : CodeText) (offset : Nat) : Nat × Nat :=
  let before := t.take offset
  (before.count (.char '\n') + 1, (before.reverse.takeWhile (· ≠ .char '\n')).length + 1)

/-- Why a text is not JSON. -/
inductive ReadError where
  | malformed (fault : Fault) (line column offset : Nat)
  | tooManyDigits (digits : Nat)
  | tooDeep (nest : Nest)
deriving DecidableEq, Repr

/-- The wording of an error. -/
def ReadError.message : ReadError → String
  | malformed fault line column offset =>
    fault.message ++ ": line " ++ toString line ++ " column " ++ toString column ++ " (char " ++
      toString offset ++ ")"
  | tooManyDigits digits => tooManyDigitsMessage digits
  | tooDeep nest => nest.tooDeepMessage

/-- A stop with its line and column. -/
def Stop.locate (t : CodeText) : Stop → ReadError
  | fault what offset => .malformed what (placeOf t offset).1 (placeOf t offset).2 offset
  | tooManyDigits digits => .tooManyDigits digits
  | tooDeep nest => .tooDeep nest

/-- Reads a text that holds one value and nothing else. -/
def read (text : String) : Except ReadError Json :=
  (readText text).mapError (Stop.locate text)

/-! ## Texts in bytes -/

/-- How the characters of a text are laid out in bytes: by UTF-8, or in units of two or of four
bytes, of which the high one comes first or last. -/
inductive Layout where
  | utf8
  | utf16 (highFirst : Bool)
  | utf32 (highFirst : Bool)
deriving DecidableEq, Repr

/-- The layout of a text, by the zeros among its first bytes. -/
def layoutOf : List UInt8 → Layout
  | [a, b] => if a = 0 then .utf16 true else if b = 0 then .utf16 false else .utf8
  | a :: b :: c :: d :: _ =>
    if a = 0 then if b = 0 then .utf32 true else .utf16 true
    else if b = 0 then if c = 0 ∧ d = 0 then .utf32 false else .utf16 false
    else .utf8
  | _ => .utf8

/-- The number that bytes make. -/
def numberOf (highFirst : Bool) (bytes : List UInt8) : Nat :=
  (if highFirst then bytes else bytes.reverse).foldl (fun n b => n * 256 + b.toNat) 0

/-- The units of two bytes each; nothing if a byte is left over. -/
def unitsOfTwo (highFirst : Bool) : List UInt8 → Option (List Nat)
  | [] => some []
  | a :: b :: rest => (unitsOfTwo highFirst rest).map (numberOf highFirst [a, b] :: ·)
  | _ => none

/-- The units of four bytes each; nothing if bytes are left over. -/
def unitsOfFour (highFirst : Bool) : List UInt8 → Option (List Nat)
  | [] => some []
  | a :: b :: c :: d :: rest =>
    (unitsOfFour highFirst rest).map (numberOf highFirst [a, b, c, d] :: ·)
  | _ => none

/-- The code points of units of 16 bits: a high half and a low one after it are one character. -/
def pointsOfUnits : List Nat → CodeText
  | [] => []
  | [unit] => [.ofNat unit]
  | high :: low :: rest =>
    if 0xD800 ≤ high ∧ high < 0xDC00 ∧ 0xDC00 ≤ low ∧ low < 0xE000 then
      .ofNat (CodePoint.joinHalves high low) :: pointsOfUnits rest
    else .ofNat high :: pointsOfUnits (low :: rest)

/-- The code points of units of 32 bits; nothing if one is too large. -/
def pointsOfWords (units : List Nat) : Option CodeText :=
  if units.all (· < 0x110000) then some (units.map .ofNat) else none

/-- The code points of a text in bytes, if the bytes are well formed. -/
def decodeText (bytes : List UInt8) : Option CodeText :=
  match layoutOf bytes with
  | .utf8 => (Text.Utf8.decode bytes).map fun cs => .ofChars (Text.dropMark cs)
  | .utf16 highFirst => (unitsOfTwo highFirst bytes).map pointsOfUnits
  | .utf32 highFirst => (unitsOfFour highFirst bytes).bind pointsOfWords

end TopPatterns.Json

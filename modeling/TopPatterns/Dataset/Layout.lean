import TopPatterns.Dataset.Cleaning
import TopPatterns.Text.Utf8

/-!
# The layout of a data file

A data file has one transaction on each line. Its encoding, the separator between items and a
header line are found out from the file: `encodingOf`, `separatorOf` and `headerLines`. `parse`
reads the transactions.
-/

namespace TopPatterns.Dataset

/-- The encodings of data files: UTF-8, UTF-8 with a byte order mark, Latin-1 and Windows-1252. -/
inductive Encoding where
  | utf8
  | utf8Mark
  | latin1
  | windows1252
deriving DecidableEq, Repr

namespace Encoding

/-- The name of an encoding. -/
def name : Encoding → String
  | utf8 => "utf-8"
  | utf8Mark => "utf-8-sig"
  | latin1 => "latin-1"
  | windows1252 => "cp1252"

/-- The text of a byte sequence, if the sequence is well formed. -/
def decode? : Encoding → List UInt8 → Option (List Char)
  | utf8, bytes => Text.Utf8.decode bytes
  | utf8Mark, bytes => Text.Utf8.decode (Text.Utf8.afterMark bytes)
  | latin1, bytes => some (Text.Latin1.decode bytes)
  | windows1252, bytes => bytes.mapM Text.Windows1252.char?

/-- The text of a byte sequence; what is not well formed is left out. -/
def decodeIgnoring : Encoding → List UInt8 → List Char
  | utf8, bytes => Text.Utf8.decodeIgnoring bytes
  | utf8Mark, bytes => Text.Utf8.decodeIgnoring (Text.Utf8.afterMark bytes)
  | latin1, bytes => Text.Latin1.decode bytes
  | windows1252, bytes => bytes.filterMap Text.Windows1252.char?

/-- The encodings that are tried, one after the other. -/
def tried : List Encoding := [utf8, utf8Mark, latin1, windows1252]

end Encoding

/-- The encoding of a file: the first one of those tried in which its bytes are well formed. -/
def encodingOf (bytes : List UInt8) : Encoding :=
  (Encoding.tried.find? fun e => (e.decode? bytes).isSome).getD .utf8

/-- The encoding of what may be no file at all; UTF-8 is assumed where there are no bytes. -/
def encodingOf? (bytes : Option (List UInt8)) : Encoding :=
  match bytes with
  | none => .utf8
  | some bytes => encodingOf bytes

/-- The text of a file in the encoding found out. -/
def decode (bytes : List UInt8) : List Char := (encodingOf bytes).decodeIgnoring bytes

/-- The separators that a text may use, those tried first in front. -/
def separators : List Char := [',', ';', '|', '\t']

/-- The character of a list that occurs most often in a text, and how often; of several the first
one. -/
def mostFrequent (cs : List Char) : List Char → Char × Nat
  | [] => (' ', 0)
  | d :: rest =>
    let best := mostFrequent cs rest
    if best.2 ≤ cs.count d ∧ 0 < cs.count d then (d, cs.count d) else best

/-- The separator of a text: the one that occurs most often, or a space if none occurs. -/
def separatorOf (cs : List Char) : Char := (mostFrequent cs separators).1

/-- The words with which a header line starts. -/
def headerWords : List (List Char) :=
  ["items", "item", "transaction", "transactions", "product", "products", "basket", "order"].map
    String.toList

/-- Whether a line is a header: a header word alone or followed by the separator. -/
def isHeader (separator line : List Char) : Bool :=
  let first := Text.lower (Text.trim line)
  headerWords.any fun word => first = word || (word ++ separator).isPrefixOf first

/-- How many lines at the start are a header: one or none. -/
def headerLines (separator : List Char) : List (List Char) → Nat
  | [] => 0
  | line :: _ => if isHeader separator line then 1 else 0

/-- How many characters of a file the separator is found out from. -/
def sampleLength : Nat := 5000

/-- The transactions of a text. -/
def parseText (lowercase : Bool) (cs : List Char) : List (List (List Char)) :=
  let lines := (Text.lines cs).filter fun line => !Text.isBlankText line
  let separator := [separatorOf (cs.take sampleLength)]
  ((lines.drop (headerLines separator lines)).map (lineItems lowercase separator)).filter
    fun items => !items.isEmpty

/-- The transactions of a file. -/
def parse (lowercase : Bool) (bytes : List UInt8) : List (List String) :=
  (parseText lowercase (decode bytes)).map fun items => items.map String.ofList

end TopPatterns.Dataset

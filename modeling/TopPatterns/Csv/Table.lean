import TopPatterns.Text.Utf8

/-!
# CSV tables

A table is written field by field. A field is quoted if it contains a comma, a quote or a line
break, and a quote inside quotes is written twice.

To read a table, a text is cut into rows of fields (`readFrom`), and the rows are made into a table
(`readTable`), whose columns are found by name (`Table.column?`). A field is quoted if it starts
with a quote; inside quotes a quote is written twice, and commas and line breaks are text. A line
feed, a carriage return or both end a row. Lines of spaces and tabs only are passed over, and so is
a comma right after such a line that a carriage return alone ends, unless only spaces and tabs stand
between that comma and other text.

The first row names the columns. The first row of values may be longer than it; the values in
front, as many as there are too many, then name the row and belong to no column. Later rows must
not be longer than that, and missing values at the end of a row count as empty.
-/

namespace TopPatterns.Csv

/-! ## Writing -/

/-- Whether a character forces quotes around its field. -/
def isSpecial (c : Char) : Bool := c = ',' || c = '"' || c = '\n' || c = '\r'

/-- A text with its quotes doubled. -/
def doubleQuotes : List Char → List Char
  | [] => []
  | c :: rest => if c = '"' then '"' :: '"' :: doubleQuotes rest else c :: doubleQuotes rest

/-- A field as it is written. -/
def writeField (cs : List Char) : List Char :=
  if cs.any isSpecial then '"' :: (doubleQuotes cs ++ ['"']) else cs

/-- A table of one column: a line with the column's name and one line for each value. -/
def writeColumn (name : List Char) (values : List (List Char)) : List Char :=
  (name :: values).flatMap fun v => writeField v ++ ['\n']

/-! ## Reading -/

/-- What a reading has come to. -/
inductive Mode where
  /-- The start of a line, or the place after a comma there that was passed over. -/
  | line (comma : Bool)
  /-- Inside a line that has had only spaces and tabs so far, perhaps after a comma that was passed
  over; the spaces and tabs are kept, last one first. -/
  | blank (comma : Bool) (spaces : List Char)
  /-- The start of a field. -/
  | field
  /-- Inside a field without quotes, or after a closing quote. -/
  | plain
  /-- Inside quotes. -/
  | quoted
  /-- After a quote inside quotes. -/
  | quote
deriving DecidableEq, Repr

/-- A row with the number of its line; lines inside quotes are not counted. -/
structure Row where
  line : Nat
  fields : List (List Char)
deriving DecidableEq, Repr

/-- A reading: the rows, the fields of the current row and the characters of the current field, the
last one first in each case, and the number of lines read. -/
structure State where
  rows : List Row
  fields : List (List Char)
  chars : List Char
  lines : Nat
  mode : Mode

namespace State

/-- A reading before the first character. -/
def start : State := ⟨[], [], [], 0, .line false⟩

/-- A character of the current field. -/
def push (s : State) (c : Char) (mode : Mode) : State := { s with chars := c :: s.chars, mode }

/-- The end of the current field. -/
def endField (s : State) : State :=
  { s with fields := s.chars.reverse :: s.fields, chars := [], mode := .field }

/-- The end of the current row. -/
def endRow (s : State) : State :=
  let s := s.endField
  { s with
    rows := ⟨s.lines + 1, s.fields.reverse⟩ :: s.rows
    fields := []
    lines := s.lines + 1
    mode := .line false }

/-- A line that is passed over. -/
def passLine (s : State) : State := { s with lines := s.lines + 1, mode := .line false }

/-- A line that is passed over together with a comma after it. -/
def passLineAndComma (s : State) : State := { s with lines := s.lines + 1, mode := .line true }

/-- A character at the start of a field. -/
def atField (s : State) (c : Char) : State :=
  if c = '\n' then s.endRow
  else if c = '"' then { s with mode := .quoted }
  else if c = ',' then s.endField
  else s.push c .plain

/-- The next character, with every end of a row outside quotes given as a line feed. -/
def step (s : State) (c : Char) : State :=
  match s.mode with
  | .line comma =>
    if c = '\n' then s.passLine
    else if c = ' ' ∨ c = '\t' then { s with mode := .blank comma [c] }
    else s.atField c
  | .blank comma spaces =>
    if c = '\n' then s.passLine
    else if c = ' ' ∨ c = '\t' then { s with mode := .blank comma (c :: spaces) }
    else
      let s := { s with fields := if comma then [[]] else [], chars := spaces, mode := .plain }
      if c = ',' then s.endField else s.push c .plain
  | .field => s.atField c
  | .plain =>
    if c = '\n' then s.endRow
    else if c = ',' then s.endField
    else s.push c .plain
  | .quoted => if c = '"' then { s with mode := .quote } else s.push c .quoted
  | .quote =>
    if c = '"' then s.push c .quoted
    else if c = '\n' then s.endRow
    else if c = ',' then s.endField
    else s.push c .plain

/-- Whether line breaks are text at this point. -/
def inQuotes (s : State) : Bool := s.mode = .quoted

/-- Whether the current line has had only spaces and tabs so far. -/
def inBlankLine (s : State) : Bool :=
  match s.mode with
  | .line _ | .blank .. => true
  | _ => false

end State

/-- Reads a text. Outside quotes, a carriage return ends a row, together with a line feed after
it; after a blank line, a comma goes with it. -/
def readFrom (s : State) : List Char → State
  | [] => s
  | '\r' :: '\n' :: rest =>
    if s.inQuotes then readFrom ((s.step '\r').step '\n') rest else readFrom (s.step '\n') rest
  | '\r' :: ',' :: rest =>
    if s.inQuotes then readFrom ((s.step '\r').step ',') rest
    else if s.inBlankLine then readFrom s.passLineAndComma rest
    else readFrom ((s.step '\n').step ',') rest
  | c :: rest =>
    if c = '\r' ∧ !s.inQuotes then readFrom (s.step '\n') rest else readFrom (s.step c) rest

/-- The end of a text: it ends a row that has begun. -/
def State.finish (s : State) : State :=
  if s.inBlankLine then s else s.endRow

/-- Why a text has no table. -/
inductive ReadError where
  /-- A text without rows. -/
  | noColumns
  /-- A quote that is not closed, with the number of lines before the row. -/
  | openQuote (line : Nat)
  /-- A row of more fields than the rows before it. -/
  | tooManyFields (expected line seen : Nat)
deriving DecidableEq, Repr

/-- The wording of an error. -/
def ReadError.message : ReadError → String
  | .noColumns => "No columns to parse from file"
  | .openQuote line =>
    "Error tokenizing data. C error: EOF inside string starting at row " ++ toString line
  | .tooManyFields expected line seen =>
    "Error tokenizing data. C error: Expected " ++ toString expected ++ " fields in line " ++
      toString line ++ ", saw " ++ toString seen ++ "\n"

/-- A table: the names of its columns, and rows of which each has at least as many fields. -/
structure Table where
  names : List (List Char)
  rows : List (List (List Char))
deriving DecidableEq, Repr

/-- A list with empty fields added up to a width. -/
def padTo (width : Nat) (fields : List (List Char)) : List (List Char) :=
  fields ++ List.replicate (width - fields.length) []

/-- The rows of a table, all of one width; a row that is wider is refused. -/
def rowsOf (width : Nat) : List Row → Except ReadError (List (List (List Char)))
  | [] => .ok []
  | row :: rest =>
    if width < row.fields.length then .error (.tooManyFields width row.line row.fields.length)
    else (rowsOf width rest).map (padTo width row.fields :: ·)

/-- Reads the table of a text. -/
def readTable (cs : List Char) : Except ReadError Table := do
  let s := readFrom .start (Text.dropMark cs)
  let all := (if s.inQuotes then s else s.finish).rows.reverse
  let table ← match all with
    | [] => .ok none
    | names :: rows => do
      let width := match rows with
        | [] => names.fields.length
        | first :: _ => max names.fields.length first.fields.length
      .ok (some ⟨names.fields, ← rowsOf width rows⟩)
  if s.inQuotes then .error (.openQuote s.lines)
  else match table with
    | none => .error .noColumns
    | some table => .ok table

/-- The values of the column of a name, if there is one. Values in front of a row that belong to no
column are passed over. -/
def Table.column? (t : Table) (name : List Char) : Option (List (List Char)) :=
  (t.names.findIdx? fun n => n = name).map fun i =>
    t.rows.map fun row => (row.drop (row.length - t.names.length))[i]?.getD []

/-- Words that stand for a missing value. -/
def missingWords : List String :=
  ["", "#N/A", "#N/A N/A", "#NA", "-1.#IND", "-1.#QNAN", "-NaN", "-nan", "1.#IND", "1.#QNAN",
    "<NA>", "N/A", "NA", "NULL", "NaN", "None", "n/a", "nan", "null"]

/-- A value, if it is not missing. -/
def value? (cs : List Char) : Option String :=
  let word := String.ofList cs
  if missingWords.contains word then none else some word

end TopPatterns.Csv

import TopPatterns.Csv.Table
import TopPatterns.Dataset.Column
import TopPatterns.Json.Reader
import TopPatterns.Ranking.Order

/-!
# The stored dataset

A dataset is stored as the text of a CSV table with one column, `items`, and the JSON list of a
transaction's items in each row. `save` writes the text, and `load` reads it: the values of the
column settle, items are trimmed, and items and transactions that come out empty are left out.
`stats` says how many transactions and different items a dataset has, and how long its transactions
are.
-/

namespace TopPatterns.Dataset

/-! ## Writing -/

/-- The value of an item in a stored row. -/
def itemValue : Item → Json
  | .text s => .string s
  | .number n => .int n
  | .absent => .null

/-- The stored row of a transaction. -/
def rowText (t : Transaction) : List Char := (Json.array (t.map itemValue)).text

/-- The name of the column. -/
def columnName : List Char := "items".toList

/-- The stored text of transactions. -/
def save (transactions : List Transaction) : String :=
  String.ofList (Csv.writeColumn columnName (transactions.map rowText))

/-! ## Reading -/

/-- Why a stored dataset is not read. -/
inductive LoadError where
  /-- Nothing is stored. -/
  | noFile
  /-- The stored text is no table. -/
  | badTable (error : Csv.ReadError)
  /-- The table has no column of the name. -/
  | noColumn
  /-- A row is not JSON. -/
  | badRow (error : Json.ReadError)
  /-- A row is a value without elements. -/
  | notIterable (kind : String)
  /-- An item is not a text. -/
  | notText (kind : String)
deriving DecidableEq, Repr

/-- The wording of an error. -/
def LoadError.message : LoadError → String
  | .noFile => "No dataset uploaded. Please upload a dataset first."
  | .badTable error => error.message
  | .noColumn => Text.quotedString (.ofChars columnName)
  | .badRow error => error.message
  | .notIterable kind => Json.notIterableMessage kind
  | .notText kind => "'" ++ kind ++ "' object has no attribute 'strip'"

/-- Whether an error lies in the stored text as such: nothing is stored, or it is no table or no
JSON. -/
def LoadError.isRefusal : LoadError → Bool
  | .badRow (.tooDeep _) => false
  | .noFile | .badTable _ | .badRow _ => true
  | .noColumn | .notIterable _ | .notText _ => false

/-- The value of a stored row; a missing value is an empty list. -/
def rowValue (cell : List Char) : Except LoadError Json :=
  match Csv.value? cell with
  | none => .ok (.array [])
  | some text => (Json.read text).mapError .badRow

/-- The trimmed text of a stored item. -/
def itemText : Json → Except LoadError CodeText
  | .string t => .ok t.trim
  | value => .error (.notText value.kind)

/-- The items of a stored row, without those that are blank. -/
def rowItems (value : Json) : Except LoadError (List CodeText) :=
  match value.elements? with
  | none => .error (.notIterable value.kind)
  | some items => (items.mapM itemText).map fun texts => texts.filter fun t => !t.isEmpty

/-- Reads the transactions of a stored text. All rows are read as JSON, and settle as a column,
before the items of any are looked at. -/
def loadText (text : String) : Except LoadError (List (List CodeText)) := do
  let table ← (Csv.readTable text.toList).mapError .badTable
  match table.column? columnName with
  | none => .error .noColumn
  | some cells => do
    let values := Column.settle (← cells.mapM rowValue)
    let transactions ← values.mapM rowItems
    .ok (transactions.filter fun t => !t.isEmpty)

/-- Reads the stored transactions, if any are stored. -/
def load (stored : Option String) : Except LoadError (List (List CodeText)) :=
  match stored with
  | none => .error .noFile
  | some text => loadText text

@[simp] theorem load_none : load none = .error .noFile := rfl

@[simp] theorem load_some (text : String) : load (some text) = loadText text := rfl

/-- Transactions of texts as transactions of items. -/
def ofTexts (transactions : List (List CodeText)) : List Transaction :=
  transactions.map fun t => t.map Item.text

/-! ## The size of a dataset -/

/-- The size of a dataset. The average length is given in hundredths. -/
structure Stats where
  transactions : Nat
  uniqueItems : Nat
  averageHundredths : Nat
  longest : Nat
deriving DecidableEq, Repr

/-- The length of the longest transaction. -/
def longest (transactions : List Transaction) : Nat :=
  transactions.foldl (fun n t => max n t.length) 0

/-- The number of items of all transactions. -/
def totalLength (transactions : List Transaction) : Nat :=
  transactions.foldl (fun n t => n + t.length) 0

/-- The average length of transactions, as a number of floating point rounded to hundredths. -/
def averageHundredths (transactions : List Transaction) : Nat :=
  if transactions.isEmpty then 0
  else (quotient (totalLength transactions) transactions.length).units 2

/-- The size of a dataset. -/
def stats (transactions : List Transaction) : Stats where
  transactions := transactions.length
  uniqueItems := (Item.distinct transactions.flatten).length
  averageHundredths := averageHundredths transactions
  longest := longest transactions

/-- The average length as a text with two places. -/
def Stats.average (s : Stats) : String := fixedText 2 s.averageHundredths

end TopPatterns.Dataset

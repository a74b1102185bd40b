import TopPatterns.Number.Shortest
import TopPatterns.Text.CodePoint

/-!
# JSON values

Values as JSON knows them, with whole numbers and numbers of floating point told apart. `label` is
the text of a value where an item is expected, `kind` names what a value is in messages, and
`print` writes it in ASCII. Where a list is expected, a value stands for its elements: a list for
its items, a text for its code points and an object for its names.
-/

namespace TopPatterns

/-- A JSON value. The fields of an object stand in the order of their first occurrence. -/
inductive Json where
  | null
  | bool (value : Bool)
  | int (value : Int)
  | float (value : Binary64)
  | string (value : CodeText)
  | array (items : List Json)
  | object (fields : List (CodeText × Json))
deriving Repr, Inhabited

namespace Json

/-- What a value is, in messages. -/
def kind : Json → String
  | null => "NoneType"
  | bool _ => "bool"
  | int _ => "int"
  | float _ => "float"
  | string _ => "str"
  | array _ => "list"
  | object _ => "dict"

/-- Whether a value says nothing: null, false, zero, or an empty text, list or object. -/
def isVoid : Json → Bool
  | null => true
  | bool b => !b
  | int n => n = 0
  | float x => x.isZero
  | string t => t.isEmpty
  | array items => items.isEmpty
  | object fields => fields.isEmpty

/-- The value of a field. -/
def field? (fields : List (CodeText × Json)) (key : CodeText) : Option Json :=
  (fields.find? (·.1 = key)).map Prod.snd

/-- Sets a field: a field of that name keeps its place. -/
def setField (key : CodeText) (value : Json) : List (CodeText × Json) → List (CodeText × Json)
  | [] => [(key, value)]
  | (k, v) :: rest => if k = key then (k, value) :: rest else (k, v) :: setField key value rest

theorem field?_setField (key other : CodeText) (value : Json) (fields : List (CodeText × Json)) :
    field? (setField key value fields) other =
      if key = other then some value else field? fields other := by
  induction fields with
  | nil => by_cases h : key = other <;> simp [setField, field?, h]
  | cons f rest ih =>
    obtain ⟨k, v⟩ := f
    simp only [field?] at ih
    rw [setField]
    split
    · next h =>
      subst h
      by_cases ho : k = other <;> simp [field?, ho]
    · next h =>
      by_cases ho : k = other
      · subst ho
        simp [field?, show ¬key = k from fun e => h e.symm]
      · simp [field?, ho, ih]

/-! ## Elements of a value -/

/-- The elements of a value; nothing for a value without parts. -/
def elements? : Json → Option (List Json)
  | array items => some items
  | string t => some (t.map fun point => string [point])
  | object fields => some (fields.map fun f => string f.1)
  | _ => none

@[simp] theorem elements?_array (items : List Json) : elements? (array items) = some items := rfl

/-- The wording for a value without elements. -/
def notIterableMessage (kind : String) : String := "'" ++ kind ++ "' object is not iterable"

/-! ## Text of a value -/

mutual

/-- A value as a text, with texts in quotes. -/
def quotedLabel : Json → String
  | null => "None"
  | bool true => "True"
  | bool false => "False"
  | int n => toString n
  | float x => x.label
  | string t => Text.quotedString t
  | array items => "[" ++ ", ".intercalate (quotedLabels items) ++ "]"
  | object fields => "\x7b" ++ ", ".intercalate (fieldLabels fields) ++ "\x7d"

/-- Values as texts, with texts in quotes. -/
def quotedLabels : List Json → List String
  | [] => []
  | value :: rest => quotedLabel value :: quotedLabels rest

/-- Fields as texts, with texts in quotes. -/
def fieldLabels : List (CodeText × Json) → List String
  | [] => []
  | (key, value) :: rest => (Text.quotedString key ++ ": " ++ quotedLabel value) :: fieldLabels rest

end

/-- A value as a text, a text as it is. -/
def label : Json → CodeText
  | string t => t
  | value => quotedLabel value

/-! ## Written form -/

/-- The escape of a UTF-16 unit. -/
def unitEscape (n : Nat) : List Char := '\\' :: 'u' :: Text.hexPadded 4 n

/-- A character as it stands in a written text: everything but printable ASCII is escaped, beyond
16 bits as a pair of units. -/
def charText (c : Char) : List Char :=
  if c = '"' then ['\\', '"']
  else if c = '\\' then ['\\', '\\']
  else if c = '\n' then ['\\', 'n']
  else if c = '\r' then ['\\', 'r']
  else if c = '\t' then ['\\', 't']
  else if c = '\x08' then ['\\', 'b']
  else if c = '\x0c' then ['\\', 'f']
  else if ' ' ≤ c ∧ c ≤ '~' then [c]
  else if c.toNat < 0x10000 then unitEscape c.toNat
  else
    unitEscape (0xD800 + (c.toNat - 0x10000) / 1024) ++
      unitEscape (0xDC00 + (c.toNat - 0x10000) % 1024)

/-- A code point as it stands in a written text. -/
def pointText : CodePoint → List Char
  | .char c => charText c
  | point => unitEscape point.toNat

/-- A text in written form. -/
def stringText (t : CodeText) : List Char := '"' :: (t.flatMap pointText ++ ['"'])

/-- Joins texts with a comma and a space between them. -/
def commaJoin : List (List Char) → List Char
  | [] => []
  | [t] => t
  | t :: rest => t ++ ',' :: ' ' :: commaJoin rest

mutual

/-- The written form of a value. -/
def text : Json → List Char
  | null => "null".toList
  | bool true => "true".toList
  | bool false => "false".toList
  | int n => (toString n).toList
  | float .nan => "NaN".toList
  | float (.infinite negative) => if negative then "-Infinity".toList else "Infinity".toList
  | float x => x.label.toList
  | string t => stringText t
  | array items => '[' :: (commaJoin (texts items) ++ [']'])
  | object fields => '\x7b' :: (commaJoin (fieldTexts fields) ++ ['\x7d'])

/-- The written forms of values. -/
def texts : List Json → List (List Char)
  | [] => []
  | value :: rest => text value :: texts rest

/-- The written forms of fields. -/
def fieldTexts : List (CodeText × Json) → List (List Char)
  | [] => []
  | (key, value) :: rest => (stringText key ++ ':' :: ' ' :: text value) :: fieldTexts rest

end

/-- The written form of a value. -/
def print (value : Json) : String := String.ofList value.text

@[simp] theorem text_string (t : CodeText) : (string t).text = stringText t := by
  rw [text]

@[simp] theorem text_array (items : List Json) :
    (array items).text = '[' :: (commaJoin (texts items) ++ [']']) := by rw [text]

end Json

end TopPatterns

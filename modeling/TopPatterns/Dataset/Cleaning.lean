import TopPatterns.Text.Basic
import TopPatterns.Text.Canonical
import TopPatterns.Text.Lowercase
import TopPatterns.Text.Other

/-!
# Cleaning items

The text of an item in a data file is composed, freed of characters that carry no text, of blanks
and of quotes around it, and, where asked for, put into lower case. `lineItems` cuts a line at a
separator and cleans its items; words for a missing item are left out, and so are repetitions
(`keepFirst`).
-/

namespace TopPatterns.Dataset

/-- Whether a character is kept: a tab, and every character that carries text. -/
def isKept (c : Char) : Bool := c = '\t' || !Text.isOther c

/-- Whether a character is a quote. -/
def isQuote (c : Char) : Bool := c = '"' || c = '\''

/-- A text without blanks at its ends, then without quotes, then without blanks. -/
def unwrap (cs : List Char) : List Char := Text.trim (Text.trimOf isQuote (Text.trim cs))

/-- The clean text of an item. -/
def clean (lowercase : Bool) (cs : List Char) : List Char :=
  let bare := unwrap ((Text.compose cs).filter isKept)
  if lowercase then Text.lower bare else bare

/-- The words, in lower case, that stand for a missing item. -/
def missingItems : List (List Char) :=
  ["nan", "none", "null", "", "na", "n/a"].map String.toList

/-- Whether a clean text stands for a missing item. -/
def isMissing (cs : List Char) : Bool := missingItems.contains (Text.lower cs)

/-- The texts of a list without those that were seen before. -/
def keepFirst (seen : List (List Char)) : List (List Char) → List (List Char)
  | [] => []
  | x :: xs => if seen.contains x then keepFirst seen xs else x :: keepFirst (x :: seen) xs

/-- The items of a line between the occurrences of a separator: clean, without missing ones and
each once. -/
def lineItems (lowercase : Bool) (separator line : List Char) : List (List Char) :=
  if Text.isBlankText line then []
  else
    keepFirst []
      (((Text.splitOn separator line).map (clean lowercase)).filter fun x => !isMissing x)

/-- The items of a line for a separator that may be empty; an empty one cuts no line, and none is
needed for a blank line. -/
def lineItems? (lowercase : Bool) (separator line : List Char) : Option (List (List Char)) :=
  if separator.isEmpty && !Text.isBlankText line then none
  else some (lineItems lowercase separator line)

/-- The wording for an empty separator. -/
def emptySeparatorMessage : String := "empty separator"

end TopPatterns.Dataset

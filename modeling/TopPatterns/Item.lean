import TopPatterns.Text.CodePoint

/-!
# Items

An item is an attribute of a transaction. Texts and numbers are different items also when they are
written alike, so `1` and `"1"` differ; `label` is the text that both share. `sorted?` puts items
into their own order and refuses a mixture, as texts and numbers have no common order. `MiningError`
has every cause of failure of patterns, collectors, trees and miners, with its wording.
-/

namespace TopPatterns

/-- An attribute of a transaction: a text, a whole number, or nothing. -/
inductive Item where
  | text (value : CodeText)
  | number (value : Int)
  | absent
deriving DecidableEq, Repr, Inhabited

namespace Item

/-- The text of an item. -/
def label : Item → CodeText
  | .text t => t
  | .number n => toString n
  | .absent => "None"

/-- The text of an item, with a text item in quotes. -/
def quotedLabel : Item → String
  | .text t => Text.quotedString t
  | .number n => toString n
  | .absent => "None"

/-- The items in square brackets, texts in quotes. -/
def listLabel (items : List Item) : String :=
  "[" ++ ", ".intercalate (items.map quotedLabel) ++ "]"

/-- The value of a text item. -/
def text? : Item → Option CodeText
  | .text t => some t
  | _ => none

/-- The value of a number item. -/
def number? : Item → Option Int
  | .number n => some n
  | _ => none

/-- The items of a list without repetition: of equal items the last one stays. -/
def distinct : List Item → List Item
  | [] => []
  | x :: xs => if xs.contains x then distinct xs else x :: distinct xs

@[simp] theorem mem_distinct {x : Item} {xs : List Item} : x ∈ distinct xs ↔ x ∈ xs := by
  induction xs with
  | nil => simp [distinct]
  | cons y ys ih =>
    rw [distinct]
    split
    · next h =>
      have hy : y ∈ ys := by simpa using h
      rw [ih, List.mem_cons]
      exact ⟨.inr, fun m => m.elim (fun e => e ▸ hy) id⟩
    · simp [ih]

theorem nodup_distinct (xs : List Item) : (distinct xs).Nodup := by
  induction xs with
  | nil => simp [distinct]
  | cons y ys ih =>
    rw [distinct]
    split
    · exact ih
    · next h => exact List.nodup_cons.2 ⟨fun m => h (by simpa using m), ih⟩

/-- The items in ascending order, texts by code point and numbers by value; `none` if two items
have no common order. One item alone needs none. -/
def sorted? (items : List Item) : Option (List Item) :=
  match items with
  | [] => some []
  | [x] => some [x]
  | _ =>
    match items.mapM text? with
    | some texts => some ((texts.mergeSort CodeText.le).map .text)
    | none =>
      (items.mapM number?).map fun numbers =>
        (numbers.mergeSort fun a b => decide (a ≤ b)).map .number

end Item

/-- A reason for which a collector or a miner refuses its arguments. -/
inductive MiningError where
  /-- A pattern would have a support below zero. -/
  | negativeSupport (support : Int)
  /-- A collector would have no room for any pattern. -/
  | noCapacity (capacity : Int)
  /-- The least support asked for is below one. -/
  | minSupportTooSmall (minimum : Int)
  /-- Fewer than one group of items is asked for. -/
  | tooFewGroups (groups : Int)
  /-- Fewer than one worker is to mine the groups. -/
  | noWorkers
  /-- So many groups are asked for that the width of a group rounds to zero. -/
  | zeroGroupWidth
  /-- Texts and numbers among the items have no common order. -/
  | mixedItems
  /-- An item of a tree has no rank in the tree's order. -/
  | unranked (item : Item)
deriving DecidableEq, Repr

/-- The wording of an error. -/
def MiningError.message : MiningError → String
  | .negativeSupport n => "support must be non-negative, got " ++ toString n
  | .noCapacity n => "max_size must be positive, got " ++ toString n
  | .minSupportTooSmall n => "min_support_count must be at least 1, got " ++ toString n
  | .tooFewGroups n => "num_groups must be at least 1, got " ++ toString n
  | .noWorkers => "max_workers must be greater than 0"
  | .zeroGroupWidth => "range() arg 3 must not be zero"
  | .mixedItems => "items have no common order"
  | .unranked item => item.quotedLabel

end TopPatterns

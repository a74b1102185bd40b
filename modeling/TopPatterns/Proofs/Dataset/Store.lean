import TopPatterns.Dataset.Layout
import TopPatterns.Dataset.Store
import TopPatterns.Proofs.Csv.Written
import TopPatterns.Proofs.Dataset.Cleaning
import TopPatterns.Proofs.Json.Written

/-!
# Loading what was saved

The rows of a stored dataset are JSON lists in a CSV column, and each of the two forms is read back
from what is written (`Json.read_strings`, `Csv.readTable_writeColumn`). A row starts with a
bracket, so that no row is taken for a blank line or a missing value. What loading changes is what
it does on purpose: items are trimmed, and what comes out empty is left out (`load_save`). The
parser leaves nothing to trim (`tidy_parse`), so transactions that were parsed are loaded as they
are (`load_save_parse`).
-/

namespace TopPatterns.Dataset

/-- A string without the blank characters at its two ends. -/
def trimString (s : String) : String := String.ofList (Text.trim s.toList)

/-- The items of a transaction trimmed, without those that come out empty. -/
def tidyItems (t : List String) : List String := (t.map trimString).filter fun s => !s.isEmpty

/-- Transactions with tidy items, without those that come out empty. -/
def tidy (transactions : List (List String)) : List (List String) :=
  (transactions.map tidyItems).filter fun t => !t.isEmpty

/-- Transactions of strings as transactions of texts. -/
def ofStrings (transactions : List (List String)) : List (List CodeText) :=
  transactions.map fun t => t.map CodeText.ofString

/-- Steps that all succeed give their values in order. -/
theorem mapM_eq_ok {ε α β : Type} {f : α → Except ε β} {g : α → β} (h : ∀ a, f a = .ok (g a))
    (l : List α) : l.mapM f = .ok (l.map g) := by
  rw [funext h]
  exact List.mapM_pure

theorem isEmpty_ofString (s : String) : (CodeText.ofString s).isEmpty = s.isEmpty := by
  rw [CodeText.ofString, CodeText.ofChars, List.isEmpty_map, Bool.eq_iff_iff, List.isEmpty_iff,
    String.toList_eq_nil_iff, String.isEmpty_iff]

/-! ## Rows -/

/-- The row of a transaction of strings. -/
def stringsRow (t : List String) : Json := .array (Json.strings (t.map String.toList))

theorem rowText_ofString (t : List String) :
    rowText ((t.map CodeText.ofString).map Item.text) = (stringsRow t).text := by
  rw [rowText, stringsRow, Json.strings, List.map_map, List.map_map, List.map_map]
  rfl

/-- The value of a row is read back from its text. -/
theorem rowValue_text (t : List String) : rowValue (stringsRow t).text = .ok (stringsRow t) := by
  have hread := Json.read_strings (t.map String.toList)
  rw [Json.text_array] at hread
  rw [rowValue, stringsRow, Json.text_array, Csv.value?_bracket]
  simp only [hread]
  rfl

theorem itemText_string (s : String) :
    itemText (.string (.ofChars s.toList)) = .ok (CodeText.ofString (trimString s)) := by
  rw [itemText, CodeText.trim_ofChars, CodeText.ofString, trimString, String.toList_ofList]

/-- The items of a row are trimmed, and blank ones are left out. -/
theorem rowItems_stringsRow (t : List String) :
    rowItems (stringsRow t) = .ok ((tidyItems t).map CodeText.ofString) := by
  have hitems : (Json.strings (t.map String.toList)).mapM itemText =
      .ok ((t.map trimString).map CodeText.ofString) := by
    simp only [Json.strings, List.map_map, List.mapM_map, Function.comp_def]
    exact mapM_eq_ok itemText_string t
  have hempty : ((fun u : CodeText => !u.isEmpty) ∘ CodeText.ofString) = fun s => !s.isEmpty :=
    funext fun s => congrArg not (isEmpty_ofString s)
  rw [rowItems, stringsRow, Json.elements?_array]
  simp only [hitems]
  rw [tidyItems, ← hempty, ← List.filter_map]
  rfl

/-! ## Columns -/

/-- Rows of lists settle as they are. -/
theorem settle_stringsRow (transactions : List (List String)) :
    Column.settle (transactions.map stringsRow) = transactions.map stringsRow := by
  cases transactions with
  | nil => rfl
  | cons t ts => exact Column.settle_array _ _

theorem opensLine_stringsRow (t : List String) : Csv.OpensLine (stringsRow t).text := by
  rw [stringsRow, Json.text_array]
  exact ⟨'[', rfl, by decide, by decide, by decide⟩

/-- The table of a saved dataset has a row for each transaction. -/
theorem readTable_save (transactions : List (List String)) :
    Csv.readTable (save (ofTexts (ofStrings transactions))).toList =
      .ok ⟨[columnName], (transactions.map fun t => (stringsRow t).text).map fun v => [v]⟩ := by
  have hname : Csv.OpensLine columnName := ⟨'i', rfl, by decide, by decide, by decide⟩
  have hrows : (ofTexts (ofStrings transactions)).map rowText =
      transactions.map fun t => (stringsRow t).text := by
    rw [ofTexts, ofStrings, List.map_map, List.map_map]
    exact List.map_congr_left fun t _ => rowText_ofString t
  rw [save, String.toList_ofList, hrows]
  refine Csv.readTable_writeColumn hname fun v hv => ?_
  obtain ⟨t, -, rfl⟩ := List.mem_map.1 hv
  exact opensLine_stringsRow t

theorem ofStrings_tidy (transactions : List (List String)) : ofStrings (tidy transactions) =
    (transactions.map fun t => (tidyItems t).map CodeText.ofString).filter fun t => !t.isEmpty := by
  have hempty : ((fun t : List CodeText => !t.isEmpty) ∘ fun t : List String =>
      t.map CodeText.ofString) = fun t => !t.isEmpty :=
    funext fun t => congrArg not List.isEmpty_map
  have hmap : transactions.map (fun t => (tidyItems t).map CodeText.ofString) =
      (transactions.map tidyItems).map fun t => t.map CodeText.ofString := by
    rw [List.map_map]
    rfl
  rw [hmap, List.filter_map, hempty]
  rfl

theorem loadText_save (transactions : List (List String)) :
    loadText (save (ofTexts (ofStrings transactions))) = .ok (ofStrings (tidy transactions)) := by
  have hvalues : (transactions.map fun t => (stringsRow t).text).mapM rowValue =
      .ok (transactions.map stringsRow) := by
    rw [List.mapM_map]
    exact mapM_eq_ok rowValue_text transactions
  have hitems : (transactions.map stringsRow).mapM rowItems =
      .ok (transactions.map fun t => (tidyItems t).map CodeText.ofString) := by
    rw [List.mapM_map]
    exact mapM_eq_ok rowItems_stringsRow transactions
  have htable : ∀ table : Csv.Table,
      (Except.ok table : Except Csv.ReadError _).mapError LoadError.badTable = .ok table :=
    fun _ => rfl
  rw [loadText, readTable_save, ofStrings_tidy, htable]
  simp only [Csv.column?_single, hvalues, hitems, settle_stringsRow, bind, Except.bind]

/-- What is loaded is what was saved, trimmed and without what comes out empty. -/
theorem load_save (transactions : List (List String)) :
    load (some (save (ofTexts (ofStrings transactions)))) = .ok (ofStrings (tidy transactions)) :=
  loadText_save transactions

/-! ## Parsed transactions -/

theorem trimString_of_bare {s : String} (h : Text.Bare Text.isBlank s.toList) :
    trimString s = s := by
  rw [trimString, Text.trim, Text.trimOf_eq_self_iff.2 h, String.ofList_toList]

theorem tidyItems_eq {t : List String} (h : ∀ s ∈ t, Text.Bare Text.isBlank s.toList ∧ s ≠ "") :
    tidyItems t = t := by
  have htrim : t.map trimString = t :=
    (List.map_congr_left fun s hs => trimString_of_bare (h s hs).1).trans (List.map_id t)
  rw [tidyItems, htrim, List.filter_eq_self]
  intro s hs
  rw [Bool.not_eq_true', ← Bool.not_eq_true, String.isEmpty_iff]
  exact (h s hs).2

theorem of_mem_parse {lowercase : Bool} {bytes : List UInt8} {t : List String}
    (h : t ∈ parse lowercase bytes) :
    t ≠ [] ∧ ∀ s ∈ t, Text.Bare Text.isBlank s.toList ∧ s ≠ "" := by
  obtain ⟨items, hitems, rfl⟩ := List.mem_map.1 h
  obtain ⟨hline, hne⟩ := List.mem_filter.1 hitems
  obtain ⟨line, -, rfl⟩ := List.mem_map.1 hline
  refine ⟨fun e => ?_, fun s hs => ?_⟩
  · rw [List.map_eq_nil_iff.1 e] at hne
    cases hne
  · obtain ⟨x, hx, rfl⟩ := List.mem_map.1 hs
    obtain ⟨hbare, hmissing⟩ := of_mem_lineItems hx
    refine ⟨by rwa [String.toList_ofList], fun e => ne_nil_of_isMissing_eq_false hmissing ?_⟩
    rw [← String.toList_ofList (l := x), e]
    rfl

/-- The parser leaves nothing to trim or to leave out. -/
theorem tidy_parse (lowercase : Bool) (bytes : List UInt8) :
    tidy (parse lowercase bytes) = parse lowercase bytes := by
  have hitems : (parse lowercase bytes).map tidyItems = parse lowercase bytes :=
    (List.map_congr_left fun t ht => tidyItems_eq (of_mem_parse ht).2).trans (List.map_id _)
  rw [tidy, hitems, List.filter_eq_self]
  intro t ht
  rw [List.isEmpty_eq_false_iff.2 (of_mem_parse ht).1, Bool.not_false]

/-- Transactions that were parsed are loaded as they were saved. -/
theorem load_save_parse (lowercase : Bool) (bytes : List UInt8) :
    load (some (save (ofTexts (ofStrings (parse lowercase bytes))))) =
      .ok (ofStrings (parse lowercase bytes)) := by
  rw [load_some, loadText_save, tidy_parse]

end TopPatterns.Dataset

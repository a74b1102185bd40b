import TopPatterns.Text.Basic
import TopPatterns.Text.Other

/-!
# Code points

A text written with escapes may hold one half of a surrogate pair without the other, which is no
character. `CodeText` is a text of characters and such halves. It contains the texts of characters
(`toChars_ofChars`), is ordered by the numbers of its code points (`le_total`, `le_trans`,
`le_antisymm`), and is trimmed as they are (`trim_ofChars`).

`quoted` puts a text in quotes, with the code points that cannot be shown written as escapes. The
quote is `'` unless the text has a `'` and no `"`.
-/

namespace TopPatterns

/-- A code point: a character, or one half of a surrogate pair standing alone. -/
inductive CodePoint where
  | char (c : Char)
  | half (place : Fin 2048)
deriving DecidableEq, Repr, Inhabited

namespace CodePoint

/-- The number of a code point. -/
def toNat : CodePoint → Nat
  | char c => c.toNat
  | half place => 0xD800 + place.val

/-- The code point of a number below `0x110000`. -/
def ofNat (n : Nat) : CodePoint :=
  if h : 0xD800 ≤ n ∧ n < 0xE000 then half ⟨n - 0xD800, by omega⟩ else char (Char.ofNat n)

/-- The character that a code point is, if it is one. -/
def char? : CodePoint → Option Char
  | char c => some c
  | half _ => none

/-- Whether a code point separates words or lines. -/
def isBlank : CodePoint → Bool
  | char c => Text.isBlank c
  | half _ => false

/-- The number of the character that a high and a low half make. -/
def joinHalves (high low : Nat) : Nat := 0x10000 + (high - 0xD800) * 1024 + (low - 0xDC00)

/-- A character is no surrogate. -/
theorem char_toNat (c : Char) : c.toNat < 0xD800 ∨ 0xE000 ≤ c.toNat := by
  have h : c.val.toNat.isValidChar := c.valid
  have e : c.val.toNat = c.toNat := rfl
  rw [e] at h
  rcases h with h | h
  · exact .inl h
  · exact .inr (by omega)

/-- Code points of one number are the same. -/
theorem toNat_inj {p q : CodePoint} (h : p.toNat = q.toNat) : p = q := by
  cases p with
  | char c =>
    cases q with
    | char d => exact congrArg char (Char.toNat_inj.1 h)
    | half j =>
      simp only [toNat] at h
      have := char_toNat c
      omega
  | half i =>
    cases q with
    | char d =>
      simp only [toNat] at h
      have := char_toNat d
      omega
    | half j =>
      simp only [toNat] at h
      exact congrArg half (Fin.ext (by omega))

end CodePoint

/-- A text of characters and lone halves of surrogate pairs. -/
abbrev CodeText := List CodePoint

namespace CodeText

/-- The text of some characters. -/
def ofChars (cs : List Char) : CodeText := cs.map .char

/-- The text of a string. -/
def ofString (s : String) : CodeText := ofChars s.toList

instance : Coe String CodeText := ⟨ofString⟩

/-- The characters of a text, if it has nothing else. -/
def chars? (t : CodeText) : Option (List Char) := t.mapM CodePoint.char?

/-- The characters of a text, without the halves between them. -/
def toChars (t : CodeText) : List Char := t.filterMap CodePoint.char?

/-- A text without the blank characters at its two ends. -/
def trim (t : CodeText) : CodeText := Text.trimOf CodePoint.isBlank t

/-- Whether a text stands before or beside another one in the order of code points. -/
def le : CodeText → CodeText → Bool
  | [], _ => true
  | _ :: _, [] => false
  | p :: t, q :: u => if p = q then le t u else decide (p.toNat < q.toNat)

/-! ## Small laws -/

@[simp] theorem toChars_ofChars (cs : List Char) : (ofChars cs).toChars = cs := by
  induction cs with
  | nil => rfl
  | cons c cs ih => simpa [toChars, ofChars, CodePoint.char?] using ih

theorem trim_ofChars (cs : List Char) : (ofChars cs).trim = ofChars (Text.trim cs) := by
  simp [trim, Text.trim, Text.trimOf, ofChars, List.dropWhile_map, ← List.map_reverse]
  rfl

theorem le_total (t u : CodeText) : t.le u = true ∨ u.le t = true := by
  induction t generalizing u with
  | nil => exact .inl rfl
  | cons p t ih =>
    cases u with
    | nil => exact .inr rfl
    | cons q u =>
      by_cases h : p = q
      · subst h
        simpa [le] using ih u
      · have hn : p.toNat ≠ q.toNat := fun e => h (CodePoint.toNat_inj e)
        have hq : ¬q = p := fun e => h e.symm
        simp only [le, if_neg h, if_neg hq, decide_eq_true_eq]
        omega

theorem le_antisymm {t u : CodeText} (htu : t.le u = true) (hut : u.le t = true) : t = u := by
  induction t generalizing u with
  | nil =>
    cases u with
    | nil => rfl
    | cons q u => simp [le] at hut
  | cons p t ih =>
    cases u with
    | nil => simp [le] at htu
    | cons q u =>
      by_cases h : p = q
      · subst h
        simp only [le, if_true] at htu hut
        exact congrArg (p :: ·) (ih htu hut)
      · have hq : ¬q = p := fun e => h e.symm
        simp only [le, if_neg h, if_neg hq, decide_eq_true_eq] at htu hut
        omega

theorem le_trans {t u v : CodeText} (htu : t.le u = true) (huv : u.le v = true) :
    t.le v = true := by
  induction t generalizing u v with
  | nil => rfl
  | cons p t ih =>
    cases u with
    | nil => simp [le] at htu
    | cons q u =>
      cases v with
      | nil => simp [le] at huv
      | cons r v =>
        by_cases hpq : p = q
        · subst hpq
          by_cases hpr : p = r
          · subst hpr
            simp only [le, if_true] at htu huv ⊢
            exact ih htu huv
          · simp only [le, if_true, if_neg hpr] at htu huv ⊢
            exact huv
        · by_cases hqr : q = r
          · subst hqr
            simp only [le, if_neg hpq] at htu ⊢
            exact htu
          · simp only [le, if_neg hpq, if_neg hqr, decide_eq_true_eq] at htu huv
            have hpr : ¬p = r := fun e => by
              subst e
              omega
            simp only [le, if_neg hpr, decide_eq_true_eq]
            omega

end CodeText

namespace Text

/-! ## Quoted text -/

/-- The separators of Unicode 14.0 other than the plain space. -/
def isWideSeparator (c : Char) : Bool :=
  covers [(0x00A0, 0x00A0), (0x1680, 0x1680), (0x2000, 0x200A), (0x2028, 0x2029),
    (0x202F, 0x202F), (0x205F, 0x205F), (0x3000, 0x3000)] c.toNat

/-- Whether a character is shown as itself. -/
def isShown (c : Char) : Bool := !(isOther c || isWideSeparator c)

/-- The quote around a text. -/
def quoteFor (t : CodeText) : Char :=
  if t.contains (.char '\'') && !t.contains (.char '"') then '"' else '\''

/-- A character as it stands between two quotes. -/
def quotedChar (quote c : Char) : List Char :=
  if c = quote ∨ c = '\\' then ['\\', c]
  else if c = '\t' then ['\\', 't']
  else if c = '\n' then ['\\', 'n']
  else if c = '\r' then ['\\', 'r']
  else if isShown c then [c]
  else if c.toNat < 0x100 then '\\' :: 'x' :: hexPadded 2 c.toNat
  else if c.toNat < 0x10000 then '\\' :: 'u' :: hexPadded 4 c.toNat
  else '\\' :: 'U' :: hexPadded 8 c.toNat

/-- A code point as it stands between two quotes. -/
def quotedPoint (quote : Char) : CodePoint → List Char
  | .char c => quotedChar quote c
  | point => '\\' :: 'u' :: hexPadded 4 point.toNat

/-- A text in quotes. -/
def quoted (t : CodeText) : List Char :=
  quoteFor t :: (t.flatMap (quotedPoint (quoteFor t)) ++ [quoteFor t])

/-- A text in quotes, as a string. -/
def quotedString (t : CodeText) : String := String.ofList (quoted t)

end Text

end TopPatterns

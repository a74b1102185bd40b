import TopPatterns.Item

/-!
# Patterns

A pattern is a sequence of items with the number of transactions that hold them all. Patterns are
equal if items and support are; they are ranked by support alone. `isSubPatternOf_iff` says what
the sub-pattern test decides, and `ofSupport_of_nonneg`, `ofSupport_of_neg` when a support is
accepted.
-/

namespace TopPatterns

/-- A sequence of items and its support. -/
structure Pattern where
  items : List Item
  support : Nat
deriving DecidableEq, Repr, Inhabited

namespace Pattern

/-- The pattern of some items and a support, which must not be negative. -/
def ofSupport (items : List Item) (support : Int) : Except MiningError Pattern :=
  if support < 0 then .error (.negativeSupport support) else .ok ⟨items, support.toNat⟩

theorem ofSupport_of_neg {items : List Item} {support : Int} (h : support < 0) :
    ofSupport items support = .error (.negativeSupport support) := if_pos h

theorem ofSupport_of_nonneg {items : List Item} {support : Int} (h : 0 ≤ support) :
    ofSupport items support = .ok ⟨items, support.toNat⟩ := if_neg (by omega)

/-- How many items a pattern has, repeated ones included. -/
def length (p : Pattern) : Nat := p.items.length

/-- Whether a pattern is no longer than another one and each of its items is an item of that
one. -/
def isSubPatternOf (p q : Pattern) : Bool :=
  decide (p.length ≤ q.length) && p.items.all fun x => q.items.contains x

theorem isSubPatternOf_iff {p q : Pattern} :
    p.isSubPatternOf q = true ↔ p.length ≤ q.length ∧ p.items ⊆ q.items := by
  simp [isSubPatternOf, List.subset_def]

theorem isSubPatternOf_refl (p : Pattern) : p.isSubPatternOf p = true :=
  isSubPatternOf_iff.2 ⟨Nat.le_refl _, fun _ h => h⟩

/-- The pattern with one more item at the end and a support of its own. -/
def extend (p : Pattern) (item : Item) (support : Int) : Except MiningError Pattern :=
  ofSupport (p.items ++ [item]) support

/-- The order of two patterns, by support. -/
def rank (p q : Pattern) : Ordering := compare p.support q.support

/-- Patterns by rising support; equals keep their order. -/
def ascending (ps : List Pattern) : List Pattern :=
  ps.mergeSort fun p q => decide (p.support ≤ q.support)

/-- Patterns by falling support; equals keep their order. -/
def descending (ps : List Pattern) : List Pattern :=
  ps.mergeSort fun p q => decide (q.support ≤ p.support)

theorem descending_perm (ps : List Pattern) : (descending ps).Perm ps := List.mergeSort_perm ..

/-- The first pattern of least support. -/
def least? (ps : List Pattern) : Option Pattern := (ascending ps).head?

/-- The first pattern of greatest support. -/
def greatest? (ps : List Pattern) : Option Pattern := (descending ps).head?

/-- How many different patterns a list holds. -/
def countDistinct : List Pattern → Nat
  | [] => 0
  | p :: ps => countDistinct ps + if ps.contains p then 0 else 1

/-- A pattern as a text. -/
def label (p : Pattern) : String :=
  "Pattern(" ++ Item.listLabel p.items ++ ", support=" ++ toString p.support ++ ")"

end Pattern

end TopPatterns

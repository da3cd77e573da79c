import LiveRecords.Document.Render

/-
  Equality and order of values as queries see them.

  Numbers are compared by value: two integers of 64 bits exactly, any other pair
  as binary64. Only values of one family (numbers, strings, truth values) have an
  order; sorting puts the families one after another. A key text stands for a key
  in the tables of a store.
-/

namespace LiveRecords.Value

/-- The order of two numbers by value; none if either is no number. -/
def compareNumbers? (a b : Value) : Option Ordering :=
  match a.signed64?, b.signed64? with
  | some m, some n => some (Ord.compare m n)
  | _, _ =>
    match a.toBinary?, b.toBinary? with
    | some x, some y => some (x.compare y)
    | _, _ => none

/-- Whether two numbers have one value. -/
def alikeNumbers (a b : Value) : Bool :=
  match a.signed64?, b.signed64? with
  | some m, some n => m == n
  | _, _ =>
    match a.toBinary?, b.toBinary? with
    | some x, some y => x.same y
    | _, _ => false

mutual

/-- Equality up to the kind of numbers: `1` and `1.0` are alike. -/
def alike : Value → Value → Bool
  | .null, .null => true
  | .bool a, .bool b => a == b
  | .text a, .text b => a == b
  | .list a, .list b => alikeItems a b
  | .object a, .object b => alikeFields a b
  | a, b => alikeNumbers a b

/-- Alike item by item. -/
def alikeItems : List Value → List Value → Bool
  | [], [] => true
  | a :: as, b :: bs => alike a b && alikeItems as bs
  | _, _ => false

/-- Alike field by field. -/
def alikeFields : List (String × Value) → List (String × Value) → Bool
  | [], [] => true
  | (m, a) :: as, (n, b) :: bs => m == n && alike a b && alikeFields as bs
  | _, _ => false

end

/-- The order of two values of one family. Strings are ordered by code point. -/
def compare? : Value → Value → Option Ordering
  | .text a, .text b => some (Ord.compare a b)
  | .bool a, .bool b => some (Ord.compare a.toNat b.toNat)
  | a, b => compareNumbers? a b

/-- The place of a value's family in the order of families. -/
def familyRank : Value → Nat
  | .null => 0
  | .bool _ => 1
  | .int _ | .float _ => 2
  | .text _ => 3
  | .list _ => 4
  | .object _ => 5

/-- The order that sorting uses: by value within a family where there is one, else
by family; nulls come first. -/
def sortOrder (a b : Value) : Ordering :=
  (compare? a b).getD (Ord.compare a.familyRank b.familyRank)

/-- The text that a key value stands for in a table. A floating number that is an
integer below 2^63 in size has the key of that integer. -/
def keyText : Value → String
  | .text s => s
  | .float x =>
    match x.toInt? with
    | some n => if n.natAbs < 9223372036854775808 then toString n else x.render
    | none => x.render
  | v => v.render

end LiveRecords.Value

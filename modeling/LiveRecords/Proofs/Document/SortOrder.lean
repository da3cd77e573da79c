import Mathlib.Order.Compare
import LiveRecords.Document.Order

/-
  The order that sorting uses.

  Numbers that do not have 64 bits with sign are compared as binary64, which makes
  the order of all values no preorder: two great integers may both be equal to a
  float and differ from each other. Among the values that are no such numbers
  (`Sortable`) sorting compares by the place of the family, then by number, then by
  text (`sortOrder_eq_placeOrder`), and that is a total preorder.
-/

namespace LiveRecords.Value

/-- The value is no floating number and no integer beyond 64 bits with sign. -/
def Sortable : Value → Prop
  | .float _ => False
  | .int n => InSigned64 n
  | _ => True

instance : DecidablePred Sortable
  | .float _ => inferInstanceAs (Decidable False)
  | .int n => inferInstanceAs (Decidable (InSigned64 n))
  | .null | .bool _ | .text _ | .list _ | .object _ => inferInstanceAs (Decidable True)

/-- The number by which a value stands within its family. -/
def number : Value → Int
  | .int n => n
  | .bool b => b.toNat
  | _ => 0

/-- The text by which a value stands within its family. -/
def letters : Value → String
  | .text s => s
  | _ => ""

/-- The order by family, then by number, then by text. -/
def placeOrder : Value → Value → Ordering :=
  compareLex (compareOn familyRank) (compareLex (compareOn number) (compareOn letters))

instance : Std.TransCmp placeOrder :=
  inferInstanceAs (Std.TransCmp
    (compareLex (compareOn familyRank) (compareLex (compareOn number) (compareOn letters))))

theorem placeOrder_swap (a b : Value) : placeOrder a b = (placeOrder b a).swap :=
  Std.OrientedCmp.eq_swap

theorem placeOrder_isLE_trans {a b c : Value} (hab : (placeOrder a b).isLE)
    (hbc : (placeOrder b c).isLE) : (placeOrder a c).isLE := Std.TransCmp.isLE_trans hab hbc

/-- Sorting compares two sortable values by family, then by number, then by text. -/
theorem sortOrder_eq_placeOrder {a b : Value} (ha : a.Sortable) (hb : b.Sortable) :
    a.sortOrder b = placeOrder a b := by
  cases a with
  | float x => exact ha.elim
  | int m =>
    have hm : signed64? (.int m) = some m := if_pos ha
    cases b with
    | float y => exact hb.elim
    | int n =>
      have hn : signed64? (.int n) = some n := if_pos hb
      have hint : compare? (.int m) (.int n) = some (compare m n) := by
        simp only [compare?, compareNumbers?, hm, hn]
      show (compare? (.int m) (.int n)).getD _ = _
      rw [hint]
      simp [placeOrder, compareLex, compareOn, familyRank, number, letters]
    | _ =>
      show (compareNumbers? _ _).getD _ = _
      simp only [compareNumbers?, hm]
      rfl
  | bool x =>
    cases b with
    | float y => exact hb.elim
    | bool y => cases x <;> cases y <;> rfl
    | _ => rfl
  | text s =>
    cases b with
    | float y => exact hb.elim
    | text t =>
      show compare s t = _
      simp [placeOrder, compareLex, compareOn, familyRank, number, letters]
    | _ => rfl
  | _ =>
    cases b with
    | float y => exact hb.elim
    | _ => rfl

end LiveRecords.Value

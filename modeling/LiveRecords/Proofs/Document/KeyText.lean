import Mathlib
import LiveRecords.Document.Order
import LiveRecords.Proofs.Number.Whole

/-
  Key texts and likeness.

  A store looks keys up by their texts, a query compares them by value. For two keys
  of one kind both come to the same (`Kindred.alike_iff`): two strings, two truth
  values, two integers of 64 bits with sign, or two whole numbers up to 2^53 in size,
  in either way of writing them. A string has the text of the number it spells, and a
  number beyond these bounds may be alike to another one, so no more can be said.
-/

namespace LiveRecords.Value

/-- The integer that a number is, if it is whole. -/
def whole? : Value → Option Int
  | .int n => some n
  | .float x => x.toInt?
  | _ => none

/-- Two keys of one kind. -/
inductive Kindred : Value → Value → Prop where
  | texts (s t : String) : Kindred (.text s) (.text t)
  | bools (b c : Bool) : Kindred (.bool b) (.bool c)
  | integers {m n : Int} (left : InSigned64 m) (right : InSigned64 n) : Kindred (.int m) (.int n)
  | wholes {a b : Value} {m n : Int} (left : a.whole? = some m) (right : b.whole? = some n)
      (small : m.natAbs ≤ 2 ^ 53) (small' : n.natAbs ≤ 2 ^ 53) : Kindred a b

theorem keyText_int (n : Int) : (Value.int n).keyText = n.repr := by
  show String.ofList (toString n).toList = n.repr
  rw [String.ofList_toList]
  rfl

-- The text of floating numbers is a parameter here, so that whoever checks the lemma does
-- not set out to divide a magnitude by 2^1074.
theorem keyText_float_of {text : Binary64 → String} (h : keyText = fun
    | .text s => s
    | .float x => text x
    | v => v.render) (x : Binary64) : (Value.float x).keyText = text x := by
  rw [h]

theorem keyText_float (x : Binary64) : (Value.float x).keyText =
    match x.toInt? with
    | some n => if n.natAbs < 9223372036854775808 then toString n else x.render
    | none => x.render :=
  keyText_float_of rfl x

/-! ## Whole numbers -/

/-- A whole number is an integer, or a floating number that is one. -/
theorem of_whole? {a : Value} {m : Int} (h : a.whole? = some m) :
    a = .int m ∨ ∃ x, a = .float x ∧ x.toInt? = some m := by
  cases a with
  | int n =>
    cases h
    exact .inl rfl
  | float x => exact .inr ⟨x, rfl, h⟩
  | null => cases h
  | bool b => cases h
  | text s => cases h
  | list items => cases h
  | object fields => cases h

variable {a b : Value} {m n : Int}

/-- A whole number of moderate size has the key text of the integer it is. -/
theorem keyText_of_whole? (h : a.whole? = some m) (small : m.natAbs ≤ 2 ^ 53) :
    a.keyText = m.repr := by
  rcases of_whole? h with rfl | ⟨x, rfl, hx⟩
  · exact keyText_int m
  · rw [keyText_float, hx]
    exact if_pos (Nat.lt_of_le_of_lt small (by decide))

/-- The units of a whole number as a binary64 number. -/
theorem units_of_whole? (h : a.whole? = some m) (small : m.natAbs ≤ 2 ^ 53) :
    ∃ x, a.toBinary? = some x ∧ x.units = m * Binary64.one := by
  rcases of_whole? h with rfl | ⟨x, rfl, hx⟩
  · exact ⟨.ofInt m, rfl, Binary64.units_ofInt small⟩
  · exact ⟨x, rfl, Binary64.units_of_toInt? hx⟩

/-- Integers of 64 bits with sign are alike if they are one. -/
theorem alike_int (hm : InSigned64 m) (hn : InSigned64 n) :
    (Value.int m).alike (.int n) = true ↔ m = n := by
  have hm' : LiveRecords.signed64? m = some m := if_pos hm
  have hn' : LiveRecords.signed64? n = some n := if_pos hn
  simp only [alike, alikeNumbers, signed64?, hm', hn', beq_iff_eq]

theorem inSigned64_of_small (h : m.natAbs ≤ 2 ^ 53) : InSigned64 m := by
  unfold InSigned64
  omega

/-- Whole numbers of moderate size are alike if they are one integer. -/
theorem alike_of_whole? (ha : a.whole? = some m) (hb : b.whole? = some n)
    (hm : m.natAbs ≤ 2 ^ 53) (hn : n.natAbs ≤ 2 ^ 53) : a.alike b = true ↔ m = n := by
  obtain ⟨x, hx, hxm⟩ := units_of_whole? ha hm
  obtain ⟨y, hy, hyn⟩ := units_of_whole? hb hn
  have hbinary : x.same y = true ↔ m = n := by
    unfold Binary64.same
    rw [beq_iff_eq, hxm, hyn]
    exact Int.mul_eq_mul_right_iff (Int.natCast_ne_zero.2 (Nat.ne_of_gt Binary64.one_pos))
  have hm' : LiveRecords.signed64? m = some m := if_pos (inSigned64_of_small hm)
  have hn' : LiveRecords.signed64? n = some n := if_pos (inSigned64_of_small hn)
  rcases of_whole? ha with rfl | ⟨x', rfl, _⟩ <;> rcases of_whole? hb with rfl | ⟨y', rfl, _⟩
  · exact alike_int (inSigned64_of_small hm) (inSigned64_of_small hn)
  all_goals
    simp only [alike, alikeNumbers, signed64?, hm', hn', hx, hy]
    exact hbinary

/-! ## One kind -/

/-- Keys of one kind have one text just if they are alike. -/
theorem Kindred.alike_iff (h : Kindred a b) : a.alike b = true ↔ a.keyText = b.keyText := by
  cases h with
  | texts s t => exact beq_iff_eq
  | bools b c => cases b <;> cases c <;> decide
  | @integers m n left right =>
    rw [alike_int left right, keyText_int, keyText_int, Int.repr_inj]
  | @wholes a b m n left right small small' =>
    rw [alike_of_whole? left right small small', keyText_of_whole? left small,
      keyText_of_whole? right small', Int.repr_inj]

end LiveRecords.Value

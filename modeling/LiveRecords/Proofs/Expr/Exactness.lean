import LiveRecords.Proofs.Expr.Forms
import LiveRecords.Proofs.Number.Range

/-
  Arithmetic on integers.

  What an operation has to come to on two integers is said without the function that computes it
  (`Arithmetic.Exact`): a quotient is told by what it leaves, which is less than the divisor and
  on the dividend's side of zero. There is one such result, unless an integer is divided by zero
  (`Arithmetic.exact_iff`).

  Operands of 64 bits with sign give this result where it has 64 bits with sign as well. Any
  other result is the one of the binary64 numbers nearest to the operands, and there always is
  one (`exists_onBinary`). That is so for every pair with an integer from 2^63 on, though the
  exact result of such a pair may have 64 bits with sign (`Expr.beyond_rounded`).
-/

namespace LiveRecords

/-! ## Exact results -/

namespace Arithmetic

/-- The kind of the nodes of an operation. -/
def kind : Arithmetic → Kind
  | .add => .add
  | .sub => .sub
  | .mul => .mul
  | .div => .div

theorem binary?_kind (op : Arithmetic) : Operation.binary? op.kind = some op.apply := by
  cases op <;> rfl

/-- The exact result of an operation on two integers. A quotient is truncated toward zero: what
is left of the dividend is less than the divisor and on the same side of zero. -/
inductive Exact : Arithmetic → Int → Int → Int → Prop where
  | add (m n : Int) : Exact .add m n (m + n)
  | sub (m n : Int) : Exact .sub m n (m - n)
  | mul (m n : Int) : Exact .mul m n (m * n)
  | div {m n q r : Int} (parts : m = q * n + r) (less : r.natAbs < n.natAbs)
      (above : 0 ≤ m → 0 ≤ r) (below : m ≤ 0 → r ≤ 0) : Exact .div m n q

variable {op : Arithmetic} {m n q r : Int}

theorem exact_tdiv (m : Int) (h : n ≠ 0) : Exact .div m n (m.tdiv n) := by
  have hside : m ≤ 0 → m.tmod n ≤ 0 := by
    intro hm
    have hneg := Int.tmod_nonneg n (show 0 ≤ -m by omega)
    rw [Int.neg_tmod] at hneg
    omega
  refine .div (Int.tdiv_mul_add_tmod m n).symm ?_ (Int.tmod_nonneg n) hside
  rw [Int.natAbs_tmod]
  exact Nat.mod_lt _ (by omega)

/-- What two quotients leave is on one side of zero, so it differs by less than the divisor; and
it differs by a multiple of the divisor. -/
theorem quotient_unique {q' : Int} (h : Exact .div m n q) (h' : Exact .div m n q') : q = q' := by
  cases h with
  | @div _ _ _ r parts less above below =>
    cases h' with
    | @div _ _ _ r' parts' less' above' below' =>
      have hmultiple : n ∣ r' - r := ⟨q - q', by rw [Int.mul_comm, Int.sub_mul]; omega⟩
      have hsame := Int.eq_zero_of_dvd_of_natAbs_lt_natAbs hmultiple (by omega)
      exact Int.eq_of_mul_eq_mul_right (show n ≠ 0 by omega) (by omega)

theorem exact_iff : Exact op m n r ↔ ¬(op = .div ∧ n = 0) ∧ r = op.onInts m n := by
  constructor
  · intro h
    cases h with
    | add | sub | mul => exact ⟨fun hdiv => (nomatch hdiv.1), rfl⟩
    | div parts less above below =>
      have hdivisor : n ≠ 0 := by omega
      have hquotient := Exact.div parts less above below
      exact ⟨fun hzero => hdivisor hzero.2, quotient_unique hquotient (exact_tdiv m hdivisor)⟩
  · rintro ⟨hzero, rfl⟩
    cases op with
    | add => exact .add m n
    | sub => exact .sub m n
    | mul => exact .mul m n
    | div => exact exact_tdiv m fun h => hzero ⟨rfl, h⟩

/-! ## Operations on integers -/

/-- What a missing right operand counts as. -/
def unit : Arithmetic → Int
  | .div => 1
  | _ => 0

theorem neutral_eq (op : Arithmetic) : op.neutral = .int op.unit := by
  cases op <;> rfl

/-- Integers are calculated with exactly where they and the result have 64 bits with sign, else in
binary64. -/
theorem apply_int (op : Arithmetic) (m n : Int) : op.apply (.int m) (.int n) =
    if op = .div ∧ n = 0 then .null
    else if InSigned64 m ∧ InSigned64 n ∧ InSigned64 (op.onInts m n) then .int (op.onInts m n)
    else .ofBinary? (op.onBinary (.ofInt m) (.ofInt n)) := by
  -- a division by zero gives null in binary64, too
  have hfloating : op.floating (.int m) (.int n) =
      if op = .div ∧ n = 0 then .null else .ofBinary? (op.onBinary (.ofInt m) (.ofInt n)) := by
    split
    · next hzero =>
      obtain ⟨rfl, rfl⟩ := hzero
      show Value.ofBinary? ((Binary64.ofInt m).div (.ofInt 0)) = .null
      rw [Binary64.div_ofInt_zero]
      rfl
    · rfl
  unfold apply
  simp only [orElse, Value.isNull, Bool.false_eq_true, if_false, Value.signed64?, signed64?,
    hfloating]
  by_cases hm : InSigned64 m <;> by_cases hn : InSigned64 n
  · by_cases hr : InSigned64 (op.onInts m n)
    · simp only [hm, hn, hr, and_self, if_true]
    · simp only [hm, hn, hr, and_false, if_true, if_false]
      split <;> rfl
  all_goals simp only [hm, hn, true_and, false_and, if_true, if_false]

theorem exists_onBinary (hm : InDocument m) (hn : InDocument n) (h : ¬(op = .div ∧ n = 0)) :
    ∃ x, op.onBinary (.ofInt m) (.ofInt n) = some x := by
  unfold InDocument at hm hn
  have hleft := Binary64.magnitude_ofInt_le (n := m) (k := 64) (by omega) (by omega)
  have hright := Binary64.magnitude_ofInt_le (n := n) (k := 64) (by omega) (by omega)
  cases op with
  | add => exact Binary64.exists_add hleft hright (by omega)
  | sub => exact Binary64.exists_sub hleft hright (by omega)
  | mul => exact Binary64.exists_mul hleft hright (by omega)
  | div =>
    have hone := Binary64.one_le_magnitude_ofInt (n := n) fun hzero => h ⟨rfl, hzero⟩
    exact Binary64.exists_div hleft hone (by omega)

/-- Every pair of integers of documents is calculated with: a division by zero gives null, and
everything else the exact result, where it and both operands have 64 bits with sign, or a
number. -/
theorem apply_document (op : Arithmetic) (hm : InDocument m) (hn : InDocument n) :
    (op = .div → n = 0 → op.apply (.int m) (.int n) = .null) ∧
    (¬(op = .div ∧ n = 0) → ∃ r x, (∀ k, Exact op m n k ↔ k = r) ∧
      op.onBinary (.ofInt m) (.ofInt n) = some x ∧
      op.apply (.int m) (.int n) =
        if InSigned64 m ∧ InSigned64 n ∧ InSigned64 r then .int r else .float x) := by
  rw [apply_int]
  refine ⟨fun hdiv hn => if_pos ⟨hdiv, hn⟩, fun h => ?_⟩
  obtain ⟨x, hx⟩ := exists_onBinary hm hn h
  rw [if_neg h, hx]
  refine ⟨op.onInts m n, x, fun k => ?_, rfl, rfl⟩
  rw [exact_iff, and_iff_right h]

theorem inDocument_unit (op : Arithmetic) : InDocument op.unit := by
  cases op <;> decide

end Arithmetic

/-! ## Operands -/

namespace Value

/-- The integer that an operand stands for: its own, or another one in place of null. -/
inductive StandsFor (missing : Int) : Value → Int → Prop where
  | held {n : Int} (document : InDocument n) : StandsFor missing (.int n) n
  | missing : StandsFor missing .null missing

variable {missing n : Int} {v : Value}

theorem StandsFor.orElse (h : v.StandsFor missing n) :
    Arithmetic.orElse (.int missing) v = .int n := by
  cases h <;> rfl

theorem StandsFor.inDocument (h : v.StandsFor missing n) (default : InDocument missing) :
    InDocument n := by
  cases h with
  | held document => exact document
  | missing => exact default

theorem apply_standsFor {op : Arithmetic} {a b : Value} {m : Int} (ha : a.StandsFor 0 m)
    (hb : b.StandsFor op.unit n) : op.apply a b = op.apply (.int m) (.int n) := by
  unfold Arithmetic.apply
  rw [op.neutral_eq, ha.orElse, hb.orElse]
  rfl

theorem negate_int (n : Int) : (Value.int n).negate =
    if InSigned64 n ∧ InSigned64 (-n) then .int (-n) else .float (.ofInt (-n)) := by
  -- the negation of zero, which binary64 tells from zero, is calculated exactly
  have hbinary (h : ¬(InSigned64 n ∧ InSigned64 (-n))) :
      ofBinary? ((Value.int n).toBinary?.map Binary64.neg) = .float (.ofInt (-n)) := by
    have hne : n ≠ 0 := by
      rintro rfl
      exact h (by decide)
    exact congrArg float (Binary64.neg_ofInt hne)
  unfold negate
  simp only [signed64?, LiveRecords.signed64?]
  by_cases hn : InSigned64 n
  · by_cases hr : InSigned64 (-n)
    · simp only [hn, hr, and_self, if_true]
    · simp only [hn, hr, and_false, if_true, if_false]
      exact hbinary fun h => hr h.2
  · simp only [hn, false_and, if_false]
    exact hbinary fun h => hn h.1

end Value

/-! ## Expressions -/

namespace Expr

/-- Where the operands of an operation come to integers of documents or to nothing, the operation
comes to a value: to null if it divides by zero, and else to the exact result if that and both
operands have 64 bits with sign, and otherwise to a number, which is the result of the operation
on the numbers nearest to the operands. The negation of an integer is exact if it and the integer
have 64 bits with sign, and otherwise the number nearest to it; the negation of nothing is
null. -/
theorem integers_calculated (left right : Expr) (d : Value) :
    (∀ (op : Arithmetic) c a b m n, left.valueOn d = .ok a → right.valueOn d = .ok b →
      a.StandsFor 0 m → b.StandsFor op.unit n →
        (op = .div → n = 0 → (binary op.kind c left right).valueOn d = .ok .null) ∧
        (¬(op = .div ∧ n = 0) → ∃ r x, (∀ k, op.Exact m n k ↔ k = r) ∧
          op.onBinary (.ofInt m) (.ofInt n) = some x ∧
          (binary op.kind c left right).valueOn d =
            .ok (if InSigned64 m ∧ InSigned64 n ∧ InSigned64 r then .int r else .float x))) ∧
    ∀ c, (left.valueOn d = .ok .null → (unary .negate c left).valueOn d = .ok .null) ∧
      ∀ n, left.valueOn d = .ok (.int n) → (unary .negate c left).valueOn d =
        .ok (if InSigned64 n ∧ InSigned64 (-n) then .int (-n) else .float (.ofInt (-n))) := by
  refine ⟨fun op c a b m n hleft hright ha hb => ?_, fun c => ⟨fun hleft => ?_, fun n hleft => ?_⟩⟩
  · have hvalue : (binary op.kind c left right).valueOn d = .ok (op.apply (.int m) (.int n)) := by
      rw [valueOn_binary op.binary?_kind, hleft, hright, ← Value.apply_standsFor ha hb]
      rfl
    obtain ⟨hzero, hresult⟩ := op.apply_document (ha.inDocument (by decide))
      (hb.inDocument op.inDocument_unit)
    refine ⟨fun hdiv hn => ?_, fun h => ?_⟩
    · rw [hvalue, hzero hdiv hn]
    · obtain ⟨r, x, hexact, hx, happly⟩ := hresult h
      exact ⟨r, x, hexact, hx, by rw [hvalue, happly]⟩
  · rw [valueOn_unary rfl, hleft]
    rfl
  · rw [valueOn_unary rfl, hleft, ← Value.negate_int]
    rfl

/-- A quotient is truncated toward zero. That of the least integer of 64 bits with sign and -1
does not have 64 bits with sign, and neither does the negation of that integer. -/
theorem least_calculated :
    (binary .div .numeric (const (.int (-7))) (const (.int 2))).valueOn .null = .ok (.int (-3)) ∧
    (∃ x, (binary .div .numeric (const (.int (-2 ^ 63))) (const (.int (-1)))).valueOn .null =
      .ok (.float x)) ∧
    (unary .negate .numeric (const (.int (-2 ^ 63)))).valueOn .null =
      .ok (.float (.ofInt (2 ^ 63))) := by
  obtain ⟨hseven, -⟩ := integers_calculated (const (.int (-7))) (const (.int 2)) .null
  obtain ⟨hleast, hnegate⟩ :=
    integers_calculated (const (.int (-2 ^ 63))) (const (.int (-1))) .null
  refine ⟨?_, ?_, ?_⟩
  · obtain ⟨-, hresult⟩ := hseven .div .numeric _ _ (-7) 2 rfl rfl (.held (by decide))
      (.held (by decide))
    obtain ⟨r, x, hexact, -, hvalue⟩ := hresult (by decide)
    have hr : -3 = r := (hexact (-3)).1
      (.div (r := -1) (by decide) (by decide) (by decide) (by decide))
    subst hr
    exact hvalue
  · obtain ⟨-, hresult⟩ := hleast .div .numeric _ _ (-2 ^ 63) (-1) rfl rfl (.held (by decide))
      (.held (by decide))
    obtain ⟨r, x, hexact, -, hvalue⟩ := hresult (by decide)
    have hr : 2 ^ 63 = r := (hexact (2 ^ 63)).1
      (.div (r := 0) (by decide) (by decide) (by decide) (by decide))
    subst hr
    exact ⟨x, hvalue⟩
  · exact (hnegate .numeric).2 (-2 ^ 63) rfl

/-- The integers from 2^63 on are calculated with in binary64 though the result has 64 bits with
sign: one less than 2^63 is 2^63 again, and its negation is no integer. -/
theorem beyond_rounded :
    (InDocument (2 ^ 63) ∧ Arithmetic.sub.Exact (2 ^ 63) 1 (2 ^ 63 - 1) ∧
      InSigned64 (2 ^ 63 - 1) ∧
      (binary .sub .numeric (const (.int (2 ^ 63))) (const (.int 1))).valueOn .null =
        .ok (.float (.ofInt (2 ^ 63)))) ∧
    InSigned64 (-2 ^ 63) ∧
      (unary .negate .numeric (const (.int (2 ^ 63)))).valueOn .null =
        .ok (.float (.ofInt (-2 ^ 63))) := by
  have hsub : Arithmetic.sub.onBinary (.ofInt (2 ^ 63)) (.ofInt 1) =
      some (.ofInt (2 ^ 63)) := by
    decide +kernel
  refine ⟨⟨by decide, .sub _ _, by decide, ?_⟩, by decide, ?_⟩
  · refine (valueOn_binary Arithmetic.sub.binary?_kind .numeric).trans ?_
    show Except.ok (Arithmetic.sub.apply (.int (2 ^ 63)) (.int 1)) = _
    rw [Arithmetic.apply_int, if_neg (by decide), if_neg (by decide), hsub]
    rfl
  · rw [valueOn_unary rfl]
    show Except.ok (Value.int (2 ^ 63)).negate = _
    rw [Value.negate_int, if_neg (by decide)]

end Expr

end LiveRecords

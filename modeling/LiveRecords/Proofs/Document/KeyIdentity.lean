import LiveRecords.Proofs.Document.Integers
import LiveRecords.Proofs.Document.KeyText
import LiveRecords.Proofs.Number.Shortest

/-
  Which numbers have one key text.

  A key text is that of an integer, or the shortest text of a binary64 number
  (`keyText_cases`). The one is never the other, and neither is shared by two numbers, so
  different numbers have different key texts. But one number may have two: from 2^63 on in size
  a binary64 number no longer takes the text of the integer that it is (`keyText_eq_iff`).
-/

namespace LiveRecords

namespace Binary64

/-- The number itself. -/
def value (x : Binary64) : ℚ := x.units / one

theorem value_eq_iff {x : Binary64} {n : Int} : x.value = n ↔ x.units = n * one := by
  have hone : (one : ℚ) ≠ 0 := by exact_mod_cast one_pos.ne'
  rw [value, div_eq_iff hone]
  exact_mod_cast Iff.rfl

theorem value_inj {x y : Binary64} : x.value = y.value ↔ x.units = y.units := by
  have hone : (one : ℚ) ≠ 0 := by exact_mod_cast one_pos.ne'
  rw [value, value, div_left_inj' hone, Int.cast_inj]

theorem value_of_toInt? {x : Binary64} {n : Int} (h : x.toInt? = some n) : x.value = n :=
  value_eq_iff.2 (units_of_toInt? h)

theorem value_of_zero {x : Binary64} (h : x.code = 0) : x.value = (0 : Int) := by
  have hmagnitude : x.magnitude = 0 := by
    rw [magnitude, unitsOf, h, Nat.zero_sub, Nat.zero_mul]
  rw [value_eq_iff, units, hmagnitude, Int.natCast_zero, Int.neg_zero, ite_self, Int.zero_mul]

/-- A number that is an integer is found to be one. -/
theorem toInt?_of_value {x : Binary64} {n : Int} (h : x.value = n) : x.toInt? = some n := by
  have hunits := value_eq_iff.1 h
  have hmagnitude : x.magnitude = n.natAbs * one := by
    rw [← Int.natAbs_natCast one, ← Int.natAbs_mul, ← hunits, units]
    split <;> omega
  have hwhole : x.magnitude % one = 0 := by rw [hmagnitude, Nat.mul_mod_left]
  have hquotient : x.magnitude / one = n.natAbs := by
    rw [hmagnitude, Nat.mul_div_cancel _ one_pos]
  have hsome : x.toInt? = some (if x.negative then -(n.natAbs : Int) else n.natAbs) := by
    rw [toInt?, if_pos hwhole, hquotient]
  have hback := value_of_toInt? hsome
  rw [h, Int.cast_inj] at hback
  rw [hsome, ← hback]

end Binary64

namespace Value

open Binary64

/-- The number that a value is. -/
def number? : Value → Option ℚ
  | .int n => some n
  | .float x => some x.value
  | _ => none

/-- Whether a value is a number written as an integer. -/
def isInteger : Value → Bool
  | .int _ => true
  | _ => false

variable {a b : Value} {p q : ℚ}

/-- The text of an integer is not that of a binary64 number. -/
theorem repr_ne_render (n : Int) (x : Binary64) : n.repr ≠ x.render := by
  intro h
  obtain ⟨numeral, hscan, -, hplain, -⟩ := scan_render x
  rw [← h, Numeral.scan_int, Option.some.injEq, Prod.mk.injEq] at hscan
  rw [← hscan.1] at hplain
  cases hplain

/-- The key text of a number is that of an integer, or it is a binary64 number that is no
integer below 2^63 in size and has its shortest text. -/
theorem keyText_cases (h : a.number? = some p) :
    (∃ n : Int, p = n ∧ (a.isInteger = true ∨ |p| < 2 ^ 63) ∧ a.keyText = n.repr) ∨
    (∃ x, a = .float x ∧ p = x.value ∧ (∀ n : Int, p = n → 2 ^ 63 ≤ |p|) ∧
      a.keyText = x.render) := by
  have hsize : ∀ n : Int, n.natAbs < 9223372036854775808 ↔ |(n : ℚ)| < 2 ^ 63 := fun n => by
    rw [← Int.cast_abs, Int.abs_eq_natAbs, Int.cast_natCast]
    exact_mod_cast Iff.rfl
  cases a with
  | int n =>
    cases h
    exact .inl ⟨n, rfl, .inl rfl, keyText_int n⟩
  | float x =>
    cases h
    have htext := keyText_float x
    cases hx : x.toInt? with
    | none =>
      rw [hx] at htext
      refine .inr ⟨x, rfl, rfl, fun n hn => ?_, htext⟩
      rw [toInt?_of_value hn] at hx
      cases hx
    | some n =>
      have hvalue := value_of_toInt? hx
      rw [hx] at htext
      by_cases hsmall : n.natAbs < 9223372036854775808
      · refine .inl ⟨n, hvalue, .inr ?_, htext.trans (if_pos hsmall)⟩
        rw [hvalue]
        exact (hsize n).1 hsmall
      · refine .inr ⟨x, rfl, rfl, fun _ _ => ?_, htext.trans (if_neg hsmall)⟩
        rw [hvalue]
        exact not_lt.1 (mt (hsize n).2 hsmall)
  | null => cases h
  | bool b => cases h
  | text s => cases h
  | list items => cases h
  | object fields => cases h

/-- Numbers have one key text just if they are one number, and that is written in one way in
both or less than 2^63 in size. -/
theorem keyText_eq_iff (ha : a.number? = some p) (hb : b.number? = some q) :
    a.keyText = b.keyText ↔ p = q ∧ (a.isInteger = b.isInteger ∨ |p| < 2 ^ 63) := by
  rcases keyText_cases ha with ⟨m, rfl, hm, hma⟩ | ⟨x, rfl, rfl, hx, hxa⟩ <;>
    rcases keyText_cases hb with ⟨n, rfl, hn, hnb⟩ | ⟨y, rfl, rfl, hy, hyb⟩
  · rw [hma, hnb, Int.repr_inj, Int.cast_inj]
    refine ⟨fun heq => ⟨heq, ?_⟩, And.left⟩
    subst heq
    rcases hm with hm | hm
    · rcases hn with hn | hn
      · exact .inl (hm.trans hn.symm)
      · exact .inr hn
    · exact .inr hm
  · rw [hma, hyb]
    refine iff_of_false (repr_ne_render m y) fun ⟨heq, hwritten⟩ => ?_
    have hgreat : (2 : ℚ) ^ 63 ≤ |(m : ℚ)| := heq ▸ hy m heq.symm
    rcases hm with hm | hm
    · rcases hwritten with hwritten | hless
      · rw [hm] at hwritten
        cases hwritten
      · exact absurd hless (not_lt.2 hgreat)
    · exact absurd hm (not_lt.2 hgreat)
  · rw [hxa, hnb]
    refine iff_of_false (fun htext => repr_ne_render n x htext.symm) fun ⟨heq, hwritten⟩ => ?_
    have hgreat := hx n heq
    rcases hn with hn | hn
    · rcases hwritten with hwritten | hless
      · rw [hn] at hwritten
        cases hwritten
      · exact absurd hless (not_lt.2 hgreat)
    · rw [← heq] at hn
      exact absurd hn (not_lt.2 hgreat)
  · rw [hxa, hyb, render_inj]
    refine ⟨fun heq => ⟨congrArg value heq, .inl rfl⟩, fun ⟨heq, _⟩ => ?_⟩
    rcases same_iff.1 (beq_iff_eq.2 (value_inj.1 heq)) with hsame | ⟨hzero, -⟩
    · exact hsame
    · -- a zero is an integer, and a small one
      have hgreat := hx 0 (value_of_zero hzero)
      rw [value_of_zero hzero, Int.cast_zero, abs_zero] at hgreat
      norm_num at hgreat

/-- Two and 2.0 are one key. -/
theorem two_one_key :
    (Value.int 2).number? = some 2 ∧ (Value.float (.ofInt 2)).number? = some 2 ∧
      (Value.int 2).keyText = (Value.float (.ofInt 2)).keyText := by
  have hint : (Value.int 2).number? = some 2 := rfl
  have hfloat : (Value.float (.ofInt 2)).number? = some 2 :=
    congrArg some (value_eq_iff (n := 2) |>.2 (units_ofInt (by decide)))
  refine ⟨hint, hfloat, (keyText_eq_iff hint hfloat).2 ⟨rfl, .inr ?_⟩⟩
  norm_num

/-- An integer from 2^63 on in size has another key than the binary64 number that it is. -/
theorem keyText_ne_of_great {n : Int} (units : (ofInt n).units = n * one)
    (great : 2 ^ 63 ≤ n.natAbs) :
    (Value.int n).number? = (Value.float (.ofInt n)).number? ∧
      (Value.int n).keyText ≠ (Value.float (.ofInt n)).keyText := by
  have hvalue : (ofInt n).value = n := value_eq_iff.2 units
  refine ⟨(congrArg some hvalue).symm, ?_⟩
  rw [keyText_int, keyText_float, toInt?_of_value hvalue]
  dsimp only
  rw [if_neg (by omega)]
  exact repr_ne_render n _

/-- At 2^63 and at -2^63 the integer and the binary64 number are one number, with two keys. -/
theorem limits_two_keys :
    ((Value.int (2 ^ 63)).number? = (Value.float (.ofInt (2 ^ 63))).number? ∧
      (Value.int (2 ^ 63)).keyText ≠ (Value.float (.ofInt (2 ^ 63))).keyText) ∧
    ((Value.int (-2 ^ 63)).number? = (Value.float (.ofInt (-2 ^ 63))).number? ∧
      (Value.int (-2 ^ 63)).keyText ≠ (Value.float (.ofInt (-2 ^ 63))).keyText) := by
  have hround : roundHalfEven (2 ^ 63) (2 ^ 11) * 2 ^ 11 = 2 ^ 63 := by decide
  have hnearest : (nearest (2 ^ 63) : Int) = 2 ^ 63 * one := by
    rw [nearest_eq (j := 11) (by decide) (by decide) (by decide), hround]
    exact Int.natCast_mul ..
  have hlast : (ofInt (2 ^ 63)).units = 2 ^ 63 * one := by
    rw [units_ofInt_eq, if_neg (by decide)]
    exact hnearest
  have hfirst : (ofInt (-2 ^ 63)).units = -2 ^ 63 * one := by
    rw [units_ofInt_eq, if_pos (by decide), Int.neg_mul]
    exact congrArg Neg.neg hnearest
  exact ⟨keyText_ne_of_great hlast (by decide), keyText_ne_of_great hfirst (by decide)⟩

end Value

end LiveRecords

import LiveRecords.Proofs.Document.KeyText
import LiveRecords.Proofs.Number.Rounding
import LiveRecords.Proofs.Query.Preorder

/-
  Comparing integers.

  Two integers of 64 bits with sign are compared exactly. As soon as one of the two is 2^63 or
  more, both are compared as binary64, and there the integers from 2^63 on only count by the
  thousand: each as the nearest multiple of 2048 (`units_ofInt_of_beyond`). So the order of two
  different integers is never turned round, but two of them may be taken for one
  (`Merged`), and then they are at most 2048 apart (`integers_compared`).
-/

namespace LiveRecords

namespace Binary64

/-! ## Rounding to multiples -/

theorem roundHalfEven_scale (num den : Nat) {k : Nat} (h : 0 < k) :
    roundHalfEven (num * k) (den * k) = roundHalfEven num den := by
  unfold roundHalfEven
  dsimp only
  rw [Nat.mul_div_mul_right _ _ h, Nat.mul_mod_mul_right, ← Nat.mul_assoc]
  simp only [Nat.mul_lt_mul_right h]

/-- A rounded quotient is off by at most a half. -/
theorem roundHalfEven_near (num : Nat) {den : Nat} (h : 0 < den) :
    2 * num ≤ 2 * (roundHalfEven num den * den) + den ∧
      2 * (roundHalfEven num den * den) ≤ 2 * num + den := by
  have hdiv := Nat.div_add_mod num den
  have hmod := Nat.mod_lt num h
  rw [Nat.mul_comm] at hdiv
  unfold roundHalfEven
  dsimp only
  split_ifs with hlow hhigh
  · omega
  · rw [Nat.add_mul]
    omega
  · -- at the half either way is as near
    rcases Nat.mod_two_eq_zero_or_one (num / den) with heven | hodd
    · rw [heven, Nat.add_zero]
      omega
    · rw [hodd, Nat.add_mul]
      omega

/-- A significand of 53 bits, or the first of 54, stands for itself times the scale. -/
theorem unitsOf_significand {q s : Nat} (low : 2 ^ 52 ≤ q) (high : q ≤ 2 ^ 53) :
    unitsOf (s * 2 ^ 52 + q) = q * 2 ^ s := by
  rcases Nat.lt_or_eq_of_le high with hlt | rfl
  · exact (unitsOf_roundCode low hlt).2
  · have hnext := (unitsOf_roundCode (q := 2 ^ 52) (s := s + 1) (Nat.le_refl _) (by omega)).2
    have hcode : (s + 1) * 2 ^ 52 + 2 ^ 52 = s * 2 ^ 52 + 2 ^ 53 := by ring
    rw [← hcode, hnext]
    ring

/-- An integer of 53 bits and some more is rounded to a multiple of the power of two that the
others make. -/
theorem nearest_eq {m j : Nat} (low : 2 ^ (52 + j) ≤ m) (high : m < 2 ^ (53 + j))
    (small : j ≤ 900) : nearest m = roundHalfEven m (2 ^ j) * 2 ^ j * one := by
  obtain ⟨e, he⟩ : ∃ e, e = 1074 := ⟨_, rfl⟩
  have hj : 0 < 2 ^ j := Nat.two_pow_pos j
  have hone : 0 < 2 ^ e := Nat.two_pow_pos e
  have hpos : 0 < m := (Nat.two_pow_pos _).trans_le low
  have hlog : (m * 2 ^ e).log2 = 52 + (j + e) := by
    refine (Nat.log2_eq_iff (Nat.mul_pos hpos hone).ne').2 ⟨?_, ?_⟩
    · calc 2 ^ (52 + (j + e)) = 2 ^ (52 + j) * 2 ^ e := by rw [← Nat.add_assoc, Nat.pow_add]
        _ ≤ m * 2 ^ e := Nat.mul_le_mul_right _ low
    · calc m * 2 ^ e < 2 ^ (53 + j) * 2 ^ e := Nat.mul_lt_mul_of_pos_right high hone
        _ = 2 ^ (52 + (j + e) + 1) := by rw [← Nat.pow_add]; congr 1; omega
  have hcode : roundCode (m * 2 ^ e) 1 = (j + e) * 2 ^ 52 + roundHalfEven m (2 ^ j) := by
    unfold roundCode
    simp only [Nat.div_one, hlog, Nat.add_sub_cancel_left, Nat.one_mul]
    show (j + e) * 2 ^ 52 + roundHalfEven (m * 2 ^ e) (2 ^ (j + e)) = _
    rw [Nat.pow_add, roundHalfEven_scale _ _ hone]
  have hsignificand : 2 ^ 52 ≤ roundHalfEven m (2 ^ j) ∧ roundHalfEven m (2 ^ j) ≤ 2 ^ 53 := by
    obtain ⟨hge, hle⟩ := roundHalfEven_bounds m (2 ^ j)
    constructor
    · exact ((Nat.le_div_iff_mul_le hj).2 (by rwa [← Nat.pow_add])).trans hge
    · exact hle.trans ((Nat.div_lt_iff_lt_mul hj).2 (by rwa [← Nat.pow_add]))
  have hfinite : (j + e) * 2 ^ 52 + roundHalfEven m (2 ^ j) ≤ finiteCodes - 1 := by
    show _ ≤ 2047 * 2 ^ 52 - 1
    omega
  unfold nearest
  rw [one_eq he, hcode, Nat.min_eq_left hfinite,
    unitsOf_significand hsignificand.1 hsignificand.2]
  ring

/-! ## Integers of 64 bits -/

/-- The integer that another one counts as beside one of 2^63 or more. -/
def counted (n : Int) : Int :=
  if 2 ^ 63 ≤ n then (roundHalfEven n.toNat 2048 * 2048 : Nat)
  else if 2 ^ 63 - 512 ≤ n then 2 ^ 63
  else n

variable {m n : Int}

theorem units_ofInt_of_nonneg (h : 0 ≤ n) : (ofInt n).units = nearest n.toNat := by
  rw [units_ofInt_eq, if_neg (by omega), show n.natAbs = n.toNat by omega]

/-- From 2^63 on an integer is rounded to a multiple of 2048. -/
theorem units_ofInt_of_beyond (low : 2 ^ 63 ≤ n) (high : n < 2 ^ 64) :
    (ofInt n).units = counted n * one := by
  rw [units_ofInt_of_nonneg (by omega), nearest_eq (j := 11) (by omega) (by omega) (by omega),
    counted, if_pos low]
  exact Int.natCast_mul ..

/-- Just below 2^63 integers are rounded to a multiple of 1024, the last 512 of them up. -/
theorem units_ofInt_of_below (low : 2 ^ 63 - 1024 ≤ n) (high : n < 2 ^ 63) :
    (ofInt n).units = (if 2 ^ 63 - 512 ≤ n then 2 ^ 63 else 2 ^ 63 - 1024) * one := by
  rw [units_ofInt_of_nonneg (by omega), nearest_eq (j := 10) (by omega) (by omega) (by omega)]
  have hround : roundHalfEven n.toNat (2 ^ 10) =
      if 2 ^ 63 - 512 ≤ n then 2 ^ 53 else 2 ^ 53 - 1 := by
    unfold roundHalfEven
    dsimp only
    split_ifs <;> omega
  rw [hround]
  split
  · exact Int.natCast_mul ..
  · exact Int.natCast_mul ..

/-- A multiple of 2048 that is counted for an integer from 2^63 on is no less than 2^63. -/
theorem le_counted {k : Nat} (h : 2 ^ 63 ≤ k) : 2 ^ 63 ≤ roundHalfEven k 2048 * 2048 := by
  have hbounds := (roundHalfEven_bounds k 2048).1
  omega

theorem counted_mono (h : m ≤ n) : counted m ≤ counted n := by
  have hround := roundHalfEven_mono 2048 (show m.toNat ≤ n.toNat by omega)
  have hn := le_counted (k := n.toNat)
  unfold counted
  split_ifs <;> omega

/-- Integers that count as one are at most 2048 apart. -/
theorem near_of_counted (h : counted m = counted n) : (m - n).natAbs ≤ 2048 := by
  have hm := roundHalfEven_near m.toNat (show 0 < 2048 by omega)
  have hn := roundHalfEven_near n.toNat (show 0 < 2048 by omega)
  unfold counted at h
  split_ifs at h <;> omega

/-- An integer is rounded to what it counts as, or both are less than 2^63. -/
theorem units_ofInt_cases (high : n < 2 ^ 64) :
    (2 ^ 63 ≤ counted n ∧ (ofInt n).units = counted n * one) ∨
      (counted n < 2 ^ 63 ∧ (ofInt n).units < 2 ^ 63 * one) := by
  have hone : (0 : Int) < one := Int.natCast_pos.2 one_pos
  by_cases hbeyond : 2 ^ 63 ≤ n
  · refine .inl ⟨?_, units_ofInt_of_beyond hbeyond high⟩
    have hcounted := le_counted (show 2 ^ 63 ≤ n.toNat by omega)
    rw [counted, if_pos hbeyond]
    exact_mod_cast hcounted
  · by_cases hlast : 2 ^ 63 - 512 ≤ n
    · have hcounted : counted n = 2 ^ 63 := by rw [counted, if_neg hbeyond, if_pos hlast]
      refine .inl ⟨hcounted.ge, ?_⟩
      rw [units_ofInt_of_below (by omega) (by omega), if_pos hlast, hcounted]
    · have hcounted : counted n = n := by rw [counted, if_neg hbeyond, if_neg hlast]
      refine .inr ⟨by omega, ?_⟩
      calc (ofInt n).units ≤ (ofInt (2 ^ 63 - 513)).units := units_ofInt_mono (by omega)
        _ = (2 ^ 63 - 1024) * one := by
          rw [units_ofInt_of_below (by omega) (by omega), if_neg (by omega)]
        _ < 2 ^ 63 * one := Int.mul_lt_mul_of_pos_right (by omega) hone

/-- Beside an integer of 2^63 or more integers compare as what they count. -/
theorem compare_ofInt (hm : m < 2 ^ 64) (hn : n < 2 ^ 64) (beyond : 2 ^ 63 ≤ m ∨ 2 ^ 63 ≤ n) :
    (ofInt m).compare (ofInt n) = Ord.compare (counted m) (counted n) := by
  have hone : (0 : Int) < one := Int.natCast_pos.2 one_pos
  have hgreat : 2 ^ 63 ≤ counted m ∨ 2 ^ 63 ≤ counted n := by
    have hcounted : counted (2 ^ 63) = 2 ^ 63 := by decide
    rcases beyond with h | h
    · exact .inl (hcounted ▸ counted_mono h)
    · exact .inr (hcounted ▸ counted_mono h)
  unfold compare
  rcases units_ofInt_cases hm with ⟨hlarge, hunits⟩ | ⟨hless, hunits⟩ <;>
    rcases units_ofInt_cases hn with ⟨hlarge', hunits'⟩ | ⟨hless', hunits'⟩
  · rw [hunits, hunits', ← cmp_eq_compare, cmp_mul_pos_right hone, cmp_eq_compare]
  · have h := Int.mul_le_mul_of_nonneg_right hlarge hone.le
    rw [Int.compare_eq_gt.2 (by omega), Int.compare_eq_gt.2 (by omega)]
  · have h := Int.mul_le_mul_of_nonneg_right hlarge' hone.le
    rw [Int.compare_eq_lt.2 (by omega), Int.compare_eq_lt.2 (by omega)]
  · omega

end Binary64

namespace Value

variable {m n : Int}

/-- Two different integers are taken for one: not both have 64 bits with sign, and they
count as one. -/
def Merged (m n : Int) : Prop :=
  m ≠ n ∧ ¬(InSigned64 m ∧ InSigned64 n) ∧ Binary64.counted m = Binary64.counted n

instance (m n : Int) : Decidable (Merged m n) := inferInstanceAs (Decidable (_ ∧ _ ∧ _))

/-- Where integers of a document do not both have 64 bits with sign, one is 2^63 or more. -/
theorem beyond_of_not_signed64 (hm : InDocument m) (hn : InDocument n)
    (h : ¬(InSigned64 m ∧ InSigned64 n)) : 2 ^ 63 ≤ m ∨ 2 ^ 63 ≤ n := by
  unfold InDocument at hm hn
  unfold InSigned64 at h
  omega

theorem compareNumbers?_int (hm : InDocument m) (hn : InDocument n) :
    compareNumbers? (.int m) (.int n) =
      some (if Merged m n then .eq else Ord.compare m n) := by
  by_cases hsigned : InSigned64 m ∧ InSigned64 n
  · have hm' : signed64? (.int m) = some m := if_pos hsigned.1
    have hn' : signed64? (.int n) = some n := if_pos hsigned.2
    rw [if_neg fun h : Merged m n => h.2.1 hsigned]
    simp only [compareNumbers?, hm', hn']
  · have hcounted := Binary64.compare_ofInt (by unfold InDocument at hm; omega)
      (by unfold InDocument at hn; omega) (beyond_of_not_signed64 hm hn hsigned)
    have hbinary : compareNumbers? (.int m) (.int n) =
        some ((Binary64.ofInt m).compare (.ofInt n)) := by
      obtain ⟨i, j, hi, hj, -⟩ | h := compareNumbers?_cases (a := .int m) (b := .int n) rfl rfl
      · obtain ⟨hi, hi'⟩ := int_of_signed64? hi
        obtain ⟨hj, hj'⟩ := int_of_signed64? hj
        cases hi
        cases hj
        exact absurd ⟨hi', hj'⟩ hsigned
      · exact h
    rw [hbinary, hcounted]
    congr 1
    split
    · next hmerged => rw [hmerged.2.2, Int.compare_eq_eq]
    · next hnot =>
      -- what counts apart is apart in the same order
      have hapart : m = n ∨ Binary64.counted m ≠ Binary64.counted n := by
        by_contra h
        rw [not_or, not_not] at h
        exact hnot ⟨h.1, hsigned, h.2⟩
      have hle := Binary64.counted_mono (m := m) (n := n)
      have hge := Binary64.counted_mono (m := n) (n := m)
      rcases Int.lt_trichotomy m n with hlt | rfl | hgt
      · rw [Int.compare_eq_lt.2 hlt, Int.compare_eq_lt.2 (by omega)]
      · rw [Int.compare_eq_eq.2 rfl, Int.compare_eq_eq.2 rfl]
      · rw [Int.compare_eq_gt.2 hgt, Int.compare_eq_gt.2 (by omega)]

/-- Integers of documents are equal to each other, and stand in the order of integers, unless
they are merged: then they are two integers that are taken for one. Only where one of them is
2^63 or more can that be, and only if they are at most 2048 apart. -/
theorem integers_compared (hm : InDocument m) (hn : InDocument n) :
    ((Value.int m).alike (.int n) = true ↔ m = n ∨ Merged m n) ∧
    compare? (.int m) (.int n) = some (if Merged m n then .eq else Ord.compare m n) ∧
    (Value.int m).sortOrder (.int n) = (if Merged m n then .eq else Ord.compare m n) ∧
    (Merged m n → (2 ^ 63 ≤ m ∨ 2 ^ 63 ≤ n) ∧ (m - n).natAbs ≤ 2048) := by
  have hcompare := compareNumbers?_int hm hn
  refine ⟨?_, hcompare, sortOrder_of_numbers hcompare, fun h =>
    ⟨beyond_of_not_signed64 hm hn h.2.1, Binary64.near_of_counted h.2.2⟩⟩
  show alikeNumbers (.int m) (.int n) = true ↔ _
  rw [alikeNumbers_eq, hcompare, beq_iff_eq, Option.some.injEq]
  split
  · next hmerged => exact ⟨fun _ => .inr hmerged, fun _ => rfl⟩
  · next hnot => rw [Int.compare_eq_eq, or_iff_left hnot]

/-- A step of 1025 above 2^63 is enough to be told apart. -/
theorem beyond_told_apart :
    InDocument (2 ^ 63 + 1025) ∧ InDocument (2 ^ 63) ∧
      compare? (.int (2 ^ 63 + 1025)) (.int (2 ^ 63)) = some .gt := by
  have hm : InDocument (2 ^ 63 + 1025) := by decide
  have hn : InDocument (2 ^ 63) := by decide
  obtain ⟨-, hcompare, -⟩ := integers_compared hm hn
  exact ⟨hm, hn, hcompare.trans rfl⟩

/-- A smaller step is not: two integers are equal though they differ, and so are the greatest
integer of 64 bits with sign and the next one. -/
theorem beyond_taken_for_one :
    ((Value.int (2 ^ 63 + 1)).alike (.int (2 ^ 63)) = true ∧
      compare? (.int (2 ^ 63 + 1)) (.int (2 ^ 63)) = some .eq) ∧
    (Value.int (2 ^ 63 - 1)).alike (.int (2 ^ 63)) = true := by
  decide +kernel

end Value

end LiveRecords

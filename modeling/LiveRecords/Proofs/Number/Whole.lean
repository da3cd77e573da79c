import Mathlib.Tactic.Ring
import LiveRecords.Number.Binary64

/-
  Whole numbers among the binary64 numbers.

  A magnitude of 53 bits with zeros behind them needs no rounding: its code holds the
  bits and counts the zeros (`unitsOf_roundCode`). So every integer of at most 53 bits
  is held exactly (`units_ofInt`), and a number that is whole has the units of the
  integer that it is (`units_of_toInt?`).
-/

namespace LiveRecords.Binary64

theorem one_eq {e : Nat} (h : e = 1074) : one = 2 ^ e := by
  unfold one
  rw [← h]
  rfl

theorem one_pos : 0 < one := by
  obtain ⟨e, he⟩ : ∃ e, e = 1074 := ⟨_, rfl⟩
  rw [one_eq he]
  exact Nat.two_pow_pos e

/-- What can be divided is not rounded. -/
theorem roundHalfEven_mul (q : Nat) {den : Nat} (h : 0 < den) :
    roundHalfEven (q * den) den = q := by
  unfold roundHalfEven
  simp only [Nat.mul_div_cancel q h, Nat.mul_mod_left]
  rw [if_pos (by omega)]

/-- Bits and zeros behind them are held exactly. -/
theorem unitsOf_roundCode {q s : Nat} (low : 2 ^ 52 ≤ q) (high : q < 2 ^ 53) :
    roundCode (q * 2 ^ s) 1 = s * 2 ^ 52 + q ∧ unitsOf (s * 2 ^ 52 + q) = q * 2 ^ s := by
  have hpow : 0 < 2 ^ s := Nat.two_pow_pos s
  have hlog : (q * 2 ^ s).log2 = s + 52 := by
    refine (Nat.log2_eq_iff (Nat.mul_ne_zero (by omega) (by omega))).2 ⟨?_, ?_⟩
    · calc 2 ^ (s + 52) = 2 ^ 52 * 2 ^ s := by ring
        _ ≤ q * 2 ^ s := Nat.mul_le_mul_right _ low
    · calc q * 2 ^ s < 2 ^ 53 * 2 ^ s := Nat.mul_lt_mul_of_pos_right high hpow
        _ = 2 ^ (s + 52 + 1) := by ring
  have hscale : scale (s * 2 ^ 52 + q) = s := by
    show (s * 2 ^ 52 + q) / 2 ^ 52 - 1 = s
    omega
  constructor
  · unfold roundCode
    simp only [Nat.div_one, hlog, Nat.add_sub_cancel, Nat.one_mul]
    show s * 2 ^ 52 + roundHalfEven (q * 2 ^ s) (2 ^ s) = _
    rw [roundHalfEven_mul q hpow]
  · unfold unitsOf
    rw [hscale]
    show (s * 2 ^ 52 + q - s * 2 ^ 52) * 2 ^ s = _
    rw [Nat.add_sub_cancel_left]

/-- An integer up to 2^53 in size is 53 bits and zeros behind them. -/
theorem exists_bits {m : Nat} (pos : 0 < m) (h : m ≤ 2 ^ 53) :
    ∃ q s, m * one = q * 2 ^ s ∧ 2 ^ 52 ≤ q ∧ q < 2 ^ 53 ∧ s ≤ 1075 := by
  rcases Nat.lt_or_eq_of_le h with hlt | rfl
  · -- fewer bits are moved to the front
    have hlog : m.log2 < 53 := (Nat.log2_lt (by omega)).2 hlt
    obtain ⟨k, hk⟩ : ∃ k, m.log2 + k = 52 := ⟨52 - m.log2, by omega⟩
    have hpow : 0 < 2 ^ k := Nat.two_pow_pos k
    refine ⟨m * 2 ^ k, 1022 + m.log2, ?_, ?_, ?_, by omega⟩
    · rw [one_eq (show k + (1022 + m.log2) = 1074 by omega), Nat.pow_add, Nat.mul_assoc]
    · calc 2 ^ 52 = 2 ^ m.log2 * 2 ^ k := by rw [← Nat.pow_add, hk]
        _ ≤ m * 2 ^ k := Nat.mul_le_mul_right _ (Nat.log2_self_le (by omega))
    · calc m * 2 ^ k < 2 ^ (m.log2 + 1) * 2 ^ k :=
            Nat.mul_lt_mul_of_pos_right Nat.lt_log2_self hpow
        _ = 2 ^ 53 := by rw [← Nat.pow_add, show m.log2 + 1 + k = 53 by omega]
  · -- the one integer of 54 bits ends in a zero
    refine ⟨2 ^ 52, 1075, ?_, by omega, by omega, by omega⟩
    have hshift : ∀ e, 2 ^ 53 * 2 ^ e = 2 ^ 52 * 2 ^ (e + 1) := fun e => by ring
    rw [one_eq rfl, hshift]

/-- An integer up to 2^53 in size is held exactly. -/
theorem units_ofInt {n : Int} (h : n.natAbs ≤ 2 ^ 53) : (ofInt n).units = n * one := by
  obtain ⟨code, hround, hfinite, hunits⟩ : ∃ code, roundCode (n.natAbs * one) 1 = code ∧
      code < finiteCodes ∧ unitsOf code = n.natAbs * one := by
    rcases Nat.eq_zero_or_pos n.natAbs with hzero | hpos
    · rw [hzero, Nat.zero_mul]
      exact ⟨0, by decide, by decide, by decide⟩
    · obtain ⟨q, s, heq, hlow, hhigh, hs⟩ := exists_bits hpos h
      obtain ⟨hround, hunits⟩ := unitsOf_roundCode (s := s) hlow hhigh
      rw [heq]
      refine ⟨s * 2 ^ 52 + q, hround, ?_, hunits⟩
      show s * 2 ^ 52 + q < 2047 * 2 ^ 52
      omega
  have hof : ofInt n = ⟨decide (n < 0), code, hfinite⟩ := by
    subst hround
    unfold ofInt ofRatio
    rw [dif_pos hfinite]
    rfl
  rw [hof]
  unfold units magnitude
  simp only [hunits, decide_eq_true_eq]
  split
  · next hneg =>
    have hn : -(n.natAbs : Int) = n := by omega
    rw [Int.natCast_mul, ← Int.neg_mul, hn]
  · next hpos =>
    have hn : (n.natAbs : Int) = n := by omega
    rw [Int.natCast_mul, hn]

/-- A number that is whole has the units of the integer it is. -/
theorem units_of_toInt? {x : Binary64} {n : Int} (h : x.toInt? = some n) :
    x.units = n * one := by
  unfold toInt? at h
  split at h
  · next hwhole =>
    have hunits : x.magnitude / one * one = x.magnitude :=
      Nat.div_mul_cancel (Nat.dvd_of_mod_eq_zero hwhole)
    have hcast : ((x.magnitude / one : Nat) : Int) * one = x.magnitude := by exact_mod_cast hunits
    unfold units
    cases hsign : x.negative with
    | true =>
      simp only [hsign, if_true, Option.some.injEq] at h ⊢
      rw [← h, Int.neg_mul, hcast]
    | false =>
      simp only [hsign, Bool.false_eq_true, if_false, Option.some.injEq] at h ⊢
      rw [← h, hcast]
  · cases h

end LiveRecords.Binary64

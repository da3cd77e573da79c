import Mathlib.Tactic.Ring
import LiveRecords.Number.Binary64

/-
  Rounding keeps the order.

  A code is made of a scale and a significand. A greater magnitude has no smaller scale,
  and under one scale no smaller significand, so its code is no smaller
  (`roundCode_mono`); and a greater code stands for a greater magnitude (`unitsOf_lt`).
  So the binary64 numbers nearest to integers stand in the order of the integers
  (`units_ofInt_mono`), though two integers may have one nearest number. No two numbers
  but the zeros have one value (`same_iff`).
-/

namespace LiveRecords.Binary64

/-! ## Codes -/

theorem roundHalfEven_bounds (num den : Nat) :
    num / den ≤ roundHalfEven num den ∧ roundHalfEven num den ≤ num / den + 1 := by
  unfold roundHalfEven
  dsimp only
  split_ifs <;> omega

theorem roundHalfEven_mono {a b : Nat} (den : Nat) (h : a ≤ b) :
    roundHalfEven a den ≤ roundHalfEven b den := by
  rcases Nat.lt_or_eq_of_le (Nat.div_le_div_right (c := den) h) with hlt | heq
  · have ha := (roundHalfEven_bounds a den).2
    have hb := (roundHalfEven_bounds b den).1
    omega
  · -- with one quotient the remainders decide
    have hmod : a % den ≤ b % den := by
      have ha := Nat.div_add_mod a den
      have hb := Nat.div_add_mod b den
      rw [heq] at ha
      omega
    unfold roundHalfEven
    rw [heq]
    dsimp only
    split_ifs <;> omega

/-- The scale by which a magnitude is rounded leaves it at most 53 bits, and 53 if it is not
the least one. -/
theorem scale_bounds (m : Nat) :
    m < 2 ^ 53 * 2 ^ (m.log2 - 52) ∧
      (m.log2 - 52 ≠ 0 → 2 ^ 52 * 2 ^ (m.log2 - 52) ≤ m) := by
  constructor
  · calc m < 2 ^ (m.log2 + 1) := Nat.lt_log2_self
      _ ≤ 2 ^ (53 + (m.log2 - 52)) := Nat.pow_le_pow_right (by omega) (by omega)
      _ = 2 ^ 53 * 2 ^ (m.log2 - 52) := Nat.pow_add ..
  · intro hscale
    have hne : m ≠ 0 := by
      rintro rfl
      exact hscale rfl
    calc 2 ^ 52 * 2 ^ (m.log2 - 52) = 2 ^ (52 + (m.log2 - 52)) := (Nat.pow_add ..).symm
      _ = 2 ^ m.log2 := by rw [show 52 + (m.log2 - 52) = m.log2 by omega]
      _ ≤ m := Nat.log2_self_le hne

theorem two_pow_le_of_lt {s t : Nat} (h : s < t) : 2 ^ 53 * 2 ^ s ≤ 2 ^ 52 * 2 ^ t :=
  calc 2 ^ 53 * 2 ^ s = 2 ^ 52 * 2 ^ (s + 1) := by ring
    _ ≤ 2 ^ 52 * 2 ^ t := Nat.mul_le_mul_left _ (Nat.pow_le_pow_right (by omega) h)

theorem roundCode_mono {a b : Nat} (h : a ≤ b) : roundCode a 1 ≤ roundCode b 1 := by
  obtain ⟨ha, ha'⟩ := scale_bounds a
  obtain ⟨hb, hb'⟩ := scale_bounds b
  unfold roundCode
  simp only [Nat.div_one, Nat.one_mul]
  generalize a.log2 - 52 = s at ha ha'
  generalize b.log2 - 52 = t at hb hb'
  show s * 2 ^ 52 + roundHalfEven a (2 ^ s) ≤ t * 2 ^ 52 + roundHalfEven b (2 ^ t)
  have hs : 0 < 2 ^ s := Nat.two_pow_pos s
  have ht : 0 < 2 ^ t := Nat.two_pow_pos t
  rcases Nat.lt_trichotomy s t with hlt | rfl | hgt
  · -- the lesser significand has at most 54 bits, the greater one at least 53
    have hlow : roundHalfEven a (2 ^ s) ≤ 2 ^ 53 :=
      (roundHalfEven_bounds a (2 ^ s)).2.trans ((Nat.div_lt_iff_lt_mul hs).2 ha)
    have hhigh : 2 ^ 52 ≤ roundHalfEven b (2 ^ t) :=
      ((Nat.le_div_iff_mul_le ht).2 (hb' (by omega))).trans (roundHalfEven_bounds b (2 ^ t)).1
    omega
  · exact Nat.add_le_add_left (roundHalfEven_mono _ h) _
  · have hle := two_pow_le_of_lt hgt
    have hlarge := ha' (by omega)
    omega

/-- A greater code is that of a greater magnitude. -/
theorem unitsOf_lt {a b : Nat} (h : a < b) : unitsOf a < unitsOf b := by
  unfold unitsOf
  have ha : scale a = a / 2 ^ 52 - 1 := rfl
  have hb : scale b = b / 2 ^ 52 - 1 := rfl
  show (a - scale a * 2 ^ 52) * 2 ^ scale a < (b - scale b * 2 ^ 52) * 2 ^ scale b
  rcases Nat.lt_or_eq_of_le (show scale a ≤ scale b by omega) with hlt | heq
  · have hlow : a - scale a * 2 ^ 52 < 2 ^ 53 := by omega
    have hhigh : 2 ^ 52 ≤ b - scale b * 2 ^ 52 := by omega
    calc (a - scale a * 2 ^ 52) * 2 ^ scale a < 2 ^ 53 * 2 ^ scale a :=
          Nat.mul_lt_mul_of_pos_right hlow (Nat.two_pow_pos _)
      _ ≤ 2 ^ 52 * 2 ^ scale b := two_pow_le_of_lt hlt
      _ ≤ (b - scale b * 2 ^ 52) * 2 ^ scale b := Nat.mul_le_mul_right _ hhigh
  · rw [heq]
    exact Nat.mul_lt_mul_of_pos_right (by omega) (Nat.two_pow_pos _)

theorem unitsOf_mono {a b : Nat} (h : a ≤ b) : unitsOf a ≤ unitsOf b := by
  rcases Nat.lt_or_eq_of_le h with hlt | rfl
  · exact (unitsOf_lt hlt).le
  · exact Nat.le_refl _

theorem unitsOf_injective {a b : Nat} (h : unitsOf a = unitsOf b) : a = b := by
  rcases Nat.lt_trichotomy a b with hlt | heq | hgt
  · exact absurd h (unitsOf_lt hlt).ne
  · exact heq
  · exact absurd h (unitsOf_lt hgt).ne'

/-- Two numbers have one value just if they are one number, or both are zeros. -/
theorem same_iff {x y : Binary64} : x.same y = true ↔ x = y ∨ (x.code = 0 ∧ y.code = 0) := by
  have hzero : unitsOf 0 = 0 := by
    unfold unitsOf
    rw [Nat.zero_sub, Nat.zero_mul]
  unfold same units magnitude
  rw [beq_iff_eq]
  constructor
  · intro h
    by_cases hsign : x.negative = y.negative
    · have hunits : unitsOf x.code = unitsOf y.code := by
        rw [hsign] at h
        split at h <;> omega
      have hcode := unitsOf_injective hunits
      obtain ⟨_, _, _⟩ := x
      obtain ⟨_, _, _⟩ := y
      subst hsign hcode
      exact .inl rfl
    · -- what has one value on either side of zero is zero
      have hboth : unitsOf x.code = 0 ∧ unitsOf y.code = 0 := by
        grind
      exact .inr ⟨unitsOf_injective (hboth.1.trans hzero.symm),
        unitsOf_injective (hboth.2.trans hzero.symm)⟩
  · rintro (rfl | ⟨hx, hy⟩)
    · rfl
    · rw [hx, hy, hzero]
      simp

/-! ## Integers -/

/-- The magnitude of the number nearest to a natural number. -/
def nearest (m : Nat) : Nat := unitsOf (min (roundCode (m * one) 1) (finiteCodes - 1))

theorem nearest_mono {a b : Nat} (h : a ≤ b) : nearest a ≤ nearest b := by
  have hcode := roundCode_mono (Nat.mul_le_mul_right one h)
  exact unitsOf_mono (by omega)

theorem units_ofInt_eq (n : Int) :
    (ofInt n).units = if n < 0 then -(nearest n.natAbs : Int) else nearest n.natAbs := by
  unfold ofInt ofRatio units magnitude nearest
  split
  · next hfinite =>
    rw [Nat.min_eq_left (by omega)]
    simp only [Option.getD_some, decide_eq_true_eq]
  · next hgreat =>
    rw [Nat.min_eq_right (by omega)]
    simp only [Option.getD_none, greatest, decide_eq_true_eq]

/-- The numbers nearest to integers stand in the order of the integers. -/
theorem units_ofInt_mono {m n : Int} (h : m ≤ n) : (ofInt m).units ≤ (ofInt n).units := by
  rw [units_ofInt_eq, units_ofInt_eq]
  split
  · split
    · have hle := nearest_mono (show n.natAbs ≤ m.natAbs by omega)
      omega
    · omega
  · rw [if_neg (by omega)]
    exact Int.ofNat_le.2 (nearest_mono (by omega))

end LiveRecords.Binary64

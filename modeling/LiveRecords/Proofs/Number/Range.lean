import LiveRecords.Proofs.Number.Rounding
import LiveRecords.Proofs.Number.Whole

/-
  The range of the binary64 numbers.

  A quotient of less than 2^2000 units, each of 2^-1074, is nearest to a finite number
  (`exists_ofRatio`). Integers of 64 bits are far from that limit: the number nearest to one of
  them is at most 2^64, and it is at least one unless the integer is zero. So sums, products
  and quotients of such numbers are finite, but for quotients by zero.
-/

namespace LiveRecords.Binary64

/-! ## Finite results -/

theorem roundCode_finite {num den k : Nat} (h : num / den < 2 ^ k) (small : k ≤ 2000) :
    roundCode num den < finiteCodes := by
  have hlog : (num / den).log2 - 52 ≤ 2000 := by
    rcases Nat.eq_zero_or_pos (num / den) with hzero | hpos
    · rw [hzero]
      exact Nat.zero_le _
    · have hlt := (Nat.log2_lt hpos.ne').2 h
      omega
  have hlength := (scale_bounds (num / den)).1
  unfold roundCode
  dsimp only
  generalize (num / den).log2 - 52 = s at hlog hlength
  -- what is left of the quotient has at most 53 bits
  have hleft : num / (den * 2 ^ s) < 2 ^ 53 := by
    rw [← Nat.div_div_eq_div_mul]
    exact (Nat.div_lt_iff_lt_mul (Nat.two_pow_pos s)).2 hlength
  have hround := (roundHalfEven_bounds num (den * 2 ^ s)).2
  show s * 2 ^ 52 + roundHalfEven num (den * 2 ^ s) < 2047 * 2 ^ 52
  omega

theorem exists_ofRatio (negative : Bool) {num den k : Nat} (h : num / den < 2 ^ k)
    (small : k ≤ 2000) : ∃ x, ofRatio negative num den = some x :=
  ⟨_, dif_pos (roundCode_finite h small)⟩

/-! ## Numbers nearest to integers -/

theorem natAbs_units (x : Binary64) : x.units.natAbs = x.magnitude := by
  unfold units
  split <;> omega

theorem magnitude_ofInt (n : Int) : (ofInt n).magnitude = nearest n.natAbs := by
  rw [← natAbs_units, units_ofInt_eq]
  split <;> omega

/-- Powers of two are held exactly. -/
theorem nearest_two_pow {k : Nat} (small : k ≤ 900) : nearest (2 ^ k) = 2 ^ k * one := by
  obtain ⟨e, he⟩ : ∃ e, e = 1074 := ⟨_, rfl⟩
  obtain ⟨s, hs⟩ : ∃ s, 52 + s = k + e := ⟨k + e - 52, by omega⟩
  have hshift : 2 ^ k * one = 2 ^ 52 * 2 ^ s := by
    rw [one_eq he, ← Nat.pow_add, ← Nat.pow_add, hs]
  obtain ⟨hround, hunits⟩ := unitsOf_roundCode (q := 2 ^ 52) (s := s) (Nat.le_refl _) (by omega)
  have hfinite : s * 2 ^ 52 + 2 ^ 52 ≤ finiteCodes - 1 := by
    show _ ≤ 2047 * 2 ^ 52 - 1
    omega
  unfold nearest
  rw [hshift, hround, Nat.min_eq_left hfinite, hunits]

theorem magnitude_ofInt_le {n : Int} {k : Nat} (h : n.natAbs ≤ 2 ^ k) (small : k ≤ 900) :
    (ofInt n).magnitude ≤ 2 ^ k * one := by
  rw [magnitude_ofInt, ← nearest_two_pow small]
  exact nearest_mono h

theorem one_le_magnitude_ofInt {n : Int} (h : n ≠ 0) : one ≤ (ofInt n).magnitude := by
  have hone := nearest_two_pow (k := 0) (by omega)
  simp only [Nat.pow_zero, Nat.one_mul] at hone
  rw [magnitude_ofInt]
  exact hone.ge.trans (nearest_mono (by omega))

theorem magnitude_neg (x : Binary64) : x.neg.magnitude = x.magnitude := rfl

/-- The number with the other sign is nearest to the integer with the other sign. Only for zero
there is no such integer. -/
theorem neg_ofInt {n : Int} (h : n ≠ 0) : (ofInt n).neg = ofInt (-n) := by
  have hsign : decide (-n < 0) = !decide (n < 0) := by
    rw [← decide_not, decide_eq_decide]
    omega
  unfold ofInt ofRatio
  rw [Int.natAbs_neg, hsign]
  split <;> rfl

/-! ## Operations -/

variable {x y : Binary64} {k : Nat}

theorem exists_add (hx : x.magnitude ≤ 2 ^ k * one) (hy : y.magnitude ≤ 2 ^ k * one)
    (small : k ≤ 900) : ∃ z, x.add y = some z := by
  obtain ⟨e, he⟩ : ∃ e, e = 1074 := ⟨_, rfl⟩
  rw [one_eq he, ← Nat.pow_add] at hx hy
  have hsum : (x.units + y.units).natAbs ≤ x.magnitude + y.magnitude := by
    rw [← natAbs_units, ← natAbs_units]
    exact Int.natAbs_add_le _ _
  refine exists_ofRatio _ (k := k + e + 2) ?_ (by omega)
  rw [Nat.div_one, Nat.pow_add _ (k + e)]
  have hpos := Nat.two_pow_pos (k + e)
  omega

theorem exists_sub (hx : x.magnitude ≤ 2 ^ k * one) (hy : y.magnitude ≤ 2 ^ k * one)
    (small : k ≤ 900) : ∃ z, x.sub y = some z :=
  exists_add hx ((magnitude_neg y).trans_le hy) small

theorem exists_mul (hx : x.magnitude ≤ 2 ^ k * one) (hy : y.magnitude ≤ 2 ^ k * one)
    (small : k ≤ 450) : ∃ z, x.mul y = some z := by
  obtain ⟨e, he⟩ : ∃ e, e = 1074 := ⟨_, rfl⟩
  refine exists_ofRatio _ (k := k + k + e + 1) ?_ (by omega)
  calc x.magnitude * y.magnitude / one
      ≤ (2 ^ k * one) * (2 ^ k * one) / one := Nat.div_le_div_right (Nat.mul_le_mul hx hy)
    _ = 2 ^ k * one * 2 ^ k := by rw [← Nat.mul_assoc, Nat.mul_div_cancel _ one_pos]
    _ = 2 ^ (k + k + e) := by rw [one_eq he]; ring
    _ < 2 ^ (k + k + e + 1) := Nat.pow_lt_pow_right (by omega) (by omega)

/-- A divisor of at least one makes no number greater. -/
theorem exists_div (hx : x.magnitude ≤ 2 ^ k * one) (hy : one ≤ y.magnitude)
    (small : k ≤ 900) : ∃ z, x.div y = some z := by
  obtain ⟨e, he⟩ : ∃ e, e = 1074 := ⟨_, rfl⟩
  have hdivisor : y.magnitude ≠ 0 := (one_pos.trans_le hy).ne'
  unfold div
  rw [if_neg hdivisor]
  refine exists_ofRatio _ (k := k + e + 1) ?_ (by omega)
  calc x.magnitude * one / y.magnitude
      ≤ x.magnitude * one / one := Nat.div_le_div_left hy one_pos
    _ = x.magnitude := Nat.mul_div_cancel _ one_pos
    _ ≤ 2 ^ (k + e) := by
      rw [one_eq he, ← Nat.pow_add] at hx
      exact hx
    _ < 2 ^ (k + e + 1) := Nat.pow_lt_pow_right (by omega) (by omega)

theorem div_ofInt_zero (x : Binary64) : x.div (ofInt 0) = none := by
  have hunits : (ofInt 0).units = 0 := (units_ofInt (by decide)).trans (Int.zero_mul _)
  have hzero : (ofInt 0).magnitude = 0 := by rw [← natAbs_units, hunits, Int.natAbs_zero]
  exact if_pos hzero

end LiveRecords.Binary64

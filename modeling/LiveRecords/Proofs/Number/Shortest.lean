import LiveRecords.Proofs.Number.Reading
import LiveRecords.Proofs.Number.Rounding
import LiveRecords.Proofs.Number.Whole

/-
  Different numbers have different texts.

  The digits that are written for a number lie between the midpoints to its neighbours, an end
  included only where the code is even (`readsBack_shortest`). Of two neighbours only one has an
  even code, so no decimal lies so for two numbers (`code_of_readsBack`). And the text of a
  number gives away the value of its digits, so it gives away the number (`render_inj`).
-/

namespace LiveRecords

/-! ## Values of decimals -/

namespace Decimal

theorem ratio_den_pos (d : Decimal) : 0 < d.ratio.2 := Nat.pow_pos (by omega)

/-- Numerator and denominator make the value. -/
theorem ratio_value (d : Decimal) : (d.ratio.1 : ℚ) = d.value * d.ratio.2 := by
  have hten : (10 : ℚ) ≠ 0 := by norm_num
  unfold ratio value
  show ((d.digits * 10 ^ d.exponent.toNat : ℕ) : ℚ) =
    d.digits * 10 ^ d.exponent * ((10 ^ (-d.exponent).toNat : ℕ) : ℚ)
  push_cast
  rw [mul_assoc, ← zpow_natCast, ← zpow_natCast, ← zpow_add₀ hten]
  congr 2
  omega

theorem value_strip (fuel : Nat) (d : Decimal) : (d.strip fuel).value = d.value := by
  induction fuel generalizing d with
  | zero => rfl
  | succ fuel ih =>
    unfold strip
    split
    · next h =>
      -- a zero less among the digits is one more in the exponent
      have hdigits : (d.digits : ℚ) = (d.digits / 10 : ℕ) * 10 := by
        exact_mod_cast (Nat.div_mul_cancel (Nat.dvd_of_mod_eq_zero h.2)).symm
      rw [ih]
      unfold value
      rw [hdigits, zpow_add_one₀ (by norm_num)]
      ring
    · rfl

end Decimal

namespace Binary64

/-! ## What reads back -/

/-- A decimal reads back as a magnitude if it lies between the midpoints to its neighbours. -/
theorem readsBack_iff (code : Nat) (d : Decimal) : readsBack code d = true ↔
    if code % 2 = 0 then
      (unitsOf (code - 1) + unitsOf code : ℚ) ≤ 2 * (d.value * one) ∧
        2 * (d.value * one) ≤ (unitsOf code + unitsOf (code + 1) : ℚ)
    else
      (unitsOf (code - 1) + unitsOf code : ℚ) < 2 * (d.value * one) ∧
        2 * (d.value * one) < (unitsOf code + unitsOf (code + 1) : ℚ) := by
  have hden : (0 : ℚ) < d.ratio.2 := by exact_mod_cast d.ratio_den_pos
  have htwice : ((2 * d.ratio.1 * one : ℕ) : ℚ) = 2 * (d.value * one) * d.ratio.2 := by
    push_cast
    rw [d.ratio_value]
    ring
  have hle : ∀ a b : ℕ, ((a + b) * d.ratio.2 ≤ 2 * d.ratio.1 * one ↔
      (a + b : ℚ) ≤ 2 * (d.value * one)) := fun a b => by
    rw [← Nat.cast_le (α := ℚ), htwice]
    push_cast
    exact mul_le_mul_iff_left₀ hden
  have hge : ∀ a b : ℕ, (2 * d.ratio.1 * one ≤ (a + b) * d.ratio.2 ↔
      2 * (d.value * one) ≤ (a + b : ℚ)) := fun a b => by
    rw [← Nat.cast_le (α := ℚ), htwice]
    push_cast
    exact mul_le_mul_iff_left₀ hden
  unfold readsBack
  dsimp only
  split
  · rw [decide_eq_true_eq, hle, hge]
  · rw [decide_eq_true_eq, ← not_le, ← not_le, hle, hge, not_le, not_le]

theorem readsBack_congr {code : Nat} {d e : Decimal} (value : d.value = e.value) :
    readsBack code d = readsBack code e := by
  rw [Bool.eq_iff_iff, readsBack_iff, readsBack_iff, value]

/-- What reads back lies between the midpoints, and within them where the code is odd. -/
theorem bounds_of_readsBack {code : Nat} {d : Decimal} (h : readsBack code d = true) :
    ((unitsOf (code - 1) + unitsOf code : ℚ) ≤ 2 * (d.value * one) ∧
      2 * (d.value * one) ≤ (unitsOf code + unitsOf (code + 1) : ℚ)) ∧
    (code % 2 = 1 → (unitsOf (code - 1) + unitsOf code : ℚ) < 2 * (d.value * one) ∧
      2 * (d.value * one) < (unitsOf code + unitsOf (code + 1) : ℚ)) := by
  have hiff := (readsBack_iff code d).1 h
  split at hiff
  · next heven => exact ⟨hiff, fun hodd => by omega⟩
  · exact ⟨⟨hiff.1.le, hiff.2.le⟩, fun _ => hiff⟩

/-- A decimal that reads back as one magnitude does not read back as a greater one. -/
theorem not_readsBack_of_lt {a b : Nat} {d : Decimal} (lt : a < b) (h : readsBack a d = true) :
    readsBack b d ≠ true := by
  intro h'
  obtain ⟨⟨-, hhigh⟩, hodd⟩ := bounds_of_readsBack h
  obtain ⟨⟨hlow, -⟩, hodd'⟩ := bounds_of_readsBack h'
  rcases Nat.lt_or_eq_of_le (show a + 1 ≤ b from lt) with hgap | rfl
  · -- between the two there is a whole magnitude
    have hfirst : (unitsOf a : ℚ) < unitsOf (b - 1) := by
      exact_mod_cast unitsOf_lt (show a < b - 1 by omega)
    have hsecond : (unitsOf (a + 1) : ℚ) < unitsOf b := by exact_mod_cast unitsOf_lt hgap
    linarith
  · -- the midpoint between neighbours belongs to the even one only
    rw [Nat.add_sub_cancel] at hlow hodd'
    rcases Nat.mod_two_eq_zero_or_one a with heven | hodd''
    · have hstrict := (hodd' (by omega)).1
      linarith
    · have hstrict := (hodd hodd'').2
      linarith

/-- No decimal reads back as two magnitudes. -/
theorem code_of_readsBack {a b : Nat} {d e : Decimal} (value : d.value = e.value)
    (h : readsBack a d = true) (h' : readsBack b e = true) : a = b := by
  rw [← readsBack_congr value] at h'
  rcases Nat.lt_trichotomy a b with hlt | heq | hgt
  · exact absurd h' (not_readsBack_of_lt hlt h)
  · exact heq
  · exact absurd h (not_readsBack_of_lt hgt h')

/-- Only zero is zero. -/
theorem value_pos_of_readsBack {code : Nat} {d : Decimal} (ne : code ≠ 0)
    (h : readsBack code d = true) : 0 < d.value := by
  obtain ⟨⟨hlow, -⟩, -⟩ := bounds_of_readsBack h
  have hunits : (unitsOf (code - 1) : ℚ) < unitsOf code := by
    exact_mod_cast unitsOf_lt (show code - 1 < code by omega)
  have hnonneg : (0 : ℚ) ≤ unitsOf (code - 1) := Nat.cast_nonneg _
  have hone : (0 : ℚ) < one := by exact_mod_cast one_pos
  have hproduct : 0 < d.value * one := by linarith
  exact pos_of_mul_pos_left hproduct hone.le

/-! ## What is written -/

/-- The exact value reads back. -/
theorem readsBack_of_exact {code : Nat} {d : Decimal} (ne : code ≠ 0)
    (value : d.value * one = unitsOf code) : readsBack code d = true := by
  have hbelow : (unitsOf (code - 1) : ℚ) < unitsOf code := by
    exact_mod_cast unitsOf_lt (show code - 1 < code by omega)
  have habove : (unitsOf code : ℚ) < unitsOf (code + 1) := by
    exact_mod_cast unitsOf_lt (Nat.lt_add_one code)
  rw [readsBack_iff, value]
  split
  · constructor <;> linarith only [hbelow, habove]
  · constructor <;> linarith only [hbelow, habove]

theorem readsBack_of_nearestOnGrid {code : Nat} {exponent : Int} {d : Decimal}
    (h : nearestOnGrid code exponent = some d) : readsBack code d = true := by
  -- the numbers are variables, so that nobody sets out to compute them
  obtain ⟨below, hbelow⟩ : ∃ point, point = gridBelow code exponent := ⟨_, rfl⟩
  obtain ⟨step, hstep⟩ : ∃ n, n = one * Nat.pow 10 exponent.toNat := ⟨_, rfl⟩
  obtain ⟨twice, htwice⟩ : ∃ n, n = 2 * unitsOf code * Nat.pow 10 (-exponent).toNat := ⟨_, rfl⟩
  unfold nearestOnGrid at h
  rw [← hbelow, ← hstep, ← htwice] at h
  clear hbelow hstep htwice
  dsimp only at h
  split at h
  · cases h
  · next hreads _ =>
    cases h
    exact hreads
  · next _ hreads =>
    cases h
    exact hreads
  · next hbelow habove =>
    split at h
    · cases h
      exact hbelow
    · cases h
      exact habove
    · split at h
      · cases h
        exact hbelow
      · cases h
        exact habove

-- The exponents are variables here, so that nobody sets out to compute the powers.
/-- All digits of a magnitude make its exact value. -/
theorem value_of_all_digits (code : Nat) {e : Nat} {k : Int} (he : e = 1074) (hk : k = -e) :
    (⟨unitsOf code * Nat.pow 10 e / one, k⟩ : Decimal).value * one = unitsOf code := by
  have hpow : Nat.pow 10 e = 5 ^ e * 2 ^ e := by
    rw [← Nat.mul_pow]
    rfl
  have hquotient : unitsOf code * Nat.pow 10 e / one = unitsOf code * 5 ^ e := by
    rw [one_eq he, hpow, ← Nat.mul_assoc, Nat.mul_div_cancel _ (Nat.two_pow_pos e)]
  have hten : (10 : ℚ) ^ e = 5 ^ e * 2 ^ e := by
    rw [← mul_pow]
    norm_num
  show ((unitsOf code * Nat.pow 10 e / one : Nat) : ℚ) * 10 ^ k * one = unitsOf code
  rw [hquotient, one_eq he, hk, zpow_neg, zpow_natCast, hten]
  push_cast
  field_simp

theorem readsBack_shortest {code : Nat} (ne : code ≠ 0) : readsBack code (shortest code) = true := by
  unfold shortest
  rw [if_neg ne]
  dsimp only
  rw [readsBack_congr (Decimal.value_strip _ _)]
  cases hfound : (List.range 17).findSome? _ with
  | none =>
    rw [Option.getD_none]
    exact readsBack_of_exact ne (value_of_all_digits code rfl rfl)
  | some d =>
    obtain ⟨n, -, hn⟩ := List.exists_of_findSome?_eq_some hfound
    exact readsBack_of_nearestOnGrid hn

/-- Zero has no exponent. -/
theorem shortest_zero (code : Nat) (h : (shortest code).digits = 0) : (shortest code).exponent = 0 := by
  rcases Nat.eq_zero_or_pos code with rfl | hpos
  · rfl
  · have hvalue := value_pos_of_readsBack hpos.ne' (readsBack_shortest hpos.ne')
    rw [Decimal.value, h, Nat.cast_zero, zero_mul] at hvalue
    exact absurd hvalue (lt_irrefl 0)

theorem shortest_inj {a b : Nat} (h : (shortest a).value = (shortest b).value) : a = b := by
  have hzero : (shortest 0).value = 0 := by rw [Decimal.value, show (shortest 0).digits = 0 from rfl,
    Nat.cast_zero, zero_mul]
  by_cases ha : a = 0 <;> by_cases hb : b = 0
  · rw [ha, hb]
  · have hpos := value_pos_of_readsBack hb (readsBack_shortest hb)
    rw [← h, ha, hzero] at hpos
    exact absurd hpos (lt_irrefl 0)
  · have hpos := value_pos_of_readsBack ha (readsBack_shortest ha)
    rw [h, hb, hzero] at hpos
    exact absurd hpos (lt_irrefl 0)
  · exact code_of_readsBack h (readsBack_shortest ha) (readsBack_shortest hb)

/-! ## The text -/

/-- The text of a number is a numeral with its sign and its size, and not a plain one. -/
theorem scan_render (x : Binary64) : ∃ n, Numeral.scan x.render.toList = some (n, []) ∧
    n.negative = x.negative ∧ n.plain = false ∧ n.size = (shortest x.code).value := by
  have htext : x.render.toList =
      Numeral.signed x.negative (Layout.document.render (shortest x.code)).toList := by
    unfold render Numeral.signed
    rw [String.toList_append]
    cases x.negative <;> rfl
  rw [htext]
  exact Layout.scan_render x.negative (shortest_zero x.code)

/-- Different numbers have different texts. -/
theorem render_inj {x y : Binary64} : x.render = y.render ↔ x = y := by
  refine ⟨fun h => ?_, congrArg render⟩
  obtain ⟨n, hscan, hnegative, -, hsize⟩ := scan_render x
  obtain ⟨n', hscan', hnegative', -, hsize'⟩ := scan_render y
  rw [h, hscan', Option.some.injEq, Prod.mk.injEq] at hscan
  obtain ⟨rfl, -⟩ := hscan
  obtain ⟨negative, code, finite⟩ := x
  obtain ⟨negative', code', finite'⟩ := y
  obtain rfl : code = code' := shortest_inj (hsize.symm.trans hsize')
  obtain rfl : negative = negative' := hnegative.symm.trans hnegative'
  rfl

end Binary64

end LiveRecords

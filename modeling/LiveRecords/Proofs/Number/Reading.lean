import Mathlib
import LiveRecords.Number.Shortest
import LiveRecords.Number.Numeral

/-
  Reading the text of a number.

  However a decimal is laid out, its text is a numeral of the document grammar, and the numeral
  has the size of the decimal (`Layout.scan_render`); the text of an integer is a plain numeral
  (`Numeral.scan_int`), and that of a decimal never is.
-/

namespace LiveRecords

/-! ## Digits -/

namespace Numeral

theorem digitsValue_eq (cs : List Char) : digitsValue cs = Nat.ofDigitChars 10 cs 0 := by
  rw [Nat.ofDigitChars_eq_foldl]
  unfold digitsValue
  simp only [Nat.mul_comm]

theorem digitsValue_append (cs ds : List Char) :
    digitsValue (cs ++ ds) = digitsValue cs * 10 ^ ds.length + digitsValue ds := by
  rw [digitsValue_eq, digitsValue_eq, digitsValue_eq, Nat.ofDigitChars_append,
    Nat.ofDigitChars_eq_ofDigitChars_zero, Nat.mul_comm]

theorem digitsValue_toDigits (n : Nat) : digitsValue (Nat.toDigits 10 n) = n := by
  rw [digitsValue_eq, Nat.ofDigitChars_ten_toDigits]

theorem digitsValue_zeros (k : Nat) : digitsValue (List.replicate k '0') = 0 := by
  rw [digitsValue_eq, Nat.ofDigitChars_replicate_zero, Nat.mul_zero]

/-- All are decimal digits. -/
def Digits (cs : List Char) : Prop := ∀ c ∈ cs, c.isDigit = true

theorem digits_toDigits (n : Nat) : Digits (Nat.toDigits 10 n) := fun _ hc =>
  Nat.isDigit_of_mem_toDigits (by omega) (by omega) hc

theorem digits_zeros (k : Nat) : Digits (List.replicate k '0') := fun _ hc => by
  rw [List.eq_of_mem_replicate hc]
  rfl

theorem Digits.append {cs ds : List Char} (h : Digits cs) (h' : Digits ds) : Digits (cs ++ ds) :=
  fun c hc => (List.mem_append.1 hc).elim (h c) (h' c)

/-- Digits as they stand before a point: there are some, and a zero in front is the only one. -/
structure Whole (cs : List Char) : Prop where
  digits : Digits cs
  ne_nil : cs ≠ []
  leading : cs.head? = some '0' → cs.length = 1

theorem head_toDigits {n : Nat} (h : 0 < n) : (Nat.toDigits 10 n).head? ≠ some '0' := by
  induction n using Nat.strong_induction_on with
  | _ n ih =>
    rcases Nat.lt_or_ge n 10 with hlt | hge
    · rw [Nat.toDigits_of_lt_base hlt, List.head?_cons]
      interval_cases n <;> decide
    · rw [Nat.toDigits_of_base_le (by omega) hge, List.head?_append_of_ne_nil _ Nat.toDigits_ne_nil]
      exact ih (n / 10) (by omega) (by omega)

theorem whole_toDigits (n : Nat) : Whole (Nat.toDigits 10 n) where
  digits := digits_toDigits n
  ne_nil := Nat.toDigits_ne_nil
  leading h := by
    rcases Nat.eq_zero_or_pos n with rfl | hpos
    · rfl
    · exact absurd h (head_toDigits hpos)

theorem whole_zero : Whole ['0'] := whole_toDigits 0

/-! ## Scanning -/

/-- What comes next is no digit. -/
def Stops (rest : List Char) : Prop := ∀ c ∈ rest.head?, c.isDigit = false

theorem stops_nil : Stops [] := by
  rintro c ⟨⟩

theorem scanDigits_append {cs rest : List Char} (h : Digits cs) (stops : Stops rest) :
    scanDigits (cs ++ rest) = (cs, rest) := by
  have hrest : rest.takeWhile Char.isDigit = [] ∧ rest.dropWhile Char.isDigit = rest := by
    cases rest with
    | nil => exact ⟨rfl, rfl⟩
    | cons c rest =>
      have hc : c.isDigit = false := stops c rfl
      simp [hc]
  unfold scanDigits
  rw [List.takeWhile_append_of_pos h, List.dropWhile_append_of_pos h, hrest.1, hrest.2,
    List.append_nil]

/-- The sign as it is written. -/
def signed (negative : Bool) (cs : List Char) : List Char := if negative then '-' :: cs else cs

/-- A whole part is read off behind its sign, and does not keep a numeral from being read. -/
theorem scan_head (negative : Bool) {whole rest : List Char} (h : Whole whole)
    (stops : Stops rest) :
    scan (signed negative (whole ++ rest)) = (do
      let (fraction, pointed, cs) ←
        match rest with
        | '.' :: rest =>
          match scanDigits rest with
          | ([], _) => none
          | (digits, rest) => some (digits, true, rest)
        | _ => some ([], false, rest)
      let (exponent, marked, cs) ← scanOptionalExponent cs
      some (⟨negative, whole, fraction, exponent, !pointed && !marked⟩, cs)) := by
  have hdigits := scanDigits_append h.digits stops
  have hwhole : (whole.isEmpty || (whole.head? == some '0' && 1 < whole.length)) = false := by
    have hne := h.ne_nil
    have hleading := h.leading
    grind
  cases negative with
  | true =>
    show scan ('-' :: (whole ++ rest)) = _
    simp only [scan, hdigits, hwhole, Bool.false_eq_true, if_false] <;> rfl
  | false =>
    obtain ⟨c, cs, rfl⟩ := List.exists_cons_of_ne_nil h.ne_nil
    have hc : c ≠ '-' := by
      rintro rfl
      exact absurd (h.digits '-' List.mem_cons_self) (by decide)
    show scan (c :: (cs ++ rest)) = _
    rw [List.cons_append] at hdigits
    simp only [scan, List.cons.injEq, hc, false_and, imp_self, implies_true, hdigits, hwhole,
      Bool.false_eq_true, if_false] <;> rfl

/-- A numeral without a point. -/
theorem scan_whole (negative : Bool) {whole rest : List Char} (h : Whole whole)
    (stops : Stops rest) (bare : rest.head? ≠ some '.') :
    scan (signed negative (whole ++ rest)) =
      (scanOptionalExponent rest).map fun (exponent, marked, rest) =>
        (⟨negative, whole, [], exponent, !marked⟩, rest) := by
  rw [scan_head negative h stops]
  split
  · exact absurd rfl bare
  · show (scanOptionalExponent rest).bind _ = _
    cases scanOptionalExponent rest <;> rfl

/-- A numeral with a point. -/
theorem scan_pointed (negative : Bool) {whole fraction rest : List Char} (h : Whole whole)
    (digits : Digits fraction) (nonempty : fraction ≠ []) (stops : Stops rest) :
    scan (signed negative (whole ++ '.' :: (fraction ++ rest))) =
      (scanOptionalExponent rest).map fun (exponent, _, rest) =>
        (⟨negative, whole, fraction, exponent, false⟩, rest) := by
  have hpoint : Stops ('.' :: (fraction ++ rest)) := by
    rintro c ⟨⟩
    rfl
  obtain ⟨c, cs, rfl⟩ := List.exists_cons_of_ne_nil nonempty
  rw [scan_head negative h hpoint]
  simp only [scanDigits_append digits stops]
  show (scanOptionalExponent rest).bind _ = _
  cases scanOptionalExponent rest <;> rfl

/-- The text of an integer is a plain numeral. -/
theorem scan_int (n : Int) :
    scan n.repr.toList = some (⟨n < 0, Nat.toDigits 10 n.natAbs, [], 0, true⟩, []) := by
  have hchars : n.repr.toList = signed (n < 0) (Nat.toDigits 10 n.natAbs ++ []) := by
    rw [List.append_nil, Int.repr_eq_if]
    by_cases hneg : n < 0
    · rw [if_neg (by omega), String.toList_append, Nat.toList_repr, decide_eq_true hneg,
        show (-n).toNat = n.natAbs by omega]
      rfl
    · rw [if_pos (by omega), Nat.toList_repr, decide_eq_false hneg,
        show n.toNat = n.natAbs by omega]
      rfl
  rw [hchars, scan_whole _ (whole_toDigits _) (by rintro c ⟨⟩) (by simp)]
  rfl

/-- The size of a numeral. -/
def size (n : Numeral) : ℚ :=
  digitsValue (n.whole ++ n.fraction) * 10 ^ (n.exponent - n.fraction.length)

end Numeral

/-! ## Layouts -/

/-- The value of a decimal. -/
def Decimal.value (d : Decimal) : ℚ := d.digits * 10 ^ d.exponent

namespace Layout

open Numeral

variable {d : Decimal}

/-- The digits of a decimal: there are some, and a zero in front is the only one. -/
structure Spelling (d : Decimal) (cs : List Char) : Prop where
  digits : Digits cs
  length_pos : 0 < cs.length
  value : digitsValue cs = d.digits
  leading : cs.head? = some '0' → d.digits = 0 ∧ cs.length = 1

theorem spelling (d : Decimal) : Spelling d (Nat.toDigits 10 d.digits) where
  digits := digits_toDigits d.digits
  length_pos := Nat.length_toDigits_pos
  value := digitsValue_toDigits d.digits
  leading h := by
    refine ⟨?_, (whole_toDigits _).leading h⟩
    by_contra hne
    exact head_toDigits (Nat.pos_of_ne_zero hne) h

/-- Behind a sign, a text is a numeral of the size of a decimal, and not a plain one. -/
def ReadsAs (negative : Bool) (text : List Char) (d : Decimal) : Prop :=
  ∃ n, scan (signed negative text) = some (n, []) ∧
    n.negative = negative ∧ n.plain = false ∧ n.size = d.value

/-- Whole part and fraction are read back from a text with a point. -/
theorem reads_parts (negative : Bool) {whole fraction : List Char} (h : Whole whole)
    (digits : Digits fraction) (nonempty : fraction ≠ [])
    (size : (digitsValue (whole ++ fraction) : ℚ) * 10 ^ (-fraction.length : ℤ) = d.value) :
    ReadsAs negative (whole ++ '.' :: fraction) d := by
  have hscan := scan_pointed negative h digits nonempty stops_nil
  rw [List.append_nil] at hscan
  refine ⟨_, hscan, rfl, rfl, ?_⟩
  rw [← size]
  show _ * (10 : ℚ) ^ (0 - (fraction.length : ℤ)) = _
  rw [zero_sub]

/-- Moving the point. -/
theorem mul_pow_shift (a : ℚ) (k : Nat) {i j : ℤ} (h : k + i = j) :
    a * 10 ^ k * 10 ^ i = a * 10 ^ j := by
  rw [mul_assoc, ← zpow_natCast, ← zpow_add₀ (by norm_num), h]

namespace Spelling

variable {digits : List Char}

theorem ne_nil (h : Spelling d digits) : digits ≠ [] := List.ne_nil_of_length_pos h.length_pos

/-- The point stands before the digits, behind a single zero. -/
theorem point_before (h : Spelling d digits) (negative : Bool) {zeros : Nat}
    (exponent : d.exponent = -(zeros + digits.length)) :
    ReadsAs negative ('0' :: '.' :: (List.replicate zeros '0' ++ digits)) d := by
  refine reads_parts negative whole_zero ((digits_zeros _).append h.digits)
    (List.append_ne_nil_of_right_ne_nil _ h.ne_nil) ?_
  have hzero : digitsValue ['0'] = 0 := rfl
  rw [digitsValue_append, digitsValue_append, digitsValue_zeros, hzero, h.value, Nat.zero_mul,
    Nat.zero_mul, Nat.zero_add, Nat.zero_add, List.length_append, List.length_replicate,
    Decimal.value, exponent, Nat.cast_add]

/-- The digits stand before the point, with the zeros that are missing. -/
theorem point_behind (h : Spelling d digits) (negative : Bool) {zeros : Nat}
    (exponent : d.exponent = zeros) (zero : d.digits = 0 → zeros = 0) :
    ReadsAs negative (digits ++ List.replicate zeros '0' ++ ['.', '0']) d := by
  refine reads_parts negative ⟨h.digits.append (digits_zeros _), ?_, fun hfirst => ?_⟩
    whole_zero.digits nofun ?_
  · exact List.append_ne_nil_of_left_ne_nil h.ne_nil _
  · rw [List.head?_append_of_ne_nil _ h.ne_nil] at hfirst
    obtain ⟨hdigits, hone⟩ := h.leading hfirst
    rw [List.length_append, List.length_replicate, zero hdigits, hone]
  · have hzero : digitsValue ['0'] = 0 := rfl
    rw [digitsValue_append, digitsValue_append, digitsValue_zeros, hzero, h.value,
      List.length_replicate, Decimal.value, Nat.add_zero, Nat.add_zero, Nat.mul_assoc,
      ← Nat.pow_add]
    push_cast
    refine mul_pow_shift _ _ ?_
    rw [exponent, List.length_singleton]
    omega

/-- The point stands among the digits. -/
theorem point_among (h : Spelling d digits) (negative : Bool) {place : Nat} (pos : 0 < place)
    (lt : place < digits.length) (exponent : d.exponent = place - digits.length) :
    ReadsAs negative (digits.take place ++ '.' :: digits.drop place) d := by
  refine reads_parts negative ⟨fun c hc => h.digits c (List.mem_of_mem_take hc), ?_,
    fun hfirst => ?_⟩ (fun c hc => h.digits c (List.mem_of_mem_drop hc)) ?_ ?_
  · exact List.ne_nil_of_length_pos (by rw [List.length_take]; omega)
  · rw [List.head?_take, if_neg (by omega)] at hfirst
    have hone := (h.leading hfirst).2
    omega
  · exact List.ne_nil_of_length_pos (by rw [List.length_drop]; omega)
  · rw [List.take_append_drop, h.value, List.length_drop, Decimal.value, exponent]
    congr 2
    omega

/-- A positional text has the size of its decimal. -/
theorem positional (h : Spelling d digits) (negative : Bool) {lead : Int}
    (hlead : lead = digits.length - 1 + d.exponent) (zero : d.digits = 0 → d.exponent = 0) :
    ReadsAs negative (Layout.positional digits lead) d := by
  have hpos := h.length_pos
  unfold Layout.positional
  split
  · exact h.point_before negative (by omega)
  · dsimp only
    by_cases hfraction : digits.drop (lead.toNat + 1) = []
    · have hlength := List.drop_eq_nil_iff.1 hfraction
      rw [List.take_of_length_le hlength, hfraction, List.isEmpty_nil, if_pos rfl]
      refine h.point_behind negative (by omega) fun hdigits => ?_
      have hexponent := zero hdigits
      omega
    · have hlength : lead.toNat + 1 < digits.length := by
        by_contra hle
        exact hfraction (List.drop_eq_nil_iff.2 (by omega))
      have hwhole : (digits.take (lead.toNat + 1)).length = lead.toNat + 1 := by
        rw [List.length_take]
        omega
      rw [hwhole, Nat.sub_self, List.replicate_zero, List.append_nil,
        if_neg (by rwa [List.isEmpty_iff])]
      exact h.point_among negative (by omega) hlength (by omega)

end Spelling

/-- An exponent is written behind its mark, with a sign. -/
def exponent (lead : Int) : List Char :=
  'e' :: (if lead < 0 then '-' else '+') :: Nat.toDigits 10 lead.natAbs

theorem scan_exponent (lead : Int) : scanOptionalExponent (exponent lead) = some (lead, true, []) := by
  have hscan : scanDigits (Nat.toDigits 10 lead.natAbs) = (Nat.toDigits 10 lead.natAbs, []) := by
    have happend := scanDigits_append (digits_toDigits lead.natAbs) stops_nil
    rwa [List.append_nil] at happend
  have hvalue := digitsValue_toDigits lead.natAbs
  have hne : Nat.toDigits 10 lead.natAbs ≠ [] := Nat.toDigits_ne_nil
  unfold exponent
  generalize Nat.toDigits 10 lead.natAbs = digits at *
  obtain ⟨c, cs, rfl⟩ := List.exists_cons_of_ne_nil hne
  split
  · simp only [scanOptionalExponent, scanExponent, hscan, hvalue, Option.map_some, if_true]
    rw [show -(lead.natAbs : Int) = lead by omega]
  · simp only [scanOptionalExponent, scanExponent, hscan, hvalue, Option.map_some,
      Bool.false_eq_true, if_false]
    rw [show (lead.natAbs : Int) = lead by omega]

theorem stops_exponent (lead : Int) : Stops (exponent lead) := by
  rintro c ⟨⟩
  rfl

/-- A text with an exponent has the size of its decimal. -/
theorem Spelling.scientific {digits : List Char} (h : Spelling d digits) (negative : Bool)
    {lead : Int} (hlead : lead = digits.length - 1 + d.exponent) :
    ReadsAs negative (digits.take 1 ++
      (if (digits.drop 1).isEmpty then [] else '.' :: digits.drop 1) ++ Layout.exponent lead) d := by
  obtain ⟨c, cs, rfl⟩ := List.exists_cons_of_ne_nil h.ne_nil
  have hwhole : Whole [c] := by
    refine ⟨fun x hx => h.digits x ?_, nofun, fun _ => rfl⟩
    rw [List.mem_singleton.1 hx]
    exact List.mem_cons_self
  have hrest : Digits cs := fun x hx => h.digits x (List.mem_cons_of_mem c hx)
  rw [List.length_cons] at hlead
  cases cs with
  | nil =>
    have hscan := scan_whole negative hwhole (stops_exponent lead) (by simp [Layout.exponent])
    refine ⟨_, hscan.trans (by rw [scan_exponent]; rfl), rfl, rfl, ?_⟩
    show (digitsValue [c] : ℚ) * 10 ^ (lead - 0) = _
    rw [h.value, Decimal.value, Int.sub_zero, show lead = d.exponent by simp [hlead]]
  | cons c' cs =>
    have hscan := scan_pointed negative hwhole hrest nofun (stops_exponent lead)
    refine ⟨_, hscan.trans (by rw [scan_exponent]; rfl), rfl, rfl, ?_⟩
    show (digitsValue (c :: c' :: cs) : ℚ) * 10 ^ (lead - ((c' :: cs).length : ℤ)) = _
    rw [h.value, Decimal.value, show lead - ((c' :: cs).length : ℤ) = d.exponent by
      rw [hlead]; omega]

/-- The text of a decimal in a document, behind a sign, is a numeral of its size that is not
plain. -/
theorem scan_render (negative : Bool) (zero : d.digits = 0 → d.exponent = 0) :
    ∃ n, scan (signed negative (document.render d).toList) = some (n, []) ∧
      n.negative = negative ∧ n.plain = false ∧ n.size = d.value := by
  unfold render
  dsimp only
  split
  · rw [String.toList_ofList]
    exact (spelling d).positional negative rfl zero
  · have hexponent : ∀ lead : Int, (document.exponentMark ++
        (if lead < 0 then "-" else document.plusSign) ++ toString lead.natAbs).toList =
        exponent lead := fun lead => by
      rw [String.toList_append, String.toList_append, Nat.toString_eq_ofList_toDigits,
        String.toList_ofList]
      unfold exponent
      by_cases hneg : lead < 0
      · simp only [hneg, if_true]
        rfl
      · simp only [hneg, if_false]
        rfl
    rw [String.append_assoc, String.append_assoc, String.toList_append, String.toList_ofList,
      ← String.append_assoc, hexponent]
    exact (spelling d).scientific negative rfl

end Layout

end LiveRecords

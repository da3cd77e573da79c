import LiveRecords.Number.Binary64

/-
  The fewest decimal digits that read back as a given binary64 number.

  The reals that round to a number reach halfway to its neighbours, the ends
  included exactly when its code is even. For 1, 2, … 17 digits the two points
  of that decimal grid next to the value are tested against this interval in
  exact arithmetic: the first grid with a hit wins, of two hits the nearer, and
  of two equally near the even one. `Layout` holds the decisions about how the
  digits are written.
-/

namespace LiveRecords

/-- The decimal `digits * 10 ^ exponent`. -/
structure Decimal where
  digits : Nat
  exponent : Int
  deriving DecidableEq, Repr

namespace Decimal

/-- The decimal over a common denominator: numerator and denominator of
`digits * 10 ^ exponent`, as naturals. -/
def ratio (d : Decimal) : Nat × Nat :=
  (d.digits * Nat.pow 10 d.exponent.toNat, Nat.pow 10 (-d.exponent).toNat)

/-- The same decimal without trailing zeros among its digits; `fuel` bounds how
many are dropped. -/
def strip : Nat → Decimal → Decimal
  | 0, d => d
  | fuel + 1, d =>
    if d.digits ≠ 0 ∧ d.digits % 10 = 0 then strip fuel ⟨d.digits / 10, d.exponent + 1⟩ else d

end Decimal

namespace Binary64

/-- Whether the reals that round to the magnitude with this code include the
decimal: it lies between the midpoints to the neighbouring codes. -/
def readsBack (code : Nat) (d : Decimal) : Bool :=
  let (num, den) := d.ratio
  let twice := 2 * num * one
  let low := (unitsOf (code - 1) + unitsOf code) * den
  let high := (unitsOf code + unitsOf (code + 1)) * den
  if code % 2 = 0 then decide (low ≤ twice ∧ twice ≤ high) else decide (low < twice ∧ twice < high)

/-- The grid point with step `10 ^ exponent` at or just below the magnitude. -/
def gridBelow (code : Nat) (exponent : Int) : Decimal :=
  ⟨unitsOf code * Nat.pow 10 (-exponent).toNat / (one * Nat.pow 10 exponent.toNat), exponent⟩

/-- Of the two grid points around the magnitude, the one that reads back; of two
such the nearer, at equal distance the even one. -/
def nearestOnGrid (code : Nat) (exponent : Int) : Option Decimal :=
  let below := gridBelow code exponent
  let above : Decimal := ⟨below.digits + 1, exponent⟩
  match readsBack code below, readsBack code above with
  | false, false => none
  | true, false => some below
  | false, true => some above
  | true, true =>
    let twice := 2 * unitsOf code * Nat.pow 10 (-exponent).toNat
    let middle := (below.digits + above.digits) * (one * Nat.pow 10 exponent.toNat)
    match Ord.compare twice middle with
    | .lt => some below
    | .gt => some above
    | .eq => some (if below.digits % 2 = 0 then below else above)

/-- The least `k` at or after `start` with the magnitude below `10 ^ k`. -/
def leadingExponent (code : Nat) : Nat → Int → Int
  | 0, k => k
  | fuel + 1, k =>
    if unitsOf code * Nat.pow 10 (-k).toNat < one * Nat.pow 10 k.toNat then k
    else leadingExponent code fuel (k + 1)

/-- The shortest decimal that reads back as the magnitude, nearest to it among
the shortest, without trailing zeros. Zero is `0 * 10 ^ 0`. -/
def shortest (code : Nat) : Decimal :=
  if code = 0 then ⟨0, 0⟩
  else
    let estimate := (((unitsOf code).log2 : Int) - 1074) * 30103 / 100000 - 1
    let k := leadingExponent code 5 estimate
    let found := (List.range 17).findSome? fun (n : Nat) => nearestOnGrid code (k - (n + 1))
    (found.getD ⟨unitsOf code * Nat.pow 10 1074 / one, -1074⟩).strip 1100

end Binary64

/-! ## Layout -/

/-- How digits are laid out: the exponents of the leading digit that are written
positionally, and the marks of the others. -/
structure Layout where
  positionalFrom : Int
  positionalTo : Int
  exponentMark : String
  plusSign : String

namespace Layout

/-- Numbers in documents are positional while the leading digit stands between
10^-5 and 10^15, and then always have a fraction. -/
def document : Layout := ⟨-5, 15, "e", "+"⟩

/-- The digits of a positional number: the point stands after `lead + 1` digits,
zeros fill the places without a digit. -/
def positional (digits : List Char) (lead : Int) : List Char :=
  if lead < 0 then
    '0' :: '.' :: (List.replicate (-lead - 1).toNat '0' ++ digits)
  else
    let whole := digits.take (lead.toNat + 1)
    let fraction := digits.drop (lead.toNat + 1)
    whole ++ List.replicate (lead.toNat + 1 - whole.length) '0' ++
      ('.' :: if fraction.isEmpty then ['0'] else fraction)

/-- The text of a decimal in this layout. -/
def render (layout : Layout) (d : Decimal) : String :=
  let digits := Nat.toDigits 10 d.digits
  let lead : Int := (digits.length : Int) - 1 + d.exponent
  if layout.positionalFrom ≤ lead ∧ lead ≤ layout.positionalTo then
    String.ofList (positional digits lead)
  else
    let fraction := digits.drop 1
    let mantissa := digits.take 1 ++ (if fraction.isEmpty then [] else '.' :: fraction)
    String.ofList mantissa ++ layout.exponentMark ++
      (if lead < 0 then "-" else layout.plusSign) ++ toString lead.natAbs

end Layout

/-- The text of a number in documents. -/
def Binary64.render (x : Binary64) : String :=
  (if x.negative then "-" else "") ++ Layout.document.render (Binary64.shortest x.code)

end LiveRecords

/-
  Finite binary64 numbers by exact integer arithmetic.

  Every finite binary64 number is a whole multiple of 2^-1074, so a number is
  held as a sign and a code: the place of its magnitude in the ascending list of
  all representable magnitudes. `units` reads the code as a natural number of
  2^-1074 parts. An operation forms the exact result as a quotient of naturals
  and rounds once (`roundCode`), to nearest with ties to the even code; a result
  beyond the last finite code is no number here (`none`).
-/

namespace LiveRecords

/-- The number of codes of finite magnitudes. -/
def finiteCodes : Nat := 2047 * Nat.pow 2 52

/-- A finite binary64 number: its sign and the place of its magnitude among the
representable magnitudes, zero first. -/
structure Binary64 where
  negative : Bool
  code : Nat
  finite : code < finiteCodes
  deriving DecidableEq

namespace Binary64

/-- How often a magnitude's gap to its neighbours has doubled. -/
def scale (code : Nat) : Nat := code / Nat.pow 2 52 - 1

/-- The magnitude with the given code, in units of 2^-1074. -/
def unitsOf (code : Nat) : Nat := (code - scale code * Nat.pow 2 52) * Nat.pow 2 (scale code)

/-- One, in units of 2^-1074. -/
def one : Nat := Nat.pow 2 1074

/-- The magnitude in units of 2^-1074. -/
def magnitude (x : Binary64) : Nat := unitsOf x.code

/-- The value in units of 2^-1074. -/
def units (x : Binary64) : Int := if x.negative then -(x.magnitude : Int) else x.magnitude

/-- Zero, with the sign asked for. -/
def zero (negative : Bool) : Binary64 := ⟨negative, 0, by decide⟩

instance : Inhabited Binary64 := ⟨zero false⟩

/-- The quotient rounded to the nearest natural, a half to the even one. -/
def roundHalfEven (num den : Nat) : Nat :=
  let q := num / den
  let r := num % den
  if 2 * r < den then q
  else if den < 2 * r then q + 1
  else q + q % 2

/-- The code nearest to `num / den` units. -/
def roundCode (num den : Nat) : Nat :=
  let s := (num / den).log2 - 52
  s * Nat.pow 2 52 + roundHalfEven num (den * Nat.pow 2 s)

/-- The number with the given sign nearest to `num / den` units, where one is
finite. -/
def ofRatio (negative : Bool) (num den : Nat) : Option Binary64 :=
  if h : roundCode num den < finiteCodes then some ⟨negative, roundCode num den, h⟩ else none

/-- The greatest finite number of the given sign. -/
def greatest (negative : Bool) : Binary64 := ⟨negative, finiteCodes - 1, by decide⟩

/-- The number nearest to an integer; past the range, the greatest of its sign. -/
def ofInt (n : Int) : Binary64 :=
  (ofRatio (n < 0) (n.natAbs * one) 1).getD (greatest (n < 0))

/-- The number nearest to `digits * 10 ^ exponent`. The two tests only spare the
powers of ten of numbers that are far out of range. -/
def ofDecimal (negative : Bool) (digits : Nat) (exponent : Int) : Option Binary64 :=
  let size : Int := (toString digits).length + exponent
  if digits = 0 ∨ size < -400 then some (zero negative)
  else if 400 < size then none
  else ofRatio negative (digits * Nat.pow 10 exponent.toNat * one)
    (Nat.pow 10 (-exponent).toNat)

/-! ## Order and arithmetic -/

/-- The order of the values: both zeros are one value. -/
def compare (x y : Binary64) : Ordering := Ord.compare x.units y.units

/-- Whether two numbers have one value. -/
def same (x y : Binary64) : Bool := x.units == y.units

/-- The number with the other sign. -/
def neg (x : Binary64) : Binary64 := { x with negative := !x.negative }

/-- The rounded sum. An exact zero is negative only if both summands are. -/
def add (x y : Binary64) : Option Binary64 :=
  let s := x.units + y.units
  ofRatio (if s = 0 then x.negative && y.negative else s < 0) s.natAbs 1

/-- The rounded difference. -/
def sub (x y : Binary64) : Option Binary64 := x.add y.neg

/-- The rounded product. -/
def mul (x y : Binary64) : Option Binary64 :=
  ofRatio (x.negative != y.negative) (x.magnitude * y.magnitude) one

/-- The rounded quotient; none by zero. -/
def div (x y : Binary64) : Option Binary64 :=
  if y.magnitude = 0 then none
  else ofRatio (x.negative != y.negative) (x.magnitude * one) y.magnitude

/-- The integer that the number is, if it is one. -/
def toInt? (x : Binary64) : Option Int :=
  if x.magnitude % one = 0 then
    let n : Int := (x.magnitude / one : Nat)
    some (if x.negative then -n else n)
  else none

end Binary64

end LiveRecords

import LiveRecords.Number.Binary64

/-
  Decimal numerals as they are written: sign, digits, fraction and exponent.

  Two grammars read them. The document grammar (`scan`) allows no sign but a
  minus, no leading zero and no empty part; the free grammar (`readFree`) is
  for numbers that people put into text fields, where `+1`, `.5`, `5.` and the
  names of the infinities are numbers as well.
-/

namespace LiveRecords

/-- The integers of 64 bits with sign, from -2^63 to 2^63 - 1. -/
def InSigned64 (n : Int) : Prop := -9223372036854775808 ≤ n ∧ n < 9223372036854775808

instance (n : Int) : Decidable (InSigned64 n) := inferInstanceAs (Decidable (_ ∧ _))

/-- The integers that a document can hold: those of 64 bits, with or without
sign, from -2^63 to 2^64 - 1. -/
def InDocument (n : Int) : Prop := -9223372036854775808 ≤ n ∧ n < 18446744073709551616

instance (n : Int) : Decidable (InDocument n) := inferInstanceAs (Decidable (_ ∧ _))

/-- The integer, if it has 64 bits with sign. -/
def signed64? (n : Int) : Option Int := if InSigned64 n then some n else none

/-- A numeral: `plain` says that neither a point nor an exponent was written. -/
structure Numeral where
  negative : Bool
  whole : List Char
  fraction : List Char
  exponent : Int
  plain : Bool

namespace Numeral

/-- The number that a list of decimal digits denotes. -/
def digitsValue (digits : List Char) : Nat :=
  digits.foldl (fun n c => n * 10 + (c.toNat - '0'.toNat)) 0

/-- The number nearest to the numeral, where one is finite. -/
def toBinary? (n : Numeral) : Option Binary64 :=
  Binary64.ofDecimal n.negative (digitsValue (n.whole ++ n.fraction)) (n.exponent - n.fraction.length)

/-- The integer that the digits before the point denote. -/
def toInt (n : Numeral) : Int :=
  if n.negative then -(digitsValue n.whole : Int) else digitsValue n.whole

/-- Splits off the leading decimal digits. -/
def scanDigits (cs : List Char) : List Char × List Char :=
  (cs.takeWhile Char.isDigit, cs.dropWhile Char.isDigit)

/-- An exponent behind its mark: an optional sign and at least one digit. -/
def scanExponent (cs : List Char) : Option (Int × List Char) :=
  let (negative, rest) :=
    match cs with
    | '-' :: rest => (true, rest)
    | '+' :: rest => (false, rest)
    | _ => (false, cs)
  match scanDigits rest with
  | ([], _) => none
  | (digits, rest) =>
    some (if negative then -(digitsValue digits : Int) else digitsValue digits, rest)

/-- An optional exponent: its value, zero if absent, and whether there is one. -/
def scanOptionalExponent (cs : List Char) : Option (Int × Bool × List Char) :=
  match cs with
  | 'e' :: rest => (scanExponent rest).map fun (e, rest) => (e, true, rest)
  | 'E' :: rest => (scanExponent rest).map fun (e, rest) => (e, true, rest)
  | _ => some (0, false, cs)

/-- Reads a numeral of the document grammar off the front. -/
def scan (cs : List Char) : Option (Numeral × List Char) := do
  let (negative, cs) :=
    match cs with
    | '-' :: rest => (true, rest)
    | _ => (false, cs)
  let (whole, cs) := scanDigits cs
  if whole.isEmpty || (whole.head? == some '0' && 1 < whole.length) then none
  else
    let (fraction, pointed, cs) ←
      match cs with
      | '.' :: rest =>
        match scanDigits rest with
        | ([], _) => none
        | (digits, rest) => some (digits, true, rest)
      | _ => some ([], false, cs)
    let (exponent, marked, cs) ← scanOptionalExponent cs
    some (⟨negative, whole, fraction, exponent, !pointed && !marked⟩, cs)

/-- A sign and what follows it. -/
def splitSign (cs : List Char) : Bool × List Char :=
  match cs with
  | '-' :: rest => (true, rest)
  | '+' :: rest => (false, rest)
  | _ => (false, cs)

/-- The free grammar for integers of 64 bits: a sign may stand before the digits. -/
def readSigned64 (cs : List Char) : Option Int :=
  let (negative, digits) := splitSign cs
  if digits.isEmpty || !digits.all Char.isDigit then none
  else signed64? (if negative then -(digitsValue digits : Int) else digitsValue digits)

/-- The names of values that are not finite, in any case. -/
def isNonFiniteName (cs : List Char) : Bool :=
  ["inf", "infinity", "nan"].contains (String.ofList (cs.map Char.toLower))

/-- The free grammar for binary64: none if the text is no number, `some none` if
it is a number that is not finite. -/
def readFree (cs : List Char) : Option (Option Binary64) :=
  let (negative, body) := splitSign cs
  if isNonFiniteName body then some none
  else
    let (whole, rest) := scanDigits body
    let (fraction, rest) :=
      match rest with
      | '.' :: rest => scanDigits rest
      | _ => ([], rest)
    if whole.isEmpty && fraction.isEmpty then none
    else
      match scanOptionalExponent rest with
      | some (exponent, marked, []) =>
        some (Numeral.toBinary? ⟨negative, whole, fraction, exponent, !marked⟩)
      | _ => none

end Numeral

end LiveRecords

/-
  Durations, in nanoseconds, and the text that messages show them by.

  The text uses the largest unit of which the duration has at least one, and as
  many decimals as it needs: `30s`, `1.5s`, `20ms`, `100µs`, `999ns`, `0ns`.
-/

namespace LiveRecords

/-- A length of time. -/
structure Duration where
  nanoseconds : Nat
  deriving DecidableEq, Repr, Inhabited

namespace Duration

/-- A number of milliseconds. -/
def ofMilliseconds (n : Nat) : Duration := ⟨n * 1000000⟩

/-- A number of units of `10 ^ places` parts each, without trailing zeros. -/
def decimal (parts places : Nat) : String :=
  let whole := toString (parts / Nat.pow 10 places)
  let digits := Nat.toDigits 10 (parts % Nat.pow 10 places)
  let padded := List.replicate (places - digits.length) '0' ++ digits
  let fraction := (padded.reverse.dropWhile (· == '0')).reverse
  if parts % Nat.pow 10 places = 0 then whole else whole ++ "." ++ String.ofList fraction

/-- The text of a duration. -/
def render (d : Duration) : String :=
  if 1000000000 ≤ d.nanoseconds then decimal d.nanoseconds 9 ++ "s"
  else if 1000000 ≤ d.nanoseconds then decimal d.nanoseconds 6 ++ "ms"
  else if 1000 ≤ d.nanoseconds then decimal d.nanoseconds 3 ++ "µs"
  else toString d.nanoseconds ++ "ns"

end Duration

end LiveRecords

import LiveRecords.Expr.Basic

/-
  Aggregations of the values that an expression has over many entities.

  Sums of integers stay exact as long as every partial sum has 64 bits; after
  that, and as soon as another value than an integer comes, the sum is the one kept
  in binary64. Nulls are left out, of all but the count.
-/

namespace LiveRecords

/-- What is computed from the values of many entities. -/
inductive Aggregate where
  | count
  | sum (operand : Expr)
  | average (operand : Expr)
  | min (operand : Expr)
  | max (operand : Expr)

namespace Aggregate

/-- The expression whose values are aggregated. -/
def operand? : Aggregate → Option Expr
  | .count => none
  | .sum e | .average e | .min e | .max e => some e

/-- The text of an aggregation. -/
def display : Aggregate → String
  | .count => "Count"
  | .sum e => "Sum(" ++ e.display ++ ")"
  | .average e => "Average(" ++ e.display ++ ")"
  | .min e => "Min(" ++ e.display ++ ")"
  | .max e => "Max(" ++ e.display ++ ")"

/-- A running sum: the exact integer while there is one, and the sum in binary64
while that is finite. -/
structure Total where
  exact : Option Int
  rounded : Option Binary64

/-- The sum of nothing. -/
def Total.zero : Total := ⟨some 0, some (.zero false)⟩

/-- The rounded sum with one more number; a sum that has left the finite numbers
never comes back. -/
def addRounded (total : Option Binary64) (v : Value) : Option Binary64 :=
  match v.toBinary? with
  | some x => total.bind (·.add x)
  | none => total

/-- The sum with one more value. -/
def Total.add (t : Total) (v : Value) : Total :=
  ⟨t.exact.bind fun n => v.signed64?.bind fun m => signed64? (n + m), addRounded t.rounded v⟩

/-- The value of a sum. -/
def Total.value (t : Total) : Value :=
  match t.exact with
  | some n => .int n
  | none => .ofBinary? t.rounded

/-- The average of the numbers among some values. The sum of one number is that number,
also where it is a negative zero. -/
def averageOf (values : List Value) : Value :=
  match values.filterMap Value.toBinary? with
  | [] => .null
  | x :: rest =>
    let total := rest.foldl (fun sum y => sum.bind (·.add y)) (some x)
    .ofBinary? (total.bind (·.div (.ofInt (rest.length + 1))))

/-- The first of the greatest values that are not null, or of the least ones. -/
def extreme (wanted : Ordering) (values : List Value) : Value :=
  match values.filter fun v => !v.isNull with
  | [] => .null
  | v :: rest =>
    rest.foldl (fun best next => if next.sortOrder best == wanted then next else best) v

/-- The result of an aggregation over the values of its operand. -/
def reduce (a : Aggregate) (values : List Value) : Value :=
  match a with
  | .count => .int values.length
  | .sum _ => ((values.filter fun v => !v.isNull).foldl Total.add .zero).value
  | .average _ => averageOf values
  | .min _ => extreme .lt values
  | .max _ => extreme .gt values

end Aggregate

end LiveRecords

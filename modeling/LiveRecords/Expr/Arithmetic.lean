import LiveRecords.Document.Order

/-
  Arithmetic on the numbers of documents.

  Two integers of 64 bits give the exact integer where it has 64 bits as well;
  every other pair of numbers is computed in binary64. A result that is not
  finite is null, as is a division of integers by zero. A missing operand counts
  as the neutral value: zero, or one for a divisor.
-/

namespace LiveRecords

/-- The four operations. -/
inductive Arithmetic where
  | add | sub | mul | div
  deriving DecidableEq, Repr

namespace Arithmetic

/-- The exact result on integers; division truncates toward zero. -/
def onInts : Arithmetic → Int → Int → Int
  | .add, a, b => a + b
  | .sub, a, b => a - b
  | .mul, a, b => a * b
  | .div, a, b => a.tdiv b

/-- The rounded result on binary64 numbers. -/
def onBinary : Arithmetic → Binary64 → Binary64 → Option Binary64
  | .add, x, y => x.add y
  | .sub, x, y => x.sub y
  | .mul, x, y => x.mul y
  | .div, x, y => x.div y

/-- What stands for a missing right operand. -/
def neutral : Arithmetic → Value
  | .div => .int 1
  | _ => .int 0

/-- The value, or another one in place of null. -/
def orElse (default : Value) (v : Value) : Value := if v.isNull then default else v

/-- The result in binary64; null unless both operands are numbers. -/
def floating (op : Arithmetic) (a b : Value) : Value :=
  match a.toBinary?, b.toBinary? with
  | some x, some y => .ofBinary? (op.onBinary x y)
  | _, _ => .null

/-- The result of an operation on two values. -/
def apply (op : Arithmetic) (left right : Value) : Value :=
  let a := orElse (.int 0) left
  let b := orElse op.neutral right
  match a.signed64?, b.signed64? with
  | some m, some n =>
    if op = .div ∧ n = 0 then .null
    else
      match signed64? (op.onInts m n) with
      | some r => .int r
      | none => op.floating a b
  | _, _ => op.floating a b

end Arithmetic

/-- The number with the other sign; null for what is no number. -/
def Value.negate (v : Value) : Value :=
  match v.signed64? with
  | some n =>
    match LiveRecords.signed64? (-n) with
    | some r => .int r
    | none => .ofBinary? (v.toBinary?.map Binary64.neg)
  | none => .ofBinary? (v.toBinary?.map Binary64.neg)

end LiveRecords

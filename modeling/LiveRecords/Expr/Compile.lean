import LiveRecords.Expr.Basic
import LiveRecords.Expr.Operation

/-
  Compilation of expressions into functions on documents.

  A unary node is judged before its operand, a binary node after both of its
  operands: that decides which of several nodes that cannot be evaluated is
  reported. A pattern that is a constant text is read when the expression is
  compiled, any other for every document.
-/

namespace LiveRecords

namespace Expr

/-- The text that a node is a constant of. -/
def constantText? : Expr → Option String
  | .constant _ (.text s) => some s
  | _ => none

/-- The function that an expression computes from its argument. -/
def compile : Expr → Outcome (Value → Value)
  | .argument _ => .ok id
  | .constant _ value => .ok fun _ => value
  | .property target p => do
    let f ← target.compile
    return fun v => p.get (f v)
  | .composition source inner => do
    let f ← source.compile
    let g ← inner.compile
    return fun v => g (f v)
  | .unary kind _ operand =>
    if kind.isAggregate then .error (.unsupported kind true)
    else
      match Operation.unary? kind with
      | none => .error (.unsupported kind false)
      | some op => do
        let f ← operand.compile
        return fun v => op (f v)
  | .binary kind _ left right => do
    let f ← left.compile
    let g ← right.compile
    match if kind = .matches then right.constantText? else none with
    | some source =>
      let pattern := Pattern.readFull? source
      return fun v => .bool (Operation.matchesRead pattern (f v))
    | none =>
      match Operation.binary? kind with
      | none => .error (.unsupported kind false)
      | some op => return fun v => op (f v) (g v)

end Expr

/-! ## Sorting -/

/-- A sort key: the value that is compared, and the direction. -/
structure SortKey where
  value : Value → Value
  ascending : Bool

/-- The order of two documents by some sort keys, the first key that tells them
apart deciding. -/
def SortKey.compare : List SortKey → Value → Value → Ordering
  | [], _, _ => .eq
  | key :: rest, a, b =>
    let order := (key.value a).sortOrder (key.value b)
    match if key.ascending then order else order.swap with
    | .eq => compare rest a b
    | other => other

/-- Puts an entry into a list that is sorted from the greatest entry on, in front of
the first one that it is not less than. -/
def SortKey.insert (keys : List SortKey) (v : Value) : List Value → List Value
  | [] => [v]
  | w :: rest =>
    if SortKey.compare keys v w == .lt then w :: insert keys v rest else v :: w :: rest

/-- Sorts some documents; those that are equal under the keys keep their order. -/
def SortKey.sort (keys : List SortKey) (values : List Value) : List Value :=
  (values.foldl (fun done v => SortKey.insert keys v done) []).reverse

/-- The sort key that an expression is. -/
def SortKey.compile (e : Expr) (ascending : Bool) : Outcome SortKey := do
  let value ← e.compile
  return ⟨value, ascending⟩

end LiveRecords

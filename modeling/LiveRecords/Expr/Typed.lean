import LiveRecords.Expr.Basic

/-
  Operators on expressions whose capability is known.

  A typed expression is a node with the capability it is used at. Retyping changes
  how it is used and leaves the node alone: a number used as a comparable stays the
  same node. Comparing with null asks whether the value is null, and the inclusive
  comparisons are disjunctions of the strict one with equality.
-/

namespace LiveRecords

/-- An expression used at a capability. -/
structure Typed where
  node : Expr
  capability : Capability
  deriving Inhabited

namespace Typed

/-- An expression at the capability of its node. -/
def ofExpr (e : Expr) : Typed := ⟨e, e.capability⟩

/-- A constant at a given capability. -/
def constant (capability : Capability) (value : Value) : Typed :=
  ⟨.constant capability value, capability⟩

/-- An access to a property. -/
def property (t : Typed) (p : Property) : Typed := ofExpr (.property t.node p)

/-- An expression evaluated on the value of another one. -/
def compose (t inner : Typed) : Typed := ⟨.composition t.node inner.node, inner.capability⟩

/-- The same node used at another capability. -/
def retype (t : Typed) (capability : Capability) : Typed := { t with capability }

/-- A unary operation with results of the given capability. -/
def unary (t : Typed) (kind : Kind) (capability : Capability) : Typed :=
  ⟨.unary kind capability t.node, capability⟩

/-- A binary operation with results of the given capability. -/
def binary (t : Typed) (kind : Kind) (capability : Capability) (right : Expr) : Typed :=
  ⟨.binary kind capability t.node right, capability⟩

/-! ## Truth values -/

/-- Both hold. -/
def and (t other : Typed) : Typed := t.binary .and .boolean other.node

/-- One of both holds. -/
def or (t other : Typed) : Typed := t.binary .or .boolean other.node

/-- The value is not true. -/
def not (t : Typed) : Typed := t.unary .not .boolean

/-! ## Any value -/

/-- The value is null. -/
def isNull (t : Typed) : Typed := t.unary .isNull .boolean

/-- The value is not null. -/
def isNotNull (t : Typed) : Typed := t.isNull.not

/-- The values are alike. -/
def eqExpr (t : Typed) (other : Expr) : Typed := t.binary .equals .boolean other

/-- The values are not alike. -/
def notEqExpr (t : Typed) (other : Expr) : Typed := (t.eqExpr other).not

/-- The value is like `v`, or null if `v` is. -/
def eq (t : Typed) (v : Value) : Typed := if v.isNull then t.isNull else t.eqExpr (.const v)

/-- The value is not like `v`. -/
def notEq (t : Typed) (v : Value) : Typed :=
  if v.isNull then t.isNotNull else t.notEqExpr (.const v)

/-- The value is like one of `vs`. -/
def isIn (t : Typed) (vs : List Value) : Typed := t.binary .valueIn .boolean (.const (.list vs))

/-- The value is like an item of a list. -/
def isInExpr (t : Typed) (items : Expr) : Typed := t.binary .valueIn .boolean items

/-- The text of the value contains a pattern. -/
def searchText (t : Typed) (pattern : String) : Typed :=
  t.binary .searchText .boolean (.const (.text pattern))

/-- The value as something that has an order. -/
def asComparable (t : Typed) : Typed :=
  if t.capability.satisfies .comparable then t.retype .comparable
  else t.unary .asComparable .comparable

/-- The value as text. -/
def asString (t : Typed) : Typed :=
  if t.capability == .string then t.retype .string else t.unary .asString .string

/-- The value as a truth value. -/
def asBoolean (t : Typed) : Typed :=
  if t.capability == .boolean then t.retype .boolean else t.unary .asBoolean .boolean

/-- The value as a number. -/
def asNumeric (t : Typed) : Typed :=
  if t.capability == .numeric then t.retype .numeric else t.unary .asNumeric .numeric

/-! ## Values with an order -/

/-- Greater than another value. -/
def greaterThanExpr (t : Typed) (other : Expr) : Typed := t.binary .greaterThan .boolean other

/-- Less than another value. -/
def lessThanExpr (t : Typed) (other : Expr) : Typed := t.binary .lessThan .boolean other

/-- Greater than `v`. -/
def greaterThan (t : Typed) (v : Value) : Typed := t.greaterThanExpr (.const v)

/-- Less than `v`. -/
def lessThan (t : Typed) (v : Value) : Typed := t.lessThanExpr (.const v)

/-- Greater than `v` or like it. -/
def greaterOrEqual (t : Typed) (v : Value) : Typed := (t.greaterThan v).or (t.eq v)

/-- Greater than another value or like it. -/
def greaterOrEqualExpr (t : Typed) (other : Expr) : Typed :=
  (t.greaterThanExpr other).or (t.eqExpr other)

/-- Less than `v` or like it. -/
def lessOrEqual (t : Typed) (v : Value) : Typed := (t.lessThan v).or (t.eq v)

/-- Less than another value or like it. -/
def lessOrEqualExpr (t : Typed) (other : Expr) : Typed :=
  (t.lessThanExpr other).or (t.eqExpr other)

/-- Between two values, both included. -/
def between (t : Typed) (low high : Value) : Typed :=
  (t.greaterOrEqual low).and (t.lessOrEqual high)

/-- Between the values of two expressions, both included. -/
def betweenExpr (t : Typed) (low high : Expr) : Typed :=
  (t.greaterOrEqualExpr low).and (t.lessOrEqualExpr high)

/-! ## Numbers -/

/-- The node of an arithmetic operation. -/
def arithmetic (t : Typed) (kind : Kind) (right : Expr) : Typed := t.binary kind .numeric right

/-- The number with the other sign. -/
def negate (t : Typed) : Typed := t.unary .negate .numeric

/-! ## Text -/

/-- A test of the text against another one. -/
def textTest (t : Typed) (kind : Kind) (pattern : Expr) : Typed := t.binary kind .boolean pattern

/-- The text followed by another one. -/
def concat (t : Typed) (suffix : Expr) : Typed := t.binary .concat .string suffix

/-- The number of characters. -/
def length (t : Typed) : Typed := t.unary .length .numeric

/-- The text in lower case. -/
def toLower (t : Typed) : Typed := t.unary .toLower .string

/-- The text in upper case. -/
def toUpper (t : Typed) : Typed := t.unary .toUpper .string

/-- The text without blanks at its ends. -/
def trim (t : Typed) : Typed := t.unary .trim .string

/-- Whether a text or a list is empty. -/
def isEmpty (t : Typed) : Typed := t.unary .isEmpty .boolean

/-! ## Lists -/

/-- The number of items. -/
def count (t : Typed) : Typed := t.unary .count .numeric

/-- The sum of the items, for aggregations. -/
def sum (t : Typed) : Typed := t.unary .sum .numeric

/-- The average of the items, for aggregations. -/
def average (t : Typed) : Typed := t.unary .average .numeric

/-- The least item, for aggregations. -/
def min (t : Typed) : Typed := t.unary .min .comparable

/-- The greatest item, for aggregations. -/
def max (t : Typed) : Typed := t.unary .max .comparable

end Typed

end LiveRecords

import LiveRecords.Document.Value

/-
  Declared types of values.

  An entity type is referred to by name and by its place in a catalogue of types,
  so types may refer to each other in cycles. Two references are the same type
  exactly when their names agree.
-/

namespace LiveRecords

/-- A reference to an entity type: its name, and its place in the catalogue. -/
structure EntityRef where
  name : String
  place : Nat
  deriving DecidableEq, Repr, Inhabited

/-- The declared type of a property, an argument or a result. -/
inductive ValueType where
  | bool
  | int
  | float
  | string
  | list (item : ValueType)
  | entity (ref : EntityRef)
  | any
  deriving DecidableEq, Repr, Inhabited

/-- Which operators apply to an expression. -/
inductive Capability where
  | object | boolean | numeric | string | comparable | collection
  deriving DecidableEq, Repr, Inhabited

namespace ValueType

/-- Whether two types are the same, entity types by name. -/
def same : ValueType → ValueType → Bool
  | .bool, .bool | .int, .int | .float, .float | .string, .string | .any, .any => true
  | .list a, .list b => same a b
  | .entity a, .entity b => a.name == b.name
  | _, _ => false

/-- The type that a value shows; a list shows that of its first item. -/
def infer : Value → ValueType
  | .bool _ => .bool
  | .int _ => .int
  | .float _ => .float
  | .text _ => .string
  | .list [] => .list .any
  | .list (v :: _) => .list (infer v)
  | .null | .object _ => .any

/-- Whether values of the type are numbers. -/
def isNumeric : ValueType → Bool
  | .int | .float => true
  | _ => false

/-- The entity type that the type refers to. -/
def entity? : ValueType → Option EntityRef
  | .entity ref => some ref
  | _ => none

/-- Whether a stored column of type `a` can take values of type `b`: the same type,
any type at all, or floating numbers in place of integers. -/
def canWidenTo (a b : ValueType) : Bool :=
  a.same b || b.same .any || (a.same .int && b.same .float)

/-- The text of a type. -/
def display : ValueType → String
  | .bool => "bool"
  | .int => "int"
  | .float => "float"
  | .string => "string"
  | .list item => "array<" ++ item.display ++ ">"
  | .entity ref => ref.name
  | .any => "any"

end ValueType

namespace Capability

/-- The capabilities with their names. -/
def named : List (Capability × String) :=
  [(.object, "Object"), (.boolean, "Boolean"), (.numeric, "Numeric"), (.string, "String"),
   (.comparable, "Comparable"), (.collection, "Collection")]

/-- The name of a capability. -/
def name (c : Capability) : String := (named.lookup c).getD ""

/-- The capability with a name. -/
def ofName? (name : String) : Option Capability :=
  (named.find? fun (_, n) => n == name).map (·.1)

/-- Whether an expression with capability `c` may stand where `required` is asked
for. Everything is an object; numbers and strings are comparable. -/
def satisfies (c required : Capability) : Bool :=
  c == required || required == .object ||
    (required == .comparable && (c == .numeric || c == .string))

/-- The capability of values of a type. -/
def ofType : ValueType → Capability
  | .bool => .boolean
  | .int | .float => .numeric
  | .string => .string
  | .list _ => .collection
  | .entity _ | .any => .object

/-- The capability that a constant has by its value. -/
def ofValue : Value → Capability
  | .bool _ => .boolean
  | .int _ | .float _ => .numeric
  | .text _ => .string
  | .list _ => .collection
  | .null | .object _ => .object

end Capability

end LiveRecords

/-
  Kinds of expression nodes and the shape that each kind belongs to.
-/

namespace LiveRecords

/-- What a node of an expression does. -/
inductive Kind where
  | argument | constant | property | composition
  | asString | asComparable | asBoolean | asNumeric
  | add | sub | mul | div | negate
  | and | or | not
  | equals | greaterThan | lessThan
  | isNull | isEmpty
  | contains | startsWith | endsWith | matches
  | length | concat | toLower | toUpper | trim
  | count | average | min | max | sum
  | searchText | valueIn
  deriving DecidableEq, Repr

/-- The shape of a node: a leaf, an access or an operation. -/
inductive Shape where
  | argument | constant | property | unary | binary | composition
  deriving DecidableEq, Repr

namespace Kind

/-- All kinds with the names that expressions show them by. -/
def named : List (Kind × String) :=
  [(.argument, "Argument"), (.constant, "Constant"), (.property, "Property"),
   (.composition, "Composition"), (.asString, "AsString"), (.asComparable, "AsComparable"),
   (.asBoolean, "AsBoolean"), (.asNumeric, "AsNumeric"), (.add, "Add"), (.sub, "Sub"),
   (.mul, "Mul"), (.div, "Div"), (.negate, "Negate"), (.and, "And"), (.or, "Or"),
   (.not, "Not"), (.equals, "Equals"), (.greaterThan, "GreaterThan"),
   (.lessThan, "LessThan"), (.isNull, "IsNull"), (.isEmpty, "IsEmpty"),
   (.contains, "Contains"), (.startsWith, "StartsWith"), (.endsWith, "EndsWith"),
   (.matches, "Matches"), (.length, "Length"), (.concat, "Concat"), (.toLower, "ToLower"),
   (.toUpper, "ToUpper"), (.trim, "Trim"), (.count, "Count"), (.average, "Average"),
   (.min, "Min"), (.max, "Max"), (.sum, "Sum"), (.searchText, "SearchText"),
   (.valueIn, "ValueIn")]

/-- The name of a kind. -/
def name (k : Kind) : String := (named.lookup k).getD ""

/-- The kind with a name. -/
def ofName? (name : String) : Option Kind := (named.find? fun (_, n) => n == name).map (·.1)

/-- The shape that nodes of a kind should have. -/
def shape : Kind → Shape
  | .argument => .argument
  | .constant => .constant
  | .property => .property
  | .composition => .composition
  | .asString | .asComparable | .asBoolean | .asNumeric | .negate | .not | .isNull | .isEmpty
  | .length | .toLower | .toUpper | .trim | .count | .average | .min | .max | .sum => .unary
  | .add | .sub | .mul | .div | .and | .or | .equals | .greaterThan | .lessThan | .contains
  | .startsWith | .endsWith | .matches | .concat | .searchText | .valueIn => .binary

/-- The kinds that only an aggregation over many entities can carry out. -/
def isAggregate : Kind → Bool
  | .average | .min | .max | .sum => true
  | _ => false

end Kind

end LiveRecords

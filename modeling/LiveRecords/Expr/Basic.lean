import LiveRecords.Entity.Catalog

/-
  Expressions over an entity: property accesses, constants and operations.

  Nothing stops a unary or binary node from carrying a kind of another shape;
  such a tree has a type and a text, but it does not compile.
-/

namespace LiveRecords

/-- An expression. A composition evaluates `inner` on the value of `source`. -/
inductive Expr where
  | argument (type : ValueType)
  | constant (capability : Capability) (value : Value)
  | property (target : Expr) (property : Property)
  | composition (source inner : Expr)
  | unary (kind : Kind) (capability : Capability) (operand : Expr)
  | binary (kind : Kind) (capability : Capability) (left right : Expr)

namespace Expr

instance : Inhabited Expr := ⟨.argument .any⟩

/-- A constant with the capability that its value has by itself. -/
def const (value : Value) : Expr := .constant (.ofValue value) value

/-- The kind of the root node. -/
def kind : Expr → Kind
  | .argument _ => .argument
  | .constant _ _ => .constant
  | .property _ _ => .property
  | .composition _ _ => .composition
  | .unary kind _ _ => kind
  | .binary kind _ _ _ => kind

/-- The operators that apply to the expression. -/
def capability : Expr → Capability
  | .argument type => .ofType type
  | .constant capability _ => capability
  | .property _ p => .ofType p.type
  | .composition _ inner => inner.capability
  | .unary _ capability _ => capability
  | .binary _ capability _ _ => capability

/-- The type of items of a list type. -/
def itemType : ValueType → ValueType
  | .list item => item
  | _ => .any

/-- The type of the values that the expression has. -/
def objectType : Expr → ValueType
  | .argument type => type
  | .constant _ value => .infer value
  | .property _ p => p.type
  | .composition _ inner => inner.objectType
  | .unary kind _ operand =>
    match kind with
    | .isNull | .isEmpty | .not | .asBoolean => .bool
    | .length | .count => .int
    | .asString | .toLower | .toUpper | .trim => .string
    | .average => .float
    | .sum | .min | .max => itemType operand.objectType
    | .asNumeric => if operand.objectType.isNumeric then operand.objectType else .float
    | _ => operand.objectType
  | .binary kind _ left _ =>
    match kind with
    | .add | .sub | .mul | .div => left.objectType
    | .concat => .string
    | _ => .bool

/-- The type of the first argument in the expression, the inner expressions of
compositions left aside. -/
def argumentType? : Expr → Option ValueType
  | .argument type => some type
  | .constant _ _ => none
  | .property target _ => target.argumentType?
  | .composition source _ => source.argumentType?
  | .unary _ _ operand => operand.argumentType?
  | .binary _ _ left right => left.argumentType?.or right.argumentType?

/-- The text of a constant: strings as quoted text, other values as documents. -/
def displayValue : Value → String
  | .text s => Quoted.display s
  | v => v.render

/-- The text of an expression; the argument is `$`. -/
def display : Expr → String
  | .argument _ => "$"
  | .constant _ value => displayValue value
  | .property target p => target.display ++ "." ++ p.name
  | .composition source inner => source.display ++ " |> " ++ inner.display
  | .unary kind _ operand => kind.name ++ "(" ++ operand.display ++ ")"
  | .binary kind _ left right =>
    kind.name ++ "(" ++ left.display ++ ", " ++ right.display ++ ")"

/-- Whether two expressions are the same tree: the same nodes over the same types,
properties and constants. -/
def same : Expr → Expr → Bool
  | .argument a, .argument b => a.same b
  | .constant c a, .constant d b => c == d && a.same b
  | .property s p, .property t q => s.same t && p.same q
  | .composition a b, .composition c d => a.same c && b.same d
  | .unary k c a, .unary l d b => k == l && c == d && a.same b
  | .binary k c a b, .binary l d e f => k == l && c == d && a.same e && b.same f
  | _, _ => false

/-! ## Hashing -/

/-- What a hash of an expression is computed from. -/
inductive Print where
  | name (s : String)
  | type (t : ValueType)
  | kind (k : Kind)
  | capability (c : Capability)
  | shape (s : Shape)

/-- Whether two parts of a print are the same. -/
def Print.same : Print → Print → Bool
  | .name a, .name b => a == b
  | .type a, .type b => a.same b
  | .kind a, .kind b => a == b
  | .capability a, .capability b => a == b
  | .shape a, .shape b => a == b
  | _, _ => false

/-- The sequence of parts that a hash of the expression is computed from: kind,
capability and shape of each node with what it carries. A constant counts by its
compact text, a property by its name and type. -/
def print : Expr → List Print
  | .argument type => [.kind .argument, .capability (.ofType type), .shape .argument, .type type]
  | .constant c value => [.kind .constant, .capability c, .shape .constant, .name value.render]
  | .property target p =>
    [.kind .property, .capability (.ofType p.type), .shape .property] ++ target.print ++
      [.name p.name, .type p.type]
  | .composition source inner =>
    [.kind .composition, .capability inner.capability, .shape .composition] ++ source.print ++
      inner.print
  | .unary kind c operand => [.kind kind, .capability c, .shape .unary] ++ operand.print
  | .binary kind c left right =>
    [.kind kind, .capability c, .shape .binary] ++ left.print ++ right.print

/-- Whether two prints are the same part by part. -/
def samePrint (a b : List Print) : Bool :=
  a.length == b.length && (a.zip b).all fun (x, y) => x.same y

/-- The members of a hash set of the expressions: an expression is left out if one
with the same print and tree is there already. -/
def distinct (exprs : List Expr) : List Expr :=
  exprs.foldl
    (fun kept e =>
      if kept.any fun k => samePrint k.print e.print && k.same e then kept else kept ++ [e]) []

end Expr

end LiveRecords

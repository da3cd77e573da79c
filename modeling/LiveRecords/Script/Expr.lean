import LiveRecords.Expr.Typed
import LiveRecords.Query.Aggregate
import LiveRecords.Script.Types

/-
  Expressions in scripts: lists of a word and its arguments.

  Properties are looked up in the type of the expression that they are taken of.
-/

namespace LiveRecords.Script.Names

/-- The property of a name in an entity type. -/
def propertyIn (names : Names) (t : ValueType) (name : String) : Reading Property :=
  match t.entity? with
  | none => bad "no entity"
  | some ref =>
    match (names.catalog.resolve ref).property? name with
    | some p => .ok p
    | none => bad s!"no property {name}"

/-- An expression that nests at most so deep, over arguments of a type. -/
def exprWithin (names : Names) : Nat → ValueType → Value → Reading Typed
  | 0, _, _ => bad "expression expected"
  | fuel + 1, a, v => do
    let parts ← asList v
    let sub (v : Value) : Reading Typed := names.exprWithin fuel a v
    let node (v : Value) : Reading Expr := do return (← sub v).node
    let prop (t : Typed) (name : String) : Reading Typed := do
      return t.property (← names.propertyIn t.node.objectType name)
    match parts with
    | [.text "arg"] => return .ofExpr (.argument a)
    | [.text "arg", t] => return .ofExpr (.argument (← names.type t))
    | [.text "const", v] => return .ofExpr (.const v)
    | [.text "constant", c, v] => return .constant (← capability c) v
    | [.text "prop", e, .text name] => prop (← sub e) name
    | [.text "prop_meta", e, p] => return (← sub e).property (← names.property p)
    | [.text "path", .text path] => (path.splitOn ".").foldlM prop (.ofExpr (.argument a))
    | [.text "compose", e, f] =>
      let source ← sub e
      return source.compose (← names.exprWithin fuel source.node.objectType f)
    | [.text "unary", k, c, e] => return (← sub e).unary (← kind k) (← capability c)
    | [.text "binary", k, c, e, f] =>
      return (← sub e).binary (← kind k) (← capability c) (← node f)
    | .text method :: receiver :: args =>
      let t ← sub receiver
      match method, args with
      | "eq", [v] => return t.eq v
      | "not_eq", [v] => return t.notEq v
      | "eq_expr", [e] => return t.eqExpr (← node e)
      | "not_eq_expr", [e] => return t.notEqExpr (← node e)
      | "is_null", [] => return t.isNull
      | "is_not_null", [] => return t.isNotNull
      | "is_in", [v] => return t.isIn (← asList v)
      | "is_in_expr", [e] => return t.isInExpr (← node e)
      | "search_text", [s] => return t.searchText (← asText s)
      | "as_comparable", [] => return t.asComparable
      | "as_string", [] => return t.asString
      | "as_boolean", [] => return t.asBoolean
      | "as_numeric", [] => return t.asNumeric
      | "greater_than", [v] => return t.greaterThan v
      | "greater_than_expr", [e] => return t.greaterThanExpr (← node e)
      | "less_than", [v] => return t.lessThan v
      | "less_than_expr", [e] => return t.lessThanExpr (← node e)
      | "greater_or_equal", [v] => return t.greaterOrEqual v
      | "greater_or_equal_expr", [e] => return t.greaterOrEqualExpr (← node e)
      | "less_or_equal", [v] => return t.lessOrEqual v
      | "less_or_equal_expr", [e] => return t.lessOrEqualExpr (← node e)
      | "between", [low, high] => return t.between low high
      | "between_expr", [low, high] => return t.betweenExpr (← node low) (← node high)
      | "add", [v] => return t.arithmetic .add (.const v)
      | "sub", [v] => return t.arithmetic .sub (.const v)
      | "mul", [v] => return t.arithmetic .mul (.const v)
      | "div", [v] => return t.arithmetic .div (.const v)
      | "add_expr", [e] => return t.arithmetic .add (← node e)
      | "sub_expr", [e] => return t.arithmetic .sub (← node e)
      | "mul_expr", [e] => return t.arithmetic .mul (← node e)
      | "div_expr", [e] => return t.arithmetic .div (← node e)
      | "negate", [] => return t.negate
      | "and", [e] => return t.and (← sub e)
      | "or", [e] => return t.or (← sub e)
      | "not", [] => return t.not
      | "contains", [s] => return t.textTest .contains (.const (.text (← asText s)))
      | "contains_expr", [e] => return t.textTest .contains (← node e)
      | "starts_with", [s] => return t.textTest .startsWith (.const (.text (← asText s)))
      | "starts_with_expr", [e] => return t.textTest .startsWith (← node e)
      | "ends_with", [s] => return t.textTest .endsWith (.const (.text (← asText s)))
      | "ends_with_expr", [e] => return t.textTest .endsWith (← node e)
      | "matches", [s] => return t.textTest .matches (.const (.text (← asText s)))
      | "matches_expr", [e] => return t.textTest .matches (← node e)
      | "concat", [s] => return t.concat (.const (.text (← asText s)))
      | "concat_expr", [e] => return t.concat (← node e)
      | "length", [] => return t.length
      | "to_lower", [] => return t.toLower
      | "to_upper", [] => return t.toUpper
      | "trim", [] => return t.trim
      | "is_empty", [] => return t.isEmpty
      | "count", [] => return t.count
      | "sum", [] => return t.sum
      | "average", [] => return t.average
      | "min", [] => return t.min
      | "max", [] => return t.max
      | _, _ => bad s!"unknown method {method}"
    | _ => bad "expression expected"

/-- An expression over arguments of a type, with its capability. -/
def typed (names : Names) (a : ValueType) (v : Value) : Reading Typed :=
  names.exprWithin (v.depth + 1) a v

/-- An expression over arguments of a type. -/
def expr (names : Names) (a : ValueType) (v : Value) : Reading Expr := do
  return (← names.typed a v).node

/-- An aggregation over arguments of a type. -/
def aggregate (names : Names) (a : ValueType) (v : Value) : Reading Aggregate := do
  match v with
  | .list [.text "count"] => return .count
  | .list [.text "sum", e] => return .sum (← names.expr a e)
  | .list [.text "average", e] => return .average (← names.expr a e)
  | .list [.text "min", e] => return .min (← names.expr a e)
  | .list [.text "max", e] => return .max (← names.expr a e)
  | _ => bad "aggregation expected"

end LiveRecords.Script.Names

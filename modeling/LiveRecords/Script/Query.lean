import LiveRecords.Query.Basic
import LiveRecords.Script.Expr

/-
  Queries in scripts: the calls that build them, one after another.
-/

namespace LiveRecords.Script.Names

/-- A property path of a type. -/
def path (names : Names) (t : EntityType) (v : Value) : Reading PropertyPath := do
  lift (PropertyPath.ofText names.catalog t (← asText v))

/-- A query after one more call. -/
def call (names : Names) (q : Query) (v : Value) : Reading Query := do
  let expr (e : Value) : Reading Expr := names.expr q.entity.asType e
  match ← asList v with
  | [.text "predicate", e] => return { q with predicate := some (← expr e) }
  | [.text "filter", e] => return q.filter (← expr e)
  | [.text "clear_predicate"] => return { q with predicate := none }
  | [.text "mapping", e] => return { q with mapping := some (← expr e) }
  | [.text "clear_mapping"] => return { q with mapping := none }
  | [.text "sort", e, a] => return q.sort (← expr e) (← asBool a)
  | [.text "skip", n] => return { q with skip := some (← asNat n) }
  | [.text "limit", n] => return { q with limit := some (← asNat n) }
  | [.text "clear_paging"] => return q.clearPaging
  | [.text "property", p] => return q.addProperty (← names.path q.entity p)
  | [.text "property", p, id] => return q.addProperty (← names.path (← names.entity id) p)
  | [.text "properties", ps] =>
    return q.addProperties (← (← asList ps).mapM (names.path q.entity))
  | [.text "property_expr", e] => return q.addProperty (← lift (PropertyPath.ofExpr (← expr e)))
  | [.text "clear_properties"] => return { q with properties := [] }
  | _ => bad "query call expected"

/-- A query after some calls. -/
def calls (names : Names) (q : Query) (vs : List Value) : Reading Query := vs.foldlM names.call q

end LiveRecords.Script.Names

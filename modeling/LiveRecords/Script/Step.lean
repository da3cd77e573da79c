import LiveRecords.Sample.Sets
import LiveRecords.Script.Layer
import LiveRecords.Script.Query
import LiveRecords.Session.Basic

/-
  Sessions in scripts.

  A step whose query or expression cannot be put together is a step that fails, and
  not a script that cannot be read. Typed steps are about the entity sets of the shop.
-/

namespace LiveRecords.Script

/-- The name under which a step holds something open. -/
def holdName (step : Value) : Reading String :=
  match field? step "as" with
  | some v => asText v
  | none => return ""

/-- The entity set of a name. -/
def entitySet (name : String) : Reading EntitySet :=
  match Shop.set? name with
  | some set => .ok set
  | none => bad "entity set expected"

/-- The form of a name, and the entity type that it is the form of. -/
def form (name : String) : Reading (Form × Option EntityType) :=
  match name with
  | "string" => return (.text, none)
  | "int" => return (.int, none)
  | "float" => return (.float, none)
  | "bool" => return (.bool, none)
  | "value" => return (.any, none)
  | name => do
    let set ← entitySet name
    return (set.document, some set.type)

namespace Names

/-- A typed query after one more call. -/
def entityCall (names : Names) (q : EntityQuery) (v : Value) : Reading EntityQuery := do
  let expr (e : Value) : Reading Expr := names.expr q.query.entity.asType e
  match ← asList v with
  | [.text "filter", e] => return q.filter (← expr e)
  | [.text "order_by", e] => return q.orderBy (← expr e) true
  | [.text "order_by_descending", e] => return q.orderBy (← expr e) false
  | [.text "skip", n] => return q.skip (← asNat n)
  | [.text "limit", n] => return q.limit (← asNat n)
  | [.text "include", e] =>
    match q.result with
    | some t => lift (q.includePath t.name (← names.expr t.asType e))
    | none => bad "entities expected"
  | [.text "select", e, .text name] =>
    let (form, result) ← form name
    return q.select (← expr e) form result
  | _ => bad "typed query call expected"

/-- What a typed query is run for. -/
def fetch (names : Names) (set : EntitySet) (step : Value) : Reading Fetch := do
  match ← asText (← field step "get") with
  | "list" => return .list
  | "first" => return .first
  | "each" => return .each
  | "count" => return .count
  | "info" => return .text
  | "live" => return .live (← holdName step)
  | "aggregate" =>
    let a ← names.aggregate set.type.asType (← field step "agg")
    return .aggregate a (match ← holdName step with
      | "int" => .int
      | "float" => .float
      | "string" => .text
      | _ => .any)
  | _ => bad "unknown way to get results"

/-- A step on an entity set. -/
def typedAction (names : Names) (set : EntitySet) (step : Value) : Reading Action := do
  match ← asText (← field step "do") with
  | "insert" => return .insertEntity set (← field step "doc")
  | "upsert" => return .upsertEntity set (← field step "doc")
  | "update" => return .updateEntity set (← field step "doc") (← natField? step "version")
  | "delete" => return .deleteEntity set (← field step "key")
  | "find" => return .findEntity set (← field step "key")
  | "query" =>
    let q ← match field? step "filter" with
      | some e => do pure (set.all.filter (← names.expr set.type.asType e))
      | none => pure set.all
    let q ← (← listField step "q").foldlM names.entityCall q
    return .fetch q (← names.fetch set step)
  | op => bad s!"unknown typed step {op}"

/-- A step on documents. -/
def untypedAction (names : Names) (step : Value) : Reading Action := do
  let type : Reading EntityType := do names.entity (← field step "type")
  let query : Reading Query := do names.calls { entity := ← type } (← listField step "q")
  match ← asText (← field step "do") with
  | "insert" => return .request (.insert (← type) (← field step "doc"))
  | "upsert" => return .request (.upsert (← type) (← field step "doc"))
  | "update" =>
    return .request (.update (← type) (← field step "doc") (← natField? step "version"))
  | "delete" => return .request (.delete (← type) (← field step "key"))
  | "find" => return .request (.find (← type) (← field step "key"))
  | "query" => return .request (.query (← query))
  | "snapshot" => return .request (.snapshot (← query))
  | "aggregate" =>
    let q ← query
    return .request (.aggregate q (← names.aggregate q.entity.asType (← field step "agg")))
  | "drop_all" => return .request .dropAll
  | "live" => return .openLive (← holdName step) (← query)
  | "open" => return .openRows (← holdName step) (← query)
  | "read" => return .readRows (← holdName step) (← asNat (← field step "n"))
  | "close" => return .close (← holdName step)
  | "advance" => return .letPass (← asNat (← field step "ms"))
  | "schema_fail" => return .refuseSchema (← asNat (← field step "n"))
  | "statements" => return .statements
  | "info" => return .info
  | op => bad s!"unknown step {op}"

/-- A step; one that cannot be put together fails with the reason. -/
def action (names : Names) (step : Value) : Reading Action :=
  let action :=
    match field? step "typed" with
    | some (.text name) => do names.typedAction (← entitySet name) step
    | _ => names.untypedAction step
  match action with
  | .error (.failure f) => .ok (.fail f)
  | result => result

/-- A call. -/
def attempt (names : Names) (step : Value) : Reading Attempt := do
  match ← asText (← field step "do") with
  | "abandon" =>
    return ⟨← names.action (← field step "step"), some (← asNat (← field step "after"))⟩
  | _ => return ⟨← names.action step, none⟩

/-- A step of a session. -/
def step (names : Names) (v : Value) : Reading Step := do
  match ← asText (← field v "do") with
  | "concurrent" => return .together (← (← listField v "steps").mapM names.attempt)
  | _ => return .single (← names.attempt v)

end Names

end LiveRecords.Script

import LiveRecords.Pipeline.Assembly
import LiveRecords.Script.Types

/-
  Failures and pipelines in scripts.

  A chain of layers is given from the outermost on. Every scheduling layer has a gate
  of its own, and every failing one a counter.
-/

namespace LiveRecords.Script

/-- A failure: the word for its cause, and what the cause tells. -/
def failure (v : Value) : Reading Failure := do
  match ← asList v with
  | [.text "unsupported", k] => return .unsupported (← kind k) false
  | [.text "aggregate_only", k] => return .unsupported (← kind k) true
  | [.text "schema_conflict", .text t, .text p, .text a, .text b] =>
    return .schemaConflict t p a b
  | [.text "reference_cycle", .text what] => return .referenceCycle what
  | [.text "backend_unavailable", .text what] => return .unavailable what
  | [.text "invalid_query", .text what] => return .invalidQuery what
  | [.text "invalid_entity", .text what] => return .invalidEntity what
  | [.text "configuration", .text what] => return .configuration what
  | [.text "feed_lagged", .text t, n] => return .feedLagged t (← asNat n)
  | [.text "timeout", .text op, n] => return .timeout op ⟨← asNat n⟩
  | [.text "concurrent_modification", .text t, .text k, e, a] =>
    return .concurrentModification t k (← asNat e) (← asNat a)
  | [.text "duplicate_key", .text t, .text k] => return .duplicateKey t k
  | [.text "unique_constraint", .text t, .text p] => return .uniqueConstraint t p
  | [.text "not_found", .text t, .text k] => return .notFound t k
  | _ => bad "error expected"

/-- A chain of layers, with its gates and the number of its counters. -/
structure Chain where
  layers : List Layer := []
  gates : List Gate := []
  counters : Nat := 0

namespace Chain

/-- The chain with one more layer below the others. -/
def add (chain : Chain) (l : Layer) : Chain := { chain with layers := chain.layers ++ [l] }

/-- The chain with a scheduling layer. -/
def addScheduling (chain : Chain) (v : Value) : Reading Chain := do
  let limit := (← natField? v "max").getD 100
  let timeout ← natField? v "timeout"
  let buffer := (← natField? v "buffer").getD 64
  return { chain.add (.scheduling chain.gates.length timeout buffer) with
    gates := chain.gates ++ [.ofLimit limit] }

/-- The chain with a failing layer. -/
def addFailing (chain : Chain) (v : Value) : Reading Chain := do
  let name ← asText (← field v "on")
  let op ← match Operation.ofName? name with
    | some op => pure op
    | none => bad "operation expected"
  let cause ← match field? v "error" with
    | some e => failure e
    | none => pure (.unavailable s!"injected {name}")
  let after := (← natField? v "after").getD 0
  let breaks ← boolField v "panic" false
  return { chain.add (.failing chain.counters op after cause breaks) with
    counters := chain.counters + 1 }

/-- The chain with one more written layer. -/
def addWritten (chain : Chain) (v : Value) : Reading Chain := do
  let name ← match v with
    | .text name => pure name
    | v => do asText (← field v "d")
  match name with
  | "live" => return chain.add (.live ((← natField? v "interval").getD 1000))
  | "live_new" => return chain.add (.live 1000)
  | "mandatory" => return chain.add .mandatory
  | "refs" => return chain.add .references
  | "sched" => chain.addScheduling v
  | "log" => return chain.add .log
  | "fail" => chain.addFailing v
  | "aggregate_is" => return chain.add (.aggregateIs (← field v "value"))
  | "plain" => return chain.add .plain
  | name => bad s!"unknown layer {name}"

/-- A written chain. -/
def read (vs : List Value) : Reading Chain := vs.foldlM addWritten {}

end Chain

/-- The world over a written store, with what a chain needs. -/
def world (catalog : Catalog) (store : Value) (chain : Chain) : Reading World := do
  let schemaUse ← match field? store "schema" with
    | some (.text "memory") => pure SchemaUse.direct
    | some (.text "cache") => pure .cached
    | some .null | none => pure .unused
    | _ => bad "schema expected"
  return { World.withCapacity catalog ((← natField? store "capacity").getD 1024) with
    offersFeed := ← boolField store "feed" true
    latency := ← natField? store "latency"
    schemaUse
    gates := chain.gates
    counters := List.replicate chain.counters 0 }

end LiveRecords.Script

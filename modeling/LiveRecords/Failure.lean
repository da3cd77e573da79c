import LiveRecords.Duration
import LiveRecords.Expr.Kind

/-
  Failures: what can go wrong, and the words it is reported in.

  A failure is a cause, wrapped in any number of contexts that say what was being
  done. Wrapping never changes the root cause.
-/

namespace LiveRecords

/-- A failure of an operation. -/
inductive Failure where
  | unsupported (kind : Kind) (aggregateOnly : Bool)
  | schemaConflict (table property stored declared : String)
  | referenceCycle (what : String)
  | unavailable (what : String)
  | feedLagged (table : String) (missed : Nat)
  | timeout (operation : String) (after : Duration)
  | concurrentModification (table key : String) (expected actual : Nat)
  | duplicateKey (table key : String)
  | uniqueConstraint (table property : String)
  | notFound (table key : String)
  | invalidQuery (what : String)
  | invalidEntity (what : String)
  | configuration (what : String)
  | serialization
  | inContext (context : String) (cause : Failure)
  deriving DecidableEq, Repr

/-- The outcome of an operation that may fail. -/
abbrev Outcome := Except Failure

namespace Failure

/-- The text of a failure: its contexts from the outermost on, then the cause. -/
def message : Failure → String
  | .unsupported kind aggregateOnly =>
    s!"Unsupported expression: {kind.name}" ++
      (if aggregateOnly then " (only valid inside an aggregation)" else "")
  | .schemaConflict table property stored declared =>
    s!"Schema conflict on {table}.{property}: stored as {stored}, declared as {declared}"
  | .referenceCycle what => s!"Unresolvable reference cycle: {what}"
  | .unavailable what => s!"Backend unavailable: {what}"
  | .feedLagged table missed => s!"Change feed on {table} lagged, {missed} event(s) missed"
  | .timeout operation after => s!"Operation '{operation}' timed out after {after.render}"
  | .concurrentModification table key expected actual =>
    s!"Concurrent modification of {table}[{key}]: expected version {expected}, found {actual}"
  | .duplicateKey table key => s!"Duplicate key {key} in {table}"
  | .uniqueConstraint table property => s!"Unique constraint violated on {table}.{property}"
  | .notFound table key => s!"Entity {key} not found in {table}"
  | .invalidQuery what => s!"Invalid query: {what}"
  | .invalidEntity what => s!"Invalid entity: {what}"
  | .configuration what => s!"Configuration error: {what}"
  | .serialization => "Serialization error"
  | .inContext context cause => s!"{context}: {cause.message}"

/-- The cause below all contexts. -/
def rootCause : Failure → Failure
  | .inContext _ cause => cause.rootCause
  | cause => cause

end Failure

theorem Outcome.bind_ok {α β : Type} {x : Outcome α} {f : α → Outcome β} {b : β}
    (h : x >>= f = .ok b) : ∃ a, x = .ok a ∧ f a = .ok b := by
  cases x with
  | error e => cases h
  | ok a => exact ⟨a, rfl, h⟩

/-- Wraps the failure of an outcome, if it is one. -/
def Outcome.inContext {α : Type} (context : String) : Outcome α → Outcome α
  | .ok a => .ok a
  | .error e => .error (.inContext context e)

end LiveRecords

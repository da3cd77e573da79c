import LiveRecords.Pipeline.Config
import LiveRecords.Pipeline.World

/-
  Assembling a pipeline from a configuration.

  The layers stand in this order, those that are switched off left out: scheduling,
  live queries, mandatory properties, references; then any further ones, and the
  store. Scheduling needs something to run the requests on.
-/

namespace LiveRecords

namespace Config

/-- Refuses a configuration that cannot be used where a pipeline is to be built. -/
def check (c : Config) (hasRuntime : Bool) : Outcome Unit := do
  c.validate
  if c.scheduling && !hasRuntime then
    throw (.configuration "scheduling requires a tokio runtime")

/-- The layers that a configuration asks for; scheduling uses the gate. -/
def layers (c : Config) (gate : Nat) : List Layer :=
  (if c.scheduling then [.scheduling gate c.admissionTimeoutMs c.streamBuffer] else []) ++
    (if c.liveQueries then [.live c.livePollIntervalMs] else []) ++
    (if c.mandatoryProperties then [.mandatory] else []) ++
    (if c.updateReferencesFirst then [.references] else [])

/-- The gate that a configuration asks for. -/
def gate (c : Config) : Gate := .ofLimit c.maxConcurrentRequests

end Config

/-- A store that nothing was written to, with a feed of a capacity. -/
def World.withCapacity (catalog : Catalog) (capacity : Nat) : World :=
  { catalog, feed := .ofCapacity capacity }

/-- The world with a gate for the scheduling of a configuration, and the layers of the
pipeline that the configuration asks for above further ones. -/
def World.assemble (w : World) (c : Config) (extra : List Layer) (hasRuntime : Bool) :
    Outcome (List Layer × World) := do
  c.check hasRuntime
  return (c.layers w.gates.length ++ extra, { w with gates := w.gates ++ [c.gate] })

end LiveRecords

import LiveRecords.Pipeline.LiveQuery
import LiveRecords.Pipeline.References
import LiveRecords.Pipeline.Scheduling

/-
  The layers of a pipeline as handlers of requests.

  Every layer passes on what it has nothing to add to.
-/

namespace LiveRecords

/-- The query with all that its projection must contain; one that asks for whole
entities stays as it is. -/
def Query.withMandatory (c : Catalog) (q : Query) : Query :=
  if q.properties.isEmpty then q
  else
    { q with properties := [] }.addProperties
      (Expansion.expand c q.properties (q.resultType? c))

namespace Handler

/-- Turns the feed into live queries. -/
def live (interval : Nat) (below : List Layer) (next : Handler) : Handler
  | .live q => LiveQuery.openChanges interval below next q
  | r => next r

/-- Widens projections. -/
def mandatory (next : Handler) : Handler
  | .query q => do next (.query (q.withMandatory (← Work.ofJob (.read World.catalog))))
  | .snapshot q => do next (.snapshot (q.withMandatory (← Work.ofJob (.read World.catalog))))
  | .live q => do next (.live (q.withMandatory (← Work.ofJob (.read World.catalog))))
  | r => next r

/-- What reference-first writes need of the layers below. -/
def referenceStore (next : Handler) : ReferenceStore (Job World) where
  find type key := next (.find type key)
  insert type entity := next (.insert type entity)
  update type entity expected := next (.update type entity expected)
  upsert type entity := next (.upsert type entity)

/-- Writes a document reference-first. -/
def writeReferences (next : Handler) (type : EntityType) (entity : Value) (mode : WriteMode) :
    Work Value := do
  let c ← Work.ofJob (.read World.catalog)
  References.write (referenceStore next) c type entity mode

/-- Writes referenced entities first. -/
def references (next : Handler) : Handler
  | .insert type entity =>
    (writeReferences next type entity .insert).inContext s!"insert {type.name}"
  | .update type entity expected =>
    (writeReferences next type entity (.update expected)).inContext s!"update {type.name}"
  | .upsert type entity =>
    (writeReferences next type entity .upsert).inContext s!"upsert {type.name}"
  | r => next r

/-- Records requests. -/
def log (next : Handler) : Handler := fun r => do
  Work.ofJob (.modify fun w => { w with log := w.log ++ [r] })
  next r

/-- Counts a request; says whether it may pass. -/
def countRequest (counter after : Nat) (w : World) : Bool × World :=
  let passed := w.counters.getD counter 0
  (passed < after, { w with counters := w.counters.set counter (passed + 1) })

/-- Lets `after` requests of an operation pass, then fails or breaks down. -/
def failing (counter : Nat) (op : Operation) (after : Nat) (failure : Failure) (breaks : Bool)
    (next : Handler) : Handler := fun r => do
  if r.operation = op then
    let passes ← Work.ofJob (.act (countRequest counter after))
    if passes then next r
    else if breaks then Work.ofJob .broken
    else throw failure
  else next r

/-- Answers aggregations with one value. -/
def aggregateIs (value : Value) (next : Handler) : Handler
  | .aggregate _ _ => return value
  | r => next r

/-- Finds and takes snapshots by queries. -/
def plain (next : Handler) : Handler
  | .find type key => findByQuery next type key
  | .snapshot q => snapshotByQuery next q
  | r => next r

end Handler

/-- A layer above others; `next` handles what it passes on to them. -/
def Layer.handle (below : List Layer) (next : Handler) : Layer → Handler
  | .live interval => .live interval below next
  | .mandatory => .mandatory next
  | .references => .references next
  | .scheduling gate timeout buffer => Scheduling.handle gate timeout buffer next
  | .log => .log next
  | .failing counter op after failure breaks => .failing counter op after failure breaks next
  | .aggregateIs value => .aggregateIs value next
  | .plain => .plain next

/-- The layers of a pipeline above the store. -/
def Handler.ofLayers : List Layer → Handler
  | [] => .ofStore
  | layer :: below => layer.handle below (ofLayers below)

end LiveRecords

import LiveRecords.Pipeline.Provision

/-
  The store at the bottom of a pipeline.

  A request is checked before anything else happens, then the store lets its latency
  pass and makes sure that the table is declared; after that it is carried out at
  once, so no other request comes between its parts.
-/

namespace LiveRecords.Backend

/-- Gets a table ready for a request. -/
def prepare (type : EntityType) : Work Unit := do
  Work.pause (← Work.ofJob (.read World.latency))
  let schemaUse ← Work.ofJob (.read World.schemaUse)
  (Provision.provide schemaUse type).inContext s!"ensuring schema for {type.name}"

/-- Checks a document and writes it. -/
def write (type : EntityType) (entity : Value) (change : Store → Outcome Store) :
    Work Value := do
  discard (type.requireKey entity : Outcome Value)
  prepare type
  Work.act fun w => do return (entity, { w with store := ← change w.store })

/-- Deletes by key. -/
def delete (type : EntityType) (key : Value) : Work Bool := do
  prepare type
  Work.ofJob (.act fun w =>
    let (deleted, store) := w.store.delete type key
    (deleted, { w with store }))

/-- Runs a query. -/
def query (q : Query) : Work Rows := do
  let run ← (q.prepare : Outcome Query.Compiled)
  prepare q.entity
  return .listed (← Work.ofJob (.read fun w => w.store.query q run))

/-- Reads a snapshot. -/
def snapshot (q : Query) : Work Snapshot := do
  let run ← (q.prepare : Outcome Query.Compiled)
  prepare q.entity
  Work.ofJob (.read fun w => w.store.snapshot q run)

/-- Opens the raw feed of a table. -/
def live (q : Query) : Work Changes := do
  if !(← Work.ofJob (.read World.offersFeed)) then
    throw (.configuration s!"change feed disabled for {q.entity.name}")
  (q.validate : Outcome Unit)
  prepare q.entity
  Work.ofJob (.act fun w =>
    let (id, feed) := w.feed.subscribe w.store.journal
    (.feed id q.entity.name, { w with feed }))

/-- Aggregates the entities that a query selects. -/
def aggregate (q : Query) (a : Aggregate) : Work Value := do
  let run ← (q.prepare : Outcome Query.Compiled)
  let operand ← (a.prepare : Outcome (Option (Value → Value)))
  prepare q.entity
  Work.ofJob (.read fun w => w.store.aggregate q run a operand)

/-- Removes all documents, and then all declarations. -/
def dropAll : Work Unit := do
  Work.ofJob (.modify fun w => { w with store := w.store.dropAll })
  Provision.clear (← Work.ofJob (.read World.schemaUse))

end LiveRecords.Backend

namespace LiveRecords

/-- Takes the next row of a stream, when it is there. -/
def Rows.next (rows : Rows) : Work (Option (Value × Rows)) := do
  Work.ofJob (.waitFor (World.rowReady rows) none (·.abandonRows rows))
  Work.ofJob (.act (World.takeRow rows))

/-- Takes as many rows of a stream as there are, and at most `count`. -/
def Rows.take (rows : Rows) : Nat → Work (List Value × Rows)
  | 0 => return ([], rows)
  | count + 1 => do
    match ← rows.next with
    | none => return ([], rows)
    | some (row, rest) =>
      let (more, rest) ← rest.take count
      return (row :: more, rest)

/-- All rows of a stream. -/
def Rows.all (rows : Rows) : Work (List Value) := do
  let count ← Work.ofJob (.read fun w => w.rowsLeft rows)
  return (← rows.take (count + 1)).1

/-- The first row of a stream; the rest is given up. -/
def Rows.first (rows : Rows) : Work (Option Value) := do
  let first ← rows.next
  Work.ofJob (.modify (·.abandonRows rows))
  return first.map (·.1)

namespace Handler

/-- Finds an entity by a query for its key. -/
def findByQuery (handle : Handler) (type : EntityType) (key : Value) :
    Work (Option Value) := do
  let q ← (Query.byKey type key : Outcome Query)
  (← handle (.query q)).first

/-- Reads a snapshot without versions, by a query. -/
def snapshotByQuery (handle : Handler) (q : Query) : Work Snapshot := do
  return ⟨← (← handle (.query q)).all, []⟩

/-- The store. -/
def ofStore : Handler
  | .insert type entity => Backend.write type entity fun s => s.insert type entity
  | .update type entity expected =>
    Backend.write type entity fun s => s.update type entity expected
  | .upsert type entity => Backend.write type entity fun s => s.upsert type entity
  | .delete type key => Backend.delete type key
  | .find type key => do
    let q ← (Query.byKey type key : Outcome Query)
    (← Backend.query q).first
  | .query q => Backend.query q
  | .snapshot q => Backend.snapshot q
  | .live q => Backend.live q
  | .aggregate q a => Backend.aggregate q a
  | .dropAll => Backend.dropAll

end Handler

end LiveRecords

import LiveRecords.Facade.EntityQuery
import LiveRecords.Session.Turns

/-
  The steps that a caller takes in a session, and their answers.

  A step is a request, a reading of a stream that is held open, a look at the state,
  or several steps at once. A step that could not be put together fails with the
  reason.
-/

namespace LiveRecords

/-- What a typed query is run for. -/
inductive Fetch where
  | list
  | first
  | each
  | count
  | aggregate (a : Aggregate) (form : Form)
  | text
  | live (name : String)

/-- What a caller does in one call. -/
inductive Action where
  | request (r : Request)
  | openRows (name : String) (q : Query)
  | openLive (name : String) (q : Query)
  | readRows (name : String) (count : Nat)
  | close (name : String)
  | letPass (milliseconds : Nat)
  | refuseSchema (count : Nat)
  | statements
  | info
  | insertEntity (set : EntitySet) (entity : Value)
  | updateEntity (set : EntitySet) (entity : Value) (expected : Option Nat)
  | upsertEntity (set : EntitySet) (entity : Value)
  | deleteEntity (set : EntitySet) (key : Value)
  | findEntity (set : EntitySet) (key : Value)
  | fetch (q : EntityQuery) (what : Fetch)
  | fail (f : Failure)

/-- A call, which is dropped if it takes longer than a time. -/
structure Attempt where
  action : Action
  dropAfter : Option Nat := none

/-- A step: a call, or several that start together. -/
inductive Step where
  | single (a : Attempt)
  | together (as : List Attempt)

/-- The state of a session as a caller sees it. -/
structure Info where
  offersFeed : Bool
  subscribers : Nat
  admitted : List Nat
  now : Nat

/-- The answer to a call. -/
inductive Answer where
  | nothing
  | document (v : Value)
  | flag (b : Bool)
  | found (v : Option Value)
  | rows (vs : List Value)
  | each (vs : List (Outcome Value))
  | stream (vs : List Value) (isEnd : Bool)
  | snapshot (s : Snapshot)
  | number (n : Nat)
  | text (s : String)
  | live
  | statements (runs : Nat) (all : List String)
  | info (i : Info)

namespace Action

variable (layers : List Layer)

/-- The handler of a pipeline. -/
abbrev handler : Handler := .ofLayers layers

/-- Carries out a request and reads its result to the end. -/
def ask (handle : Handler) (r : Request) : Work Answer :=
  match r with
  | .delete type key => do return .flag (← handle (.delete type key))
  | .find type key => do return .found (← handle (.find type key))
  | .query q => do return .rows (← (← handle (.query q)).all)
  | .snapshot q => do return .snapshot (← handle (.snapshot q))
  | .live q => do
    let changes ← handle (.live q)
    Work.ofJob (.modify (·.abandonChanges changes))
    return .nothing
  | .dropAll => do
    handle .dropAll
    return .nothing
  | .insert type entity => do return .document (← handle (.insert type entity))
  | .update type entity expected => do
    return .document (← handle (.update type entity expected))
  | .upsert type entity => do return .document (← handle (.upsert type entity))
  | .aggregate q a => do return .document (← handle (.aggregate q a))

/-- Reads the stream of rows that is held under a name. -/
def readHeld (name : String) (count : Nat) : Work Answer := do
  match ← Work.ofJob (.read fun w => w.streams.get? name) with
  | none => return .stream [] false
  | some rows =>
    let (taken, rest) ← rows.take count
    Work.ofJob (.modify fun w => { w with streams := w.streams.put name rest })
    return .stream taken (taken.length < count)

/-- The state that a caller sees. -/
def look (layers : List Layer) (w : World) : Info :=
  { offersFeed := Layer.offersFeed w.offersFeed layers
    subscribers := w.feed.receivers.length
    admitted := w.gates.map (·.held)
    now := w.now }

/-- Fetches the results of a typed query. -/
def fetchResults (handle : Handler) (q : EntityQuery) : Fetch → Work Answer
  | .list => do return .rows (← q.toList handle)
  | .first => do return .found (← q.first handle)
  | .each => do return .each (← q.each handle)
  | .count => do return .number (← q.count handle)
  | .aggregate a form => do return .document (← q.aggregate handle a form)
  | .text => return .text q.query.display
  | .live name => do
    let changes ← q.live handle
    Work.ofJob (.modify (·.holdLive name changes q.form.read))
    return .live

/-- The work of an action. -/
def work : Action → Work Answer
  | .request r => ask (handler layers) r
  | .openRows name q => do
    let rows ← handler layers (.query q)
    Work.ofJob (.modify (·.holdRows name rows))
    return .nothing
  | .openLive name q => do
    let changes ← handler layers (.live q)
    Work.ofJob (.modify (·.holdLive name changes .ok))
    return .live
  | .readRows name count => readHeld name count
  | .close name => do return .flag (← Work.ofJob (.act (·.close name)))
  | .letPass milliseconds => do
    Work.sleep milliseconds
    return .nothing
  | .refuseSchema count => do
    Work.ofJob (.modify fun w => { w with schema := { w.schema with refusals := count } })
    return .nothing
  | .statements => Work.ofJob (.read fun w =>
    if w.schemaUse = .unused then .nothing
    else .statements w.schema.runs w.schema.statements.toList)
  | .info => Work.ofJob (.read fun w => .info (look layers w))
  | .insertEntity set entity => do
    return .document (← set.insert (handler layers) entity)
  | .updateEntity set entity expected => do
    return .document (← set.update (handler layers) entity expected)
  | .upsertEntity set entity => do
    return .document (← set.upsert (handler layers) entity)
  | .deleteEntity set key => do return .flag (← set.delete (handler layers) key)
  | .findEntity set key => do return .found (← set.find (handler layers) key)
  | .fetch q what => fetchResults (handler layers) q what
  | .fail f => throw f

end Action

end LiveRecords

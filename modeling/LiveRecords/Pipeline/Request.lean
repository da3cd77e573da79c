import LiveRecords.Live.Reaction

/-
  Requests to a pipeline, and the streams that answer some of them.

  The layers of a pipeline stand above a store, the outermost first. Streams are
  data: where the items come from, and what a live query has read so far. A stream
  of changes keeps the layers that its live query reads through.
-/

namespace LiveRecords

/-- The operations of a pipeline. -/
inductive Operation where
  | insert | update | upsert | delete | find | query | snapshot | live | aggregate | dropAll
  deriving DecidableEq, Repr, Inhabited

namespace Operation

/-- The operations with their names. -/
def named : List (Operation × String) :=
  [(.insert, "insert"), (.update, "update"), (.upsert, "upsert"), (.delete, "delete"),
   (.find, "find"), (.query, "query"), (.snapshot, "snapshot"), (.live, "live_query"),
   (.aggregate, "aggregate"), (.dropAll, "drop_all")]

/-- The name of an operation. -/
def name (op : Operation) : String := (named.lookup op).getD ""

/-- The operation of a name. -/
def ofName? (name : String) : Option Operation :=
  (named.find? fun (_, n) => n == name).map (·.1)

end Operation

/-- A layer of a pipeline. -/
inductive Layer where
  /-- Turns the raw feed into the notifications of each live query; where there is no
  feed, it polls at an interval in milliseconds. -/
  | live (interval : Nat)
  /-- Adds what a projection must contain. -/
  | mandatory
  /-- Writes referenced entities before those that refer to them. -/
  | references
  /-- Admits operations through a gate, waiting at most so many milliseconds, and
  passes results on through buffers. -/
  | scheduling (gate : Nat) (timeout : Option Nat) (buffer : Nat)
  /-- Records every request. -/
  | log
  /-- Lets some requests of an operation pass and then fails, or breaks down. -/
  | failing (counter : Nat) (op : Operation) (after : Nat) (failure : Failure) (breaks : Bool)
  /-- Answers every aggregation with one value. -/
  | aggregateIs (value : Value)
  /-- Passes on what every pipeline must offer and nothing else. -/
  | plain

/-- A request. -/
inductive Request where
  | insert (type : EntityType) (entity : Value)
  | update (type : EntityType) (entity : Value) (expected : Option Nat)
  | upsert (type : EntityType) (entity : Value)
  | delete (type : EntityType) (key : Value)
  | find (type : EntityType) (key : Value)
  | query (q : Query)
  | snapshot (q : Query)
  | live (q : Query)
  | aggregate (q : Query) (a : Aggregate)
  | dropAll

/-- A stream of result rows: a list, or the buffer of a pipe. -/
inductive Rows where
  | listed (rows : List Value)
  | piped (pipe : Nat)

/-- A stream of changes. -/
inductive Changes where
  /-- The raw changes of a table. -/
  | feed (receiver : Nat) (table : String)
  /-- A live query that follows other changes; `queued` is still to be delivered. -/
  | tracked (below : List Layer) (raw : Query) (tracker : Tracker) (queued : List FeedItem)
      (source : Changes)
  /-- A live query that polls; without a tracker it has failed. -/
  | polled (below : List Layer) (raw : Query) (tracker : Option Tracker)
      (queued : List FeedItem) (interval due : Nat)
  /-- The buffer of a channel. -/
  | channel (id : Nat)

namespace Request

/-- The operation that is asked for. -/
def operation : Request → Operation
  | .insert .. => .insert
  | .update .. => .update
  | .upsert .. => .upsert
  | .delete .. => .delete
  | .find .. => .find
  | .query _ => .query
  | .snapshot _ => .snapshot
  | .live _ => .live
  | .aggregate .. => .aggregate
  | .dropAll => .dropAll

/-- What a request is answered with. -/
abbrev Answer : Request → Type
  | .insert .. | .update .. | .upsert .. | .aggregate .. => Value
  | .delete .. => Bool
  | .find .. => Option Value
  | .query _ => Rows
  | .snapshot _ => Snapshot
  | .live _ => Changes
  | .dropAll => Unit

end Request

namespace Layer

/-- Whether a pipeline above a store offers a change feed; the store does or does not. -/
def offersFeed (store : Bool) : List Layer → Bool
  | [] => store
  | .plain :: _ => true
  | _ :: below => offersFeed store below

end Layer

end LiveRecords

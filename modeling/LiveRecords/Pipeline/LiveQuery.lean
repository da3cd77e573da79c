import LiveRecords.Pipeline.Backend

/-
  Live queries: opening the stream of a query's changes, and reading it.

  Over a feed, a live query is opened by subscribing first and reading a snapshot
  then, so that no change is missed; those that the snapshot already shows are
  recognised by their versions. Without a feed it polls: the first time at once, then
  at the interval, counted from when the last poll was due or, if that was long ago,
  from when it took place.
-/

namespace LiveRecords

namespace LiveQuery

/-- Follows the changes of the layers below. -/
def follow (below : List Layer) (next : Handler) (q : Query) (t : Tracker) : Work Changes := do
  let source ← next (.live q.raw)
  let snapshot ← (next (.snapshot q.raw)).orUndo (·.abandonChanges source)
  let (items, t) := t.opened snapshot
  return .tracked below q.raw t items source

/-- Opens a live query above some layers. -/
def openChanges (interval : Nat) (below : List Layer) (next : Handler) (q : Query) :
    Work Changes := do
  (q.validate : Outcome Unit)
  let w ← Work.ofJob (.read id)
  let t ← (Tracker.ofQuery w.catalog q : Outcome Tracker)
  if Layer.offersFeed w.offersFeed below then follow below next q t
  else if interval = 0 then Work.ofJob .broken
  else return .polled below q.raw (some t) [] interval w.now

/-- The time at which a poll that was due at `due` is due again after `now`; a poll
that is at most 5 ms late is on time. -/
def nextDue (interval due now : Nat) : Nat :=
  if due + 5 < now then now + interval else due + interval

end LiveQuery

/-- What reading a stream of changes comes to: an item, nothing yet, or the end. -/
inductive Pulled where
  | item (i : FeedItem) (rest : Changes)
  | again (rest : Changes)
  | ended

namespace Changes

/-- Takes the next event for a receiver: a change, if it is one of the table. -/
def takeEvent (receiver : Nat) (table : String) (w : World) : Pulled × World :=
  let rest := Changes.feed receiver table
  match w.feed.take? w.store.journal receiver with
  | none => (.ended, w)
  | some (.missed count, moved) =>
    (.item (.error (.feedLagged table count)) rest, { w with feed := moved })
  | some (.event e, moved) =>
    (if e.table = table then .item (.ok e.toNotification) rest else .again rest,
      { w with feed := moved })

/-- Whether a channel has something to take, or has ended. -/
def hasItem (id : Nat) (w : World) : Bool :=
  match w.channels[id]? with
  | some ch => !ch.buffer.isEmpty || ch.finished
  | none => true

/-- Takes the next item of a channel. -/
def takeItem (id : Nat) (w : World) : Pulled × World :=
  match (w.channels[id]?).map (·.buffer) with
  | some (i :: _) =>
    (.item i (.channel id), w.onChannel id fun ch => { ch with buffer := ch.buffer.tail })
  | _ => (.ended, w)

/-- Reads the next item of a stream of changes. -/
def pull (handle : List Layer → Handler) : Changes → Job World Pulled
  | .feed receiver table => do
    Job.waitFor (fun w => w.feed.hasNews w.store.journal receiver) none id
    Job.act (takeEvent receiver table)
  | .channel id => do
    Job.waitFor (hasItem id) none fun w => w
    Job.act (takeItem id)
  | .tracked below raw t (i :: queued) source =>
    return .item i (.tracked below raw t queued source)
  | .tracked below raw t [] source => do
    match ← pull handle source with
    | .ended => return .ended
    | .again source => return .again (.tracked below raw t [] source)
    | .item i source =>
      match t.react i with
      | .deliver items t => return .again (.tracked below raw t items source)
      | .catchUp =>
        let (items, t) := t.caughtUp (← (handle below (.snapshot raw)).run)
        return .again (.tracked below raw t items source)
  | .polled below raw t (i :: queued) interval due =>
    return .item i (.polled below raw t queued interval due)
  | .polled _ _ none [] _ _ => return .ended
  | .polled below raw (some t) [] interval due => do
    Job.waitFor (fun w => due ≤ w.now) (some due) id
    let due ← Job.read fun w => LiveQuery.nextDue interval due w.now
    let rows : Work (List Value) := do (← handle below (.query raw)).all
    let (items, t) := t.polled (← rows.run)
    return .again (.polled below raw t items interval due)

end Changes

end LiveRecords

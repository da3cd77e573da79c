import LiveRecords.Live.Tracker

/-
  How a live query reacts to what it reads: items of a change feed, snapshots taken
  after the feed has lagged, and polls.

  A recording holds, in order, all that a live query will read; following it gives
  everything the query delivers.
-/

namespace LiveRecords

/-- One item of a feed: a change, or a failure to deliver one. -/
abbrev FeedItem := Outcome (Notification Value)

/-- What a live query does about an item of its feed: it delivers something, or it
needs a snapshot because changes were missed. -/
inductive Reaction where
  | deliver (items : List FeedItem) (t : Tracker)
  | catchUp

/-- Whether a failure says that changes were missed. -/
def Failure.isLag (f : Failure) : Bool :=
  match f.rootCause with
  | .feedLagged .. => true
  | _ => false

namespace Tracker

/-- The reaction to an item of the feed. -/
def react (t : Tracker) : FeedItem → Reaction
  | .ok change =>
    let (report, t) := t.apply change
    .deliver (report.toList.map .ok) t
  | .error f => if f.isLag then .catchUp else .deliver [.error f] t

/-- The reaction to a snapshot taken to catch up. A failure is delivered, and the feed
goes on. -/
def caughtUp (t : Tracker) : Outcome Snapshot → List FeedItem × Tracker
  | .ok s =>
    let (changes, t) := t.resync s
    (changes.map .ok, t)
  | .error f => ([.error f], t)

/-- The reaction to a poll. A failure is delivered, and nothing follows it. -/
def polled (t : Tracker) : Outcome (List Value) → List FeedItem × Option Tracker
  | .ok entities =>
    let (changes, t) := t.diff entities
    (changes.map .ok, some t)
  | .error f => ([.error f], none)

/-- The first deliveries: the snapshot's entities. -/
def opened (t : Tracker) (s : Snapshot) : List FeedItem × Tracker :=
  let (created, t) := t.snapshot s
  (created.map .ok, t)

end Tracker

/-- All that a live query will read: its snapshots or polls, and the items of its
feed. -/
structure Recording where
  reads : List (Outcome Snapshot)
  feed : List FeedItem

namespace Recording

/-- The failure of a read behind the last one. -/
def exhausted : Failure := .unavailable "script ended"

/-- The next read, and those behind it. -/
def next : List (Outcome Snapshot) → Outcome Snapshot × List (Outcome Snapshot)
  | [] => (.error exhausted, [])
  | r :: rest => (r, rest)

/-- What a live query delivers of a feed. -/
def follow (t : Tracker) (reads : List (Outcome Snapshot)) : List FeedItem → List FeedItem
  | [] => []
  | item :: rest =>
    match t.react item with
    | .deliver items t => items ++ follow t reads rest
    | .catchUp =>
      let (read, reads) := next reads
      let (items, t) := t.caughtUp read
      items ++ follow t reads rest

/-- What a live query delivers of polls; it ends with the first that fails. -/
def followPolls (t : Tracker) : List (Outcome Snapshot) → List FeedItem
  | [] => [.error exhausted]
  | read :: rest =>
    match t.polled (read.map Snapshot.entities) with
    | (items, some t) => items ++ followPolls t rest
    | (items, none) => items

/-- Everything that a live query delivers over a recording, by its feed. -/
def runFeed (r : Recording) (c : Catalog) (q : Query) : Outcome (List FeedItem) := do
  q.validate
  let t ← Tracker.ofQuery c q
  let (first, reads) := next r.reads
  let (items, t) := t.opened (← first)
  return items ++ follow t reads r.feed

/-- Everything that a live query delivers over a recording, by polling. -/
def runPolls (r : Recording) (c : Catalog) (q : Query) : Outcome (List FeedItem) := do
  q.validate
  return followPolls (← Tracker.ofQuery c q) r.reads

end Recording

end LiveRecords

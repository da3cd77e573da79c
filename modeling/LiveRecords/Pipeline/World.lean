import LiveRecords.Job.Basic
import LiveRecords.Pipeline.Gate
import LiveRecords.Pipeline.Request
import LiveRecords.Schema.Basic
import LiveRecords.Store.Feed

/-
  The world that the jobs of a pipeline share: the store with its feed and schema,
  the gates and buffers of the scheduling layers, the log, and the time.

  A pipe carries result rows and a channel carries changes from one turn to another
  through a buffer of bounded length. What is to come through them is part of them.
-/

namespace LiveRecords

/-- How the store has its tables declared. -/
inductive SchemaUse where
  | unused
  | direct
  | cached
  deriving DecidableEq, Repr, Inhabited

/-- The declaration of one table, made once: whether it is made, and the gate of
those who want to make it. -/
structure Cell where
  made : Bool := false
  gate : Gate := .ofLimit 1

/-- The buffer of a result: the rows in it, the row that finds no room, where more
come from, how many are still to come out, and the gate of the query's permit. -/
structure Pipe where
  capacity : Nat
  source : Rows
  left : Nat
  permit : Option Nat
  buffer : List Value := []
  held : Option Value := none
  abandoned : Bool := false
  finished : Bool := false

/-- The buffer of a stream of changes: the items in it, the item that finds no room,
and where more come from. -/
structure Channel where
  capacity : Nat
  source : Changes
  buffer : List FeedItem := []
  held : Option FeedItem := none
  abandoned : Bool := false
  finished : Bool := false

/-- A live query that a caller holds open: its identity, where its notifications come
from, and how their values are read. -/
structure OpenLive where
  id : Nat
  source : Changes
  decode : Value → Outcome Value

/-- The state that all jobs share. Times are in milliseconds. -/
structure World where
  catalog : Catalog
  now : Nat := 0
  store : Store := {}
  feed : Feed := .ofCapacity 1024
  offersFeed : Bool := true
  latency : Option Nat := none
  schemaUse : SchemaUse := .unused
  schema : Schema := {}
  schemaLatency : Option Nat := none
  cellOf : Keyed Nat := []
  cells : List Cell := []
  gates : List Gate := []
  counters : List Nat := []
  pipes : List Pipe := []
  channels : List Channel := []
  log : List Request := []
  streams : Keyed Rows := []
  lives : Keyed OpenLive := []
  livesOpened : Nat := 0

namespace World

/-! ## Gates and cells -/

/-- The world with one gate changed. -/
def onGate (w : World) (gate : Nat) (f : Gate → Gate) : World :=
  { w with gates := w.gates.modify gate f }

/-- Ends an admitted operation. -/
def release (gate : Nat) (w : World) : World := w.onGate gate Gate.release

/-- The world with one cell changed. -/
def onCell (w : World) (cell : Nat) (f : Cell → Cell) : World :=
  { w with cells := w.cells.modify cell f }

/-! ## Pipes -/

/-- The world with one pipe changed. -/
def onPipe (w : World) (pipe : Nat) (f : Pipe → Pipe) : World :=
  { w with pipes := w.pipes.modify pipe f }

/-- How many rows are still to come out of a stream. -/
def rowsLeft (w : World) : Rows → Nat
  | .listed rows => rows.length
  | .piped pipe => ((w.pipes[pipe]?).map (·.left)).getD 0

/-- Opens a pipe for a stream of rows. -/
def openPipe (w : World) (capacity : Nat) (source : Rows) (permit : Option Nat) :
    Rows × World :=
  (.piped w.pipes.length,
    { w with pipes := w.pipes ++ [⟨max capacity 1, source, w.rowsLeft source, permit, [], none,
      false, false⟩] })

/-- Gives up a stream of rows: its pipe is to be closed. -/
def abandonRows (w : World) (rows : Rows) : World :=
  match rows with
  | .listed _ => w
  | .piped pipe => w.onPipe pipe fun p => { p with abandoned := true }

/-- Whether the next row of a stream, or its end, is there. -/
def rowReady (rows : Rows) (w : World) : Bool :=
  match rows with
  | .listed _ => true
  | .piped pipe =>
    match w.pipes[pipe]? with
    | some p => !p.buffer.isEmpty || p.finished
    | none => true

/-- Takes the next row of a stream, if it is there: the row and the rest of the
stream. -/
def takeRow (rows : Rows) (w : World) : Option (Value × Rows) × World :=
  match rows with
  | .listed [] => (none, w)
  | .listed (row :: rest) => (some (row, .listed rest), w)
  | .piped pipe =>
    match (w.pipes[pipe]?).map (·.buffer) with
    | some (row :: _) =>
      (some (row, rows), w.onPipe pipe fun p =>
        { p with buffer := p.buffer.tail, left := p.left - 1 })
    | _ => (none, w)

/-! ## Channels -/

/-- The world with one channel changed. -/
def onChannel (w : World) (id : Nat) (f : Channel → Channel) : World :=
  { w with channels := w.channels.modify id f }

/-- Opens a channel for a stream of changes. -/
def openChannel (w : World) (capacity : Nat) (source : Changes) : Changes × World :=
  (.channel w.channels.length,
    { w with channels := w.channels ++ [⟨max capacity 1, source, [], none, false, false⟩] })

/-- Gives up a stream of changes: its receiver is removed, its channel is to be
closed. -/
def abandonChanges (w : World) : Changes → World
  | .feed receiver _ => { w with feed := w.feed.unsubscribe receiver }
  | .tracked _ _ _ _ source => w.abandonChanges source
  | .polled .. => w
  | .channel id => w.onChannel id fun ch => { ch with abandoned := true }

/-! ## What a caller holds open -/

/-- Gives up the stream of rows and the live query of a name; says whether there was
one. -/
def close (name : String) (w : World) : Bool × World :=
  let stream := w.streams.get? name
  let live := w.lives.get? name
  let w := (stream.map fun rows => w.abandonRows rows).getD w
  let w := (live.map fun l => w.abandonChanges l.source).getD w
  (stream.isSome || live.isSome,
    { w with streams := w.streams.erase name, lives := w.lives.erase name })

/-- Holds a stream of rows open under a name, in place of one before. -/
def holdRows (name : String) (rows : Rows) (w : World) : World :=
  let w := ((w.streams.get? name).map fun old => w.abandonRows old).getD w
  { w with streams := w.streams.put name rows }

/-- Holds a live query open under a name, in place of one before. -/
def holdLive (name : String) (source : Changes) (decode : Value → Outcome Value) (w : World) :
    World :=
  let w := ((w.lives.get? name).map fun old => w.abandonChanges old.source).getD w
  { w with lives := w.lives.put name ⟨w.livesOpened, source, decode⟩
           livesOpened := w.livesOpened + 1 }

end World

/-- Work that may fail, on the world of a pipeline. -/
abbrev Work (α : Type) := ExceptT Failure (Job World) α

namespace Work

variable {α β : Type}

/-- A job as work that does not fail. -/
def ofJob (job : Job World α) : Work α := ExceptT.lift job

/-- Changes the world, or fails and leaves it as it is. -/
def act (f : World → Outcome (α × World)) : Work α :=
  ExceptT.mk (Job.act fun w =>
    match f w with
    | .ok (a, w) => (.ok a, w)
    | .error e => (.error e, w))

/-- The same work with a failure wrapped in a context. -/
def inContext (context : String) (work : Work α) : Work α :=
  ExceptT.adapt (.inContext context) work

/-- The same work with something to be undone if it fails or is dropped. -/
def orUndo (undo : World → World) (work : Work α) : Work α :=
  ExceptT.mk do
    match ← work.run.onDrop undo with
    | .ok a => return .ok a
    | .error e =>
      Job.modify undo
      return .error e

/-- Waits until a time. -/
def sleepUntil (time : Nat) : Work Unit :=
  ofJob (.waitFor (fun w => time ≤ w.now) (some time) id)

/-- Waits for a while. -/
def sleep (milliseconds : Nat) : Work Unit := do
  sleepUntil ((← ofJob (.read World.now)) + milliseconds)

/-- Waits for a while, if a time is given. -/
def pause : Option Nat → Work Unit
  | none => return
  | some milliseconds => sleep milliseconds

end Work

/-- What answers the requests to a pipeline. -/
abbrev Handler := (r : Request) → Work r.Answer

end LiveRecords

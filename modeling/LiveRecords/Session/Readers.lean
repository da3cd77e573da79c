import LiveRecords.Pipeline.Handler

/-
  Carrying rows through pipes and changes through channels.

  A pipe or channel takes one item at a time from its source and puts it into its
  buffer, where it waits if there is no room. It ends when its source has ended or
  the stream is given up; a pipe then ends the admission of its query.
-/

namespace LiveRecords

namespace World

/-! ## Pipes -/

/-- Ends a pipe. -/
def closePipe (w : World) (pipe : Nat) (p : Pipe) : World :=
  let w := w.abandonRows p.source
  let w := (p.permit.map fun gate => release gate w).getD w
  w.onPipe pipe fun p => { p with finished := true, permit := none }

/-- Whether a pipe has something to do. -/
def pipeReady (w : World) (p : Pipe) : Bool :=
  !p.finished &&
    (p.abandoned ||
      if p.held.isSome then p.buffer.length < p.capacity else w.rowReady p.source)

/-- Carries rows through a pipe as far as they go, in at most so many moves. -/
def carryRows (pipe : Nat) : Nat → World → World
  | 0, w => w
  | moves + 1, w =>
    match w.pipes[pipe]? with
    | none => w
    | some p =>
      if !w.pipeReady p then w
      else if p.abandoned then w.closePipe pipe p
      else
        match p.held with
        | some row =>
          carryRows pipe moves
            (w.onPipe pipe fun p => { p with buffer := p.buffer ++ [row], held := none })
        | none =>
          match w.takeRow p.source with
          | (some (row, rest), w) =>
            carryRows pipe moves (w.onPipe pipe fun p => { p with held := some row, source := rest })
          | (none, w) => w.closePipe pipe p

end World

/-- Someone who reads a stream of changes: the reading under way, if there is one,
and the number under which its wait was entered. -/
structure Reader where
  reading : Option (Job World Pulled) := none
  since : Nat := 0

/-- What a reading comes to in one turn: an item and the stream behind it, nothing
for now, the end, or a breakdown. -/
inductive Pulling where
  | item (i : FeedItem) (rest : Changes)
  | pending (rest : Changes) (job : Job World Pulled)
  | ended
  | broken

namespace Reader

/-- Reads one item in a turn of the first level; `source` is where the reading
began. -/
def read (source : Changes) : Nat → Job World Pulled → World → Pulling × World
  | 0, job, w => (.pending source job, w)
  | moves + 1, job, w =>
    match job.advance 0 w with
    | (.done (.item i rest), w) => (.item i rest, w)
    | (.done (.again rest), w) => read rest moves (rest.pull .ofLayers) w
    | (.done .ended, w) => (.ended, w)
    | (.broken, w) => (.broken, w)
    | (job, w) => (.pending source job, w)

/-- The reading under way, or a new one. -/
def job (r : Reader) (source : Changes) : Job World Pulled :=
  r.reading.getD (source.pull .ofLayers)

/-- Whether a reading can go on in a turn of a level. -/
def isReady (r : Reader) (level : Nat) (w : World) : Bool :=
  match r.reading with
  | some job => job.isReady level w
  | none => level == 0

/-- The world after a reading under way is dropped. -/
def drop (r : Reader) (w : World) : World := ((r.reading.map fun job => job.drop w)).getD w

end Reader

namespace World

/-! ## Channels -/

/-- Ends a channel. -/
def closeChannel (w : World) (id : Nat) (ch : Channel) : World :=
  (w.abandonChanges ch.source).onChannel id fun ch => { ch with finished := true }

/-- Whether a channel has something to do in turns of the first level. -/
def channelReady (w : World) (r : Reader) (ch : Channel) : Bool :=
  !ch.finished &&
    (ch.abandoned ||
      if ch.held.isSome then ch.buffer.length < ch.capacity else r.isReady 0 w)

/-- Carries changes through a channel as far as they go, in at most so many moves;
`clock` numbers the waits that are entered. -/
def carryChanges (id : Nat) (clock : Nat) : Nat → Reader → World → Reader × World
  | 0, r, w => (r, w)
  | moves + 1, r, w =>
    match w.channels[id]? with
    | none => (r, w)
    | some ch =>
      if !w.channelReady r ch then (r, w)
      else if ch.abandoned then ({}, (r.drop w).closeChannel id ch)
      else
        match ch.held with
        | some i =>
          carryChanges id clock moves r
            (w.onChannel id fun ch => { ch with buffer := ch.buffer ++ [i], held := none })
        | none =>
          match Reader.read ch.source moves (r.job ch.source) w with
          | (.item i rest, w) =>
            carryChanges id clock moves {}
              (w.onChannel id fun ch => { ch with held := some i, source := rest })
          | (.pending rest job, w) =>
            (⟨some job, clock⟩, w.onChannel id fun ch => { ch with source := rest })
          | (.ended, w) | (.broken, w) => ({}, w.closeChannel id ch)

end World

end LiveRecords

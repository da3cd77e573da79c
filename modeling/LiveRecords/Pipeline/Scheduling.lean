import LiveRecords.Pipeline.Backend

/-
  Scheduling: requests are admitted through a gate and carried out in turns of their
  own, and their streams are passed on through buffers.

  A request that is not admitted in time fails and never reaches the layers below.
  It holds its place at the gate until it has ended; a query holds it until its last
  row has entered the buffer, or until the rows are given up.
-/

namespace LiveRecords.Scheduling

/-- Asks to be admitted; returns a ticket if the request has to wait. -/
def enter (gate : Nat) : Work (Option Nat) :=
  Work.ofJob (.act fun w =>
    match w.gates[gate]? with
    | some g => (g.enter.1, w.onGate gate fun g => g.enter.2)
    | none => (none, w))

/-- Whether a ticket was called. -/
def isCalled (gate ticket : Nat) (w : World) : Bool :=
  (w.gates[gate]?).any (·.isCalled ticket)

/-- Gives a ticket back. -/
def leave (gate ticket : Nat) (w : World) : World := w.onGate gate fun g => g.leave ticket

/-- Waits until a ticket is called, or until a time; says whether it was called. -/
def await (gate ticket : Nat) (deadline : Option Nat) : Work Bool := do
  let isLate (w : World) := deadline.any fun time => time ≤ w.now
  Work.ofJob (.waitFor (fun w => isCalled gate ticket w || isLate w) deadline
    (leave gate ticket))
  Work.ofJob (.act fun w =>
    if isCalled gate ticket w then (true, w.onGate gate fun g => g.claim ticket)
    else (false, leave gate ticket w))

/-- Waits to be admitted, for at most so many milliseconds. -/
def gainEntry (gate : Nat) (op : Operation) (timeout : Option Nat) : Work Unit := do
  let start ← Work.ofJob (.read World.now)
  match ← enter gate with
  | none => return
  | some ticket =>
    if !(← await gate ticket (timeout.map (start + ·))) then
      throw (.timeout op.name (.ofMilliseconds (timeout.getD 0)))

/-- The failure of a request that broke down. -/
def brokenDown (op : Operation) : Failure := .unavailable s!"{op.name} task failed"

/-- Carries out a request in turns of its own. -/
def dispatch {α : Type} (op : Operation) (undo : World → World) (discard : World → α → World)
    (work : Work α) : Work α :=
  let discardResult : Except Failure α → World → World
    | .ok a => (discard · a)
    | .error _ => id
  ExceptT.mk (Job.handOver undo discardResult (.done (.error (brokenDown op))) work.run)

/-- Carries out an admitted request and ends its admission. -/
def run {α : Type} (gate : Nat) (op : Operation) (timeout : Option Nat)
    (discard : World → α → World) (work : Work α) : Work α := do
  gainEntry gate op timeout
  dispatch op (World.release gate) discard
    (ExceptT.mk do
      let result ← work.run
      Job.modify (World.release gate)
      return result)

/-- Runs a query and passes its rows on; the admission goes with them. -/
def query (gate : Nat) (timeout : Option Nat) (buffer : Nat) (work : Work Rows) : Work Rows := do
  gainEntry gate .query timeout
  let rows ← (dispatch .query id World.abandonRows work).orUndo (World.release gate)
  Work.ofJob (.act fun w => w.openPipe buffer rows (some gate))

/-- Opens a live query and passes its changes on. -/
def live (gate : Nat) (timeout : Option Nat) (buffer : Nat) (work : Work Changes) :
    Work Changes := do
  let changes ← run gate .live timeout World.abandonChanges work
  Work.ofJob (.act fun w => w.openChannel buffer changes)

/-- A scheduling layer. -/
def handle (gate : Nat) (timeout : Option Nat) (buffer : Nat) (next : Handler) : Handler
  | .query q => query gate timeout buffer (next (.query q))
  | .live q => live gate timeout buffer (next (.live q))
  | r => run gate r.operation timeout (fun w _ => w) (next r)

end LiveRecords.Scheduling

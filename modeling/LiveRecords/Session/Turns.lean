import LiveRecords.Session.Readers

/-
  Turns: how calls, pipes, channels and live queries share one world.

  Whatever can go on queues for a turn, first come, first served, and goes on in its
  turn until it has to wait. The caller does not queue: it goes on when the queue is
  empty. Time stands still as long as anyone can go on; then it moves to the next time
  that somebody waits for, and those who do get their turns in the order in which they
  began to wait, the caller first.
-/

namespace LiveRecords

/-- Whose turn it is: the caller's, in which every call goes on that can at the first
level; that of a call, channel or live query at a deeper level; that of a pipe or
channel. -/
inductive Turn where
  | caller
  | call (index level : Nat)
  | pipe (id : Nat)
  | channel (id level : Nat)
  | live (name : String) (level : Nat)
  deriving DecidableEq, Repr

/-- How a call ends. -/
inductive Ending (α : Type) where
  | result (a : α)
  | dropped
  | broken

/-- A call under way: its job, the time at which it is dropped, the numbers under
which these waits were entered, and how and when it ended. -/
structure Call (α : Type) where
  job : Job World α
  since : Nat := 0
  limit : Option Nat := none
  limitSince : Nat := 0
  ended : Option (Ending α × Nat) := none

/-- What a live query delivers: a notification or failure, or that it has ended. -/
inductive Note where
  | item (i : FeedItem)
  | ended

/-- A live query that is read: where its notifications come from, its reader, and what
it has delivered. -/
structure LiveReader where
  id : Nat
  source : Changes
  decode : Value → Outcome Value
  reader : Reader := {}
  ended : Bool := false
  notes : List Note := []

/-- Everything under way: the calls, the readers of the channels, the live queries,
the queue of turns, and the number for the next wait. -/
structure Party (α : Type) where
  world : World
  calls : List (Call α) := []
  channels : List Reader := []
  lives : Keyed LiveReader := []
  queue : List Turn := []
  clock : Nat := 1
  isBroken : Bool := false

/-- A bound on the moves that one turn may take, and on the turns of one step. -/
def patience : Nat := 1000000

namespace Call

variable {α : Type}

/-- Whether a call can go on in a turn of a level. -/
def isReady (level : Nat) (w : World) (c : Call α) : Bool :=
  c.ended.isNone && (c.job.isReady level w || (level == 0 && c.limit.any (· ≤ w.now)))

/-- A call after its turn of a level. -/
def go (level clock : Nat) (w : World) (c : Call α) : Call α × World :=
  if !c.isReady level w then (c, w)
  else
    match c.job.advance level w with
    | (.done a, w) => ({ c with ended := some (.result a, w.now) }, w)
    | (.broken, w) => ({ c with ended := some (.broken, w.now) }, w)
    | (job, w) =>
      if level = 0 ∧ c.limit.any (· ≤ w.now) then
        ({ c with ended := some (.dropped, w.now) }, job.drop w)
      else
        ({ c with job, since := clock }, w)

/-- The time for which a call waits, the number of the wait, and whose turn it is then. -/
def deadlines (index : Nat) (c : Call α) : List (Nat × Nat × Turn) :=
  if c.ended.isSome then []
  else
    let wait :=
      match c.job.current? with
      | some w =>
        w.deadline.toList.map fun time =>
          (time, c.since, if w.level = 0 then .caller else .call index w.level)
      | none => []
    wait ++ c.limit.toList.map fun time => (time, c.limitSince, .caller)

end Call

namespace Reader

/-- The time for which a reading waits, the number of the wait, and whose turn it is
then. -/
def deadlines (r : Reader) (turn : Nat → Turn) : List (Nat × Nat × Turn) :=
  match r.reading.bind Job.current? with
  | some w => w.deadline.toList.map fun time => (time, r.since, turn w.level)
  | none => []

/-- The level below the first at which a reading can go on. -/
def readyBelow? (r : Reader) (w : World) : Option Nat :=
  match r.reading with
  | some (.wait wait _) => if 0 < wait.level ∧ wait.ready w then some wait.level else none
  | _ => none

/-- A reading after a turn of a level below the first. -/
def goBelow (r : Reader) (level clock : Nat) (w : World) : Reader × World :=
  match r.reading with
  | some job =>
    let (job, w) := job.advance level w
    (⟨some job, clock⟩, w)
  | none => (r, w)

end Reader

namespace Party

variable {α : Type}

/-! ## Who can go on -/

/-- The turns of those who can go on, the caller left out. -/
def ready (p : Party α) : List Turn :=
  let w := p.world
  let pipes := w.pipes.zipIdx.filterMap fun (pipe, id) =>
    if w.pipeReady pipe then some (.pipe id) else none
  let channels := (p.channels.zip w.channels).zipIdx.filterMap fun ((r, ch), id) =>
    if w.channelReady r ch then some (.channel id 0) else none
  let below := p.channels.zipIdx.filterMap fun (r, id) => (r.readyBelow? w).map (.channel id ·)
  let calls := p.calls.zipIdx.filterMap fun (c, index) =>
    match c.job.current? with
    | some wait =>
      if 0 < wait.level ∧ c.isReady wait.level w then some (.call index wait.level) else none
    | none => none
  let lives := p.lives.filterMap fun (name, l) => (l.reader.readyBelow? w).map (.live name ·)
  pipes ++ channels ++ below ++ calls ++ lives

/-- Whether the caller can go on. -/
def callerReady (p : Party α) : Bool := p.calls.any (·.isReady 0 p.world)

/-- Takes on the channels and live queries that were opened, and drops the live
queries that were closed. -/
def adopt (p : Party α) : Party α :=
  let opened := p.world.channels.length - p.channels.length
  let isOpen (entry : String × LiveReader) : Bool :=
    ((p.world.lives.get? entry.1).map (·.id)) == some entry.2.id
  let closed := p.lives.filter fun entry => !isOpen entry
  let kept := p.lives.filter isOpen
  let lives := p.world.lives.foldl (fun lives (name, l) =>
    if Keyed.contains lives name then lives
    else Keyed.put name { id := l.id, source := l.source, decode := l.decode } lives) kept
  { p with world := closed.foldl (fun w (_, l) => l.reader.drop w) p.world
           channels := p.channels ++ List.replicate opened {}
           lives }

/-- Lets those who can go on queue behind those who queue already. -/
def enqueue (p : Party α) : Party α :=
  let p := p.adopt
  { p with queue := p.queue ++ p.ready.filter fun turn => !p.queue.contains turn }

/-! ## Taking turns -/

/-- Everything after a call's turn of a level. -/
def goCall (p : Party α) (level index : Nat) : Party α :=
  match p.calls[index]? with
  | some c =>
    let (c, world) := c.go level p.clock p.world
    let isBroken := match c.ended with
      | some (.broken, _) => true
      | _ => p.isBroken
    { p with calls := p.calls.set index c, world, clock := p.clock + 1, isBroken }
  | none => p

/-- Everything after one turn. In the caller's turn every call goes on that can, one
after the other. -/
def take (p : Party α) : Turn → Party α
  | .caller => (List.range p.calls.length).foldl (fun p index => (p.goCall 0 index).enqueue) p
  | .call index level => p.goCall level index
  | .pipe id => { p with world := p.world.carryRows id patience }
  | .channel id 0 =>
    match p.channels[id]? with
    | some r =>
      let (r, world) := p.world.carryChanges id p.clock patience r
      { p with channels := p.channels.set id r, world, clock := p.clock + 1 }
    | none => p
  | .channel id level =>
    match p.channels[id]? with
    | some r =>
      let (r, world) := r.goBelow level p.clock p.world
      { p with channels := p.channels.set id r, world, clock := p.clock + 1 }
    | none => p
  | .live name level =>
    match p.lives.get? name with
    | some l =>
      let (reader, world) := l.reader.goBelow level p.clock p.world
      { p with lives := p.lives.put name { l with reader }, world, clock := p.clock + 1 }
    | none => p

/-- Takes turns until nobody can go on. -/
def goOn : Nat → Party α → Party α
  | 0, p => p
  | turns + 1, p =>
    let p := p.enqueue
    if p.isBroken then p
    else
      match p.queue with
      | turn :: rest => goOn turns ({ p with queue := rest }.take turn)
      | [] => if p.callerReady then goOn turns (p.take .caller) else p

/-! ## Time -/

/-- All times for which somebody waits. The first level of a live query has none: it is
read when the caller reads it. -/
def deadlines (p : Party α) : List (Nat × Nat × Turn) :=
  let calls := p.calls.zipIdx.flatMap fun (c, index) => c.deadlines index
  let channels := p.channels.zipIdx.flatMap fun (r, id) => r.deadlines (.channel id ·)
  let lives := p.lives.flatMap fun (name, l) =>
    match l.reader.reading.bind Job.current? with
    | some w => if w.level = 0 then [] else l.reader.deadlines (.live name ·)
    | none => []
  calls ++ channels ++ lives

/-- The next time for which somebody waits. -/
def nextTime? (p : Party α) : Option Nat :=
  (p.deadlines.map (·.1)).min?

/-- Everything at a later time: those who waited for it get their turns in the order in
which they began to wait, the caller first. -/
def moveTo (p : Party α) (time : Nat) : Party α :=
  let due := (p.deadlines.filter fun (t, _) => t ≤ time).mergeSort fun a b => a.2.1 ≤ b.2.1
  let queue := due.foldl (fun queue (_, _, turn) =>
    if queue.contains turn then queue else queue ++ [turn]) []
  let queue := if queue.contains .caller then .caller :: queue.erase .caller else queue
  { p with world := { p.world with now := time }, queue }

/-- Whether all calls have ended. -/
def isDone (p : Party α) : Bool := p.calls.all fun c => c.ended.isSome

/-- Takes turns and lets time pass until all calls have ended; says whether they did
by a time. -/
def finish (limit : Nat) : Nat → Party α → Bool × Party α
  | 0, p => (false, p)
  | turns + 1, p =>
    let p := goOn patience p
    if p.isBroken || p.isDone then (true, p)
    else
      match p.nextTime? with
      | some time =>
        if time ≤ limit then finish limit turns (p.moveTo time)
        else (false, { p with world := { p.world with now := limit } })
      | none => (false, { p with world := { p.world with now := limit } })

/-- Runs some jobs together from the same time on, for at most so many milliseconds: how
each has ended, if it has, and the world after them. -/
def runTogether (limit : Nat) (jobs : List (Job World α)) (w : World) :
    List (Option (Ending α)) × World :=
  let start : Party α := { world := w, calls := jobs.map fun job => { job } }
  let (_, p) := start.finish (w.now + limit) patience
  (p.calls.map fun c => c.ended.map (·.1), p.world)

/-! ## Live queries -/

/-- Reads a live query in the caller's turn until it has to wait. -/
def drain (clock : Nat) : Nat → LiveReader → World → LiveReader × World × Bool
  | 0, l, w => (l, w, false)
  | moves + 1, l, w =>
    if l.ended || !l.reader.isReady 0 w then (l, w, false)
    else
      match Reader.read l.source moves (l.reader.job l.source) w with
      | (.item i rest, w) =>
        let note := Note.item (i.bind fun n => n.tryMap l.decode)
        drain clock moves { l with source := rest, reader := {}, notes := l.notes ++ [note] } w
      | (.pending rest job, w) => ({ l with source := rest, reader := ⟨some job, clock⟩ }, w, false)
      | (.ended, w) =>
        ({ l with reader := {}, ended := true, notes := l.notes ++ [.ended] }, w, false)
      | (.broken, w) => ({ l with reader := {}, ended := true }, w, true)

/-- Whether a live query has something to read. -/
def isWaiting (p : Party α) (l : LiveReader) : Bool := !l.ended && l.reader.isReady 0 p.world

/-- Reads every live query once, in the order of names. -/
def drainAll (p : Party α) : Party α :=
  p.lives.foldl (fun p (name, l) =>
    let (l, world, broken) := drain p.clock patience l p.world
    { p with lives := p.lives.put name l, world, clock := p.clock + 1
             isBroken := p.isBroken || broken }) p

/-- Reads the live queries until nothing goes on without time passing. -/
def settle : Nat → Party α → Party α
  | 0, p => p
  | rounds + 1, p =>
    let p := goOn patience p
    if p.isBroken || !p.lives.any fun (_, l) => p.isWaiting l then p
    else settle rounds p.drainAll

end Party

end LiveRecords

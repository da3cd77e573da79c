import LiveRecords.Session.Step

/-
  Sessions: one caller who takes steps over one pipeline.

  After each step everything goes on that can without time passing, and the live
  queries deliver what they have. A step that does not end within an hour is stuck,
  and one that breaks down is lost; both end the session.
-/

namespace LiveRecords

/-- How a call ended, and when. -/
structure Result where
  ending : Ending (Outcome Answer)
  time : Nat

/-- What one step comes to. -/
inductive StepOutcome where
  | single (r : Result)
  | together (rs : List Result)
  | stuck
  | broken

/-- The report of one step: its outcome, what each live query delivered, the events
that an observer saw, and the requests that were recorded. -/
structure Report where
  outcome : StepOutcome
  notes : List (String × List Note)
  events : List Delivery
  log : List Request

/-- Whether the step broke down. -/
def Report.isBroken (r : Report) : Bool :=
  match r.outcome with
  | .broken => true
  | _ => false

/-- A session: its layers, everything under way, and the feed of an observer. -/
structure Session where
  layers : List Layer
  party : Party (Outcome Answer)
  observer : Option Feed := none

namespace Session

/-- The longest time that a step may take, in milliseconds. -/
def stepLimit : Nat := 3600000

/-- A session over a world; an observer may follow all events of the store. It has a
feed of its own, of the same capacity and with one receiver. -/
def start (layers : List Layer) (world : World) (observed : Bool) : Session :=
  { layers, party := { world }
    observer := if observed then
        some (Feed.subscribe { world.feed with receivers := [], opened := 0 } world.store.journal).2
      else none }

/-- The call of an attempt. -/
def callOf (s : Session) (a : Attempt) : Call (Outcome Answer) :=
  { job := (a.action.work s.layers).run
    limit := a.dropAfter.map (s.party.world.now + ·), limitSince := s.party.clock }

/-- Takes what the first receiver of a feed has not seen, in at most so many goes. -/
def takeEvents (journal : Array StoreEvent) : Nat → Feed → List Delivery × Feed
  | 0, feed => ([], feed)
  | count + 1, feed =>
    match feed.take? journal 0 with
    | none => ([], feed)
    | some (delivery, feed) =>
      let (rest, feed) := takeEvents journal count feed
      (delivery :: rest, feed)

/-- The events that the observer has not seen. -/
def observe (s : Session) : List Delivery × Session :=
  match s.observer with
  | none => ([], s)
  | some feed =>
    let journal := s.party.world.store.journal
    let (events, feed) := takeEvents journal (journal.size + 1) feed
    (events, { s with observer := some feed })

/-- The notes delivered since the last step, of every live query that has any. -/
def collectNotes (s : Session) : List (String × List Note) × Session :=
  let notes := s.party.lives.filterMap fun (name, l) =>
    if l.notes.isEmpty then none else some (name, l.notes)
  let lives := s.party.lives.mapValues fun l => { l with notes := [] }
  (notes, { s with party := { s.party with lives } })

/-- The requests recorded since the last step. -/
def collectLog (s : Session) : List Request × Session :=
  (s.party.world.log, { s with party := { s.party with world := { s.party.world with log := [] } } })

/-- How the calls of a step ended. -/
def resultsOf (calls : List (Call (Outcome Answer))) : List Result :=
  calls.filterMap fun c => c.ended.map fun (ending, time) => ⟨ending, time⟩

/-- The calls of a step. -/
def attempts : Step → List Attempt
  | .single a => [a]
  | .together as => as

/-- What a step comes to by the way its calls ended. -/
def outcomeOf (step : Step) (results : List Result) : StepOutcome :=
  match step, results with
  | .single _, [r] => .single r
  | _, rs => .together rs

/-- Takes one step. -/
def take (s : Session) (step : Step) : Report × Session :=
  let calls := (attempts step).map s.callOf
  let limit := s.party.world.now + stepLimit
  let (inTime, party) :=
    { s.party with calls, clock := s.party.clock + 1 }.finish limit patience
  if party.isBroken then (⟨.broken, [], [], []⟩, { s with party })
  else if !inTime then (⟨.stuck, [], [], []⟩, { s with party })
  else
    let results := resultsOf party.calls
    let party := { party with calls := [] }.settle patience
    if party.isBroken then (⟨.broken, [], [], []⟩, { s with party })
    else
      let (notes, s) := { s with party }.collectNotes
      let (events, s) := s.observe
      let (log, s) := s.collectLog
      (⟨outcomeOf step results, notes, events, log⟩, s)

/-- Whether a session goes on after a step. -/
def goesOn : StepOutcome → Bool
  | .stuck | .broken => false
  | _ => true

/-- Takes steps one after another, as long as the session goes on. -/
def run (s : Session) : List Step → List Report
  | [] => []
  | step :: rest =>
    let (report, s) := s.take step
    if goesOn report.outcome then report :: s.run rest else [report]

end Session

end LiveRecords

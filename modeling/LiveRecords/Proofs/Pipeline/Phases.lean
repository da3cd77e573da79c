import LiveRecords.Pipeline.Handler
import LiveRecords.Proofs.Job.Occupation
import LiveRecords.Proofs.Pipeline.Places

/-
  The phases of a scheduled call.

  A call asks to be admitted, queues if it has to, is carried out by the layers below in
  turns of its own, and leaves; or it is turned away (`Phase`). These phases are the call,
  part by part: a call in a phase has left to do what `Phase.job` says, and what it does
  next is what its phase does next (`Phase.moves_iff`).

  Each phase touches the gate in its last step only, or where the caller drops it, and what
  happens there depends on the phase alone (`Phase.Sound`). The layers below may do what
  they like, as long as it is not done to the gate (`Handler.Spares`).
-/

namespace LiveRecords

open Job (Moves Confined Occupies)

/-- Work that has nothing to do with a gate. -/
def Work.Spares {α : Type} (gate : Nat) (work : Work α) : Prop :=
  Confined (World.Spares gate) work.run

/-- A handler that has nothing to do with a gate. -/
def Handler.Spares (gate : Nat) (handle : Handler) : Prop := ∀ r, (handle r).Spares gate

/-- A scheduling layer: its gate, how long a call may wait there, the length of its
buffers, and what it passes calls on to. -/
structure Scheduler where
  gate : Nat
  timeout : Option Nat
  buffer : Nat
  next : Handler

namespace Scheduler

variable (s : Scheduler)

/-- What the layer does with a request. -/
def handler : Handler := Scheduling.handle s.gate s.timeout s.buffer s.next

/-- Asks to be admitted: the time, and a ticket if the call has to wait. -/
def ask : Work (Nat × Option Nat) := do
  let start ← Work.ofJob (.read World.now)
  return (start, ← Scheduling.enter s.gate)

/-- Admitted work in turns of its own, and the end of its admission behind it. -/
def carryOut {α : Type} (op : Operation) (work : Work α) : Job World (Outcome α) :=
  (Job.orElse (.done (.error (Scheduling.brokenDown op)))
    (Job.onDrop (World.release s.gate) (do
      Job.turn id
      let result ← work.run
      Job.modify (World.release s.gate)
      return result))).deeper

/-- What a call does while it is admitted. A query leaves its place to the stream of its
rows. -/
def stay : (r : Request) → Job World (Outcome r.Answer)
  | .query q => ExceptT.run do
    let rows ← (Scheduling.dispatch .query id World.abandonRows (s.next (.query q))).orUndo
      (World.release s.gate)
    Work.ofJob (.act fun w => w.openPipe s.buffer rows (some s.gate))
  | .live q => s.carryOut .live (s.next (.live q))
  | r => s.carryOut r.operation (s.next r)

/-- What a call does with its result once its admission has ended. -/
def leave : (r : Request) → Outcome r.Answer → Job World (Outcome r.Answer)
  | .query _, result => .done result
  | .live _, .ok changes => do
    Job.turn (·.abandonChanges changes)
    return .ok (← Job.act fun w => w.openChannel s.buffer changes)
  | _, result => do
    Job.turn id
    return result

/-- The failure of a call that waited too long. -/
def tooLate (r : Request) : Failure :=
  .timeout r.operation.name (.ofMilliseconds (s.timeout.getD 0))

/-- What a call does to be admitted once it has asked. -/
def queueUp (r : Request) : Nat × Option Nat → Work Unit
  | (_, none) => return
  | (start, some ticket) => do
    if !(← Scheduling.await s.gate ticket (s.timeout.map (start + ·))) then throw (s.tooLate r)

/-- What is left to do of a call that is admitted. -/
def afterEntry (r : Request) : Job World (Outcome r.Answer) := (s.stay r).bind (s.leave r)

/-- What is left to do of a call that has queued. -/
def afterQueue (r : Request) : Outcome Bool → Job World (Outcome r.Answer)
  | .ok true => s.afterEntry r
  | .ok false => .done (.error (s.tooLate r))
  | .error e => .done (.error e)

/-- What is left to do of a call that has asked. -/
def afterAsking (r : Request) : Outcome (Nat × Option Nat) → Job World (Outcome r.Answer)
  | .ok (_, none) => s.afterEntry r
  | .ok (start, some ticket) =>
    (Scheduling.await s.gate ticket (s.timeout.map (start + ·))).run.bind (s.afterQueue r)
  | .error e => .done (.error e)

variable {s}

theorem run_bind_bind {α β γ : Type} (x : Work α) (f : α → Work β) (k : Outcome β → Job World γ) :
    (x >>= f).run.bind k = x.run.bind fun
      | .ok a => (f a).run.bind k
      | .error e => k (.error e) := by
  rw [ExceptT.run_bind]
  refine (Job.bind_assoc ..).trans (congrArg x.run.bind ?_)
  funext result
  cases result <;> rfl

/-- Entry is asking and, if need be, queueing. -/
theorem gainEntry_eq (r : Request) :
    Scheduling.gainEntry s.gate r.operation s.timeout = s.ask >>= s.queueUp r := by
  unfold Scheduling.gainEntry ask
  rw [bind_assoc]
  congr 1
  funext start
  rw [bind_assoc]
  congr 1
  funext ticket?
  cases ticket? <;> rfl

theorem run_gainEntry_bind (r : Request) :
    ((Scheduling.gainEntry s.gate r.operation s.timeout).run.bind fun
      | .ok _ => s.afterEntry r
      | .error e => .done (.error e)) = s.ask.run.bind (s.afterAsking r) := by
  rw [gainEntry_eq, run_bind_bind]
  congr 1
  funext result
  rcases result with e | ⟨start, none | ticket⟩
  · rfl
  · rfl
  · refine (run_bind_bind ..).trans ?_
    refine congrArg (Job.bind _) ?_
    funext called
    rcases called with e | called
    · rfl
    · cases called <;> rfl

/-- Admitted work that is handed over is carried out, and its result is handed back. -/
theorem run_dispatch {α : Type} (op : Operation) (discard : World → α → World) (work : Work α) :
    (Scheduling.dispatch op (World.release s.gate) discard (ExceptT.mk do
      let result ← work.run
      Job.modify (World.release s.gate)
      return result)).run = (s.carryOut op work).bind fun
        | .ok a => (Job.turn (discard · a)).bind fun _ => .done (.ok a)
        | .error e => (Job.turn id).bind fun _ => .done (.error e) := by
  show Job.bind _ _ = Job.bind _ _
  congr 1
  funext result
  cases result <;> rfl

/-- A call whose work is carried out is admitted, carried out, and goes on with the result. -/
theorem run_run_bind {r : Request} {discard : World → r.Answer → World}
    {k : Outcome r.Answer → Job World (Outcome r.Answer)}
    (onwards : s.afterEntry r = (s.carryOut r.operation (s.next r)).bind fun
      | .ok a => (Job.turn (discard · a)).bind fun _ => k (.ok a)
      | .error e => (Job.turn id).bind fun _ => k (.error e))
    (failed : ∀ e, k (.error e) = .done (.error e)) :
    (Scheduling.run s.gate r.operation s.timeout discard (s.next r)).run.bind k =
      s.ask.run.bind (s.afterAsking r) := by
  rw [← run_gainEntry_bind, onwards]
  refine (run_bind_bind ..).trans (congrArg (Job.bind _) ?_)
  funext entered
  cases entered with
  | error e => exact failed e
  | ok u =>
    rw [run_dispatch]
    refine (Job.bind_assoc ..).trans (congrArg (Job.bind _) ?_)
    funext result
    cases result <;> rfl

/-- What a call does is what its phases do, one after another. -/
theorem run_handler (r : Request) : (s.handler r).run = s.ask.run.bind (s.afterAsking r) := by
  have hresult {r : Request} (hleave : ∀ result, s.leave r result =
      (Job.turn id).bind fun _ => .done result) :
      s.afterEntry r = (s.stay r).bind fun
        | .ok a => (Job.turn id).bind fun _ => .done (.ok a)
        | .error e => (Job.turn id).bind fun _ => .done (.error e) := by
    refine congrArg (Job.bind _) (funext fun result => ?_)
    rw [hleave]
    cases result <;> rfl
  cases r with
  | query q =>
    rw [← run_gainEntry_bind]
    refine (ExceptT.run_bind ..).trans (congrArg (Job.bind _) (funext fun entered => ?_))
    cases entered with
    | error e => rfl
    | ok u => exact (Job.bind_done _).symm
  | live q =>
    refine (ExceptT.run_bind ..).trans (run_run_bind (r := .live q) ?_ fun _ => rfl)
    refine congrArg (Job.bind _) (funext fun result => ?_)
    cases result <;> rfl
  | _ =>
    refine (Job.bind_done _).symm.trans (run_run_bind (hresult fun result => ?_) fun _ => rfl)
    cases result <;> rfl

end Scheduler

/-! ## Phases -/

/-- How far a call has come, and what is left to do of that phase. -/
inductive Phase (r : Request) where
  | asking (job : Job World (Outcome (Nat × Option Nat)))
  | queueing (ticket : Nat) (job : Job World (Outcome Bool))
  | admitted (job : Job World (Outcome r.Answer))
  | turnedAway (failure : Failure)
  | leaving (job : Job World (Outcome r.Answer))

namespace Phase

variable {r : Request} (s : Scheduler)

/-- What is left to do of a call. -/
def job : Phase r → Job World (Outcome r.Answer)
  | .asking job => job.bind (s.afterAsking r)
  | .queueing _ job => job.bind (s.afterQueue r)
  | .admitted job => job.bind (s.leave r)
  | .turnedAway failure => .done (.error failure)
  | .leaving job => job

/-- The phase of a call that has asked so far. -/
def ofAsking : Job World (Outcome (Nat × Option Nat)) → Phase r
  | .done (.ok (_, none)) => .admitted (s.stay r)
  | .done (.ok (start, some ticket)) =>
    .queueing ticket (Scheduling.await s.gate ticket (s.timeout.map (start + ·))).run
  | .done (.error e) => .turnedAway e
  | job => .asking job

/-- The phase of a call that has queued so far. -/
def ofQueue (ticket : Nat) : Job World (Outcome Bool) → Phase r
  | .done (.ok true) => .admitted (s.stay r)
  | .done (.ok false) => .turnedAway (s.tooLate r)
  | .done (.error e) => .turnedAway e
  | job => .queueing ticket job

/-- The phase of a call that has been admitted so far. -/
def ofStay : Job World (Outcome r.Answer) → Phase r
  | .done result => .leaving (s.leave r result)
  | job => .admitted job

/-- A call in some phase takes a step. -/
inductive Goes : Phase r → World → Phase r → World → Prop
  | asking {job job' : Job World (Outcome (Nat × Option Nat))} {w w' : World}
    (moves : Moves job w job' w') : Goes (.asking job) w (ofAsking s job') w'
  | queueing {ticket : Nat} {job job' : Job World (Outcome Bool)} {w w' : World}
    (moves : Moves job w job' w') : Goes (.queueing ticket job) w (ofQueue s ticket job') w'
  | admitted {job job' : Job World (Outcome r.Answer)} {w w' : World}
    (moves : Moves job w job' w') : Goes (.admitted job) w (ofStay s job') w'
  | leaving {job job' : Job World (Outcome r.Answer)} {w w' : World}
    (moves : Moves job w job' w') : Goes (.leaving job) w (.leaving job') w'

/-- What a phase does at the gate: nothing before its last step, and then what the phase is
for. A call that is dropped gives back what it has. -/
def Sound : Phase r → Prop
  | .asking job => Occupies (World.Spares s.gate)
      (fun w w' result => ∃ start ticket?, result = .ok (start, ticket?) ∧
        w.Asks s.gate w' ticket?) (World.Spares s.gate) job
  | .queueing ticket job => Occupies (World.Spares s.gate)
      (fun w w' result => ∃ called, result = .ok called ∧ w.Decides s.gate ticket w' called)
      (World.Leaves s.gate ticket) job
  | .admitted job => Occupies (World.Spares s.gate)
      (fun w w' _ => w.Frees s.gate w' ∨ w.Passes s.gate w') (World.Frees s.gate) job
  | .turnedAway failure => failure = s.tooLate r
  | .leaving job => Confined (World.Spares s.gate) job

variable {s}

theorem job_ofAsking (job : Job World (Outcome (Nat × Option Nat))) :
    (ofAsking s job : Phase r).job s = job.bind (s.afterAsking r) := by
  unfold ofAsking
  split <;> rfl

theorem job_ofQueue (ticket : Nat) (job : Job World (Outcome Bool)) :
    (ofQueue s ticket job : Phase r).job s = job.bind (s.afterQueue r) := by
  unfold ofQueue
  split <;> rfl

theorem job_ofStay (job : Job World (Outcome r.Answer)) :
    (ofStay s job : Phase r).job s = job.bind (s.leave r) := by
  unfold ofStay
  split <;> rfl

/-- What a call does next is what its phase does next. -/
theorem moves_iff {p : Phase r} (sound : p.Sound s) {w w' : World}
    {j : Job World (Outcome r.Answer)} :
    Moves (p.job s) w j w' ↔ ∃ p', Goes s p w p' w' ∧ p'.job s = j := by
  constructor
  · intro h
    cases p with
    | asking job =>
      obtain ⟨job', hmoves, rfl⟩ := h.of_bind (Occupies.ne_done sound)
      exact ⟨_, .asking hmoves, job_ofAsking job'⟩
    | queueing ticket job =>
      obtain ⟨job', hmoves, rfl⟩ := h.of_bind (Occupies.ne_done sound)
      exact ⟨_, .queueing hmoves, job_ofQueue ticket job'⟩
    | admitted job =>
      obtain ⟨job', hmoves, rfl⟩ := h.of_bind (Occupies.ne_done sound)
      exact ⟨_, .admitted hmoves, job_ofStay job'⟩
    | turnedAway failure => cases h
    | leaving job => exact ⟨_, .leaving h, rfl⟩
  · rintro ⟨p', hgoes, rfl⟩
    cases hgoes with
    | asking moves =>
      rw [job_ofAsking]
      exact moves.bind
    | queueing moves =>
      rw [job_ofQueue]
      exact moves.bind
    | admitted moves =>
      rw [job_ofStay]
      exact moves.bind
    | leaving moves => exact moves

/-! ## What the phases do at the gate -/

theorem sound_ask : (asking s.ask.run : Phase r).Sound s := by
  refine fun w => .inr ⟨.refl s.gate w, fun now => .inl ⟨_, rfl, _, _, rfl, fun g hg => ?_, ?_⟩⟩
  · simp only [hg, true_and]
    show (now.gates.modify s.gate _)[s.gate]? = _
    rw [List.getElem?_modify_eq, hg]
    rfl
  · dsimp only
    split <;> rfl

theorem leaves_leave (gate ticket : Nat) (w : World) :
    w.Leaves gate ticket (Scheduling.leave gate ticket w) :=
  ⟨List.getElem?_modify_eq .., rfl⟩

theorem sound_await (ticket : Nat) (deadline : Option Nat) :
    (queueing ticket (Scheduling.await s.gate ticket deadline).run : Phase r).Sound s := by
  refine ⟨leaves_leave s.gate ticket, fun w => .inl ⟨_, rfl, _, rfl, ?_⟩⟩
  cases hcalled : Scheduling.isCalled s.gate ticket w with
  | true =>
    simp only [hcalled, if_true]
    refine ⟨fun g hg => ⟨?_, ?_⟩, rfl⟩
    · unfold Scheduling.isCalled at hcalled
      rw [hg] at hcalled
      exact hcalled.symm
    · show (w.gates.modify s.gate _)[s.gate]? = _
      rw [List.getElem?_modify_eq, hg]
      rfl
  | false =>
    simp only [hcalled, Bool.false_eq_true, if_false]
    refine ⟨fun g hg => ⟨?_, ?_⟩, rfl⟩
    · unfold Scheduling.isCalled at hcalled
      rw [hg] at hcalled
      exact hcalled.symm
    · rw [(leaves_leave s.gate ticket w).gates, hg]
      rfl

theorem occupies_carryOut {α : Type} (op : Operation) {work : Work α}
    (spares : work.Spares s.gate) :
    Occupies (World.Spares s.gate) (fun w w' _ => w.Frees s.gate w' ∨ w.Passes s.gate w')
      (World.Frees s.gate) (s.carryOut op work) := by
  have hturn : Confined (World.Spares s.gate) ((Job.turn id).bind fun _ => work.run) :=
    ⟨.refl s.gate, spares⟩
  refine Occupies.mono (Confined.occupies_freeing hturn (.refl s.gate) ?_ _) fun _ _ _ => .inl
  exact fun w w' h => h.frees

/-- An admitted call frees its place in its last step, or leaves it to the stream of its
rows. -/
theorem sound_stay (spares : s.next.Spares s.gate) (r : Request) :
    (admitted (s.stay r) : Phase r).Sound s := by
  cases r with
  | query q =>
    have hturn : Confined (World.Spares s.gate)
        (((Job.turn id).bind fun _ => (s.next (.query q)).run).onDrop id) :=
      Confined.onDrop ⟨.refl s.gate, spares (.query q)⟩ (.refl s.gate) fun _ _ h => h
    show Occupies _ _ _ (Job.bind (Job.bind _ _) _)
    rw [Job.bind_assoc]
    refine hturn.occupies_handed (fun _ _ h => h.frees) _ fun result => ?_
    cases result with
    | ok rows =>
      refine ⟨fun w => (w.spares_abandonRows s.gate rows).frees, fun w => ?_⟩
      exact .inl ⟨_, rfl, .inr ((World.Spares.refl s.gate w).passes s.buffer rows)⟩
    | error e =>
      refine ⟨fun w => (World.Spares.refl s.gate w).frees, fun w => ?_⟩
      exact .inl ⟨_, rfl, .inl (World.Spares.refl s.gate w).frees⟩
  | _ => exact occupies_carryOut _ (spares _)

theorem confined_leave (r : Request) (result : Outcome r.Answer) :
    Confined (World.Spares s.gate) (s.leave r result) := by
  cases r with
  | query q => trivial
  | live q =>
    cases result with
    | ok changes =>
      exact ⟨World.spares_abandonChanges s.gate changes, fun w => ⟨.of_eq rfl rfl, trivial⟩⟩
    | error e => exact ⟨.refl s.gate, trivial⟩
  | _ => exact ⟨.refl s.gate, trivial⟩

end Phase

end LiveRecords

import LiveRecords.Proofs.Pipeline.Alone
import LiveRecords.Proofs.Pipeline.Seclusion
import LiveRecords.Sample.Shop

/-
  Admission to a scheduling layer.

  Calls come to a scheduling layer at any time, take their steps in any order, and are
  dropped by their callers wherever they wait; streams of rows are carried on, read and given
  up; and anything may happen elsewhere (`Scheduler.Traffic`). Through all of this the
  accounts of the gate are kept (`Scheduler.Traffic.tidy`). So no more operations are ever
  admitted than may be, no place is lost, and a call that is turned away has not reached the
  layers below (`Scheduler.orderly_of_traffic`).
-/

namespace LiveRecords

open Job (Moves Confined Occupies)

namespace Phase

variable {r : Request} {s : Scheduler} {p p' : Phase r} {w w' : World} {limit n : Nat}
  {tickets : List Nat}

/-- The work on a call has been begun, and its admission has not ended. -/
def isInside : Phase r → Bool
  | .admitted _ => true
  | _ => false

/-- A call has got past the gate. -/
def isPast : Phase r → Bool
  | .admitted _ | .leaving _ => true
  | _ => false

/-- The ticket with which a call queues. -/
def ticket? : Phase r → Option Nat
  | .queueing ticket _ => some ticket
  | _ => none

theorem ofAsking_of_going {job : Job World (Outcome (Nat × Option Nat))}
    (going : ∀ a, job ≠ .done a) : (ofAsking s job : Phase r) = .asking job := by
  cases job with
  | done a => exact absurd rfl (going a)
  | broken => rfl
  | step change next => rfl
  | wait w next => rfl

theorem ofQueue_of_going {ticket : Nat} {job : Job World (Outcome Bool)}
    (going : ∀ a, job ≠ .done a) : (ofQueue s ticket job : Phase r) = .queueing ticket job := by
  cases job with
  | done a => exact absurd rfl (going a)
  | broken => rfl
  | step change next => rfl
  | wait w next => rfl

theorem ofStay_of_going {job : Job World (Outcome r.Answer)} (going : ∀ a, job ≠ .done a) :
    ofStay s job = .admitted job := by
  cases job with
  | done a => exact absurd rfl (going a)
  | broken => rfl
  | step change next => rfl
  | wait w next => rfl

/-- Nothing at all, or nothing at the gate. -/
theorem balanced_of_step (h : w.Balanced s.gate limit n tickets)
    (step : w' = w ∨ w.Spares s.gate w') : w'.Balanced s.gate limit n tickets := by
  rcases step with rfl | hspares
  · exact h
  · exact h.spares hspares

/-- A step of a call keeps the accounts, with the call in its new phase. -/
theorem Goes.balanced (goes : Goes s p w p' w') (spares : s.next.Spares s.gate)
    (sound : p.Sound s)
    (h : w.Balanced s.gate limit (n + p.isInside.toNat) (p.ticket?.toList ++ tickets)) :
    p'.Sound s ∧
      w'.Balanced s.gate limit (n + p'.isInside.toNat) (p'.ticket?.toList ++ tickets) := by
  cases goes with
  | asking moves =>
    rcases Occupies.moves sound moves with
      ⟨result, rfl, start, ticket?, rfl, hasks⟩ | ⟨hstep, hnext⟩
    · cases ticket? with
      | none => exact ⟨sound_stay spares r, h.asks_free hasks⟩
      | some ticket => exact ⟨sound_await ticket _, h.asks_full hasks⟩
    · rw [ofAsking_of_going hnext.ne_done]
      exact ⟨hnext, balanced_of_step h hstep⟩
  | queueing moves =>
    rcases Occupies.moves sound moves with ⟨result, rfl, called, rfl, hdecides⟩ | ⟨hstep, hnext⟩
    · cases called with
      | true => exact ⟨sound_stay spares r, h.claims hdecides⟩
      | false => exact ⟨rfl, h.gives_up hdecides⟩
    · rw [ofQueue_of_going hnext.ne_done]
      exact ⟨hnext, balanced_of_step h hstep⟩
  | admitted moves =>
    rcases Occupies.moves sound moves with ⟨result, rfl, hfrees | hpasses⟩ | ⟨hstep, hnext⟩
    · exact ⟨confined_leave r result, h.frees hfrees⟩
    · exact ⟨confined_leave r result, h.passes hpasses⟩
    · rw [ofStay_of_going hnext.ne_done]
      exact ⟨hnext, balanced_of_step h hstep⟩
  | leaving moves =>
    obtain ⟨hstep, hnext⟩ := Confined.moves sound moves
    exact ⟨hnext, balanced_of_step h hstep⟩

/-- A call that is dropped takes nothing with it. -/
theorem balanced_of_dropped {wait : Wait World} (stands : (p.job s).current? = some wait)
    (sound : p.Sound s)
    (h : w.Balanced s.gate limit (n + p.isInside.toNat) (p.ticket?.toList ++ tickets)) :
    (wait.undo w).Balanced s.gate limit n tickets := by
  cases p with
  | asking job =>
    have hstands := Job.current?_of_bind stands (Occupies.ne_done sound)
    exact h.spares (Occupies.dropped sound hstands w)
  | queueing ticket job =>
    have hstands := Job.current?_of_bind stands (Occupies.ne_done sound)
    exact h.leaves (Occupies.dropped sound hstands w)
  | admitted job =>
    have hstands := Job.current?_of_bind stands (Occupies.ne_done sound)
    exact h.frees (Occupies.dropped sound hstands w)
  | turnedAway failure => cases stands
  | leaving job => exact h.spares (Confined.dropped sound stands w)

theorem Goes.isPast (goes : Goes s p w p' w') (past : p.isPast = true) : p'.isPast = true := by
  cases goes with
  | asking moves => cases past
  | queueing moves => cases past
  | admitted moves =>
    unfold ofStay
    split <;> rfl
  | leaving moves => rfl

end Phase

namespace Scheduler

/-- A call of a request: its phase, and whether the layers below have been reached. -/
structure Call where
  request : Request
  phase : Phase request
  reached : Bool

variable (s : Scheduler)

/-- The calls at a scheduling layer, and the world, after any number of steps: a call comes,
goes a step further or is dropped where it waits, a stream of rows is carried on, or
something happens elsewhere, such as that rows are read (`World.spares_takeRow`) or given up
(`World.spares_abandonRows`). -/
inductive Traffic (start : World) : List Call → World → Prop
  | start : Traffic start [] start
  | comes {calls : List Call} {w : World} (traffic : Traffic start calls w) (r : Request) :
    Traffic start (⟨r, .asking s.ask.run, false⟩ :: calls) w
  | goes {before after : List Call} {w w' : World} {r : Request} {p p' : Phase r}
    {reached : Bool} (traffic : Traffic start (before ++ ⟨r, p, reached⟩ :: after) w)
    (goes : Phase.Goes s p w p' w') :
    Traffic start (before ++ ⟨r, p', reached || p'.isInside⟩ :: after) w'
  | dropped {before after : List Call} {w : World} {v : Call} {wait : Wait World}
    (traffic : Traffic start (before ++ v :: after) w)
    (stands : (v.phase.job s).current? = some wait) :
    Traffic start (before ++ after) (wait.undo w)
  | carried {calls : List Call} {w : World} (traffic : Traffic start calls w) (pipe moves : Nat) :
    Traffic start calls (w.carryRows pipe moves)
  | elsewhere {calls : List Call} {w w' : World} (traffic : Traffic start calls w)
    (spares : w.Spares s.gate w') : Traffic start calls w'

/-- How many calls are inside. -/
def inside (calls : List Call) : Nat := calls.countP (·.phase.isInside)

/-- The tickets of the calls that queue. -/
def tickets (calls : List Call) : List Nat := calls.filterMap (·.phase.ticket?)

theorem inside_split (before after : List Call) (v : Call) :
    inside (before ++ v :: after) = inside (before ++ after) + v.phase.isInside.toNat := by
  unfold inside
  rw [List.countP_append, List.countP_cons, List.countP_append]
  cases v.phase.isInside <;> simp [Nat.add_assoc]

theorem tickets_split (before after : List Call) (v : Call) :
    (tickets (before ++ v :: after)).Perm
      (v.phase.ticket?.toList ++ tickets (before ++ after)) := by
  unfold tickets
  rw [List.filterMap_append, List.filterMap_append]
  cases hticket : v.phase.ticket? with
  | none =>
    simp only [List.filterMap_cons, hticket]
    exact .refl _
  | some ticket =>
    simp only [List.filterMap_cons, hticket]
    exact List.perm_middle

/-- The accounts of the gate agree with the calls, each of which is in a phase of its own. -/
structure Tidy (limit : Nat) (calls : List Call) (w : World) : Prop where
  balanced : w.Balanced s.gate limit (inside calls) (tickets calls)
  sound : ∀ v ∈ calls, v.phase.Sound s
  past : ∀ v ∈ calls, v.reached = true → v.phase.isPast = true

variable {s} {limit : Nat} {calls before after : List Call} {v v' : Call} {w w' start : World}

namespace Tidy

/-- The accounts with one call told from the others. -/
theorem split (h : s.Tidy limit (before ++ v :: after) w) :
    w.Balanced s.gate limit (inside (before ++ after) + v.phase.isInside.toNat)
      (v.phase.ticket?.toList ++ tickets (before ++ after)) := by
  rw [← inside_split]
  exact h.balanced.perm (tickets_split before after v)

theorem others (h : s.Tidy limit (before ++ v :: after) w) :
    ∀ u ∈ before ++ after, u.phase.Sound s ∧ (u.reached = true → u.phase.isPast = true) := by
  intro u hu
  have hin : u ∈ before ++ v :: after := by
    rcases List.mem_append.1 hu with hbefore | hafter
    · exact List.mem_append_left _ hbefore
    · exact List.mem_append_right _ (List.mem_cons_of_mem _ hafter)
  exact ⟨h.sound u hin, h.past u hin⟩

/-- A call that has just come has nothing. -/
theorem come (h : s.Tidy limit calls w) (r : Request) :
    s.Tidy limit (⟨r, .asking s.ask.run, false⟩ :: calls) w := by
  have hinside : inside (⟨r, .asking s.ask.run, false⟩ :: calls) = inside calls :=
    (inside_split [] calls _).trans (Nat.add_zero _)
  have htickets : tickets (⟨r, .asking s.ask.run, false⟩ :: calls) = tickets calls := by
    simp [tickets, Phase.ticket?]
  refine ⟨?_, ?_, ?_⟩
  · rw [hinside, htickets]
    exact h.balanced
  · exact List.forall_mem_cons.2 ⟨Phase.sound_ask, h.sound⟩
  · exact List.forall_mem_cons.2 ⟨fun hreached => absurd hreached Bool.false_ne_true, h.past⟩

/-- One call may come in place of another. -/
theorem replace (h : s.Tidy limit (before ++ v :: after) w)
    (balanced : w'.Balanced s.gate limit (inside (before ++ after) + v'.phase.isInside.toNat)
      (v'.phase.ticket?.toList ++ tickets (before ++ after)))
    (sound : v'.phase.Sound s) (past : v'.reached = true → v'.phase.isPast = true) :
    s.Tidy limit (before ++ v' :: after) w' := by
  have hall : ∀ u ∈ before ++ v' :: after,
      u.phase.Sound s ∧ (u.reached = true → u.phase.isPast = true) := by
    intro u hu
    rcases List.mem_append.1 hu with hbefore | hmore
    · exact h.others u (List.mem_append_left _ hbefore)
    · rcases List.mem_cons.1 hmore with rfl | hafter
      · exact ⟨sound, past⟩
      · exact h.others u (List.mem_append_right _ hafter)
  refine ⟨?_, fun u hu => (hall u hu).1, fun u hu => (hall u hu).2⟩
  rw [inside_split]
  exact balanced.perm (tickets_split before after v').symm

end Tidy

/-- Whatever happens, the accounts are kept. -/
theorem Traffic.tidy (traffic : s.Traffic start calls w) (spares : s.next.Spares s.gate)
    (fresh : start.gates[s.gate]? = some (.ofLimit limit)) (idle : start.running s.gate = 0) :
    s.Tidy (max limit 1) calls w := by
  induction traffic with
  | start =>
    refine ⟨⟨_, fresh, rfl, ?_⟩, List.forall_mem_nil _, List.forall_mem_nil _⟩
    rw [idle]
    exact .fresh limit
  | comes _ r ih => exact ih.come r
  | @goes before after w w' r p p' reached _ goes ih =>
    have hin : ⟨r, p, reached⟩ ∈ before ++ ⟨r, p, reached⟩ :: after :=
      List.mem_append_right _ List.mem_cons_self
    obtain ⟨hsound, hbalanced⟩ := goes.balanced spares (ih.sound _ hin) ih.split
    refine ih.replace hbalanced hsound fun hreached => ?_
    rcases Bool.or_eq_true_iff.1 hreached with hbefore | hinside
    · exact goes.isPast (ih.past _ hin hbefore)
    · cases p' with
      | admitted job => rfl
      | _ => cases hinside
  | @dropped before after w v wait _ stands ih =>
    have hin : v ∈ before ++ v :: after := List.mem_append_right _ List.mem_cons_self
    refine ⟨Phase.balanced_of_dropped stands (ih.sound v hin) ih.split, ?_, ?_⟩
    · exact fun u hu => (ih.others u hu).1
    · exact fun u hu => (ih.others u hu).2
  | carried _ pipe moves ih =>
    refine ⟨?_, ih.sound, ih.past⟩
    rcases World.carryRows_running s.gate pipe moves _ with hspares | hdrains
    · exact ih.balanced.spares hspares
    · exact ih.balanced.drains hdrains
  | elsewhere _ spares ih => exact ⟨ih.balanced.spares spares, ih.sound, ih.past⟩

/-! ## Admitted operations -/

/-- Whether a call is admitted: it is inside, or was called from the queue. -/
def isAdmitted (s : Scheduler) (w : World) (v : Call) : Bool :=
  v.phase.isInside || v.phase.ticket?.any fun ticket => Scheduling.isCalled s.gate ticket w

/-- How many operations are admitted: calls, and queries whose rows are still carried on. -/
def admitted (s : Scheduler) (calls : List Call) (w : World) : Nat :=
  calls.countP (s.isAdmitted w) + w.running s.gate

theorem countP_isAdmitted {g : Gate} (here : w.gates[s.gate]? = some g) (calls : List Call) :
    calls.countP (s.isAdmitted w) = inside calls + (tickets calls).countP g.isCalled := by
  have hcalled (ticket : Nat) : Scheduling.isCalled s.gate ticket w = g.isCalled ticket := by
    unfold Scheduling.isCalled
    rw [here]
    rfl
  induction calls with
  | nil => rfl
  | cons v calls ih =>
    obtain ⟨r, p, reached⟩ := v
    unfold inside tickets at ih ⊢
    rw [List.countP_cons, ih, List.countP_cons]
    cases p with
    | queueing ticket job =>
      simp [isAdmitted, Phase.isInside, Phase.ticket?, List.countP_cons, hcalled, Nat.add_assoc]
    | admitted job =>
      simp [isAdmitted, Phase.isInside, Phase.ticket?]
      omega
    | _ => simp [isAdmitted, Phase.isInside, Phase.ticket?]

/-- A gate has as many places in use as operations are admitted. -/
theorem Tidy.held {g : Gate} (h : s.Tidy limit calls w) (here : w.gates[s.gate]? = some g) :
    g.limit = limit ∧ g.held = s.admitted calls w ∧ s.admitted calls w ≤ limit ∧
      (s.admitted calls w < limit → g.waiting = []) := by
  obtain ⟨g', hg', hlimit, haccounts⟩ := h.balanced
  obtain rfl : g' = g := Option.some.inj (hg'.symm.trans here)
  have hheld : g'.held = s.admitted calls w := by
    rw [haccounts.held, ← haccounts.countP_called]
    unfold admitted
    rw [countP_isAdmitted here]
    omega
  have hwithin := haccounts.within
  refine ⟨hlimit, hheld, by omega, fun hroom => ?_⟩
  cases hwaiting : g'.waiting with
  | nil => rfl
  | cons first rest =>
    have hfull := haccounts.full (by rw [hwaiting]; exact List.cons_ne_nil _ _)
    omega

/-- A call that comes while there is room is admitted at once. -/
theorem alone_gainEntry {g : Gate} (here : w.gates[s.gate]? = some g) (room : g.held < g.limit)
    (op : Operation) (timeout : Option Nat) :
    (Scheduling.gainEntry s.gate op timeout).run.alone w =
      some (.ok (), w.onGate s.gate fun g => g.enter.2) := by
  have hfree : g.enter.1 = none := by
    unfold Gate.enter
    rw [if_pos room]
  have henter : (Scheduling.enter s.gate).run.alone w =
      some (.ok none, w.onGate s.gate fun g => g.enter.2) := by
    show some (Except.ok (Prod.fst _), Prod.snd _) = _
    simp only [here, hfree]
  have hnow : (Work.ofJob (.read World.now) : Work Nat).run.alone w = some (.ok w.now, w) := rfl
  unfold Scheduling.gainEntry
  rw [Work.alone_bind_ok hnow, Work.alone_bind_ok henter]
  rfl

/-- A scheduling layer is in order, whatever has happened: no more operations are admitted
than may be, and the places that they do not hold are free; while there is room, nobody
waits and whoever comes is let in; a call that was turned away came too late and has not
reached the layers below; a stream that is over gives its place back in the next turn of its
pipe; and what the calls do is what their phases do. -/
structure Orderly (s : Scheduler) (limit : Nat) (calls : List Call) (w : World) (g : Gate) :
    Prop where
  bounded : s.admitted calls w ≤ limit
  inFlight : g.held = s.admitted calls w
  conserved : (g.limit - g.held) + s.admitted calls w = limit
  prompt : s.admitted calls w < limit → g.waiting = [] ∧ ∀ op,
    (Scheduling.gainEntry s.gate op s.timeout).run.alone w =
      some (.ok (), w.onGate s.gate fun g => g.enter.2)
  turnedAway : ∀ v ∈ calls, ∀ failure, v.phase = .turnedAway failure →
    failure = s.tooLate v.request ∧ v.reached = false
  drained : ∀ pipe p, w.pipes[pipe]? = some p → p.occupies s.gate = true →
    (p.abandoned = true ∨
      p.held = none ∧ w.rowReady p.source = true ∧ (w.takeRow p.source).1 = none) →
    ∀ moves, (w.carryRows pipe (moves + 1)).running s.gate + 1 = w.running s.gate
  begins : ∀ r, (Phase.asking s.ask.run : Phase r).job s = (s.handler r).run
  faithful : ∀ v ∈ calls, ∀ j w', Moves (v.phase.job s) w j w' ↔
    ∃ p, Phase.Goes s v.phase w p w' ∧ p.job s = j

end Scheduler

namespace Shop

/-- A counter at which one customer is served at a time. -/
def counter : Scheduler := ⟨0, some 10, 1, .ofStore⟩

/-- Nobody has come to the counter yet. -/
def unattended : World := { catalog, gates := [.ofLimit 1] }

end Shop

end LiveRecords

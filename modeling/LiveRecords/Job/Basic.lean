/-
  Jobs: work on a shared world that goes on in turns.

  A job changes the world in steps, waits for conditions on the world, and ends
  with a result or breaks down. Work that a job hands over to be done in its own
  turns is part of the job, one level deeper: every wait says in the turns of which
  level it continues. Between two waits nothing else happens to the world.
-/

namespace LiveRecords

/-- A wait of a job: the level in whose turns it continues, when it can, the time at
which it can at the latest, and what is to be undone if the job is dropped here. -/
structure Wait (σ : Type) where
  level : Nat
  ready : σ → Bool
  deadline : Option Nat
  undo : σ → σ

/-- A job on a world `σ` that ends with an `α`. A step goes on as the world was
before it. -/
inductive Job (σ α : Type) where
  | done (result : α)
  | broken
  | step (change : σ → σ) (next : σ → Job σ α)
  | wait (w : Wait σ) (next : Job σ α)

namespace Job

variable {σ α β : Type}

/-- One job after another. -/
def bind : Job σ α → (α → Job σ β) → Job σ β
  | .done a, k => k a
  | .broken, _ => .broken
  | .step change next, k => .step change fun s => (next s).bind k
  | .wait w next, k => .wait w (next.bind k)

instance : Monad (Job σ) where
  pure := .done
  bind := .bind

/-! ## Building jobs -/

/-- Reads from the world. -/
def read (f : σ → α) : Job σ α := .step id fun s => .done (f s)

/-- Changes the world. -/
def modify (f : σ → σ) : Job σ Unit := .step f fun _ => .done ()

/-- Changes the world, with a result. -/
def act (f : σ → α × σ) : Job σ α := .step (fun s => (f s).2) fun s => .done (f s).1

/-- Waits for a condition. -/
def waitFor (ready : σ → Bool) (deadline : Option Nat) (undo : σ → σ) : Job σ Unit :=
  .wait ⟨0, ready, deadline, undo⟩ (.done ())

/-- The same job, one level deeper. -/
def deeper : Job σ α → Job σ α
  | .done a => .done a
  | .broken => .broken
  | .step change next => .step change fun s => (next s).deeper
  | .wait w next => .wait { w with level := w.level + 1 } next.deeper

/-- The same job with something more to be undone wherever it is dropped or breaks
down. -/
def onDrop (undo : σ → σ) : Job σ α → Job σ α
  | .done a => .done a
  | .broken => .step undo fun _ => .broken
  | .step change next => .step change fun s => (next s).onDrop undo
  | .wait w next => .wait { w with undo := fun s => undo (w.undo s) } (next.onDrop undo)

/-- The same job with another end in place of every breakdown. -/
def orElse (fallback : Job σ α) : Job σ α → Job σ α
  | .done a => .done a
  | .broken => fallback
  | .step change next => .step change fun s => orElse fallback (next s)
  | .wait w next => .wait w (orElse fallback next)

/-- Waits for the next turn of the level. -/
def turn (undo : σ → σ) : Job σ Unit := waitFor (fun _ => true) none undo

/-- Hands a job over: it is done in turns of its own, and the caller goes on in its
own turn afterwards. A job that does not come to its end is undone; if it breaks
down, the fallback takes its place. A result that the caller does not live to see is
discarded. -/
def handOver (undo : σ → σ) (discard : α → σ → σ) (fallback job : Job σ α) : Job σ α := do
  let a ← (orElse fallback ((do turn id; job).onDrop undo)).deeper
  turn (discard a)
  return a

/-! ## Running jobs -/

/-- Runs a job in a turn of a level, as far as it can go there. -/
def advance (level : Nat) : Job σ α → σ → Job σ α × σ
  | .done a, s => (.done a, s)
  | .broken, s => (.broken, s)
  | .step change next, s => (next s).advance level (change s)
  | .wait w next, s =>
    if w.level = level ∧ w.ready s then next.advance level s else (.wait w next, s)

/-- Whether a job can go on in a turn of a level. -/
def isReady (level : Nat) (s : σ) : Job σ α → Bool
  | .wait w _ => w.level == level && w.ready s
  | _ => level == 0

/-- The wait at which a job stands. -/
def current? : Job σ α → Option (Wait σ)
  | .wait w _ => some w
  | _ => none

/-- The world after a job is dropped where it stands. -/
def drop (s : σ) : Job σ α → σ
  | .wait w _ => w.undo s
  | _ => s

/-- Runs a job that nothing interferes with: the result and the world at its end,
unless it breaks down or has to wait for something that nobody does. -/
def alone : Job σ α → σ → Option (α × σ)
  | .done a, s => some (a, s)
  | .broken, _ => none
  | .step change next, s => (next s).alone (change s)
  | .wait w next, s => if w.ready s then next.alone s else none

/-! ## Laws -/

/-- Nothing behind a job changes nothing. -/
theorem bind_done (j : Job σ α) : j.bind .done = j := by
  induction j with
  | done a => rfl
  | broken => rfl
  | step change next ih => simp [bind, ih]
  | wait w next ih => simp [bind, ih]

/-- Of three jobs in a row it does not matter which two are put together first. -/
theorem bind_assoc {γ : Type} (j : Job σ α) (k : α → Job σ β) (l : β → Job σ γ) :
    (j.bind k).bind l = j.bind fun a => (k a).bind l := by
  induction j with
  | done a => rfl
  | broken => rfl
  | step change next ih => simp [bind, ih]
  | wait w next ih => simp [bind, ih]

instance : LawfulMonad (Job σ) :=
  LawfulMonad.mk' (Job σ) bind_done (fun _ _ => rfl) fun j k l => bind_assoc j k l

/-- One job after another, both alone: the second starts where the first ends. -/
theorem alone_bind (j : Job σ α) (k : α → Job σ β) (s : σ) :
    (j.bind k).alone s = (j.alone s).bind fun (a, s) => (k a).alone s := by
  induction j generalizing s with
  | done a => rfl
  | broken => rfl
  | step change next ih => simp [bind, alone, ih]
  | wait w next ih => by_cases h : w.ready s <;> simp [bind, alone, h, ih]

end Job

end LiveRecords

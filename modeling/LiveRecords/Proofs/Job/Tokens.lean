import Mathlib.Algebra.Order.Group.Multiset
import LiveRecords.Proofs.Job.Interference

/-
  Jobs that hold tokens.

  An invariant of a shared world may depend on how far each job has got. A job says so
  by the tokens that it holds: the invariant relates the tokens of all jobs, taken
  together, to the world. `Carries` says that a job that holds some tokens keeps the
  invariant with each of its steps, whatever the others hold. It goes from one job to
  the next (`Carries.bind`), what a job does not need it keeps (`Carries.frame`), and a gathering
  of such jobs keeps the invariant however their steps alternate (`Gathering.carries`).

  To count what happened, a world may be kept with a record of it. A job that keeps the
  record does to the world what the job without it does (`Erases`), so a gathering does the
  same with the record as without (`Gathering.erased`, `Gathering.recorded`).
-/

namespace LiveRecords

namespace Job

variable {σ τ α β : Type}

/-! ## Tokens -/

/-- Together with what others hold, a job that holds some tokens keeps the invariant with
every step and does not break down; where it ends, `post` holds of its result and of what
it holds then. -/
def Carries (inv : Multiset τ → σ → Prop) (post : α → Multiset τ → Prop) :
    Job σ α → Multiset τ → Prop
  | .done a, held => post a held
  | .broken, _ => False
  | .step change next, held => ∀ others s, inv (held + others) s →
      ∃ held', inv (held' + others) (change s) ∧ Carries inv post (next s) held'
  | .wait w next, held => ∀ others s, inv (held + others) s → w.ready s = true →
      ∃ held', inv (held' + others) s ∧ Carries inv post next held'

namespace Carries

variable {inv : Multiset τ → σ → Prop} {post : α → Multiset τ → Prop}
  {post' : β → Multiset τ → Prop} {j : Job σ α} {held others : Multiset τ} {s s' : σ}

theorem mono {post' : α → Multiset τ → Prop} (h : Carries inv post j held)
    (hpost : ∀ a held', post a held' → post' a held') : Carries inv post' j held := by
  induction j generalizing held with
  | done a => exact hpost a held h
  | broken => exact h.elim
  | step change next ih =>
    intro others s hinv
    obtain ⟨held', hinv', hnext⟩ := h others s hinv
    exact ⟨held', hinv', ih s hnext⟩
  | wait w next ih =>
    intro others s hinv hr
    obtain ⟨held', hinv', hnext⟩ := h others s hinv hr
    exact ⟨held', hinv', ih hnext⟩

theorem bind {k : α → Job σ β} (h : Carries inv post j held)
    (hk : ∀ a held', post a held' → Carries inv post' (k a) held') :
    Carries inv post' (j.bind k) held := by
  induction j generalizing held with
  | done a => exact hk a held h
  | broken => exact h.elim
  | step change next ih =>
    intro others s hinv
    obtain ⟨held', hinv', hnext⟩ := h others s hinv
    exact ⟨held', hinv', ih s hnext⟩
  | wait w next ih =>
    intro others s hinv hr
    obtain ⟨held', hinv', hnext⟩ := h others s hinv hr
    exact ⟨held', hinv', ih hnext⟩

/-- What a job does not need it holds to the end. -/
theorem frame (h : Carries inv post j held) (spare : Multiset τ) :
    Carries inv (fun a all => ∃ held', post a held' ∧ all = held' + spare) j (held + spare) := by
  induction j generalizing held with
  | done a => exact ⟨held, h, rfl⟩
  | broken => exact h.elim
  | step change next ih =>
    intro others s hinv
    rw [add_assoc] at hinv
    obtain ⟨held', hinv', hnext⟩ := h (spare + others) s hinv
    rw [← add_assoc] at hinv'
    exact ⟨held' + spare, hinv', ih s hnext⟩
  | wait w next ih =>
    intro others s hinv hr
    rw [add_assoc] at hinv
    obtain ⟨held', hinv', hnext⟩ := h (spare + others) s hinv hr
    rw [← add_assoc] at hinv'
    exact ⟨held' + spare, hinv', ih hnext⟩

theorem onDrop (h : Carries inv post j held) (undo : σ → σ) :
    Carries inv post (j.onDrop undo) held := by
  induction j generalizing held with
  | done a => exact h
  | broken => exact h.elim
  | step change next ih =>
    intro others s hinv
    obtain ⟨held', hinv', hnext⟩ := h others s hinv
    exact ⟨held', hinv', ih s hnext⟩
  | wait w next ih =>
    intro others s hinv hr
    obtain ⟨held', hinv', hnext⟩ := h others s hinv hr
    exact ⟨held', hinv', ih hnext⟩

/-- A step of a job keeps the invariant and leads to a job that holds something again. -/
theorem moves {j' : Job σ α} (h : Carries inv post j held) (hinv : inv (held + others) s)
    (hm : Moves j s j' s') : ∃ held', inv (held' + others) s' ∧ Carries inv post j' held' := by
  cases hm with
  | step => exact h others s hinv
  | wait ready => exact h others s hinv ready

end Carries

/-- Some jobs, each of which holds something, and all that they hold. -/
inductive AllCarry (inv : Multiset τ → σ → Prop) (post : α → Multiset τ → Prop) :
    List (Job σ α) → Multiset τ → Prop
  | nil : AllCarry inv post [] 0
  | cons {j : Job σ α} {js : List (Job σ α)} {held others : Multiset τ}
    (first : Carries inv post j held) (rest : AllCarry inv post js others) :
    AllCarry inv post (j :: js) (held + others)

/-- One of the jobs can be told from the others, whatever becomes of it. -/
theorem AllCarry.split {inv : Multiset τ → σ → Prop} {post : α → Multiset τ → Prop}
    {before after : List (Job σ α)} {j : Job σ α} {all : Multiset τ}
    (h : AllCarry inv post (before ++ j :: after) all) :
    ∃ held others, all = held + others ∧ Carries inv post j held ∧
      ∀ j' held', Carries inv post j' held' →
        AllCarry inv post (before ++ j' :: after) (held' + others) := by
  induction before generalizing all with
  | nil =>
    cases h with
    | @cons _ _ held others first rest =>
      exact ⟨held, others, rfl, first, fun j' held' h' => .cons h' rest⟩
  | cons i before ih =>
    cases h with
    | @cons _ _ own _ first rest =>
      obtain ⟨held, others, rfl, hj, hrest⟩ := ih rest
      refine ⟨held, own + others, add_left_comm .., hj, fun j' held' h' => ?_⟩
      rw [add_left_comm]
      exact .cons first (hrest j' held' h')

/-! ## Gatherings -/

/-- Some jobs on one world, after any number of steps: a job comes, one of the jobs goes
a step further, or the world changes in a way that is not theirs. -/
inductive Gathering (comes : Job σ α → Prop) (elsewhere : σ → σ → Prop) (start : σ) :
    List (Job σ α) → σ → Prop
  | start : Gathering comes elsewhere start [] start
  | comes {js : List (Job σ α)} {s : σ} {j : Job σ α}
    (gathering : Gathering comes elsewhere start js s) (new : comes j) :
    Gathering comes elsewhere start (j :: js) s
  | goes {before after : List (Job σ α)} {s s' : σ} {j j' : Job σ α}
    (gathering : Gathering comes elsewhere start (before ++ j :: after) s)
    (moves : Moves j s j' s') : Gathering comes elsewhere start (before ++ j' :: after) s'
  | elsewhere {js : List (Job σ α)} {s s' : σ} (gathering : Gathering comes elsewhere start js s)
    (other : elsewhere s s') : Gathering comes elsewhere start js s'

namespace Gathering

variable {comes : Job σ α → Prop} {elsewhere : σ → σ → Prop} {start s s' : σ}

/-- An invariant of the tokens and the world is kept by a gathering of jobs that come without
any. -/
theorem carries {inv : Multiset τ → σ → Prop} {post : α → Multiset τ → Prop}
    {js : List (Job σ α)} (gathering : Gathering comes elsewhere start js s) (begins : inv 0 start)
    (hcomes : ∀ j, comes j → Carries inv post j 0)
    (helsewhere : ∀ all s s', inv all s → elsewhere s s' → inv all s') :
    ∃ all, inv all s ∧ AllCarry inv post js all := by
  induction gathering with
  | start => exact ⟨0, begins, .nil⟩
  | comes _ new ih =>
    obtain ⟨all, hinv, hall⟩ := ih
    have hcons := AllCarry.cons (hcomes _ new) hall
    rw [zero_add] at hcons
    exact ⟨all, hinv, hcons⟩
  | goes _ moves ih =>
    obtain ⟨all, hinv, hall⟩ := ih
    obtain ⟨held, others, rfl, hj, hrest⟩ := hall.split
    obtain ⟨held', hinv', hj'⟩ := hj.moves hinv moves
    exact ⟨held' + others, hinv', hrest _ held' hj'⟩
  | elsewhere _ other ih =>
    obtain ⟨all, hinv, hall⟩ := ih
    exact ⟨all, helsewhere all _ _ hinv other, hall⟩

/-- One of the jobs may take many steps. -/
theorem goesOn {before after : List (Job σ α)} {j j' : Job σ α}
    (gathering : Gathering comes elsewhere start (before ++ j :: after) s)
    (h : Relation.ReflTransGen (fun x y : Job σ α × σ => Moves x.1 x.2 y.1 y.2) (j, s) (j', s')) :
    Gathering comes elsewhere start (before ++ j' :: after) s' := by
  suffices hrun : ∀ y : Job σ α × σ,
      Relation.ReflTransGen (fun x y : Job σ α × σ => Moves x.1 x.2 y.1 y.2) (j, s) y →
      Gathering comes elsewhere start (before ++ y.1 :: after) y.2 from hrun _ h
  intro y hrun
  induction hrun with
  | refl => exact gathering
  | tail _ hlast ih => exact ih.goes hlast

end Gathering

/-- What a job does in one turn it does in some steps. -/
theorem moves_advance (level : Nat) (j : Job σ α) (s : σ) :
    Relation.ReflTransGen (fun x y : Job σ α × σ => Moves x.1 x.2 y.1 y.2) (j, s)
      (j.advance level s) := by
  induction j generalizing s with
  | done a => exact .refl
  | broken => exact .refl
  | step change next ih => exact (ih s (change s)).head .step
  | wait w next ih =>
    unfold advance
    split
    · next h => exact (ih s).head (.wait h.2)
    · exact .refl

/-! ## Records -/

variable {ρ : Type}

/-- A job on a world with a record does to the world, `view`ed without the record, what
the other job does. -/
def Erases (view : ρ → σ) : Job ρ α → Job σ α → Prop
  | .done a, j => j = .done a
  | .broken, j => j = .broken
  | .step change next, j => ∃ change' next', j = .step change' next' ∧
      ∀ r, view (change r) = change' (view r) ∧ Erases view (next r) (next' (view r))
  | .wait w next, j => ∃ w' next', j = .wait w' next' ∧
      (∀ r, w.ready r = w'.ready (view r)) ∧ Erases view next next'

/-- The job on a world with a record, in which nothing is recorded. -/
def within (view : ρ → σ) (put : σ → ρ → ρ) : Job σ α → Job ρ α
  | .done a => .done a
  | .broken => .broken
  | .step change next => .step (fun r => put (change (view r)) r) fun r =>
      (next (view r)).within view put
  | .wait w next => .wait ⟨w.level, fun r => w.ready (view r), w.deadline, fun r =>
      put (w.undo (view r)) r⟩ (next.within view put)

namespace Erases

variable {view : ρ → σ} {j : Job ρ α} {j' : Job σ α}

theorem bind {k : α → Job ρ β} {k' : α → Job σ β} (h : Erases view j j')
    (hk : ∀ a, Erases view (k a) (k' a)) : Erases view (j.bind k) (j'.bind k') := by
  induction j generalizing j' with
  | done a =>
    cases h
    exact hk a
  | broken =>
    cases h
    exact rfl
  | step change next ih =>
    obtain ⟨change', next', rfl, hnext⟩ := h
    exact ⟨change', _, rfl, fun r => ⟨(hnext r).1, ih r (hnext r).2⟩⟩
  | wait w next ih =>
    obtain ⟨w', next', rfl, hready, hnext⟩ := h
    exact ⟨w', _, rfl, hready, ih hnext⟩

theorem onDrop {undo : ρ → ρ} {undo' : σ → σ} (h : Erases view j j')
    (hundo : ∀ r, view (undo r) = undo' (view r)) :
    Erases view (j.onDrop undo) (j'.onDrop undo') := by
  induction j generalizing j' with
  | done a =>
    cases h
    exact rfl
  | broken =>
    cases h
    exact ⟨undo', _, rfl, fun r => ⟨hundo r, rfl⟩⟩
  | step change next ih =>
    obtain ⟨change', next', rfl, hnext⟩ := h
    exact ⟨change', _, rfl, fun r => ⟨(hnext r).1, ih r (hnext r).2⟩⟩
  | wait w next ih =>
    obtain ⟨w', next', rfl, hready, hnext⟩ := h
    exact ⟨_, _, rfl, hready, ih hnext⟩

theorem act {f : ρ → α × ρ} {f' : σ → α × σ}
    (h : ∀ r, (f r).1 = (f' (view r)).1 ∧ view (f r).2 = (f' (view r)).2) :
    Erases view (Job.act f) (Job.act f') :=
  ⟨_, _, rfl, fun r => ⟨(h r).2, congrArg Job.done (h r).1.symm⟩⟩

theorem read {f : ρ → α × ρ} {g : σ → α} (h : ∀ r, (f r).1 = g (view r) ∧ view (f r).2 = view r) :
    Erases view (Job.act f) (Job.read g) :=
  ⟨_, _, rfl, fun r => ⟨(h r).2, congrArg Job.done (h r).1.symm⟩⟩

theorem modify {f : ρ → ρ} {f' : σ → σ} (h : ∀ r, view (f r) = f' (view r)) :
    Erases view (Job.modify f) (Job.modify f') :=
  ⟨_, _, rfl, fun r => ⟨h r, rfl⟩⟩

theorem within {put : σ → ρ → ρ} (hput : ∀ s r, view (put s r) = s) (j : Job σ α) :
    Erases view (j.within view put) j := by
  induction j with
  | done a => exact rfl
  | broken => exact rfl
  | step change next ih => exact ⟨_, _, rfl, fun r => ⟨hput .., ih (view r)⟩⟩
  | wait w next ih => exact ⟨_, _, rfl, fun _ => rfl, ih⟩

/-- What is done with the record is done without. -/
theorem moves {r r' : ρ} {k : Job ρ α} (h : Erases view j j') (hm : Moves j r k r') :
    ∃ k', Moves j' (view r) k' (view r') ∧ Erases view k k' := by
  cases hm with
  | step =>
    obtain ⟨change', next', rfl, hnext⟩ := h
    rw [(hnext r).1]
    exact ⟨_, .step, (hnext r).2⟩
  | wait ready =>
    obtain ⟨w', next', rfl, hready, hnext⟩ := h
    exact ⟨_, .wait ((hready r).symm.trans ready), hnext⟩

/-- What is done without the record is done with it. -/
theorem moves_back {r : ρ} {s : σ} {k' : Job σ α} (h : Erases view j j')
    (hm : Moves j' (view r) k' s) : ∃ k r', Moves j r k r' ∧ view r' = s ∧ Erases view k k' := by
  cases j with
  | done a =>
    cases h
    cases hm
  | broken =>
    cases h
    cases hm
  | step change next =>
    obtain ⟨change', next', rfl, hnext⟩ := h
    cases hm
    exact ⟨_, _, .step, (hnext r).1, (hnext r).2⟩
  | wait w next =>
    obtain ⟨w', next', rfl, hready, hnext⟩ := h
    cases hm with
    | wait ready => exact ⟨_, _, .wait ((hready r).trans ready), rfl, hnext⟩

end Erases

/-- What corresponds to one entry of a list among others. -/
theorem forall₂_split {R : α → β → Prop} {before after : List α} {a : α} {bs : List β}
    (h : List.Forall₂ R (before ++ a :: after) bs) :
    ∃ before' b after', bs = before' ++ b :: after' ∧ List.Forall₂ R before before' ∧ R a b ∧
      List.Forall₂ R after after' := by
  induction before generalizing bs with
  | nil =>
    cases h with
    | cons hab hafter => exact ⟨[], _, _, rfl, .nil, hab, hafter⟩
  | cons x before ih =>
    cases h with
    | cons hx hrest =>
      obtain ⟨before', b, after', rfl, hbefore, hab, hafter⟩ := ih hrest
      exact ⟨_ :: before', b, after', rfl, .cons hx hbefore, hab, hafter⟩

namespace Gathering

variable {view : ρ → σ} {comes : Job ρ α → Prop} {comes' : Job σ α → Prop}
  {elsewhere : ρ → ρ → Prop} {elsewhere' : σ → σ → Prop} {start : ρ}

/-- A gathering with a record does to the world what a gathering without one does. -/
theorem erased (view : ρ → σ) {js : List (Job ρ α)} {r : ρ}
    (gathering : Gathering comes elsewhere start js r)
    (hcomes : ∀ j, comes j → ∃ j', comes' j' ∧ Erases view j j')
    (helsewhere : ∀ r r', elsewhere r r' → elsewhere' (view r) (view r')) :
    ∃ js', Gathering comes' elsewhere' (view start) js' (view r) ∧
      List.Forall₂ (Erases view) js js' := by
  induction gathering with
  | start => exact ⟨[], .start, .nil⟩
  | comes _ new ih =>
    obtain ⟨js', hgathering, hjs⟩ := ih
    obtain ⟨j', hnew, hj⟩ := hcomes _ new
    exact ⟨j' :: js', hgathering.comes hnew, .cons hj hjs⟩
  | goes _ moves ih =>
    obtain ⟨js', hgathering, hjs⟩ := ih
    obtain ⟨before', j', after', rfl, hbefore, hj, hafter⟩ := forall₂_split hjs
    obtain ⟨k', hmoves, hk⟩ := hj.moves moves
    exact ⟨_, hgathering.goes hmoves, List.rel_append hbefore (.cons hk hafter)⟩
  | elsewhere _ other ih =>
    obtain ⟨js', hgathering, hjs⟩ := ih
    exact ⟨js', hgathering.elsewhere (helsewhere _ _ other), hjs⟩

/-- What a gathering without a record does can be recorded. -/
theorem recorded {js' : List (Job σ α)} {s : σ}
    (gathering : Gathering comes' elsewhere' (view start) js' s)
    (hcomes : ∀ j', comes' j' → ∃ j, comes j ∧ Erases view j j')
    (helsewhere : ∀ r s, elsewhere' (view r) s → ∃ r', elsewhere r r' ∧ view r' = s) :
    ∃ js r, Gathering comes elsewhere start js r ∧ view r = s ∧
      List.Forall₂ (Erases view) js js' := by
  induction gathering with
  | start => exact ⟨[], start, .start, rfl, .nil⟩
  | comes _ new ih =>
    obtain ⟨js, r, hgathering, hview, hjs⟩ := ih
    obtain ⟨j, hnew, hj⟩ := hcomes _ new
    exact ⟨j :: js, r, hgathering.comes hnew, hview, .cons hj hjs⟩
  | goes _ moves ih =>
    obtain ⟨js, r, hgathering, rfl, hjs⟩ := ih
    obtain ⟨before, j, after, rfl, hbefore, hj, hafter⟩ := forall₂_split hjs.flip
    obtain ⟨k, r', hmoves, hview, hk⟩ := Erases.moves_back hj moves
    exact ⟨_, r', hgathering.goes hmoves, hview,
      List.rel_append hbefore.flip (.cons hk hafter.flip)⟩
  | elsewhere _ other ih =>
    obtain ⟨js, r, hgathering, rfl, hjs⟩ := ih
    obtain ⟨r', hother, hview⟩ := helsewhere _ _ other
    exact ⟨js, r', hgathering.elsewhere hother, hview, hjs⟩

end Gathering

end Job

end LiveRecords

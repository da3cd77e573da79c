import LiveRecords.Proofs.Job.Interference

/-
  Jobs that finish.

  Others change the world between the steps of a job, and sometimes the job needs them to:
  it waits for what they do. `Finishes` says that a job comes to its end in such company: it
  does not break down, and wherever it waits, the others can still do what it waits for.
  So a run of the job can be brought to its end wherever it stands (`Finishes.goes_on`), and
  however it ends, it ends as it should (`Finishes.of_goes`).
-/

namespace LiveRecords

namespace Job

open Relation (ReflTransGen)

variable {σ α β : Type}

/-- Whatever others do in between, a job comes to its end, and then `post` holds of its
result and of the world from then on. -/
def Finishes (others : σ → σ → Prop) (post : α → σ → Prop) : Job σ α → σ → Prop
  | .done a, s => ∀ s', ReflTransGen others s s' → post a s'
  | .broken, _ => False
  | .step change next, s => ∀ s', ReflTransGen others s s' →
      Finishes others post (next s') (change s')
  | .wait w next, s => ∀ s', ReflTransGen others s s' →
      (∃ s'', ReflTransGen others s' s'' ∧ w.ready s'' = true) ∧
      (w.ready s' = true → Finishes others post next s')

namespace Finishes

variable {others : σ → σ → Prop} {post : α → σ → Prop} {post' : β → σ → Prop} {j j' : Job σ α}
  {s s' : σ}

theorem result {a : α} (h : Finishes others post (.done a) s) : post a s := h s .refl

theorem mono {post' : α → σ → Prop} (h : Finishes others post j s)
    (hpost : ∀ a s', post a s' → post' a s') : Finishes others post' j s := by
  induction j generalizing s with
  | done a => exact fun s' hs => hpost a s' (h s' hs)
  | broken => exact h
  | step change next ih => exact fun s' hs => ih s' (h s' hs)
  | wait w next ih => exact fun s' hs => ⟨(h s' hs).1, fun hr => ih ((h s' hs).2 hr)⟩

/-- What others do does not matter. -/
theorem later (h : Finishes others post j s) (hs : ReflTransGen others s s') :
    Finishes others post j s' := by
  cases j with
  | done a => exact fun t ht => h t (hs.trans ht)
  | broken => exact h
  | step change next => exact fun t ht => h t (hs.trans ht)
  | wait w next => exact fun t ht => h t (hs.trans ht)

theorem bind {k : α → Job σ β} (h : Finishes others post j s)
    (hk : ∀ a s', post a s' → Finishes others post' (k a) s') :
    Finishes others post' (j.bind k) s := by
  induction j generalizing s with
  | done a => exact hk a s h.result
  | broken => exact h.elim
  | step change next ih => exact fun s' hs => ih s' (h s' hs)
  | wait w next ih => exact fun s' hs => ⟨(h s' hs).1, fun hr => ih ((h s' hs).2 hr)⟩

/-- A job that finishes has no use for what is undone where it does not. -/
theorem onDrop (h : Finishes others post j s) (undo : σ → σ) :
    Finishes others post (j.onDrop undo) s := by
  induction j generalizing s with
  | done a => exact h
  | broken => exact h.elim
  | step change next ih => exact fun s' hs => ih s' (h s' hs)
  | wait w next ih => exact fun s' hs => ⟨(h s' hs).1, fun hr => ih ((h s' hs).2 hr)⟩

theorem orElse (h : Finishes others post j s) (fallback : Job σ α) :
    Finishes others post (orElse fallback j) s := by
  induction j generalizing s with
  | done a => exact h
  | broken => exact h.elim
  | step change next ih => exact fun s' hs => ih s' (h s' hs)
  | wait w next ih => exact fun s' hs => ⟨(h s' hs).1, fun hr => ih ((h s' hs).2 hr)⟩

theorem deeper (h : Finishes others post j s) : Finishes others post j.deeper s := by
  induction j generalizing s with
  | done a => exact h
  | broken => exact h.elim
  | step change next ih => exact fun s' hs => ih s' (h s' hs)
  | wait w next ih => exact fun s' hs => ⟨(h s' hs).1, fun hr => ih ((h s' hs).2 hr)⟩

/-- A wait that is over at once is none. -/
theorem wait_ready {w : Wait σ} (ready : ∀ s, w.ready s = true) (h : Finishes others post j s) :
    Finishes others post (.wait w j) s :=
  fun s' hs => ⟨⟨s', .refl, ready s'⟩, fun _ => h.later hs⟩

/-- A job that is handed over finishes as it does where it stands. -/
theorem handOver {undo : σ → σ} {discard : α → σ → σ} {fallback : Job σ α}
    (h : Finishes others post j s)
    (hlater : ∀ a s s', post a s → ReflTransGen others s s' → post a s') :
    Finishes others post (handOver undo discard fallback j) s := by
  have hturn : Finishes others post ((turn id).bind fun _ => j) s := wait_ready (fun _ => rfl) h
  refine ((hturn.onDrop undo).orElse fallback).deeper.bind fun a s' hpost => ?_
  exact wait_ready (fun _ => rfl) fun s'' hs => hlater a s' s'' hpost hs

/-- A step of the job, or of the others, leads to a job that finishes. -/
theorem moves (h : Finishes others post j s) (hm : Moves j s j' s') :
    Finishes others post j' s' := by
  cases hm with
  | step => exact h s .refl
  | wait ready => exact (h s .refl).2 ready

theorem of_goes (h : Finishes others post j s) (goes : Goes others j s j' s') :
    Finishes others post j' s' := by
  suffices hrun : ∀ y : Job σ α × σ,
      ReflTransGen
        (fun x y : Job σ α × σ => Moves x.1 x.2 y.1 y.2 ∨ (y.1 = x.1 ∧ others x.2 y.2)) (j, s) y →
      Finishes others post y.1 y.2 from hrun _ goes
  intro y hrun
  induction hrun with
  | refl => exact h
  | tail _ hlast ih =>
    rcases hlast with hmoves | ⟨hsame, hothers⟩
    · exact ih.moves hmoves
    · rw [hsame]
      exact ih.later (.single hothers)

/-- What others do is part of how a job goes on. -/
theorem goes_of_others (j : Job σ α) (hs : ReflTransGen others s s') : Goes others j s j s' := by
  suffices hrun : ∀ t, ReflTransGen others s t → Goes others j s j t from hrun _ hs
  intro t hrun
  induction hrun with
  | refl => exact .refl
  | tail _ hlast ih => exact ih.tail (.inr ⟨rfl, hlast⟩)

/-- A job that finishes can go on to its end. -/
theorem goes_on (h : Finishes others post j s) : ∃ a s', Goes others j s (.done a) s' := by
  induction j generalizing s with
  | done a => exact ⟨a, s, .refl⟩
  | broken => exact h.elim
  | step change next ih =>
    obtain ⟨a, s', hgoes⟩ := ih s (h s .refl)
    exact ⟨a, s', hgoes.head (.inl .step)⟩
  | wait w next ih =>
    obtain ⟨t, ht, hready⟩ := (h s .refl).1
    obtain ⟨a, s', hgoes⟩ := ih ((h t ht).2 hready)
    exact ⟨a, s', (goes_of_others _ ht).trans (hgoes.head (.inl (.wait hready)))⟩

end Finishes

end Job

end LiveRecords

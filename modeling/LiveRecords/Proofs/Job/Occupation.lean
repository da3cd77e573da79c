import LiveRecords.Proofs.Job.Interference

/-
  Jobs that occupy a place until they end.

  A place that is given to a job has to be free again once the job has ended, however it
  ends: with its last step, or where it is dropped. `Occupies` says that of a job, and that
  no other step of it touches the place. A job that never touches the place (`Confined`)
  occupies it if it is freed behind the job, also where the job breaks down, is handed over
  or is dropped (`Confined.occupies_freeing`, `Confined.occupies_handed`).
-/

namespace LiveRecords

namespace Job

variable {σ α β : Type}

/-- What a job does in a step relates the world before it to the world after it, and so does
what is undone wherever the job may be dropped. -/
def Confined (keeps : σ → σ → Prop) : Job σ α → Prop
  | .done _ => True
  | .broken => True
  | .step change next => ∀ s, keeps s (change s) ∧ Confined keeps (next s)
  | .wait w next => (∀ s, keeps s (w.undo s)) ∧ Confined keeps next

/-- Every step of a job keeps something until the last one, which ends it; where the job is
dropped before, something else happens. The job has not ended, and does not break down. -/
def Occupies (keeps : σ → σ → Prop) (ends : σ → σ → α → Prop) (drops : σ → σ → Prop) :
    Job σ α → Prop
  | .done _ => False
  | .broken => False
  | .step change next => ∀ s, (∃ a, next s = .done a ∧ ends s (change s) a) ∨
      keeps s (change s) ∧ Occupies keeps ends drops (next s)
  | .wait w next => (∀ s, drops s (w.undo s)) ∧ Occupies keeps ends drops next

namespace Confined

variable {keeps : σ → σ → Prop} {j : Job σ α} {s s' : σ}

theorem bind {k : α → Job σ β} (h : Confined keeps j) (hk : ∀ a, Confined keeps (k a)) :
    Confined keeps (j.bind k) := by
  induction j with
  | done a => exact hk a
  | broken => trivial
  | step change next ih => exact fun s => ⟨(h s).1, ih s (h s).2⟩
  | wait w next ih => exact ⟨h.1, ih h.2⟩

theorem onDrop {undo : σ → σ} (h : Confined keeps j) (hrefl : ∀ s, keeps s s)
    (hundo : ∀ s s', keeps s s' → keeps s (undo s')) : Confined keeps (j.onDrop undo) := by
  induction j with
  | done a => trivial
  | broken => exact fun s => ⟨hundo s s (hrefl s), trivial⟩
  | step change next ih => exact fun s => ⟨(h s).1, ih s (h s).2⟩
  | wait w next ih => exact ⟨fun s => hundo s _ (h.1 s), ih h.2⟩

/-- A step of the job does what each of its steps does, and leads to such a job. -/
theorem moves {j' : Job σ α} (h : Confined keeps j) (hm : Moves j s j' s') :
    (s' = s ∨ keeps s s') ∧ Confined keeps j' := by
  cases hm with
  | step => exact ⟨.inr (h s).1, (h s).2⟩
  | wait ready => exact ⟨.inl rfl, h.2⟩

theorem dropped {w : Wait σ} (h : Confined keeps j) (stands : j.current? = some w) (s : σ) :
    keeps s (w.undo s) := by
  cases j with
  | wait w' next =>
    cases stands
    exact h.1 s
  | done a => cases stands
  | broken => cases stands
  | step change next => cases stands

end Confined

namespace Occupies

variable {keeps drops : σ → σ → Prop} {ends : σ → σ → α → Prop} {j : Job σ α} {s s' : σ}

/-- A step of the job is its last, or it keeps what the job keeps. -/
theorem moves {j' : Job σ α} (h : Occupies keeps ends drops j) (hm : Moves j s j' s') :
    (∃ a, j' = .done a ∧ ends s s' a) ∨ (s' = s ∨ keeps s s') ∧ Occupies keeps ends drops j' := by
  cases hm with
  | step =>
    rcases h s with hlast | ⟨hkeeps, hnext⟩
    · exact .inl hlast
    · exact .inr ⟨.inr hkeeps, hnext⟩
  | wait ready => exact .inr ⟨.inl rfl, h.2⟩

theorem dropped {w : Wait σ} (h : Occupies keeps ends drops j) (stands : j.current? = some w)
    (s : σ) : drops s (w.undo s) := by
  cases j with
  | wait w' next =>
    cases stands
    exact h.1 s
  | done a => exact h.elim
  | broken => exact h.elim
  | step change next => cases stands

theorem mono {ends' : σ → σ → α → Prop} (h : Occupies keeps ends drops j)
    (hends : ∀ s s' a, ends s s' a → ends' s s' a) : Occupies keeps ends' drops j := by
  induction j with
  | done a => exact h
  | broken => exact h
  | step change next ih =>
    refine fun s => (h s).imp ?_ fun hstep => ⟨hstep.1, ih s hstep.2⟩
    rintro ⟨a, ha, hend⟩
    exact ⟨a, ha, hends _ _ a hend⟩
  | wait w next ih => exact ⟨h.1, ih h.2⟩

theorem ne_done (h : Occupies keeps ends drops j) (a : α) : j ≠ .done a := by
  rintro rfl
  exact h

end Occupies

namespace Confined

variable {keeps frees : σ → σ → Prop} {free : σ → σ} {work : Job σ α}

/-- A job that is handed over, and that frees the place behind it, occupies the place. -/
theorem occupies_freeing (h : Confined keeps work) (hrefl : ∀ s, keeps s s)
    (hfree : ∀ s s', keeps s s' → frees s (free s')) (b : α) :
    Occupies keeps (fun s s' _ => frees s s') frees
      (Job.orElse (.done b)
        ((work.bind fun a => (modify free).bind fun _ => .done a).onDrop free)).deeper := by
  have hnow (s : σ) : frees s (free s) := hfree s s (hrefl s)
  induction work with
  | done a => exact fun s => .inl ⟨a, rfl, hnow s⟩
  | broken => exact fun s => .inl ⟨b, rfl, hnow s⟩
  | step change next ih => exact fun s => .inr ⟨(h s).1, ih s (h s).2⟩
  | wait w next ih => exact ⟨fun s => hfree s _ (h.1 s), ih h.2⟩

/-- Work that is handed over and does not touch the place is part of a job that occupies it,
if whatever comes behind the work occupies it. -/
theorem occupies_handed {ends : σ → σ → β → Prop} {k : α → Job σ α} {l : α → Job σ β}
    (h : Confined keeps work) (hfree : ∀ s s', keeps s s' → frees s (free s')) (b : α)
    (behind : ∀ a, Occupies keeps ends frees (((k a).onDrop free).bind l)) :
    Occupies keeps ends frees
      ((((Job.orElse (.done b) work).deeper.bind k).onDrop free).bind l) := by
  induction work with
  | done a => exact behind a
  | broken => exact behind b
  | step change next ih => exact fun s => .inr ⟨(h s).1, ih s (h s).2⟩
  | wait w next ih => exact ⟨fun s => hfree s _ (h.1 s), ih h.2⟩

end Confined

/-! ## Two jobs in a row -/

theorem Moves.bind {j i : Job σ α} {k : α → Job σ β} {s s' : σ} (h : Moves j s i s') :
    Moves (j.bind k) s (i.bind k) s' := by
  cases h with
  | step => exact .step
  | wait ready => exact .wait ready

/-- A step of two jobs in a row is one of the first, unless that one has ended. -/
theorem Moves.of_bind {j : Job σ α} {k : α → Job σ β} {i : Job σ β} {s s' : σ}
    (h : Moves (j.bind k) s i s') (going : ∀ a, j ≠ .done a) :
    ∃ i', Moves j s i' s' ∧ i = i'.bind k := by
  cases j with
  | done a => exact absurd rfl (going a)
  | broken => cases h
  | step change next =>
    cases h
    exact ⟨_, .step, rfl⟩
  | wait w next =>
    cases h with
    | wait ready => exact ⟨_, .wait ready, rfl⟩

theorem current?_of_bind {j : Job σ α} {k : α → Job σ β} {w : Wait σ}
    (h : (j.bind k).current? = some w) (going : ∀ a, j ≠ .done a) : j.current? = some w := by
  cases j with
  | done a => exact absurd rfl (going a)
  | broken => cases h
  | step change next => cases h
  | wait w' next => exact h

end Job

end LiveRecords

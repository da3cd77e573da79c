import Mathlib.Logic.Relation
import LiveRecords.Job.Basic

/-
  Jobs that others interfere with.

  A job shares its world with others, who may change it between any two of its steps.
  What they may do to it, and what the job itself may do, are the terms on which they
  share it (`Terms`). `Ensures` says that a job keeps the terms with every step and
  ends, if it ends, as it should, whatever the others do within the terms; it follows
  the job step by step (`Ensures.moves`) and from one job to the next
  (`Ensures.bind`). A job all of whose steps leave something as it was is of no
  concern to it (`Each.ensures`).
-/

namespace LiveRecords

namespace Job

variable {σ α β : Type}

/-- One step of a job in its world. -/
inductive Moves : Job σ α → σ → Job σ α → σ → Prop where
  | step {change : σ → σ} {next : σ → Job σ α} {s : σ} :
      Moves (.step change next) s (next s) (change s)
  | wait {w : Wait σ} {next : Job σ α} {s : σ} (ready : w.ready s = true) :
      Moves (.wait w next) s next s

/-- A job that nothing interferes with moves to its end. -/
theorem moves_of_alone {j : Job σ α} {s s' : σ} {a : α} (h : j.alone s = some (a, s')) :
    Relation.ReflTransGen (fun x y : Job σ α × σ => Moves x.1 x.2 y.1 y.2) (j, s) (.done a, s') := by
  induction j generalizing s with
  | done b =>
    cases h
    exact .refl
  | broken => cases h
  | step change next ih => exact (ih s h).head .step
  | wait w next ih =>
    unfold alone at h
    split at h
    · next hready => exact (ih h).head (.wait hready)
    · cases h

/-- The terms on which a job shares its world: what others may do to it between two
steps, and what a step of the job may do. -/
structure Terms (σ : Type) where
  rely : σ → σ → Prop
  guarantee : σ → σ → Prop
  rely_refl : ∀ s, rely s s
  rely_trans : ∀ {s s' s''}, rely s s' → rely s' s'' → rely s s''

/-- Whatever the others do within the terms, every step of the job is within them too,
and where the job ends `post` holds of its result and of the world from then on. -/
def Ensures (T : Terms σ) (post : α → σ → Prop) : Job σ α → σ → Prop
  | .done a, s => ∀ s', T.rely s s' → post a s'
  | .broken, _ => True
  | .step change next, s => ∀ s', T.rely s s' →
      T.guarantee s' (change s') ∧ Ensures T post (next s') (change s')
  | .wait w next, s => ∀ s', T.rely s s' → w.ready s' = true → Ensures T post next s'

namespace Ensures

variable {T : Terms σ} {post : α → σ → Prop} {post' : β → σ → Prop} {j : Job σ α} {s s' : σ}

theorem result {a : α} (h : Ensures T post (.done a) s) : post a s := h s (T.rely_refl s)

theorem mono {post' : α → σ → Prop} (h : Ensures T post j s)
    (hpost : ∀ a s', post a s' → post' a s') : Ensures T post' j s := by
  induction j generalizing s with
  | done a => exact fun s' hs => hpost a s' (h s' hs)
  | broken => trivial
  | step change next ih => exact fun s' hs => ⟨(h s' hs).1, ih s' (h s' hs).2⟩
  | wait w next ih => exact fun s' hs hr => ih (h s' hs hr)

/-- On terms that allow the others less, and the job itself more. -/
theorem loosen {T' : Terms σ} (h : Ensures T post j s)
    (hrely : ∀ s s', T'.rely s s' → T.rely s s')
    (hguarantee : ∀ s s', T.guarantee s s' → T'.guarantee s s') : Ensures T' post j s := by
  induction j generalizing s with
  | done a => exact fun s' hs => h s' (hrely _ _ hs)
  | broken => trivial
  | step change next ih =>
    intro s' hs
    obtain ⟨hstep, hnext⟩ := h s' (hrely _ _ hs)
    exact ⟨hguarantee _ _ hstep, ih s' hnext⟩
  | wait w next ih => exact fun s' hs hr => ih (h s' (hrely _ _ hs) hr)

/-- What others do does not matter. -/
theorem later (h : Ensures T post j s) (hs : T.rely s s') : Ensures T post j s' := by
  cases j with
  | done a => exact fun t ht => h t (T.rely_trans hs ht)
  | broken => trivial
  | step change next => exact fun t ht => h t (T.rely_trans hs ht)
  | wait w next => exact fun t ht => h t (T.rely_trans hs ht)

/-- A step of the job is within the terms and leads to a job that ensures the same. -/
theorem moves {j' : Job σ α} (h : Ensures T post j s) (hm : Moves j s j' s') :
    (s' = s ∨ T.guarantee s s') ∧ Ensures T post j' s' := by
  cases hm with
  | step =>
    obtain ⟨hguarantee, hnext⟩ := h s (T.rely_refl s)
    exact ⟨.inr hguarantee, hnext⟩
  | wait ready => exact ⟨.inl rfl, h s (T.rely_refl s) ready⟩

theorem bind {k : α → Job σ β} (h : Ensures T post j s)
    (hk : ∀ a s', post a s' → Ensures T post' (k a) s') : Ensures T post' (j.bind k) s := by
  induction j generalizing s with
  | done a => exact hk a s h.result
  | broken => trivial
  | step change next ih => exact fun s' hs => ⟨(h s' hs).1, ih s' (h s' hs).2⟩
  | wait w next ih => exact fun s' hs hr => ih (h s' hs hr)

theorem map {f : α → β} (h : Ensures T post j s)
    (hf : ∀ a s', post a s' → post' (f a) s') : Ensures T post' (j.bind fun a => .done (f a)) s := by
  induction j generalizing s with
  | done a => exact fun s' hs => hf a s' (h s' hs)
  | broken => trivial
  | step change next ih => exact fun s' hs => ⟨(h s' hs).1, ih s' (h s' hs).2⟩
  | wait w next ih => exact fun s' hs hr => ih (h s' hs hr)

theorem and {post' : α → σ → Prop} (h : Ensures T post j s) (h' : Ensures T post' j s) :
    Ensures T (fun a s' => post a s' ∧ post' a s') j s := by
  induction j generalizing s with
  | done a => exact fun s' hs => ⟨h s' hs, h' s' hs⟩
  | broken => trivial
  | step change next ih => exact fun s' hs => ⟨(h s' hs).1, ih s' (h s' hs).2 (h' s' hs).2⟩
  | wait w next ih => exact fun s' hs hr => ih (h s' hs hr) (h' s' hs hr)

theorem onDrop {undo : σ → σ} (h : Ensures T post j s)
    (hundo : ∀ s', T.guarantee s' (undo s')) : Ensures T post (j.onDrop undo) s := by
  induction j generalizing s with
  | done a => exact h
  | broken => exact fun s' _ => ⟨hundo s', trivial⟩
  | step change next ih => exact fun s' hs => ⟨(h s' hs).1, ih s' (h s' hs).2⟩
  | wait w next ih => exact fun s' hs hr => ih (h s' hs hr)

end Ensures

/-- A job goes on in its world: it takes steps, and between them others do what they may. -/
abbrev Goes (rely : σ → σ → Prop) (j : Job σ α) (s : σ) (j' : Job σ α) (s' : σ) : Prop :=
  Relation.ReflTransGen
    (fun x y : Job σ α × σ => Moves x.1 x.2 y.1 y.2 ∨ (y.1 = x.1 ∧ rely x.2 y.2)) (j, s) (j', s')

/-- A job that nothing interferes with goes to its end. -/
theorem goes_of_alone {rely : σ → σ → Prop} {j : Job σ α} {s s' : σ} {a : α}
    (h : j.alone s = some (a, s')) : Goes rely j s (.done a) s' :=
  Relation.ReflTransGen.mono (fun _ _ moves => .inl moves) _ _ (moves_of_alone h)

theorem Goes.mono {rely rely' : σ → σ → Prop} {j j' : Job σ α} {s s' : σ}
    (h : Goes rely j s j' s') (hrely : ∀ s s', rely s s' → rely' s s') : Goes rely' j s j' s' :=
  Relation.ReflTransGen.mono (fun _ _ hstep => hstep.imp id fun hother =>
    ⟨hother.1, hrely _ _ hother.2⟩) _ _ h

theorem Ensures.goes {T : Terms σ} {post : α → σ → Prop} {j j' : Job σ α} {s s' : σ}
    (h : Ensures T post j s) (goes : Goes T.rely j s j' s') : Ensures T post j' s' := by
  suffices hrun : ∀ y : Job σ α × σ,
      Relation.ReflTransGen
        (fun x y : Job σ α × σ => Moves x.1 x.2 y.1 y.2 ∨ (y.1 = x.1 ∧ T.rely x.2 y.2)) (j, s) y →
      Ensures T post y.1 y.2 from hrun _ goes
  intro y hrun
  induction hrun with
  | refl => exact h
  | tail _ hlast ih =>
    rcases hlast with hmoves | ⟨hsame, hrely⟩
    · exact (ih.moves hmoves).2
    · rw [hsame]
      exact ih.later hrely

/-- Every step of a job relates the world before it to the world after it. -/
def Each (keeps : σ → σ → Prop) : Job σ α → Prop
  | .done _ => True
  | .broken => True
  | .step change next => ∀ s, keeps s (change s) ∧ Each keeps (next s)
  | .wait _ next => Each keeps next

namespace Each

variable {keeps : σ → σ → Prop} {j : Job σ α}

theorem bind {k : α → Job σ β} (h : Each keeps j) (hk : ∀ a, Each keeps (k a)) :
    Each keeps (j.bind k) := by
  induction j with
  | done a => exact hk a
  | broken => trivial
  | step change next ih => exact fun s => ⟨(h s).1, ih s (h s).2⟩
  | wait w next ih => exact ih h

theorem mono {keeps' : σ → σ → Prop} (h : Each keeps j)
    (hkeeps : ∀ s s', keeps s s' → keeps' s s') : Each keeps' j := by
  induction j with
  | done a => trivial
  | broken => trivial
  | step change next ih => exact fun s => ⟨hkeeps _ _ (h s).1, ih s (h s).2⟩
  | wait w next ih => exact ih h

theorem onDrop {undo : σ → σ} (h : Each keeps j) (hundo : ∀ s, keeps s (undo s)) :
    Each keeps (j.onDrop undo) := by
  induction j with
  | done a => exact h
  | broken => exact fun s => ⟨hundo s, trivial⟩
  | step change next ih => exact fun s => ⟨(h s).1, ih s (h s).2⟩
  | wait w next ih => exact ih h

/-- What a job does that only does what others may do anyway is no news. -/
theorem ensures {T : Terms σ} (h : Each keeps j) (s : σ)
    (hkeeps : ∀ s s', keeps s s' → T.rely s s' ∧ T.guarantee s s') :
    Ensures T (fun _ s' => T.rely s s') j s := by
  -- the world may have gone on since `s`, within the terms
  suffices hfrom : ∀ t, T.rely s t → Ensures T (fun _ s' => T.rely s s') j t from
    hfrom s (T.rely_refl s)
  induction j with
  | done a => exact fun t ht s' hs => T.rely_trans ht hs
  | broken => exact fun _ _ => trivial
  | step change next ih =>
    intro t ht s' hs
    obtain ⟨hrely, hguarantee⟩ := hkeeps s' (change s') (h s').1
    exact ⟨hguarantee, ih s' (h s').2 _ (T.rely_trans (T.rely_trans ht hs) hrely)⟩
  | wait w next ih => exact fun t ht s' hs _ => ih h s' (T.rely_trans ht hs)

/-- A step of the job does what each of its steps does, and leads to such a job. -/
theorem moves {j' : Job σ α} {s s' : σ} (h : Each keeps j) (hm : Moves j s j' s') :
    (s' = s ∨ keeps s s') ∧ Each keeps j' := by
  cases hm with
  | step => exact ⟨.inr (h s).1, (h s).2⟩
  | wait ready => exact ⟨.inl rfl, h⟩

end Each

/-! ## Last steps -/

/-- Every last step of a job relates the world before it, the world after it and the
result of the job. -/
def Ends (goal : σ → σ → α → Prop) : Job σ α → Prop
  | .done _ => True
  | .broken => True
  | .step change next => ∀ s, Ends goal (next s) ∧ ∀ a, next s = .done a → goal s (change s) a
  | .wait w next => ∀ s, w.ready s = true → Ends goal next ∧ ∀ a, next = .done a → goal s s a

namespace Ends

variable {goal : σ → σ → α → Prop} {goal' : σ → σ → β → Prop} {j : Job σ α}

theorem moves {j' : Job σ α} {s s' : σ} (h : Ends goal j) (hm : Moves j s j' s') :
    Ends goal j' ∧ ∀ a, j' = .done a → goal s s' a := by
  cases hm with
  | step => exact h s
  | wait ready => exact h s ready

theorem anyhow (j : Job σ α) : Ends (fun _ _ _ => True) j := by
  induction j with
  | done a => trivial
  | broken => trivial
  | step change next ih => exact fun s => ⟨ih s, fun _ _ => trivial⟩
  | wait w next ih => exact fun _ _ => ⟨ih, fun _ _ => trivial⟩

theorem mono {goal' : σ → σ → α → Prop} (h : Ends goal j)
    (hgoal : ∀ s s' a, goal s s' a → goal' s s' a) : Ends goal' j := by
  induction j with
  | done a => trivial
  | broken => trivial
  | step change next ih =>
    exact fun s => ⟨ih s (h s).1, fun a ha => hgoal _ _ a ((h s).2 a ha)⟩
  | wait w next ih =>
    exact fun s hr => ⟨ih (h s hr).1, fun a ha => hgoal _ _ a ((h s hr).2 a ha)⟩

/-- The last step of two jobs in a row is that of the second, unless that one has
nothing to do. -/
theorem bind {k : α → Job σ β}
    (h : Ends (fun s s' a => ∀ b, k a = .done b → goal' s s' b) j)
    (hk : ∀ a, Ends goal' (k a)) : Ends goal' (j.bind k) := by
  have hdone : ∀ {j : Job σ α} {b : β}, j.bind k = .done b → ∃ a, j = .done a ∧ k a = .done b := by
    intro j b hb
    cases j with
    | done a => exact ⟨a, rfl, hb⟩
    | broken => cases hb
    | step change next => cases hb
    | wait w next => cases hb
  induction j with
  | done a => exact hk a
  | broken => trivial
  | step change next ih =>
    refine fun s => ⟨ih s (h s).1, fun b hb => ?_⟩
    obtain ⟨a, ha, hka⟩ := hdone hb
    exact (h s).2 a ha b hka
  | wait w next ih =>
    refine fun s hr => ⟨ih (h s hr).1, fun b hb => ?_⟩
    obtain ⟨a, ha, hka⟩ := hdone hb
    exact (h s hr).2 a ha b hka

theorem and {goal' : σ → σ → α → Prop} (h : Ends goal j) (h' : Ends goal' j) :
    Ends (fun s s' a => goal s s' a ∧ goal' s s' a) j := by
  induction j with
  | done a => trivial
  | broken => trivial
  | step change next ih =>
    exact fun s => ⟨ih s (h s).1 (h' s).1, fun a ha => ⟨(h s).2 a ha, (h' s).2 a ha⟩⟩
  | wait w next ih =>
    exact fun s hr => ⟨ih (h s hr).1 (h' s hr).1,
      fun a ha => ⟨(h s hr).2 a ha, (h' s hr).2 a ha⟩⟩

end Ends

/-- What a job ensures of its result, whatever others do, it ensures in its last step. -/
theorem Ensures.ends {T : Terms σ} {post : α → Prop} {j : Job σ α}
    (h : ∀ s, Ensures T (fun a _ => post a) j s) (hrely : ∀ s s', T.rely s s') :
    Ends (fun _ _ a => post a) j := by
  have hresult : ∀ {j : Job σ α} {a : α} {s : σ},
      Ensures T (fun a _ => post a) j s → j = .done a → post a := by
    intro j a s h hj
    subst hj
    exact h.result
  induction j with
  | done a => trivial
  | broken => trivial
  | step change next ih =>
    intro t
    have hnext : Ensures T (fun a _ => post a) (next t) (change t) := (h t t (hrely t t)).2
    exact ⟨ih t fun s => hnext.later (hrely _ s), fun a ha => hresult hnext ha⟩
  | wait w next ih =>
    intro t hr
    have hnext : Ensures T (fun a _ => post a) next t := h t t (hrely t t) hr
    exact ⟨ih fun s => hnext.later (hrely _ s), fun a ha => hresult hnext ha⟩

/-- The last step of a job is one of its steps. -/
theorem Each.ends {keeps : σ → σ → Prop} {j : Job σ α} (h : Each keeps j)
    (hrefl : ∀ s, keeps s s) : Ends (fun s s' _ => keeps s s') j := by
  induction j with
  | done a => trivial
  | broken => trivial
  | step change next ih => exact fun s => ⟨ih s (h s).2, fun _ _ => (h s).1⟩
  | wait w next ih => exact fun s _ => ⟨ih h, fun _ _ => hrefl s⟩

end Job

end LiveRecords

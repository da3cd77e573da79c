import Mathlib.Logic.Nonempty
import Mathlib.Tactic.Choose
import LiveRecords.Proofs.Job.Finishing
import LiveRecords.Session.Readers

/-
  Work that comes to one thing.

  One caller at a time uses the store. Meanwhile time passes and pipes carry rows
  (`World.Serves`), and neither is any of the store's business: what a request comes to
  depends on the essence of the world alone, and so does what becomes of it
  (`Job.Steady`). That goes from one job to the next (`Job.Steady.bind`), however long the
  jobs wait.
-/

namespace LiveRecords

open Relation (ReflTransGen)
open Job (Finishes)

namespace World

/-- What happens while a caller waits: time passes, or rows are carried through a pipe. -/
inductive Serves : World → World → Prop
  | passes (w : World) {time : Nat} (later : w.now ≤ time) : Serves w { w with now := time }
  | carries (w : World) (pipe moves : Nat) : Serves w (w.carryRows pipe moves)

/-- No pipe has anything left to do. -/
def Drained (w : World) : Prop := ∀ p ∈ w.pipes, p.finished = true

/-- The world without the time and without what belongs to the layers above the store. -/
def essence (w : World) : World := { w with now := 0, gates := [], pipes := [] }

/-- The gates and pipes are as they were. -/
structure Unmoved (w w' : World) : Prop where
  gates : w'.gates = w.gates
  pipes : w'.pipes = w.pipes

/-- Nothing has happened, but time may have passed. -/
structure Idles (w w' : World) : Prop extends w.Unmoved w' where
  essence : w'.essence = w.essence

variable {w w' w'' : World}

theorem Unmoved.trans (h : w.Unmoved w') (h' : w'.Unmoved w'') : w.Unmoved w'' :=
  ⟨h'.gates.trans h.gates, h'.pipes.trans h.pipes⟩

theorem Unmoved.drained (h : w.Unmoved w') (drained : w.Drained) : w'.Drained := by
  unfold Drained
  rw [h.pipes]
  exact drained

theorem Idles.refl (w : World) : w.Idles w := ⟨⟨rfl, rfl⟩, rfl⟩

theorem Idles.trans (h : w.Idles w') (h' : w'.Idles w'') : w.Idles w'' :=
  ⟨h.toUnmoved.trans h'.toUnmoved, h'.essence.trans h.essence⟩

/-- A pipe that has ended carries nothing. -/
theorem carryRows_of_finished {pipe : Nat}
    (finished : ∀ p, w.pipes[pipe]? = some p → p.finished = true) (moves : Nat) :
    w.carryRows pipe moves = w := by
  cases moves with
  | zero => rfl
  | succ moves =>
    unfold carryRows
    cases hp : w.pipes[pipe]? with
    | none => rfl
    | some p => simp [pipeReady, finished p hp]

/-- Where no pipe has anything to do, only time passes. -/
theorem Drained.idles (drained : w.Drained) (serves : ReflTransGen Serves w w') : w.Idles w' := by
  induction serves with
  | refl => exact .refl w
  | @tail b c _ hlast ih =>
    cases hlast with
    | passes later => exact ih.trans ⟨⟨rfl, rfl⟩, rfl⟩
    | carries pipe moves =>
      have hb := ih.toUnmoved.drained drained
      rw [carryRows_of_finished fun p hp => hb p (List.mem_of_getElem? hp)]
      exact ih

end World

namespace Job

variable {α β : Type} {P : World → Prop} {Q : α → World → Prop} {R : β → World → Prop}

/-- What a job comes to, and what becomes of the essence of the world, depends on the essence
alone. Where `P` holds before, `Q` holds after; gates and pipes are left alone. -/
def Steady (P : World → Prop) (Q : α → World → Prop) (j : Job World α) : Prop :=
  ∃ f : World → α × World, ∀ w : World, w.Drained → P w.essence →
    j.Finishes World.Serves (fun a w' =>
      w.Unmoved w' ∧ Q a w'.essence ∧ (a, w'.essence) = f w.essence) w

namespace Steady

theorem mono {P' : World → Prop} {Q' : α → World → Prop} {j : Job World α}
    (h : Steady P Q j) (hP : ∀ v, P' v → P v) (hQ : ∀ a v, Q a v → Q' a v) :
    Steady P' Q' j := by
  obtain ⟨f, hf⟩ := h
  refine ⟨f, fun w hdrained hw => (hf w hdrained (hP _ hw)).mono fun a w' hend => ?_⟩
  exact ⟨hend.1, hQ _ _ hend.2.1, hend.2.2⟩

/-- Nothing needs to be known of what does not happen. -/
theorem never [Nonempty α] {j : Job World α} (h : ∀ v, ¬ P v) : Steady P Q j :=
  ⟨fun v => (Classical.arbitrary α, v), fun _ _ hw => absurd hw (h _)⟩

theorem done {a : α} (h : ∀ v, P v → Q a v) : Steady P Q (.done a) := by
  refine ⟨fun v => (a, v), fun w hdrained hw w' hw' => ?_⟩
  have hidles := hdrained.idles hw'
  refine ⟨hidles.toUnmoved, ?_, congrArg (Prod.mk a) hidles.essence⟩
  rw [hidles.essence]
  exact h _ hw

theorem bind {j : Job World α} {k : α → Job World β} (h : Steady P Q j)
    (hk : ∀ a, Steady (Q a) R (k a)) : Steady P R (j.bind k) := by
  obtain ⟨f, hf⟩ := h
  choose g hg using hk
  refine ⟨fun v => g (f v).1 (f v).2, fun w hdrained hw => ?_⟩
  refine (hf w hdrained hw).bind fun a w' hend => ?_
  obtain ⟨hunmoved, hQ, hf'⟩ := hend
  refine (hg a w' (hunmoved.drained hdrained) hQ).mono fun b w'' hlast => ?_
  refine ⟨hunmoved.trans hlast.1, hlast.2.1, ?_⟩
  dsimp only
  rw [hlast.2.2, ← hf']

theorem onDrop {j : Job World α} (h : Steady P Q j) (undo : World → World) :
    Steady P Q (j.onDrop undo) := by
  obtain ⟨f, hf⟩ := h
  exact ⟨f, fun _ hdrained hw => (hf _ hdrained hw).onDrop undo⟩

/-- A change of the essence that looks at nothing else. -/
theorem act {f : World → α × World} (unmoved : ∀ w : World, w.Unmoved (f w).2)
    (same : ∀ w : World, ((f w).1, (f w).2.essence) = ((f w.essence).1, (f w.essence).2.essence))
    (h : ∀ v, P v → Q (f v).1 (f v).2.essence) : Steady P Q (Job.act f) := by
  refine ⟨fun v => ((f v).1, (f v).2.essence), fun w hdrained hw w₁ hw₁ w₂ hw₂ => ?_⟩
  have hidles := hdrained.idles hw₁
  have hafter := ((unmoved w₁).drained (hidles.toUnmoved.drained hdrained)).idles hw₂
  have hresult : ((f w₁).1, w₂.essence) = ((f w.essence).1, (f w.essence).2.essence) := by
    rw [hafter.essence, same w₁, hidles.essence]
  refine ⟨(hidles.toUnmoved.trans (unmoved w₁)).trans hafter.toUnmoved, ?_, hresult⟩
  obtain ⟨hfst, hsnd⟩ := Prod.mk.inj hresult
  rw [hfst, hsnd]
  exact h _ hw

theorem modify {f : World → World} {Q : World → Prop} (unmoved : ∀ w : World, w.Unmoved (f w))
    (same : ∀ w : World, (f w).essence = (f w.essence).essence)
    (h : ∀ v, P v → Q (f v).essence) : Steady P (fun _ => Q) (Job.modify f) :=
  act (f := fun w => ((), f w)) unmoved (fun w => congrArg (Prod.mk ()) (same w)) h

/-- A wait that is over at once. -/
theorem turn {undo : World → World} {ready : World → Bool} {deadline : Option Nat}
    {Q : World → Prop} (ready_all : ∀ w, ready w = true) (h : ∀ v, P v → Q v) :
    Steady P (fun _ => Q) (Job.waitFor ready deadline undo) := by
  obtain ⟨f, hf⟩ : Steady P (fun _ => Q) (.done ()) := done h
  exact ⟨f, fun w hdrained hw => .wait_ready ready_all (hf w hdrained hw)⟩

theorem read {f : World → α} (same : ∀ w : World, f w = f w.essence) :
    Steady P (fun a v => P v ∧ a = f v) (Job.read f) := by
  refine ⟨fun v => (f v, v), fun w hdrained hw w₁ hw₁ w₂ hw₂ => ?_⟩
  have hidles := hdrained.idles hw₁
  have hafter := (hidles.toUnmoved.drained hdrained).idles hw₂
  have hessence : w₂.essence = w.essence := hafter.essence.trans hidles.essence
  dsimp only
  rw [hessence, same w₁, hidles.essence]
  exact ⟨hidles.toUnmoved.trans hafter.toUnmoved, ⟨hw, rfl⟩, rfl⟩

end Steady

end Job

/-! ## Work -/

open Job (Steady)

namespace Work

variable {α β : Type} {P : World → Prop} {Q : Outcome α → World → Prop}
  {R : Outcome β → World → Prop}

theorem finishes_bind {others : World → World → Prop} {post : Outcome α → World → Prop}
    {post' : Outcome β → World → Prop} {x : Work α} {f : α → Work β} {w : World}
    (hx : x.run.Finishes others post w)
    (hf : ∀ a w', post (.ok a) w' → (f a).run.Finishes others post' w')
    (herror : ∀ e w', post (.error e) w' →
      (Job.done (.error e) : Job World (Outcome β)).Finishes others post' w') :
    (x >>= f).run.Finishes others post' w := by
  rw [ExceptT.run_bind]
  refine hx.bind fun result w' hpost => ?_
  cases result with
  | ok a => exact hf a w' hpost
  | error e => exact herror e w' hpost

theorem steady_bind {x : Work α} {f : α → Work β} (hx : Steady P Q x.run)
    (hf : ∀ a, Steady (Q (.ok a)) R (f a).run) (herror : ∀ e v, Q (.error e) v → R (.error e) v) :
    Steady P R (x >>= f).run := by
  rw [ExceptT.run_bind]
  refine Steady.bind hx fun result => ?_
  cases result with
  | ok a => exact hf a
  | error e => exact .done (herror e)

theorem steady_ofJob {j : Job World α} (h : Steady P (fun a => Q (.ok a)) j) :
    Steady P Q (ofJob j).run := Steady.bind h fun _ => .done fun _ hv => hv

/-- However long the time for which work waits, that is all it does. -/
theorem steady_pause (time : Option Nat) :
    Steady P (fun result v => P v ∧ result = .ok ()) (pause time).run := by
  cases time with
  | none => exact .done fun v hv => ⟨hv, rfl⟩
  | some milliseconds =>
    refine ⟨fun v => (.ok (), v), fun w hdrained hw w₁ hw₁ w₂ hw₂ => ?_⟩
    have hidles := (hdrained.idles hw₁).trans
      (((hdrained.idles hw₁).toUnmoved.drained hdrained).idles hw₂)
    refine ⟨⟨_, .single (.passes w₂ (Nat.le_max_left w₂.now (w₁.now + milliseconds))), ?_⟩, ?_⟩
    · exact decide_eq_true (Nat.le_max_right ..)
    · intro _ w₃ hw₃
      have hafter := hidles.trans ((hidles.toUnmoved.drained hdrained).idles hw₃)
      rw [hafter.essence]
      exact ⟨hafter.toUnmoved, ⟨hw, rfl⟩, rfl⟩

/-- Work that comes to one thing, and keeps what is known of the world. -/
def Keeping (P : World → Prop) (work : Work α) : Prop := Steady P (fun _ => P) work.run

namespace Keeping

theorem bind {x : Work α} {f : α → Work β} (hx : Keeping P x) (hf : ∀ a, Keeping P (f a)) :
    Keeping P (x >>= f) := steady_bind hx hf fun _ _ hv => hv

theorem pure (a : α) : Keeping P (pure a : Work α) := Steady.done fun _ hv => hv

theorem outcome (o : Outcome α) : Keeping P (liftM o : Work α) := Steady.done fun _ hv => hv

theorem read {f : World → α} (same : ∀ w : World, f w = f w.essence) :
    Keeping P (ofJob (.read f)) :=
  steady_ofJob ((Steady.read same).mono (fun _ hv => hv) fun _ _ h => h.1)

theorem act {f : World → α × World} (unmoved : ∀ w : World, w.Unmoved (f w).2)
    (same : ∀ w : World, ((f w).1, (f w).2.essence) = ((f w.essence).1, (f w.essence).2.essence))
    (h : ∀ v, P v → P (f v).2.essence) : Keeping P (ofJob (.act f)) :=
  steady_ofJob (.act unmoved same h)

theorem modify {f : World → World} (unmoved : ∀ w : World, w.Unmoved (f w))
    (same : ∀ w : World, (f w).essence = (f w.essence).essence)
    (h : ∀ v, P v → P (f v).essence) : Keeping P (ofJob (.modify f)) :=
  steady_ofJob (.modify unmoved same h)

/-- A change of the essence that may fail. -/
theorem attempt {f : World → Outcome (α × World)} (still : ∀ v, P v → P v.essence)
    (unmoved : ∀ (w : World) (a : α) (w' : World), f w = .ok (a, w') → w.Unmoved w')
    (same : ∀ w : World, (f w).map (fun x => (x.1, x.2.essence)) =
      (f w.essence).map fun x => (x.1, x.2.essence))
    (h : ∀ (v : World) (a : α) (v' : World), P v → f v = .ok (a, v') → P v'.essence) :
    Keeping P (Work.act f) := by
  refine Steady.act (fun w => ?_) (fun w => ?_) fun v hv => ?_
  · cases hw : f w with
    | ok x => exact unmoved w x.1 x.2 hw
    | error e => exact ⟨rfl, rfl⟩
  · have hsame := same w
    revert hsame
    cases f w with
    | ok x =>
      cases f w.essence with
      | ok y =>
        intro hsame
        obtain ⟨hfst, hsnd⟩ := Prod.mk.inj (Except.ok.inj hsame)
        exact Prod.ext (congrArg Except.ok hfst) hsnd
      | error e => exact fun hsame => by cases hsame
    | error e =>
      cases f w.essence with
      | ok y => exact fun hsame => by cases hsame
      | error e' => exact fun hsame => Prod.ext (congrArg Except.error (Except.error.inj hsame)) rfl
  · cases hv' : f v with
    | ok x => exact h v x.1 x.2 hv hv'
    | error e => exact still v hv

theorem pause (time : Option Nat) : Keeping P (pause time) :=
  (steady_pause time).mono (fun _ hv => hv) fun _ _ h => h.1

theorem inContext {x : Work α} (hx : Keeping P x) (context : String) :
    Keeping P (x.inContext context) := Steady.bind hx fun _ => .done fun _ hv => hv

end Keeping

end Work

end LiveRecords

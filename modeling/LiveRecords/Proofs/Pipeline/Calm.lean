import LiveRecords.Pipeline.Handler
import LiveRecords.Proofs.Pipeline.Clients

/-
  Requests while nobody writes.

  Time passes, tables are declared and others read and listen, but the documents stay as
  they are (`World.Calm`). Work that is done meanwhile may be interrupted at any point,
  and it is known what it comes to (`Work.Settles`): that goes from one step to the next
  (`Settles.bind`). A valid request that reads the store settles on what the store shows,
  or fails because its table could not be declared (`Undeclared`).
-/

namespace LiveRecords

open Job (Ensures Goes Terms)

/-- Nothing was written, and the pipeline is what it was. -/
structure World.Calm (w w' : World) : Prop where
  store : w'.store = w.store
  offersFeed : w'.offersFeed = w.offersFeed
  catalog : w'.catalog = w.catalog

namespace World.Calm

theorem refl (w : World) : w.Calm w := ⟨rfl, rfl, rfl⟩

theorem trans {w w' w'' : World} (h : w.Calm w') (h' : w'.Calm w'') : w.Calm w'' :=
  ⟨h'.store.trans h.store, h'.offersFeed.trans h.offersFeed, h'.catalog.trans h.catalog⟩

theorem of_keeps {w w' : World} (h : w.Keeps w') : w.Calm w' :=
  ⟨h.store.symm, h.offersFeed, h.catalog⟩

end World.Calm

/-- Others do not write. -/
def calm : Terms World where
  rely := World.Calm
  guarantee _ _ := True
  rely_refl := .refl
  rely_trans := .trans

/-- What is ensured on some terms is ensured on terms that allow the others less. -/
theorem Job.Ensures.within {σ α : Type} {T T' : Terms σ} {post : α → σ → Prop} {j : Job σ α} {s : σ}
    (h : Ensures T post j s) (hrely : ∀ s s', T'.rely s s' → T.rely s s')
    (free : ∀ s s', T'.guarantee s s') : Ensures T' post j s := by
  induction j generalizing s with
  | done a => exact fun s' hs => h s' (hrely _ _ hs)
  | broken => trivial
  | step change next ih => exact fun s' hs => ⟨free _ _, ih s' (h s' (hrely _ _ hs)).2⟩
  | wait w next ih => exact fun s' hs hr => ih (h s' (hrely _ _ hs) hr)

/-- The failure is that the table of a type could not be declared. -/
def Undeclared (type : EntityType) (e : Failure) : Prop :=
  ∃ cause, e = .inContext (Backend.declaring type) cause

/-- An outcome is as wanted, or it is the failure to declare a table. -/
def Settled {α : Type} (type : EntityType) (goal : α → Prop) : Outcome α → Prop
  | .ok a => goal a
  | .error e => Undeclared type e

/-- While others do not write, neither does the work, and its outcome settles. -/
def Work.Settles {α : Type} (type : EntityType) (goal : α → Prop) (work : Work α) (w : World) :
    Prop :=
  Ensures calm (fun result w' => w.Calm w' ∧ Settled type goal result) work.run w

namespace Work.Settles

variable {α β : Type} {type : EntityType} {goal : α → Prop} {goal' : β → Prop} {x : Work α}
  {w w' : World}

theorem mono {goal' : α → Prop} (h : Settles type goal x w) (hgoal : ∀ a, goal a → goal' a) :
    Settles type goal' x w := by
  refine Ensures.mono h fun result w' hend => ⟨hend.1, ?_⟩
  cases result with
  | ok a => exact hgoal a hend.2
  | error e => exact hend.2

theorem pure {a : α} (h : goal a) : Settles type goal (pure a) w := fun _ hw' => ⟨hw', h⟩

theorem goes {result : Outcome α} (h : Settles type goal x w)
    (goes : Goes World.Calm x.run w (.done result) w') : Settled type goal result :=
  (Ensures.goes h goes).result.2

/-- What settles later, while nobody has written, settles. -/
theorem since (hw : w.Calm w') (h : Settles type goal x w') :
    Ensures calm (fun result w'' => w.Calm w'' ∧ Settled type goal result) x.run w' :=
  Ensures.mono h fun _ _ hend => ⟨hw.trans hend.1, hend.2⟩

theorem bind {f : α → Work β} (h : Settles type goal x w)
    (hf : ∀ a w', w.Calm w' → goal a → Settles type goal' (f a) w') :
    Settles type goal' (x >>= f) w := by
  refine Work.ensures_bind h (fun a w' hend => ?_) fun e w' hend w'' hw'' => ?_
  · exact since hend.1 (hf a w' hend.1 hend.2)
  · exact ⟨hend.1.trans hw'', hend.2⟩

theorem outcome {a : α} {o : Outcome α} (h : o = .ok a) :
    Settles type (· = a) (liftM o : Work α) w := by
  subst h
  exact fun _ hw' => ⟨hw', rfl⟩

theorem read (f : World → α) :
    Settles type (fun a => ∃ now, w.Calm now ∧ a = f now) (ofJob (.read f)) w :=
  fun now hnow => ⟨trivial, fun _ hw' => ⟨hnow.trans hw', now, hnow, rfl⟩⟩

theorem act {f : World → α × World} (h : ∀ now : World, now.Calm (f now).2) :
    Settles type (fun a => ∃ now, w.Calm now ∧ a = (f now).1) (ofJob (.act f)) w :=
  fun now hnow => ⟨trivial, fun _ hw' => ⟨(hnow.trans (h now)).trans hw', now, hnow, rfl⟩⟩

theorem orUndo {undo : World → World} (h : Settles type goal x w)
    (hundo : ∀ now : World, now.Calm (undo now)) :
    Settles type goal (x.orUndo undo) w := by
  refine Ensures.bind (Ensures.onDrop h fun _ => trivial) fun result w' hend => ?_
  cases result with
  | ok a => exact fun w'' hw'' => ⟨hend.1.trans hw'', hend.2⟩
  | error e =>
    exact fun now hnow => ⟨trivial, fun w'' hw'' =>
      ⟨((hend.1.trans hnow).trans (hundo now)).trans hw'', hend.2⟩⟩

end Work.Settles

/-! ## The store -/

namespace Backend

open Work (Settles)

variable {q : Query} {run : Query.Compiled} {w : World}

theorem settles_prepare (type : EntityType) (w : World) :
    Settles type (fun _ => True) (prepare type) w := by
  have hcalm : Ensures calm (fun _ w' => w.Calm w') (prepare type).run w :=
    (each_prepare type).ensures w fun _ _ h => ⟨.of_keeps h, trivial⟩
  have hfailure : Ensures calm (fun result _ => ∀ e, result = .error e → Undeclared type e)
      (prepare type).run w :=
    (ensures_prepare_declaring type w).within (fun _ _ _ => trivial) fun _ _ => trivial
  refine (hcalm.and hfailure).mono fun result w' hend => ⟨hend.1, ?_⟩
  cases result with
  | ok u => trivial
  | error e => exact hend.2 e rfl

/-- What is read of the store is what it was before. -/
theorem settles_read {α : Type} (type : EntityType) (f : Store → α) {w w' : World}
    (hw : w.Calm w') :
    Settles type (· = f w.store) (Work.ofJob (.read fun w => f w.store)) w' := by
  refine (Settles.read _).mono fun _ hread => ?_
  obtain ⟨now, hnow, rfl⟩ := hread
  rw [(hw.trans hnow).store]

theorem settles_query (prepared : q.prepare = .ok run) (w : World) :
    Settles q.entity (· = .listed (w.store.query q run)) (query q) w := by
  refine (Settles.outcome prepared).bind fun _ w₁ hw₁ hrun => ?_
  rw [hrun]
  refine (settles_prepare q.entity w₁).bind fun _ w₂ hw₂ _ => ?_
  refine (settles_read q.entity (·.query q run) (hw₁.trans hw₂)).bind fun _ _ _ hread => .pure ?_
  exact congrArg Rows.listed hread

theorem settles_snapshot (prepared : q.prepare = .ok run) (w : World) :
    Settles q.entity (· = w.store.snapshot q run) (snapshot q) w := by
  refine (Settles.outcome prepared).bind fun _ w₁ hw₁ hrun => ?_
  rw [hrun]
  refine (settles_prepare q.entity w₁).bind fun _ w₂ hw₂ _ => ?_
  exact settles_read q.entity (·.snapshot q run) (hw₁.trans hw₂)

theorem settles_live (valid : q.validate = .ok ()) (offers : w.offersFeed = true) :
    Settles q.entity (fun _ => True) (live q) w := by
  refine (Settles.read World.offersFeed).bind fun offered w₁ _ hread => ?_
  obtain ⟨now, hnow, rfl⟩ := hread
  rw [hnow.offersFeed, offers]
  refine (Settles.outcome valid).bind fun _ w₂ _ _ => ?_
  refine (settles_prepare q.entity w₂).bind fun _ w₃ _ _ => ?_
  exact (Settles.act fun now => ⟨rfl, rfl, rfl⟩).mono fun _ _ => trivial

end Backend

end LiveRecords

import LiveRecords.Proofs.Pipeline.Steadiness
import LiveRecords.Proofs.References.Calls
import LiveRecords.Proofs.References.Remains

/-
  What a writer comes to while nobody else writes.

  Each call of a writer waits, and has a table declared, before it is carried out. If nobody
  else writes meanwhile, the store answers the call as it stood when the call was made, or
  the declaration fails and the store stays as it is. So what holds of a plan however its
  calls are answered (`Plan.Ensures`) holds of the writer (`of_written`).

  Without declarations no call fails but by the store. Then the writer comes to an end, and
  to just what its plan comes to alone (`finishes_as_planned`).
-/

namespace LiveRecords

open Job (Each Finishes Goes Terms)
open Relation (ReflTransGen)

namespace Plan

variable {α β : Type} {post : α → Store → Prop} {s : Store}

/-! ## Plans that may be refused -/

/-- Each call is answered by the store, or with a failure that leaves the store as it is;
and whichever it is, `post` holds in the end. -/
def Ensures (post : α → Store → Prop) : Plan α → Store → Prop
  | .done a, s => post a s
  | .ask call next, s =>
    Ensures post (next (call.run s).1) (call.run s).2 ∧ ∀ e, Ensures post (next (.error e)) s

theorem ensures_bind_iff (p : Plan α) (k : α → Plan β) (post : β → Store → Prop) (s : Store) :
    (p.bind k).Ensures post s ↔ p.Ensures (fun a s' => (k a).Ensures post s') s := by
  induction p generalizing s with
  | done a => exact Iff.rfl
  | ask call next ih => exact and_congr (ih _ _) (forall_congr' fun e => ih _ _)

theorem Ensures.mono {post' : α → Store → Prop} {p : Plan α} (h : p.Ensures post s)
    (hpost : ∀ a s', post a s' → post' a s') : p.Ensures post' s := by
  induction p generalizing s with
  | done a => exact hpost a s h
  | ask call next ih => exact ⟨ih _ h.1, fun e => ih _ (h.2 e)⟩

/-- If a plan does not fail, however its calls are answered, it ends as it should. -/
def Gives (goal : α → Store → Prop) (x : ExceptT Failure Plan α) (s : Store) : Prop :=
  x.run.Ensures (fun result s' => ∀ a, result = .ok a → goal a s') s

namespace Gives

variable {goal : α → Store → Prop} {goal' : β → Store → Prop} {x : ExceptT Failure Plan α}

theorem mono {goal' : α → Store → Prop} (h : Gives goal x s)
    (hgoal : ∀ a s', goal a s' → goal' a s') : Gives goal' x s :=
  Ensures.mono h fun _ s' hpost a ha => hgoal a s' (hpost a ha)

theorem bind {f : α → ExceptT Failure Plan β} (h : Gives goal x s)
    (hf : ∀ a s', goal a s' → Gives goal' (f a) s') : Gives goal' (x >>= f) s := by
  refine (ensures_bind_iff ..).2 (Ensures.mono h fun result s' hpost => ?_)
  cases result with
  | ok a => exact hf a s' (hpost a rfl)
  | error e => exact fun _ ha => by cases ha

theorem pure {a : α} (h : goal a s) : Gives goal (pure a) s := fun _ ha => by
  cases ha
  exact h

theorem throw (e : Failure) : Gives goal (throw e : ExceptT Failure Plan α) s :=
  fun _ ha => by cases ha

theorem outcome (o : Outcome α) (s : Store) :
    Gives (fun a s' => s' = s ∧ o = .ok a) (liftM o : ExceptT Failure Plan α) s :=
  fun _ ha => ⟨rfl, ha⟩

theorem adapt {change : Failure → Failure} (h : Gives goal x s) :
    Gives goal (ExceptT.adapt change x) s := by
  refine (ensures_bind_iff ..).2 (Ensures.mono h fun result s' hpost a ha => ?_)
  cases result with
  | ok b =>
    cases ha
    exact hpost a rfl
  | error e => cases ha

theorem discard (h : Gives goal x s) : Gives (fun _ s' => ∃ a, goal a s') (discard x) s := by
  refine (ensures_bind_iff ..).2 (Ensures.mono h fun result s' hpost => ?_)
  cases result with
  | ok a => exact fun _ _ => ⟨a, hpost a rfl⟩
  | error e => exact fun _ ha => by cases ha

/-- A call that is not refused is answered by the store. -/
theorem one (call : StoreCall) {goal : call.Answer → Store → Prop}
    (h : ∀ a s', call.run s = (.ok a, s') → goal a s') : Gives goal (Plan.one call) s := by
  refine ⟨fun a ha => h a _ (Prod.ext ha rfl), fun e _ ha => by cases ha⟩

end Gives

/-- What is written is answered, and the store is changed as the mode says. -/
theorem gives_change {T : EntityType} (d : Value) (mode : WriteMode) :
    Gives (fun v s' => v = d ∧ mode.change T d s = .ok s') (References.writeEntity planned T d mode) s := by
  have hone : Gives (fun v s' => v = d ∧ mode.change T d s = .ok s')
      (Plan.one (.write T d mode)) s := by
    refine Gives.one (.write T d mode) fun v s' hrun => ?_
    cases hchange : mode.change T d s with
    | ok next =>
      rw [StoreCall.run_write_ok hchange] at hrun
      cases hrun
      exact ⟨rfl, rfl⟩
    | error e =>
      rw [StoreCall.run_write_error hchange] at hrun
      cases hrun
  cases mode <;> exact hone

end Plan

namespace References

variable {c : Catalog} {T : EntityType} {w w' : World}

/-! ## Writers among others that do not write -/

/-- Others do not write, and whatever else happens is of no concern. -/
def amidIdlers : Terms World where
  rely := Idle
  guarantee _ _ := True
  rely_refl := Idle.refl
  rely_trans := @Idle.trans

/-- What a plan ensures, work ensures as well, and leaves the catalogue as it is. -/
def EnsuresAll {α : Type} (p : Plan α) (j : Job World α) : Prop :=
  ∀ (w : World) (post : α → Store → Prop), p.Ensures post w.store →
    Job.Ensures amidIdlers (fun a w' => post a w'.store ∧ w'.catalog = w.catalog) j w

theorem EnsuresAll.bind {α β : Type} {p : Plan α} {j : Job World α} {f : α → Plan β}
    {g : α → Job World β} (h : EnsuresAll p j) (hf : ∀ a, EnsuresAll (f a) (g a)) :
    EnsuresAll (p.bind f) (j.bind g) := by
  intro w post hplan
  refine (h w _ ((Plan.ensures_bind_iff ..).1 hplan)).bind fun a w₁ hend => ?_
  refine (hf a w₁ post hend.1).mono fun b w' hlast => ?_
  exact ⟨hlast.1, hlast.2.trans hend.2⟩

theorem EnsuresAll.pure {α : Type} (a : α) : EnsuresAll (pure a) (pure a) := by
  intro w post hplan w' hw'
  exact ⟨hw'.1.symm ▸ hplan, hw'.2⟩

/-- Plans and work that ensures whatever they ensure. -/
def amid : Parallel Plan (Job World) where
  rel := EnsuresAll
  pure := .pure
  map h _ := h.bind fun _ => .pure _
  bind h hf := h.bind hf

/-- Work for a call either fails and leaves the store as it is, or is done as the store does
it. -/
theorem ensuresAll_one {call : StoreCall} {j : Job World (Outcome call.Answer)}
    (h : ∀ w : World, Job.Ensures amidIdlers (fun result w' => w'.catalog = w.catalog ∧
      ((∃ e, result = .error e ∧ w'.store = w.store) ∨
        (result, w'.store) = call.run w.store)) j w) :
    EnsuresAll (Plan.one call).run j := by
  intro w post hplan
  refine (h w).mono fun result w' hend => ?_
  obtain ⟨hcatalog, ⟨e, rfl, hstore⟩ | hrun⟩ := hend
  · exact ⟨hstore.symm ▸ hplan.2 e, hcatalog⟩
  · obtain ⟨hanswer, hstore⟩ := Prod.mk.inj hrun
    exact ⟨hanswer.symm ▸ hstore.symm ▸ hplan.1, hcatalog⟩

theorem ensuresAll_find (T : EntityType) (key : Value) :
    EnsuresAll (Plan.one (.find T key)).run (backing.find T key).run := by
  refine ensuresAll_one fun w => ?_
  cases hq : Query.byKey T key with
  | error e =>
    show Job.Ensures _ _ (liftM (Query.byKey T key) >>= fun q => Backend.query q >>= Rows.first :
      Work _).run w
    rw [hq]
    exact fun w' hw' => ⟨hw'.2, .inl ⟨e, rfl, hw'.1⟩⟩
  | ok q =>
    obtain ⟨p, hp, _⟩ := Query.byKey_ok hq
    have hkeyed : T.key?.isSome = true := by
      rw [hp]
      rfl
    have hidle := (Handler.idle_find T key).ensures (T := amidIdlers) w fun _ _ h => ⟨h, trivial⟩
    have hlookup : Work.Gives amidIdlers (fun found _ => found = w.store.lookup T key)
        (Handler.ofStore (.find T key)) w :=
      (gives_lookup w.catalog (fun _ => .text) hkeyed key w).loosen (fun _ _ h => h)
        fun _ _ _ => trivial
    refine (hidle.and hlookup).mono fun result w' hend => ⟨hend.1.2, ?_⟩
    cases result with
    | error e => exact .inl ⟨e, rfl, hend.1.1⟩
    | ok found =>
      refine .inr ?_
      show _ = ((Query.byKey T key).map fun _ => w.store.lookup T key, w.store)
      rw [hq, hend.2 found rfl, hend.1.1]
      rfl

theorem ensuresAll_write (T : EntityType) (d : Value) (mode : WriteMode) :
    EnsuresAll (Plan.one (.write T d mode)).run (writeEntity backing T d mode).run := by
  refine ensuresAll_one fun w => ?_
  rw [writeEntity_eq]
  have hidle : ∀ s s' : World, Idle s s' → amidIdlers.rely s s' ∧ True := fun _ _ h => ⟨h, trivial⟩
  have hrequire : Each Idle (discard (liftM (T.requireKey d)) : Work Unit).run :=
    Work.each_discard (x := liftM (T.requireKey d)) trivial
  -- what fails before the change of the store leaves it as it is
  refine Work.ensures_bind (hrequire.ensures w hidle) ?_ fun e w₁ h w' hw' =>
    ⟨(h.trans hw').2, .inl ⟨e, rfl, (h.trans hw').1⟩⟩
  intro _ w₁ hw₁
  refine Work.ensures_bind ((Backend.idle_prepare T).ensures w₁ hidle) ?_ fun e w₂ h w' hw' =>
    ⟨((hw₁.trans h).trans hw').2, .inl ⟨e, rfl, ((hw₁.trans h).trans hw').1⟩⟩
  intro _ w₂ hw₂ now hnow
  refine ⟨trivial, ?_⟩
  have hnow : Idle w now := (hw₁.trans hw₂).trans hnow
  rw [← hnow.1]
  cases hchange : mode.change T d now.store with
  | ok s' =>
    simp only [hchange, bind, Except.bind]
    intro w' hw'
    exact ⟨hw'.2.trans hnow.2, .inr ((StoreCall.run_write_ok hchange).symm ▸
      Prod.ext rfl hw'.1)⟩
  | error e =>
    simp only [hchange, bind, Except.bind]
    exact fun w' hw' => ⟨hw'.2.trans hnow.2, .inl ⟨e, rfl, hw'.1⟩⟩

/-- Where a write succeeds while nobody else writes, its plan says what has come of it. -/
theorem of_written (mem : T ∈ w.catalog.types) {d v : Value} {mode : WriteMode}
    {goal : Value → Store → Prop} (h : Plan.Gives goal (write planned w.catalog T d mode) w.store)
    (written : Goes Idle (request T d mode) w (.done (.ok v)) w') :
    goal v w'.store ∧ w'.catalog = w.catalog := by
  have hstores : amid.Stores w.catalog planned backing :=
    { find T _ key := ensuresAll_find T key
      insert T _ d := ensuresAll_write T d .insert
      update T _ d expected := ensuresAll_write T d (.update expected)
      upsert T _ d := ensuresAll_write T d .upsert }
  have hwrite := Parallel.rel_write hstores mem d mode
  have hrequest : Job.Ensures amidIdlers
      (fun result w' => (∀ v, result = .ok v → goal v w'.store) ∧ w'.catalog = w.catalog)
      (request T d mode) w := by
    refine ensures_request_of_write (fun _ => trivial) (fun _ h => h.2) ?_ fun w₁ hw₁ => ?_
    · exact fun _ _ _ hend => ⟨fun _ hv => (by cases hv), hend.2⟩
    · refine (hwrite w₁ _ (hw₁.1.symm ▸ h)).mono fun _ _ hend => ?_
      exact ⟨hend.1, hend.2.trans hw₁.2⟩
  obtain ⟨hgoal, hcatalog⟩ := (hrequest.goes written).result
  exact ⟨hgoal v rfl, hcatalog⟩

/-! ## Writers that come to their end -/

/-- Nobody writes or changes how the store is set up; time may pass. -/
structure Undisturbed (w w' : World) : Prop where
  store : w'.store = w.store
  catalog : w'.catalog = w.catalog
  schemaUse : w'.schemaUse = w.schemaUse
  later : w.now ≤ w'.now

theorem Undisturbed.refl (w : World) : Undisturbed w w := ⟨rfl, rfl, rfl, Nat.le_refl _⟩

theorem Undisturbed.trans {w'' : World} (h : Undisturbed w w') (h' : Undisturbed w' w'') :
    Undisturbed w w'' :=
  ⟨h'.store.trans h.store, h'.catalog.trans h.catalog, h'.schemaUse.trans h.schemaUse,
    h.later.trans h'.later⟩

theorem Undisturbed.of_run (h : ReflTransGen Undisturbed w w') : Undisturbed w w' := by
  induction h with
  | refl => exact .refl w
  | tail _ hlast ih => exact ih.trans hlast

/-- Without declarations work comes to its end, and to what a plan comes to alone. -/
def EndsAs {α : Type} (p : Plan α) (j : Job World α) : Prop :=
  ∀ w : World, w.schemaUse = .unused →
    j.Finishes Undisturbed (fun a w' => (a, w'.store) = p.alone w.store ∧
      w'.catalog = w.catalog ∧ w'.schemaUse = w.schemaUse) w

theorem EndsAs.pure {α : Type} (a : α) : EndsAs (pure a) (pure a) := by
  intro w _ w' hw'
  have hstill := Undisturbed.of_run hw'
  exact ⟨Prod.ext rfl hstill.store, hstill.catalog, hstill.schemaUse⟩

theorem EndsAs.bind {α β : Type} {p : Plan α} {j : Job World α} {f : α → Plan β}
    {g : α → Job World β} (h : EndsAs p j) (hf : ∀ a, EndsAs (f a) (g a)) :
    EndsAs (p.bind f) (j.bind g) := by
  intro w unused
  refine (h w unused).bind fun a w₁ hend => ?_
  obtain ⟨hresult, hcatalog, huse⟩ := hend
  refine (hf a w₁ (huse.trans unused)).mono fun b w' hlast => ?_
  rw [Plan.alone_bind, ← hresult]
  exact ⟨hlast.1, hlast.2.1.trans hcatalog, hlast.2.2.trans huse⟩

/-- Plans and work that comes to what they come to, however long it waits. -/
def toTheEnd : Parallel Plan (Job World) where
  rel := EndsAs
  pure := .pure
  map h _ := h.bind fun _ => .pure _
  bind h hf := h.bind hf

theorem finishes_read {α : Type} (f : World → α) (w : World) :
    (Work.ofJob (.read f)).run.Finishes Undisturbed
      (fun result w' => ∃ now, Undisturbed w now ∧ Undisturbed now w' ∧ result = .ok (f now)) w :=
  fun now hnow _ hw' => ⟨now, .of_run hnow, .of_run hw', rfl⟩

theorem finishes_of_ok {α β : Type} {o : Outcome α} {a : α} {f : α → Work β}
    {post : Outcome β → World → Prop} (ok : o = .ok a)
    (h : (f a).run.Finishes Undisturbed post w) :
    (liftM o >>= f : Work β).run.Finishes Undisturbed post w := by
  subst ok
  exact h

theorem finishes_pause (time : Option Nat) (w : World) :
    (Work.pause time).run.Finishes Undisturbed
      (fun result w' => result = .ok () ∧ Undisturbed w w') w := by
  cases time with
  | none => exact fun w' hw' => ⟨rfl, .of_run hw'⟩
  | some milliseconds =>
    intro w₁ hw₁ w₂ hw₂
    have hlater : Undisturbed w w₂ := (Undisturbed.of_run hw₁).trans (.of_run hw₂)
    refine ⟨⟨{ w₂ with now := max w₂.now (w₁.now + milliseconds) }, .single ?_, ?_⟩, ?_⟩
    · exact ⟨rfl, rfl, rfl, Nat.le_max_left ..⟩
    · exact decide_eq_true (Nat.le_max_right ..)
    · exact fun _ w₃ hw₃ => ⟨rfl, hlater.trans (.of_run hw₃)⟩

/-- However long the store takes, some time it is ready for a request. -/
theorem finishes_prepare (T : EntityType) (unused : w.schemaUse = .unused) :
    (Backend.prepare T).run.Finishes Undisturbed
      (fun result w' => result = .ok () ∧ Undisturbed w w') w := by
  refine Work.finishes_bind (finishes_read World.latency w) ?_ ?_
  · rintro time w₁ ⟨now, hnow, hw₁, -⟩
    have h₁ := hnow.trans hw₁
    refine Work.finishes_bind (finishes_pause time w₁) ?_ fun e w₂ hend => by cases hend.1
    rintro - w₂ ⟨-, hw₂⟩
    have h₂ := h₁.trans hw₂
    refine Work.finishes_bind (finishes_read World.schemaUse w₂) ?_ ?_
    · rintro use w₃ ⟨now, hnow, hw₃, huse⟩
      have h₃ := h₂.trans hnow
      obtain rfl : use = .unused := by
        rw [Except.ok.inj huse, h₃.schemaUse, unused]
      exact fun w' hw' => ⟨rfl, (h₃.trans hw₃).trans (.of_run hw')⟩
    · rintro e w₃ ⟨_, _, _, ⟨⟩⟩
  · rintro e w₁ ⟨_, _, _, ⟨⟩⟩

/-- Work for a call that is done as the store does it. -/
theorem endsAs_one {call : StoreCall} {j : Job World (Outcome call.Answer)}
    (h : ∀ w : World, w.schemaUse = .unused → j.Finishes Undisturbed (fun result w' =>
      (result, w'.store) = call.run w.store ∧ w'.catalog = w.catalog ∧
        w'.schemaUse = w.schemaUse) w) :
    EndsAs (Plan.one call).run j := h

theorem finishes_first (rows : List Value) (w : World) :
    (Rows.first (.listed rows)).run.Finishes Undisturbed
      (fun result w' => result = .ok rows.head? ∧ Undisturbed w w') w := by
  intro w₁ hw₁
  refine ⟨⟨w₁, .refl, rfl⟩, fun _ w₂ hw₂ w₃ hw₃ w' hw' => ?_⟩
  have hlater : Undisturbed w w₂ := (Undisturbed.of_run hw₁).trans (.of_run hw₂)
  cases rows <;> exact ⟨rfl, (hlater.trans (.of_run hw₃)).trans (.of_run hw')⟩

theorem endsAs_find (T : EntityType) (key : Value) :
    EndsAs (Plan.one (.find T key)).run (backing.find T key).run := by
  refine endsAs_one fun w unused => ?_
  show Job.Finishes _ _ (liftM (Query.byKey T key) >>= fun q => Backend.query q >>= Rows.first :
    Work _).run w
  cases hq : Query.byKey T key with
  | error e =>
    intro w' hw'
    have hstill := Undisturbed.of_run hw'
    refine ⟨Prod.ext ?_ hstill.store, hstill.catalog, hstill.schemaUse⟩
    show _ = (Query.byKey T key).map fun _ => w.store.lookup T key
    rw [hq]
    rfl
  | ok q =>
    obtain ⟨p, hp, -⟩ := Query.byKey_ok hq
    obtain ⟨q', hq', hentity, hprepare⟩ := Query.prepare_byKey hp key
    obtain rfl := Except.ok.inj (hq.symm.trans hq')
    have hquery : (Backend.query q).run.Finishes Undisturbed (fun result w' =>
        result = .ok (.listed (w.store.query q (.forKey p key))) ∧ Undisturbed w w') w := by
      refine finishes_of_ok hprepare ?_
      refine Work.finishes_bind (finishes_prepare q.entity unused) ?_ fun e w₁ hend => by
        cases hend.1
      rintro - w₁ ⟨-, hw₁⟩
      refine Work.finishes_bind (finishes_read _ w₁) ?_ fun e w₂ hend => ?_
      · rintro rows w₂ ⟨now, hnow, hw₂, hrows⟩
        have hstill := hw₁.trans hnow
        rw [Except.ok.inj hrows, hstill.store]
        exact fun w' hw' => ⟨rfl, (hstill.trans hw₂).trans (.of_run hw')⟩
      · obtain ⟨_, _, _, ⟨⟩⟩ := hend
    refine finishes_of_ok rfl (Work.finishes_bind hquery ?_ fun e w₁ hend => by cases hend.1)
    rintro rows w₁ ⟨hrows, hw₁⟩
    obtain rfl := Except.ok.inj hrows
    refine (finishes_first _ w₁).mono fun result w' hend => ?_
    have hstill := hw₁.trans hend.2
    refine ⟨Prod.ext ?_ hstill.store, hstill.catalog, hstill.schemaUse⟩
    show _ = (Query.byKey T key).map fun _ => w.store.lookup T key
    rw [hend.1, w.store.head?_query hp hentity, hq]
    rfl

theorem endsAs_write (T : EntityType) (d : Value) (mode : WriteMode) :
    EndsAs (Plan.one (.write T d mode)).run (writeEntity backing T d mode).run := by
  refine endsAs_one fun w unused => ?_
  rw [writeEntity_eq]
  unfold Backend.write
  cases hrequire : T.requireKey d with
  | error e =>
    intro w' hw'
    have hstill := Undisturbed.of_run hw'
    rw [StoreCall.run_write_error (change_of_requireKey hrequire mode w.store)]
    exact ⟨Prod.ext rfl hstill.store, hstill.catalog, hstill.schemaUse⟩
  | ok key =>
    show (Backend.prepare T >>= fun _ => Work.act fun w => do
      return (d, { w with store := ← mode.change T d w.store }) : Work Value).run.Finishes _ _ w
    refine Work.finishes_bind (finishes_prepare T unused) ?_ fun e w₁ hend => by cases hend.1
    rintro - w₁ ⟨-, hw₁⟩ now hnow
    have hstill := hw₁.trans (.of_run hnow)
    rw [← hstill.store]
    cases hchange : mode.change T d now.store with
    | ok s' =>
      simp only [hchange, bind, Except.bind]
      intro w' hw'
      have hafter := Undisturbed.of_run hw'
      rw [StoreCall.run_write_ok hchange]
      exact ⟨Prod.ext rfl hafter.store, hafter.catalog.trans hstill.catalog,
        hafter.schemaUse.trans hstill.schemaUse⟩
    | error e =>
      simp only [hchange, bind, Except.bind]
      intro w' hw'
      have hafter := hstill.trans (.of_run hw')
      rw [StoreCall.run_write_error hchange]
      exact ⟨Prod.ext rfl (hafter.store.trans hstill.store.symm), hafter.catalog, hafter.schemaUse⟩

/-- Without declarations and while nobody else writes, a request whose plan succeeds alone
comes to its end, and succeeds. -/
theorem finishes_as_planned (mem : T ∈ w.catalog.types) {d v : Value} {mode : WriteMode}
    {s : Store} (unused : w.schemaUse = .unused)
    (h : (plan w.catalog T d mode).alone w.store = (.ok v, s)) :
    (request T d mode).Finishes Undisturbed (fun result w' => result = .ok v ∧ w'.store = s) w := by
  have hstores : toTheEnd.Stores w.catalog planned backing :=
    { find T _ key := endsAs_find T key
      insert T _ d := endsAs_write T d .insert
      update T _ d expected := endsAs_write T d (.update expected)
      upsert T _ d := endsAs_write T d .upsert }
  have hwrite := Parallel.rel_write hstores mem d mode
  have hlayer : (Handler.writeReferences .ofStore T d mode).run.Finishes Undisturbed
      (fun result w' => result = .ok v ∧ w'.store = s) w := by
    refine Work.finishes_bind (finishes_read World.catalog w) ?_ fun e w₁ hend => ?_
    · rintro c w₁ ⟨now, hnow, hw₁, hc⟩
      have hstill := hnow.trans hw₁
      rw [Except.ok.inj hc, hnow.catalog]
      refine (hwrite w₁ (hstill.schemaUse.trans unused)).mono fun result w' hend => ?_
      rw [hstill.store] at hend
      exact Prod.mk.inj (hend.1.trans h)
    · obtain ⟨_, _, _, ⟨⟩⟩ := hend
  have hrequest : ∀ message, ((Handler.writeReferences .ofStore T d mode).inContext
      message).run.Finishes Undisturbed (fun result w' => result = .ok v ∧ w'.store = s) w := by
    intro message
    refine Job.Finishes.bind hlayer fun result w₁ hend => ?_
    obtain ⟨rfl, hstore⟩ := hend
    exact fun w' hw' => ⟨rfl, (Undisturbed.of_run hw').store.trans hstore⟩
  cases mode with
  | insert => exact hrequest s!"insert {T.name}"
  | update expected => exact hrequest s!"update {T.name}"
  | upsert => exact hrequest s!"upsert {T.name}"

end References

end LiveRecords

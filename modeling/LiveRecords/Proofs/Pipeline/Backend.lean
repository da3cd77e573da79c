import LiveRecords.Pipeline.Backend
import LiveRecords.Proofs.Job.Interference

/-
  Work in a world that others work in too.

  `Gives` says what work that does not fail has come to, on the terms it shares the
  world on, and goes from one step of the work to the next (`Gives.bind`).

  Before a request is carried out the store waits and has the table declared. That
  takes many steps, in which other requests come and go, but none of these steps
  touches the store, its feed or the catalogue (`Backend.each_prepare`).
-/

namespace LiveRecords

/-- The world has gone on: the store as `stores` says, and with the feed and the
catalogue as they were. -/
structure World.Beside (stores : Store → Store → Prop) (w w' : World) : Prop where
  store : stores w.store w'.store
  feed : w'.feed = w.feed
  offersFeed : w'.offersFeed = w.offersFeed
  catalog : w'.catalog = w.catalog

/-- The world has gone on, and its store has stayed as it was. -/
abbrev World.Keeps : World → World → Prop := World.Beside Eq

theorem World.Keeps.refl (w : World) : w.Keeps w := ⟨rfl, rfl, rfl, rfl⟩

theorem World.Beside.mono {stores stores' : Store → Store → Prop} {w w' : World}
    (h : w.Beside stores w') (hs : ∀ s s', stores s s' → stores' s s') : w.Beside stores' w' :=
  ⟨hs _ _ h.store, h.feed, h.offersFeed, h.catalog⟩

theorem World.Beside.trans {stores : Store → Store → Prop}
    (hstores : ∀ s s' s'', stores s s' → stores s' s'' → stores s s'') {w w' w'' : World}
    (h : w.Beside stores w') (h' : w'.Beside stores w'') : w.Beside stores w'' :=
  ⟨hstores _ _ _ h.store h'.store, h'.feed.trans h.feed, h'.offersFeed.trans h.offersFeed,
    h'.catalog.trans h.catalog⟩

namespace Work

open Job (Each Ensures Terms)

variable {α β : Type} {keeps : World → World → Prop}

/-! ## Steps of work -/

theorem each_ofJob {j : Job World α} (h : Each keeps j) : Each keeps (ofJob j).run :=
  h.bind fun _ => trivial

theorem each_bind {x : Work α} {f : α → Work β} (hx : Each keeps x.run)
    (hf : ∀ a, Each keeps (f a).run) : Each keeps (x >>= f).run := by
  rw [ExceptT.run_bind]
  refine Each.bind hx fun result => ?_
  cases result with
  | ok a => exact hf a
  | error e => trivial

theorem each_outcome {x : Outcome α} {f : α → Work β}
    (h : ∀ a, x = .ok a → Each keeps (f a).run) : Each keeps (liftM x >>= f : Work β).run := by
  cases x with
  | error e => trivial
  | ok a => exact h a rfl

theorem each_read (hrefl : ∀ w, keeps w w) (f : World → α) : Each keeps (ofJob (.read f)).run :=
  each_ofJob fun w => ⟨hrefl w, trivial⟩

theorem each_modify {f : World → World} (h : ∀ w, keeps w (f w)) :
    Each keeps (ofJob (.modify f)).run := each_ofJob fun w => ⟨h w, trivial⟩

theorem each_act {f : World → α × World} (h : ∀ w, keeps w (f w).2) :
    Each keeps (ofJob (.act f)).run := each_ofJob fun w => ⟨h w, trivial⟩

theorem each_inContext {context : String} {x : Work α} (h : Each keeps x.run) :
    Each keeps (x.inContext context).run := Each.bind h fun _ => trivial

theorem each_adapt {change : Failure → Failure} {x : Work α} (h : Each keeps x.run) :
    Each keeps (ExceptT.adapt change x : Work α).run := Each.bind h fun _ => trivial

theorem each_discard {x : Work α} (h : Each keeps x.run) :
    Each keeps (discard x : Work Unit).run := by
  refine Each.bind h fun result => ?_
  cases result <;> trivial

theorem each_foldlM {xs : List α} {f : β → α → Work β} (h : ∀ x ∈ xs, ∀ b, Each keeps (f b x).run)
    (b : β) : Each keeps (xs.foldlM f b).run := by
  induction xs generalizing b with
  | nil => trivial
  | cons x rest ih =>
    rw [List.foldlM_cons]
    refine each_bind (h x List.mem_cons_self b) fun b' => ?_
    exact ih (fun y hy => h y (List.mem_cons_of_mem _ hy)) b'

theorem each_pause (hrefl : ∀ w, keeps w w) (time : Option Nat) :
    Each keeps (pause time).run := by
  cases time with
  | none => trivial
  | some milliseconds =>
    refine each_bind (each_read hrefl _) fun now => ?_
    exact each_ofJob (j := .waitFor ..) trivial

/-! ## Ends of work -/

variable {T : Terms World} {post : Except Failure α → World → Prop}
  {post' : Except Failure β → World → Prop} {w : World}

theorem ensures_bind {x : Work α} {f : α → Work β} (h : Ensures T post x.run w)
    (hok : ∀ a w', post (.ok a) w' → Ensures T post' (f a).run w')
    (herror : ∀ e w', post (.error e) w' → Ensures T post' (.done (.error e)) w') :
    Ensures T post' (x >>= f).run w := by
  rw [ExceptT.run_bind]
  refine Ensures.bind h fun result w' hpost => ?_
  cases result with
  | ok a => exact hok a w' hpost
  | error e => exact herror e w' hpost

theorem ensures_outcome (T : Terms World) (x : Outcome α) (w : World) :
    Ensures T (fun result w' => T.rely w w' ∧ result = x) (liftM x : Work α).run w :=
  fun _ hw' => ⟨hw', rfl⟩

theorem ensures_act {f : World → α × World}
    (h : ∀ now, T.rely w now → T.guarantee now (f now).2) :
    Ensures T (fun result w' => ∃ now, T.rely w now ∧ T.rely (f now).2 w' ∧ result = .ok (f now).1)
      (ofJob (.act f)).run w :=
  fun now hnow => ⟨h now hnow, fun _ hw' => ⟨now, hnow, hw', rfl⟩⟩

theorem ensures_read (hrefl : ∀ w, T.guarantee w w) (f : World → α) (w : World) :
    Ensures T (fun result w' => ∃ now, T.rely w now ∧ T.rely now w' ∧ result = .ok (f now))
      (ofJob (.read f)).run w :=
  fun now hnow => ⟨hrefl now, fun _ hw' => ⟨now, hnow, hw', rfl⟩⟩

/-- What may fail in one step leaves the world as it is if it fails. -/
theorem ensures_attempt_failing (free : ∀ w w', T.guarantee w w')
    (f : World → Outcome (α × World)) (w : World) :
    Ensures T (fun result w' => ∀ e, result = .error e → T.rely w w') (act f).run w := by
  intro now hnow
  refine ⟨free _ _, ?_⟩
  cases hf : f now with
  | ok end_ =>
    simp only [hf]
    exact fun _ _ _ herror => by cases herror
  | error e =>
    simp only [hf]
    exact fun w' hw' _ _ => T.rely_trans hnow hw'

theorem ensures_orUndo {undo : World → World} {x : Work α} (h : Ensures T post x.run w)
    (hundo : ∀ w, T.guarantee w (undo w))
    (hok : ∀ a w', post (.ok a) w' → ∀ w'', T.rely w' w'' → post (.ok a) w'')
    (herror : ∀ e w', post (.error e) w') : Ensures T post (x.orUndo undo).run w := by
  refine Ensures.bind (h.onDrop hundo) fun result w' hpost => ?_
  cases result with
  | ok a => exact hok a w' hpost
  | error e => exact fun now _ => ⟨hundo now, fun w'' _ => herror e w''⟩

/-- Within the terms, work that does not fail ends as it should. -/
def Gives (T : Terms World) (post : α → World → Prop) (work : Work α) (w : World) : Prop :=
  Ensures T (fun result w' => ∀ a, result = .ok a → post a w') work.run w

namespace Gives

variable {goal : α → World → Prop} {goal' : β → World → Prop} {x : Work α}

theorem mono {goal' : α → World → Prop} (h : Gives T goal x w)
    (hgoal : ∀ a w', goal a w' → goal' a w') : Gives T goal' x w :=
  Ensures.mono h fun _ w' hpost a ha => hgoal a w' (hpost a ha)

theorem bind {f : α → Work β} (h : Gives T goal x w)
    (hf : ∀ a w', goal a w' → Gives T goal' (f a) w') : Gives T goal' (x >>= f) w :=
  ensures_bind h (fun a w' hpost => hf a w' (hpost a rfl)) fun _ _ _ _ _ _ ha => by cases ha

theorem pure {a : α} (h : ∀ w', T.rely w w' → goal a w') : Gives T goal (pure a) w := by
  intro w' hw' _ ha
  cases ha
  exact h w' hw'

theorem throw (e : Failure) : Gives T goal (throw e : Work α) w := fun _ _ _ ha => by cases ha

theorem outcome (T : Terms World) (x : Outcome α) (w : World) :
    Gives T (fun a w' => T.rely w w' ∧ x = .ok a) (liftM x : Work α) w :=
  fun _ hw' _ ha => ⟨hw', ha⟩

theorem read (hrefl : ∀ w, T.guarantee w w) (f : World → α) (w : World) :
    Gives T (fun a w' => ∃ now, T.rely w now ∧ T.rely now w' ∧ a = f now)
      (ofJob (.read f)) w := by
  refine (ensures_read hrefl f w).mono ?_
  intro _ w' hend a ha
  obtain ⟨now, hnow, hw', rfl⟩ := hend
  cases ha
  exact ⟨now, hnow, hw', rfl⟩

theorem act {f : World → α × World} (h : ∀ now, T.rely w now → T.guarantee now (f now).2) :
    Gives T (fun a w' => ∃ now, T.rely w now ∧ T.rely (f now).2 w' ∧ a = (f now).1)
      (ofJob (.act f)) w := by
  refine (ensures_act h).mono ?_
  intro _ w' hend a ha
  obtain ⟨now, hnow, hw', rfl⟩ := hend
  cases ha
  exact ⟨now, hnow, hw', rfl⟩

theorem modify {f : World → World} (h : ∀ now, T.rely w now → T.guarantee now (f now)) :
    Gives T (fun _ w' => ∃ now, T.rely w now ∧ T.rely (f now) w') (ofJob (.modify f)) w :=
  fun now hnow => ⟨h now hnow, fun _ hw' _ _ => ⟨now, hnow, hw'⟩⟩

theorem waitFor (ready : World → Bool) (deadline : Option Nat) (undo : World → World) :
    Gives T (fun _ w' => T.rely w w') (ofJob (.waitFor ready deadline undo)) w :=
  fun _ hnow _ _ hw' _ _ => T.rely_trans hnow hw'

/-- What may fail happens, if it does not fail, in one step. -/
theorem attempt {f : World → Outcome (α × World)} (hrefl : ∀ w, T.guarantee w w)
    (h : ∀ now, T.rely w now → ∀ a next, f now = .ok (a, next) → T.guarantee now next) :
    Gives T (fun a w' => ∃ now next, T.rely w now ∧ f now = .ok (a, next) ∧ T.rely next w')
      (Work.act f) w := by
  intro now hnow
  cases hf : f now with
  | error e =>
    simp only [hf]
    exact ⟨hrefl now, fun _ _ _ ha => by cases ha⟩
  | ok end_ =>
    obtain ⟨a, next⟩ := end_
    simp only [hf]
    refine ⟨h now hnow a next hf, ?_⟩
    intro w' hw' _ heq
    cases heq
    exact ⟨now, next, hnow, hf, hw'⟩

theorem adapt {change : Failure → Failure} (h : Gives T goal x w) :
    Gives T goal (ExceptT.adapt change x) w := by
  refine Ensures.map h fun result w' hpost a ha => ?_
  cases result with
  | error e => cases ha
  | ok b =>
    cases ha
    exact hpost a rfl

theorem discard (h : Gives T goal x w) :
    Gives T (fun _ w' => ∃ a, goal a w') (discard x) w := by
  have hrun : (Functor.discard x : Work Unit).run =
      x.run.bind fun result => .done (result.map fun _ => ()) := by
    show x.run.bind _ = _
    congr 1
    funext result
    cases result <;> rfl
  show Ensures T _ (Functor.discard x : Work Unit).run w
  rw [hrun]
  refine Ensures.map h fun result w' hpost u hu => ?_
  cases result with
  | error e => cases hu
  | ok a => exact ⟨a, hpost a rfl⟩

end Gives

end Work

namespace Provision

open Job (Each)

/-! ## Declarations -/

theorem each_declare (type : EntityType) : Each World.Keeps (declare type).run := by
  refine Work.each_bind (Work.each_act fun w => ⟨rfl, rfl, rfl, rfl⟩) fun latency => ?_
  refine Work.each_bind (Work.each_pause .refl _) fun _ => ?_
  exact fun w => ⟨⟨rfl, rfl, rfl, rfl⟩, trivial⟩

theorem each_cellFor (table : String) : Each World.Keeps (cellFor table).run := by
  refine Work.each_act fun w => ?_
  cases w.cellOf.get? table <;> exact ⟨rfl, rfl, rfl, rfl⟩

theorem each_enter (cell : Nat) : Each World.Keeps (enter cell).run := by
  refine Work.each_act fun w => ?_
  cases w.cells[cell]? <;> exact ⟨rfl, rfl, rfl, rfl⟩

theorem each_await (cell ticket : Nat) : Each World.Keeps (await cell ticket).run := by
  refine Work.each_bind (Work.each_ofJob (j := .waitFor ..) trivial) fun _ => ?_
  exact Work.each_modify fun w => ⟨rfl, rfl, rfl, rfl⟩

theorem keeps_forget (table : String) (cell : Nat) (w : World) :
    w.Keeps (forget table cell w) := by
  unfold forget
  split <;> exact ⟨rfl, rfl, rfl, rfl⟩

theorem each_make {table : String} {cell : Nat} {work : Work Unit}
    (h : Each World.Keeps work.run) : Each World.Keeps (make table cell work).run := by
  refine Each.bind (h.onDrop fun w => ⟨rfl, rfl, rfl, rfl⟩) fun result => ?_
  cases result with
  | ok _ => exact fun w => ⟨⟨rfl, rfl, rfl, rfl⟩, trivial⟩
  | error e =>
    intro w
    have hforget := keeps_forget table cell (release cell w)
    exact ⟨⟨hforget.store, hforget.feed, hforget.offersFeed, hforget.catalog⟩, trivial⟩

theorem each_ensureUnknown {ensure : EntityType → Work Unit}
    (h : ∀ type, Each World.Keeps (ensure type).run) (types : List EntityType) :
    Each World.Keeps (ensureUnknown ensure types).run := by
  induction types with
  | nil => trivial
  | cons type rest ih =>
    refine Work.each_bind (Work.each_read .refl _) fun known => ?_
    cases known with
    | true => exact ih
    | false => exact Work.each_bind (h type) fun _ => ih

theorem each_ensureWithin (c : Catalog) (fuel : Nat) (type : EntityType) :
    Each World.Keeps (ensureWithin c fuel type).run := by
  induction fuel generalizing type with
  | zero => trivial
  | succ fuel ih =>
    have hmake : ∀ cell, Each World.Keeps (make type.name cell do
        ensureUnknown (ensureWithin c fuel) (c.referencedTypes type)
        declare type).run := fun cell =>
      each_make (Work.each_bind (each_ensureUnknown ih _) fun _ => each_declare type)
    have hrest : ∀ cell, Each World.Keeps (do
        if ← Work.ofJob (.read (isMade cell)) then return
        make type.name cell do
          ensureUnknown (ensureWithin c fuel) (c.referencedTypes type)
          declare type : Work Unit).run := fun cell => by
      refine Work.each_bind (Work.each_read .refl _) fun made => ?_
      cases made with
      | true => trivial
      | false => exact hmake cell
    refine Work.each_bind (each_cellFor type.name) fun cell => ?_
    refine Work.each_bind (Work.each_read .refl _) fun made => ?_
    cases made with
    | true => trivial
    | false =>
      refine Work.each_bind (each_enter cell) fun ticket? => ?_
      cases ticket? with
      | none => exact hrest cell
      | some ticket => exact Work.each_bind (each_await cell ticket) fun _ => hrest cell

theorem each_provide (schemaUse : SchemaUse) (type : EntityType) :
    Each World.Keeps (provide schemaUse type).run := by
  cases schemaUse with
  | unused => trivial
  | direct => exact each_declare type
  | cached =>
    exact Work.each_bind (Work.each_read .refl _) fun c => each_ensureWithin c _ type

end Provision

theorem Query.compile_of_prepare {q : Query} {run : Query.Compiled} (h : q.prepare = .ok run) :
    q.compile = .ok run := by
  unfold Query.prepare at h
  obtain ⟨_, _, hcompile⟩ := Outcome.bind_ok h
  exact hcompile

theorem Backend.each_prepare (type : EntityType) : Job.Each World.Keeps (prepare type).run := by
  refine Work.each_bind (Work.each_read .refl _) fun latency => ?_
  refine Work.each_bind (Work.each_pause .refl _) fun _ => ?_
  refine Work.each_bind (Work.each_read .refl _) fun schemaUse => ?_
  exact Work.each_inContext (Provision.each_provide schemaUse type)

end LiveRecords

import LiveRecords.Proofs.Pipeline.Lookup
import LiveRecords.Proofs.References.Writer

/-
  A reference-first writer as a plan of calls.

  The writer works over any store, so it also works over one that only notes down what
  it is asked: what comes of that is a plan of calls, each of which is carried out at
  once (`References.plan`). Two writers over stores that answer alike do alike
  (`Parallel.write`). So nothing but calls with types of the catalogue are in a plan
  (`References.plan_typed`), and alone in a quiet world the writer comes to what its
  plan comes to (`References.alone_write`).
-/

namespace LiveRecords

/-- A call to the store. -/
inductive StoreCall where
  | find (type : EntityType) (key : Value)
  | write (type : EntityType) (entity : Value) (mode : WriteMode)

namespace StoreCall

/-- What a call that succeeds is answered with. -/
def Answer : StoreCall → Type
  | .find .. => Option Value
  | .write .. => Value

/-- The type of the entity that is asked for or written. -/
def type : StoreCall → EntityType
  | .find type _ | .write type .. => type

/-- What a call comes to, and the store after it. -/
def run : (call : StoreCall) → Store → Outcome call.Answer × Store
  | .find type key, s => ((Query.byKey type key).map fun _ => s.lookup type key, s)
  | .write type entity mode, s =>
    match mode.change type entity s with
    | .ok s' => (.ok entity, s')
    | .error e => (.error e, s)

variable {T : EntityType} {d : Value} {mode : WriteMode} {s : Store}

theorem run_write_ok {s' : Store} (h : mode.change T d s = .ok s') :
    (write T d mode).run s = (.ok d, s') := by
  unfold run
  simp only [h]

theorem run_write_error {e : Failure} (h : mode.change T d s = .error e) :
    (write T d mode).run s = (.error e, s) := by
  unfold run
  simp only [h]

end StoreCall

/-- A plan of calls: each of them may depend on what the ones before came to. -/
inductive Plan (α : Type) where
  | done (result : α)
  | ask (call : StoreCall) (next : Outcome call.Answer → Plan α)

namespace Plan

variable {α β : Type}

/-- One plan after another. -/
def bind : Plan α → (α → Plan β) → Plan β
  | .done a, k => k a
  | .ask call next, k => .ask call fun answer => (next answer).bind k

instance : Monad Plan where
  pure := .done
  bind := .bind

/-- The result of a plan that nobody interferes with, and the store after it. -/
def alone : Plan α → Store → α × Store
  | .done a, s => (a, s)
  | .ask call next, s => (next (call.run s).1).alone (call.run s).2

/-- The calls of a plan that nobody interferes with. -/
def calls : Plan α → Store → List StoreCall
  | .done _, _ => []
  | .ask call next, s => call :: (next (call.run s).1).calls (call.run s).2

/-- Whatever a plan comes to, all of its calls are as `ok` says. -/
def Each (ok : StoreCall → Prop) : Plan α → Prop
  | .done _ => True
  | .ask call next => ok call ∧ ∀ answer, Each ok (next answer)

theorem alone_bind (p : Plan α) (k : α → Plan β) (s : Store) :
    (p.bind k).alone s = (k (p.alone s).1).alone (p.alone s).2 := by
  induction p generalizing s with
  | done a => rfl
  | ask call next ih => exact ih (call.run s).1 (call.run s).2

theorem Each.bind {ok : StoreCall → Prop} {p : Plan α} {k : α → Plan β} (h : Each ok p)
    (hk : ∀ a, Each ok (k a)) : Each ok (p.bind k) := by
  induction p with
  | done a => exact hk a
  | ask call next ih => exact ⟨h.1, fun answer => ih answer (h.2 answer)⟩

theorem Each.mono {ok ok' : StoreCall → Prop} {p : Plan α} (h : Each ok p)
    (hok : ∀ call, ok call → ok' call) : Each ok' p := by
  induction p with
  | done a => trivial
  | ask call next ih => exact ⟨hok call h.1, fun answer => ih answer (h.2 answer)⟩

/-- A call that is noted down. -/
def one (call : StoreCall) : ExceptT Failure Plan call.Answer := ExceptT.mk (.ask call .done)

end Plan

/-- The store that notes down what a writer asks. -/
def planned : ReferenceStore Plan where
  find type key := Plan.one (.find type key)
  insert type entity := Plan.one (.write type entity .insert)
  update type entity expected := Plan.one (.write type entity (.update expected))
  upsert type entity := Plan.one (.write type entity .upsert)

/-- The plan for writing a document. -/
def References.plan (c : Catalog) (T : EntityType) (d : Value) (mode : WriteMode) :
    Plan (Outcome Value) := (References.write planned c T d mode).run

/-! ## Writers in parallel -/

/-- A relation between two kinds of work that goes from step to step. -/
structure Parallel (m n : Type → Type) [Monad m] [Monad n] where
  rel : {α : Type} → m α → n α → Prop
  pure {α : Type} (a : α) : rel (pure a) (pure a)
  map {α β : Type} {x : m α} {y : n α} (h : rel x y) (f : α → β) : rel (f <$> x) (f <$> y)
  bind {α β : Type} {x : m α} {y : n α} {f : α → m β} {g : α → n β} (h : rel x y)
    (hf : ∀ a, rel (f a) (g a)) : rel (x >>= f) (y >>= g)

namespace Parallel

variable {m n : Type → Type} [Monad m] [Monad n] {α β : Type}

/-- The same of work that may fail. -/
def Rel (R : Parallel m n) (x : ExceptT Failure m α) (y : ExceptT Failure n α) : Prop :=
  R.rel x.run y.run

/-- Two stores that answer alike, if asked about types of a catalogue. -/
structure Stores (R : Parallel m n) (c : Catalog) (left : ReferenceStore m)
    (right : ReferenceStore n) : Prop where
  find : ∀ T ∈ c.types, ∀ key, R.Rel (left.find T key) (right.find T key)
  insert : ∀ T ∈ c.types, ∀ d, R.Rel (left.insert T d) (right.insert T d)
  update : ∀ T ∈ c.types, ∀ d expected, R.Rel (left.update T d expected) (right.update T d expected)
  upsert : ∀ T ∈ c.types, ∀ d, R.Rel (left.upsert T d) (right.upsert T d)

variable {R : Parallel m n}

theorem rel_bind {x : ExceptT Failure m α} {y : ExceptT Failure n α}
    {f : α → ExceptT Failure m β} {g : α → ExceptT Failure n β} (h : R.Rel x y)
    (hf : ∀ a, R.Rel (f a) (g a)) : R.Rel (x >>= f) (y >>= g) := by
  refine R.bind h fun result => ?_
  cases result with
  | ok a => exact hf a
  | error e => exact R.pure _

theorem rel_return (a : α) :
    R.Rel (return a : ExceptT Failure m α) (return a : ExceptT Failure n α) := R.pure _

theorem rel_throw (e : Failure) :
    R.Rel (throw e : ExceptT Failure m α) (throw e : ExceptT Failure n α) := R.pure _

theorem rel_outcome (x : Outcome α) :
    R.Rel (liftM x : ExceptT Failure m α) (liftM x : ExceptT Failure n α) := R.pure _

theorem rel_adapt {x : ExceptT Failure m α} {y : ExceptT Failure n α} (h : R.Rel x y)
    (change : Failure → Failure) :
    R.Rel (ExceptT.adapt change x : ExceptT Failure m α)
      (ExceptT.adapt change y : ExceptT Failure n α) := R.map h _

theorem rel_discard {x : ExceptT Failure m α} {y : ExceptT Failure n α} (h : R.Rel x y) :
    R.Rel (discard x : ExceptT Failure m Unit) (discard y : ExceptT Failure n Unit) := by
  refine R.bind h fun result => ?_
  cases result <;> exact R.pure _

/-! ## The writer -/

open References

variable {c : Catalog} {left : ReferenceStore m} {right : ReferenceStore n} {T : EntityType}

theorem rel_closeCycle (stores : R.Stores c left right) (mem : T ∈ c.types) (key : Value)
    (stubs : List EntityId) :
    R.Rel (References.closeCycle left T key stubs) (References.closeCycle right T key stubs) := by
  unfold References.closeCycle
  dsimp only
  split
  · exact rel_return _
  · refine rel_bind (stores.find T mem key) fun found => ?_
    cases found with
    | some stored => exact rel_return _
    | none =>
      refine rel_bind (rel_discard (rel_adapt (stores.insert T mem _) _)) fun _ => ?_
      exact rel_return _

theorem rel_refresh (stores : R.Stores c left right) (mem : T ∈ c.types) (key reference : Value) :
    R.Rel (References.refresh left T key reference) (References.refresh right T key reference) := by
  unfold References.refresh
  refine rel_bind (stores.find T mem key) fun found => ?_
  cases found with
  | none => exact rel_discard (stores.insert T mem _)
  | some stored =>
    dsimp only
    split
    · exact rel_discard (stores.upsert T mem _)
    · exact rel_return _

/-- Two resolvers that do alike. -/
def Resolvers (R : Parallel m n) (x : Resolver m) (y : Resolver n) : Prop :=
  ∀ T path stubs, R.Rel (x T path stubs) (y T path stubs)

theorem rel_follow (stores : R.Stores c left right) (mem : T ∈ c.types) {x : Resolver m}
    {y : Resolver n} (h : R.Resolvers x y) (reference : Value) (path stubs : List EntityId) :
    R.Rel (References.follow left x T reference path stubs)
      (References.follow right y T reference path stubs) := by
  unfold References.follow
  refine rel_bind (rel_outcome _) fun key => ?_
  dsimp only
  split
  · exact rel_closeCycle stores mem key stubs
  · refine rel_bind (h T _ stubs) fun stubs' => ?_
    exact rel_bind (rel_refresh stores mem key reference) fun _ => rel_return _

theorem rel_followProperty (stores : R.Stores c left right) {x : Resolver m} {y : Resolver n}
    (h : R.Resolvers x y) (p : Property) (value : Value) (path stubs : List EntityId) :
    R.Rel (References.followProperty left c x T p value path stubs)
      (References.followProperty right c y T p value path stubs) := by
  cases Route.of c p value with
  | nowhere plain =>
    rw [followProperty_nowhere plain, followProperty_nowhere plain]
    exact rel_return _
  | inside R' target object embedded =>
    rw [followProperty_inside target object embedded, followProperty_inside target object embedded]
    exact rel_adapt (h R' path stubs) _
  | across R' target object keyed =>
    rw [followProperty_across target object keyed, followProperty_across target object keyed]
    have hmem := Catalog.mem_of_referenced target keyed
    exact rel_adapt (rel_follow stores hmem h value path stubs) _

theorem rel_foldlM {ps : List Property} {f : List EntityId → Property → ExceptT Failure m (List EntityId)}
    {g : List EntityId → Property → ExceptT Failure n (List EntityId)}
    (h : ∀ stubs p, R.Rel (f stubs p) (g stubs p)) (stubs : List EntityId) :
    R.Rel (ps.foldlM f stubs) (ps.foldlM g stubs) := by
  induction ps generalizing stubs with
  | nil => exact rel_return _
  | cons p rest ih => exact rel_bind (h stubs p) ih

theorem rel_resolver (stores : R.Stores c left right) (d : Value) :
    R.Resolvers (References.resolver left c d) (References.resolver right c d) := by
  induction d using Value.fields_induction with
  | object fields ih =>
    intro T path stubs
    rw [resolver_object, resolver_object]
    exact rel_foldlM (fun stubs p => rel_followProperty stores (ih p.name) p _ path stubs) stubs
  | other v hobject =>
    intro T path stubs
    rw [resolver_of_not_object hobject, resolver_of_not_object hobject]
    exact rel_return _

/-- Writers over stores that answer alike do alike. -/
theorem rel_write (stores : R.Stores c left right) (mem : T ∈ c.types) (d : Value) (mode : WriteMode) :
    R.Rel (References.write left c T d mode) (References.write right c T d mode) := by
  have hentity : ∀ mode, R.Rel (writeEntity left T d mode) (writeEntity right T d mode) := by
    intro mode
    cases mode with
    | insert => exact stores.insert T mem d
    | update expected => exact stores.update T mem d expected
    | upsert => exact stores.upsert T mem d
  have hcheck : ∀ key, R.Rel (checkStored left T key mode) (checkStored right T key mode) := by
    intro key
    cases mode with
    | insert => exact rel_return _
    | upsert => exact rel_return _
    | update expected =>
      refine rel_bind (stores.find T mem key) fun found => ?_
      cases found with
      | some stored => exact rel_return _
      | none => exact rel_throw _
  unfold References.write
  refine rel_bind (rel_outcome _) fun key => ?_
  split
  · exact hentity mode
  · refine rel_bind (hcheck key) fun _ => ?_
    exact rel_bind (rel_resolver stores d T _ _) fun stubs => hentity _

end Parallel

/-! ## Plans and writers -/

namespace References

variable {c : Catalog} {T : EntityType}

/-- Plans all of whose calls are as they should be. -/
def eachCall (ok : StoreCall → Prop) : Parallel Plan Plan where
  rel p _ := p.Each ok
  pure _ := trivial
  map h _ := h.bind fun _ => trivial
  bind h hf := h.bind hf

/-- All calls of a writer are about types of the catalogue. -/
theorem plan_typed (mem : T ∈ c.types) (d : Value) (mode : WriteMode) :
    (plan c T d mode).Each fun call => call.type ∈ c.types := by
  have hone : ∀ call : StoreCall, call.type ∈ c.types →
      (Plan.one call).run.Each fun call => call.type ∈ c.types :=
    fun _ hcall => ⟨hcall, fun _ => trivial⟩
  have hstores : (eachCall fun call => call.type ∈ c.types).Stores c planned planned :=
    { find T hT key := hone _ hT
      insert T hT d := hone _ hT
      update T hT d expected := hone _ hT
      upsert T hT d := hone _ hT }
  exact Parallel.rel_write hstores mem d mode

/-- Work that alone in a quiet world comes to what a plan comes to. -/
def Comes {α : Type} (p : Plan α) (j : Job World α) : Prop :=
  ∀ w : World, w.Quiet →
    j.alone w = some ((p.alone w.store).1, { w with store := (p.alone w.store).2 })

theorem Comes.bind {α β : Type} {p : Plan α} {j : Job World α} {f : α → Plan β}
    {g : α → Job World β} (h : Comes p j) (hf : ∀ a, Comes (f a) (g a)) :
    Comes (p.bind f) (j.bind g) := by
  intro w quiet
  have hnext : ({ w with store := (p.alone w.store).2 } : World).Quiet :=
    ⟨quiet.latency, quiet.unused⟩
  rw [Job.alone_bind, h w quiet, Plan.alone_bind]
  exact hf _ _ hnext

/-- Plans and work that comes to what they come to. -/
def inQuiet : Parallel Plan (Job World) where
  rel := Comes
  pure _ _ _ := rfl
  map h _ := h.bind fun _ _ _ => rfl
  bind h hf := h.bind hf

theorem comes_find (T : EntityType) (key : Value) :
    Comes (Plan.one (.find T key)).run (backing.find T key).run := by
  intro w quiet
  show (Handler.ofStore (.find T key) : Work (Option Value)).run.alone w =
    some ((Query.byKey T key).map fun _ => w.store.lookup T key, w)
  cases hq : Query.byKey T key with
  | ok q =>
    obtain ⟨p, hp, _⟩ := Query.byKey_ok hq
    have hkeyed : T.key?.isSome = true := by
      rw [hp]
      rfl
    exact Handler.alone_find hkeyed quiet key
  | error e =>
    show (liftM (Query.byKey T key) >>= fun q => Backend.query q >>= Rows.first :
      Work _).run.alone w = _
    rw [hq]
    rfl

/-- A document without a key is not written. -/
theorem change_of_requireKey {d : Value} {e : Failure} (h : T.requireKey d = .error e)
    (mode : WriteMode) (s : Store) : mode.change T d s = .error e := by
  have hkey : Store.keyFor T d = .error e := by
    unfold Store.keyFor
    rw [h]
    rfl
  cases mode with
  | insert =>
    show s.insert T d = _
    unfold Store.insert
    rw [hkey]
    rfl
  | update expected =>
    show s.update T d expected = _
    unfold Store.update
    rw [hkey]
    rfl
  | upsert =>
    show s.upsert T d = _
    unfold Store.upsert
    rw [hkey]
    rfl

theorem comes_write (T : EntityType) (d : Value) (mode : WriteMode) :
    Comes (Plan.one (.write T d mode)).run (writeEntity backing T d mode).run := by
  intro w quiet
  rw [writeEntity_eq]
  show (Backend.write T d (mode.change T d)).run.alone w =
    some (((StoreCall.write T d mode).run w.store).1,
      { w with store := ((StoreCall.write T d mode).run w.store).2 })
  cases hrequire : T.requireKey d with
  | ok key =>
    rw [Backend.alone_write (keyOf?_of_requireKey hrequire) _ quiet]
    cases hchange : mode.change T d w.store with
    | ok s' =>
      rw [StoreCall.run_write_ok hchange]
      rfl
    | error e =>
      rw [StoreCall.run_write_error hchange]
      rfl
  | error e =>
    rw [StoreCall.run_write_error (change_of_requireKey hrequire mode w.store)]
    unfold Backend.write
    rw [hrequire]
    rfl

/-- Alone in a quiet world a writer comes to what its plan comes to. -/
theorem alone_write (mem : T ∈ c.types) (d : Value) (mode : WriteMode) {w : World}
    (quiet : w.Quiet) (catalog : w.catalog = c) :
    (Handler.writeReferences .ofStore T d mode).run.alone w =
      some (((plan c T d mode).alone w.store).1,
        { w with store := ((plan c T d mode).alone w.store).2 }) := by
  have hstores : inQuiet.Stores c planned backing :=
    { find T _ key := comes_find T key
      insert T _ d := comes_write T d .insert
      update T _ d expected := comes_write T d (.update expected)
      upsert T _ d := comes_write T d .upsert }
  have hcatalog : (Work.ofJob (.read World.catalog) : Work Catalog).run.alone w =
      some (.ok c, w) := by
    rw [← catalog]
    rfl
  unfold Handler.writeReferences
  rw [Work.alone_bind_ok hcatalog]
  exact Parallel.rel_write hstores mem d mode w quiet

end References

end LiveRecords

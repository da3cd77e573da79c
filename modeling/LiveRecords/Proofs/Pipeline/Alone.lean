import LiveRecords.Pipeline.Backend
import LiveRecords.Proofs.Entity.Key

/-
  Requests that nothing interferes with.

  In a quiet world nothing has to be got ready before a request is carried out
  (`World.Quiet`). Alone in such a world a write comes to what the change of the
  store comes to (`Backend.alone_write`), and likewise a deletion and a query.
-/

namespace LiveRecords

theorem Job.alone_onDrop {σ α : Type} (undo : σ → σ) (j : Job σ α) (s : σ) :
    (j.onDrop undo).alone s = j.alone s := by
  induction j generalizing s with
  | done a => rfl
  | broken => rfl
  | step change next ih => exact ih s (change s)
  | wait w next ih =>
    unfold onDrop alone
    rw [ih]

namespace Work

variable {α β : Type} {x : Work α} {f : α → Work β} {w w' : World}

theorem alone_bind_ok {a : α} (h : x.run.alone w = some (.ok a, w')) :
    (x >>= f).run.alone w = (f a).run.alone w' := by
  rw [ExceptT.run_bind]
  show (x.run.bind _).alone w = _
  rw [Job.alone_bind, h]
  rfl

theorem alone_outcome {a : α} {o : Outcome α} (h : o = .ok a) (w : World) :
    (liftM o : Work α).run.alone w = some (.ok a, w) := by
  subst h
  rfl

/-- What may fail happens in one step, or fails and leaves the world as it is. -/
theorem alone_attempt (f : World → Outcome (α × World)) (w : World) :
    (act f).run.alone w = some (match f w with
      | .ok (a, w') => (.ok a, w')
      | .error e => (.error e, w)) := rfl

/-- Work that does not fail leaves nothing to be undone. -/
theorem alone_orUndo {a : α} {undo : World → World} (h : x.run.alone w = some (.ok a, w')) :
    (x.orUndo undo).run.alone w = some (.ok a, w') := by
  show ((x.run.onDrop undo).bind _).alone w = _
  rw [Job.alone_bind, Job.alone_onDrop, h]
  rfl

end Work

/-- The store answers at once, and its tables are not declared. -/
structure World.Quiet (w : World) : Prop where
  latency : w.latency = none
  unused : w.schemaUse = .unused

namespace Backend

variable {w : World} {type : EntityType} {entity : Value} {key : Value}

theorem alone_prepare (type : EntityType) (quiet : w.Quiet) :
    (prepare type).run.alone w = some (.ok (), w) := by
  have hpause : (Work.pause w.latency).run.alone w = some (.ok (), w) := by
    rw [quiet.latency]
    rfl
  have hprovide : ((Provision.provide w.schemaUse type).inContext
      s!"ensuring schema for {type.name}").run.alone w = some (.ok (), w) := by
    rw [quiet.unused]
    rfl
  have hlatency : (Work.ofJob (.read World.latency) : Work (Option Nat)).run.alone w =
      some (.ok w.latency, w) := rfl
  have huse : (Work.ofJob (.read World.schemaUse) : Work SchemaUse).run.alone w =
      some (.ok w.schemaUse, w) := rfl
  unfold prepare
  rw [Work.alone_bind_ok hlatency, Work.alone_bind_ok hpause, Work.alone_bind_ok huse]
  exact hprovide

/-- A write of a document that has a key comes to what the change of the store comes to. -/
theorem alone_write (keyed : type.keyOf? entity = some key) (change : Store → Outcome Store)
    (quiet : w.Quiet) :
    (write type entity change).run.alone w =
      some (match change w.store with
        | .ok s => (.ok entity, { w with store := s })
        | .error e => (.error e, w)) := by
  have hkey : (discard (type.requireKey entity : Outcome Value) : Work Unit).run.alone w =
      some (.ok (), w) := by
    rw [EntityType.requireKey_of_keyOf? keyed]
    rfl
  unfold write
  rw [Work.alone_bind_ok hkey, Work.alone_bind_ok (alone_prepare type quiet)]
  rw [Work.alone_attempt]
  cases change w.store with
  | ok s => rfl
  | error e => rfl

theorem alone_delete (type : EntityType) (key : Value) (quiet : w.Quiet) :
    (delete type key).run.alone w =
      some (.ok (w.store.delete type key).1,
        { w with store := (w.store.delete type key).2 }) := by
  unfold delete
  rw [Work.alone_bind_ok (alone_prepare type quiet)]
  rfl

theorem alone_query {q : Query} {run : Query.Compiled} (h : q.prepare = .ok run)
    (quiet : w.Quiet) :
    (query q).run.alone w = some (.ok (.listed (w.store.query q run)), w) := by
  unfold query
  rw [Work.alone_bind_ok (Work.alone_outcome h w), Work.alone_bind_ok (alone_prepare q.entity quiet)]
  rfl

theorem alone_snapshot {q : Query} {run : Query.Compiled} (h : q.prepare = .ok run)
    (quiet : w.Quiet) :
    (snapshot q).run.alone w = some (.ok (w.store.snapshot q run), w) := by
  unfold snapshot
  rw [Work.alone_bind_ok (Work.alone_outcome h w), Work.alone_bind_ok (alone_prepare q.entity quiet)]
  rfl

theorem alone_live {q : Query} (valid : q.validate = .ok ()) (offers : w.offersFeed = true)
    (quiet : w.Quiet) :
    (live q).run.alone w =
      some (.ok (.feed (w.feed.subscribe w.store.journal).1 q.entity.name),
        { w with feed := (w.feed.subscribe w.store.journal).2 }) := by
  have hoffers : (Work.ofJob (.read World.offersFeed) : Work Bool).run.alone w =
      some (.ok true, w) := by
    show some (Except.ok w.offersFeed, w) = _
    rw [offers]
  unfold live
  rw [Work.alone_bind_ok hoffers]
  show (do
    (liftM q.validate : Work Unit)
    prepare q.entity
    Work.ofJob _ : Work Changes).run.alone w = _
  rw [Work.alone_bind_ok (Work.alone_outcome valid w),
    Work.alone_bind_ok (alone_prepare q.entity quiet)]
  rfl

end Backend

theorem Rows.alone_first (rows : List Value) (w : World) :
    (Rows.first (.listed rows)).run.alone w = some (.ok rows.head?, w) := by
  cases rows <;> rfl

theorem Rows.alone_take (rows : List Value) (count : Nat) (w : World) :
    (Rows.take (.listed rows) count).run.alone w =
      some (.ok (rows.take count, .listed (rows.drop count)), w) := by
  induction count generalizing rows with
  | zero => rfl
  | succ count ih =>
    cases rows with
    | nil => rfl
    | cons v rest =>
      have hnext : (Rows.next (.listed (v :: rest))).run.alone w =
          some (.ok (some (v, .listed rest)), w) := rfl
      exact (Work.alone_bind_ok hnext).trans (Work.alone_bind_ok (ih rest))

theorem Rows.alone_all (rows : List Value) (w : World) :
    (Rows.all (.listed rows)).run.alone w = some (.ok rows, w) := by
  have hcount : (Work.ofJob (.read fun w => w.rowsLeft (.listed rows)) : Work Nat).run.alone w =
      some (.ok rows.length, w) := rfl
  unfold Rows.all
  rw [Work.alone_bind_ok hcount, Work.alone_bind_ok (Rows.alone_take rows _ w),
    List.take_of_length_le (Nat.le_succ _)]
  rfl

end LiveRecords

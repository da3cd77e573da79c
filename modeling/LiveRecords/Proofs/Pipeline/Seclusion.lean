import LiveRecords.Proofs.Pipeline.Phases

/-
  The store and the gates above it.

  Gates belong to the scheduling layers. The store has nothing to do with them, whatever it
  is asked for and wherever the work on a request is dropped (`Handler.spares_ofStore`).
-/

namespace LiveRecords

open Job (Confined)

namespace Work.Spares

variable {α β : Type} {gate : Nat} {x : Work α}

theorem bind {f : α → Work β} (hx : x.Spares gate) (hf : ∀ a, (f a).Spares gate) :
    Spares gate (x >>= f) := by
  unfold Spares
  rw [ExceptT.run_bind]
  refine Confined.bind hx fun result => ?_
  cases result with
  | ok a => exact hf a
  | error e => trivial

theorem pure (a : α) : Spares gate (pure a) := trivial

theorem read (f : World → α) : Spares gate (ofJob (.read f)) := fun w => ⟨.refl gate w, trivial⟩

theorem act {f : World → α × World} (h : ∀ w : World, w.Spares gate (f w).2) :
    Spares gate (ofJob (.act f)) := fun w => ⟨h w, trivial⟩

theorem modify {f : World → World} (h : ∀ w : World, w.Spares gate (f w)) :
    Spares gate (ofJob (.modify f)) := fun w => ⟨h w, trivial⟩

theorem waitFor {ready : World → Bool} {deadline : Option Nat} {undo : World → World}
    (h : ∀ w : World, w.Spares gate (undo w)) :
    Spares gate (ofJob (.waitFor ready deadline undo)) :=
  ⟨h, trivial⟩

theorem outcome (o : Outcome α) : Spares gate (liftM o : Work α) := trivial

theorem attempt {f : World → Outcome (α × World)}
    (h : ∀ (w : World) a w', f w = .ok (a, w') → w.Spares gate w') : Spares gate (Work.act f) := by
  refine fun w => ⟨?_, trivial⟩
  cases hf : f w with
  | error e =>
    simp only [hf]
    exact .refl gate w
  | ok result =>
    simp only [hf]
    exact h w result.1 result.2 hf

theorem inContext (context : String) (h : x.Spares gate) : (x.inContext context).Spares gate :=
  Confined.bind h fun _ => trivial

theorem pause (time : Option Nat) : Spares gate (pause time) := by
  cases time with
  | none => trivial
  | some milliseconds => exact (read _).bind fun now => waitFor fun w => .refl gate w

end Work.Spares

open Work (Spares)

namespace Provision

variable (gate : Nat)

theorem spares_declare (type : EntityType) : (declare type).Spares gate := by
  refine (Spares.act fun w => .of_eq rfl rfl).bind fun latency => ?_
  exact (Spares.pause latency).bind fun _ => fun w => ⟨.of_eq rfl rfl, trivial⟩

theorem spares_await (cell ticket : Nat) : (await cell ticket).Spares gate := by
  refine Spares.bind (Spares.waitFor fun w => ?_) fun _ => Spares.modify fun w => ?_
  · exact .of_eq rfl rfl
  · exact .of_eq rfl rfl

theorem spares_forget (table : String) (cell : Nat) (w : World) :
    w.Spares gate (forget table cell w) := by
  unfold forget
  split <;> exact .of_eq rfl rfl

theorem spares_make {table : String} {cell : Nat} {work : Work Unit} (h : work.Spares gate) :
    (make table cell work).Spares gate := by
  have hrelease (w w' : World) (hw : w.Spares gate w') : w.Spares gate (release cell w') :=
    hw.trans (.of_eq rfl rfl)
  refine Confined.bind (Confined.onDrop h (.refl gate) hrelease) fun result => ?_
  cases result with
  | ok _ => exact fun w => ⟨.of_eq rfl rfl, trivial⟩
  | error e =>
    exact fun w => ⟨(hrelease w w (.refl gate w)).trans (spares_forget gate table cell _), trivial⟩

theorem spares_ensureUnknown {ensure : EntityType → Work Unit}
    (h : ∀ type, (ensure type).Spares gate) (types : List EntityType) :
    (ensureUnknown ensure types).Spares gate := by
  induction types with
  | nil => trivial
  | cons type rest ih =>
    refine (Spares.read _).bind fun known => ?_
    cases known with
    | true => exact ih
    | false => exact (h type).bind fun _ => ih

theorem spares_ensureWithin (c : Catalog) (fuel : Nat) (type : EntityType) :
    (ensureWithin c fuel type).Spares gate := by
  induction fuel generalizing type with
  | zero => trivial
  | succ fuel ih =>
    have hrest (cell : Nat) : Spares gate (do
        if ← Work.ofJob (.read (isMade cell)) then return
        make type.name cell do
          ensureUnknown (ensureWithin c fuel) (c.referencedTypes type)
          declare type) := by
      refine (Spares.read _).bind fun made => ?_
      cases made with
      | true => trivial
      | false =>
        refine spares_make gate ?_
        exact (spares_ensureUnknown gate ih _).bind fun _ => spares_declare gate type
    have hcell : (cellFor type.name).Spares gate := by
      refine Spares.act fun w => ?_
      cases w.cellOf.get? type.name <;> exact .of_eq rfl rfl
    refine hcell.bind fun cell => (Spares.read _).bind fun made => ?_
    cases made with
    | true => trivial
    | false =>
      have henter : (enter cell).Spares gate := by
        refine Spares.act fun w => ?_
        cases w.cells[cell]? <;> exact .of_eq rfl rfl
      refine henter.bind fun ticket? => ?_
      cases ticket? with
      | none => exact hrest cell
      | some ticket => exact (spares_await gate cell ticket).bind fun _ => hrest cell

theorem spares_provide (schemaUse : SchemaUse) (type : EntityType) :
    (provide schemaUse type).Spares gate := by
  cases schemaUse with
  | unused => trivial
  | direct => exact spares_declare gate type
  | cached => exact (Spares.read _).bind fun c => spares_ensureWithin gate c _ type

theorem spares_clear (schemaUse : SchemaUse) : (clear schemaUse).Spares gate := by
  cases schemaUse with
  | unused => trivial
  | direct => exact .modify fun w => .of_eq rfl rfl
  | cached => exact .modify fun w => .of_eq rfl rfl

end Provision

namespace Backend

variable (gate : Nat)

theorem spares_prepare (type : EntityType) : (prepare type).Spares gate := by
  refine (Spares.read _).bind fun latency => (Spares.pause latency).bind fun _ => ?_
  exact (Spares.read _).bind fun schemaUse =>
    (Provision.spares_provide gate schemaUse type).inContext _

theorem spares_write (type : EntityType) (entity : Value) (change : Store → Outcome Store) :
    (write type entity change).Spares gate := by
  have hkey : Spares gate (discard (type.requireKey entity : Outcome Value) : Work Unit) := by
    cases type.requireKey entity <;> trivial
  refine hkey.bind fun _ => (spares_prepare gate type).bind fun _ => ?_
  refine Spares.attempt fun w a w' h => ?_
  obtain ⟨s, -, heq⟩ := Outcome.bind_ok h
  cases heq
  exact .of_eq rfl rfl

theorem spares_query (q : Query) : (query q).Spares gate :=
  (Spares.outcome q.prepare).bind fun _ => (spares_prepare gate q.entity).bind fun _ =>
    (Spares.read _).bind fun _ => .pure _

end Backend

theorem Rows.spares_first (gate : Nat) (rows : Rows) : rows.first.Spares gate := by
  have hnext : rows.next.Spares gate :=
    (Spares.waitFor fun w => w.spares_abandonRows gate rows).bind fun _ =>
      .act fun w => w.spares_takeRow gate rows
  exact hnext.bind fun _ =>
    (Spares.modify fun w => w.spares_abandonRows gate rows).bind fun _ => .pure _

/-- The store has nothing to do with gates. -/
theorem Handler.spares_ofStore (gate : Nat) : Handler.ofStore.Spares gate := by
  intro r
  have hprepare := Backend.spares_prepare gate
  cases r with
  | insert type entity =>
    exact Backend.spares_write gate type entity fun s => s.insert type entity
  | update type entity expected =>
    exact Backend.spares_write gate type entity fun s => s.update type entity expected
  | upsert type entity =>
    exact Backend.spares_write gate type entity fun s => s.upsert type entity
  | delete type key => exact Spares.bind (hprepare type) fun _ => .act fun w => .of_eq rfl rfl
  | find type key =>
    exact (Spares.outcome _).bind fun q =>
      (Backend.spares_query gate q).bind (Rows.spares_first gate)
  | query q => exact Backend.spares_query gate q
  | snapshot q =>
    exact (Spares.outcome _).bind fun _ => Spares.bind (hprepare q.entity) fun _ => .read _
  | live q =>
    refine (Spares.read World.offersFeed).bind fun offers => ?_
    cases offers with
    | false => trivial
    | true =>
      exact (Spares.outcome _).bind fun _ => Spares.bind (hprepare q.entity) fun _ =>
        .act fun w => .of_eq rfl rfl
  | aggregate q a =>
    exact (Spares.outcome _).bind fun _ => (Spares.outcome _).bind fun _ =>
      Spares.bind (hprepare q.entity) fun _ => .read _
  | dropAll =>
    refine Spares.bind (Spares.modify fun w => ?_) fun _ => ?_
    · exact .of_eq rfl rfl
    · exact (Spares.read _).bind fun schemaUse => Provision.spares_clear gate schemaUse

end LiveRecords

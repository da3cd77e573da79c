import LiveRecords.Pipeline.Provision
import LiveRecords.Proofs.Job.Tokens

/-
  A record of the cells and of the tables created.

  Whether a table is created twice cannot be told from the world: declaring it again
  leaves no trace there. So the calls are carried out with a record, in which it says
  which cells they opened and use, whose tables were created, and whose cells were
  forgotten while they were in use (`Logbook`). The calls with the record do to the world
  what the calls do (`Recorded.does_ensure`).
-/

namespace LiveRecords.Provision

open Job (Erases)

/-- A world with a record of its cells. -/
structure Logbook where
  world : World
  /-- The tables of the cells, in the order in which the cells were opened. -/
  opened : List String := []
  /-- The cells that calls have looked up and are not done with. -/
  inUse : List Nat := []
  /-- The tables whose declaration succeeded, as often as it did. -/
  created : List String := []
  /-- The tables whose cell was forgotten while another call was using it. -/
  handedOn : List String := []

namespace Logbook

/-- A call is done with a cell. -/
def leave (cell : Nat) (l : Logbook) : Logbook := { l with inUse := l.inUse.erase cell }

/-- One more call uses a cell. -/
def use (cell : Nat) (l : Logbook) : Logbook := { l with inUse := cell :: l.inUse }

/-- A cell is opened for a table. -/
def extend (table : String) (l : Logbook) : Logbook :=
  { l with
    world := { l.world with cellOf := l.world.cellOf.put table l.world.cells.length
                            cells := l.world.cells ++ [{}] }
    opened := l.opened ++ [table] }

/-- The cell of a table, which is in use once more. -/
def look (table : String) (l : Logbook) : Nat × Logbook :=
  match l.world.cellOf.get? table with
  | some cell => (cell, l.use cell)
  | none => (l.world.cells.length, (l.extend table).use l.world.cells.length)

/-- The declaration of a table that was asked for. -/
def create (type : EntityType) (l : Logbook) : Outcome Unit × Logbook :=
  let (result, schema) := l.world.schema.createOrUpdate l.world.catalog type
  (result, { l with
    world := { l.world with schema }
    created := if result.isOk then l.created ++ [type.name] else l.created })

/-- A cell is made, and its maker is done with it. -/
def settle (cell : Nat) (l : Logbook) : Logbook :=
  { l with world := markMade cell l.world }.leave cell

/-- A cell was not made: it is forgotten, and handed on to those who use it still. -/
def giveUp (table : String) (cell : Nat) (l : Logbook) : Logbook :=
  { l with
    world := forget table cell (release cell l.world)
    handedOn :=
      if l.world.cellOf.get? table = some cell ∧ cell ∈ (l.leave cell).inUse then
        l.handedOn ++ [table]
      else l.handedOn }.leave cell

end Logbook

/-- Work that may fail, on a world with a record. -/
abbrev Recorded (α : Type) := ExceptT Failure (Job Logbook) α

namespace Recorded

variable {α β : Type}

/-- Work in which nothing is recorded. -/
def ofWork (x : Work α) : Recorded α :=
  ExceptT.mk (x.run.within Logbook.world fun w l => { l with world := w })

/-- A change of the world and the record, with a result. -/
def act (f : Logbook → α × Logbook) : Recorded α := ExceptT.lift (Job.act f)

/-! ## The calls with a record -/

/-- Declares the table of a type. -/
def declare (type : EntityType) : Recorded Unit := do
  let latency ← ofWork (Work.ofJob (Job.act fun w =>
    (w.schemaLatency, { w with schema := w.schema.count })))
  ofWork (Work.pause latency)
  ExceptT.mk (Job.act (Logbook.create type))

/-- Whether a cell is made; a call that finds it made is done with it. -/
def check (cell : Nat) : Recorded Bool :=
  act fun l => (isMade cell l.world, if isMade cell l.world then l.leave cell else l)

/-- Makes a cell by some work; on failure the next in line may try. -/
def make (table : String) (cell : Nat) (work : Recorded Unit) : Recorded Unit :=
  ExceptT.mk do
    match ← work.run.onDrop fun l => { l with world := release cell l.world } with
    | .ok _ =>
      Job.modify (Logbook.settle cell)
      return .ok ()
    | .error e =>
      Job.modify (Logbook.giveUp table cell)
      return .error e

/-- Ensures the tables of types that are not known yet, one after another. -/
def ensureUnknown (ensure : EntityType → Recorded Unit) : List EntityType → Recorded Unit
  | [] => return
  | type :: rest => do
    if !(← ofWork (Work.ofJob (.read fun w => w.cellOf.contains type.name))) then ensure type
    ensureUnknown ensure rest

/-- Makes sure that a table is declared, once, within a depth. -/
def ensureWithin (c : Catalog) : Nat → EntityType → Recorded Unit
  | 0, _ => return
  | fuel + 1, type => do
    let cell ← act (Logbook.look type.name)
    if ← check cell then return
    if let some ticket ← ofWork (enter cell) then ofWork (await cell ticket)
    if ← check cell then return
    make type.name cell do
      ensureUnknown (ensureWithin c fuel) (c.referencedTypes type)
      declare type

/-- Makes sure that a table is declared, once. -/
def ensure (c : Catalog) (type : EntityType) : Recorded Unit :=
  ensureWithin c (c.types.length + 2) type

/-! ## What they do to the world -/

/-- Work with a record does to the world what the work without it does. -/
abbrev Does (x : Recorded α) (x' : Work α) : Prop := Erases Logbook.world x.run x'.run

namespace Does

variable {x : Recorded α} {x' : Work α}

theorem bind {f : α → Recorded β} {f' : α → Work β} (h : x.Does x')
    (hf : ∀ a, (f a).Does (f' a)) : (x >>= f).Does (x' >>= f') := by
  unfold Does
  rw [ExceptT.run_bind, ExceptT.run_bind]
  refine Erases.bind h fun result => ?_
  cases result with
  | ok a => exact hf a
  | error e => exact rfl

theorem ofWork (x : Work α) : (ofWork x).Does x := Erases.within (fun _ _ => rfl) x.run

theorem act {f : Logbook → α × Logbook} {f' : World → α × World}
    (h : ∀ l, (f l).1 = (f' l.world).1 ∧ (f l).2.world = (f' l.world).2) :
    (act f).Does (Work.ofJob (.act f')) :=
  Erases.bind (.act h) fun _ => rfl

theorem read {f : Logbook → α × Logbook} {g : World → α}
    (h : ∀ l, (f l).1 = g l.world ∧ (f l).2.world = l.world) :
    (Recorded.act f).Does (Work.ofJob (.read g)) :=
  Erases.bind (.read h) fun _ => rfl

theorem pure (a : α) : Does (Pure.pure a) (Pure.pure a) := rfl

end Does

theorem does_look (table : String) : (act (Logbook.look table)).Does (cellFor table) := by
  refine Does.act fun l => ?_
  unfold Logbook.look
  cases l.world.cellOf.get? table <;> exact ⟨rfl, rfl⟩

theorem does_check (cell : Nat) : (check cell).Does (Work.ofJob (.read (isMade cell))) := by
  refine Does.read fun l => ⟨rfl, ?_⟩
  cases isMade cell l.world <;> simp [Logbook.leave]

theorem does_declare (type : EntityType) : (declare type).Does (Provision.declare type) := by
  refine Does.bind (.ofWork _) fun latency => Does.bind (.ofWork _) fun _ => ?_
  exact Erases.act fun l => ⟨rfl, rfl⟩

theorem does_make {table : String} {cell : Nat} {x : Recorded Unit} {x' : Work Unit}
    (h : x.Does x') : (make table cell x).Does (Provision.make table cell x') := by
  refine Erases.bind (Erases.onDrop h fun _ => rfl) fun result => ?_
  cases result with
  | ok _ => exact Erases.bind (Erases.modify fun _ => rfl) fun _ => rfl
  | error e => exact Erases.bind (Erases.modify fun _ => rfl) fun _ => rfl

theorem does_ensureUnknown {ensure : EntityType → Recorded Unit} {ensure' : EntityType → Work Unit}
    (h : ∀ type, (ensure type).Does (ensure' type)) (types : List EntityType) :
    (ensureUnknown ensure types).Does (Provision.ensureUnknown ensure' types) := by
  induction types with
  | nil => exact .pure ()
  | cons type rest ih =>
    refine Does.bind (.ofWork _) fun known => ?_
    cases known with
    | true => exact ih
    | false => exact Does.bind (h type) fun _ => ih

theorem does_ensureWithin (c : Catalog) (fuel : Nat) (type : EntityType) :
    (ensureWithin c fuel type).Does (Provision.ensureWithin c fuel type) := by
  induction fuel generalizing type with
  | zero => exact .pure ()
  | succ fuel ih =>
    have hmake (cell : Nat) :
        (do
          if ← check cell then return
          make type.name cell do
            ensureUnknown (ensureWithin c fuel) (c.referencedTypes type)
            declare type : Recorded Unit).Does
        (do
          if ← Work.ofJob (.read (isMade cell)) then return
          Provision.make type.name cell do
            Provision.ensureUnknown (Provision.ensureWithin c fuel) (c.referencedTypes type)
            Provision.declare type) := by
      refine Does.bind (does_check cell) fun made => ?_
      cases made with
      | true => exact .pure ()
      | false =>
        exact does_make (Does.bind (does_ensureUnknown ih _) fun _ => does_declare type)
    refine Does.bind (does_look type.name) fun cell => Does.bind (does_check cell) fun made => ?_
    cases made with
    | true => exact .pure ()
    | false =>
      refine Does.bind (.ofWork (enter cell)) fun ticket? => ?_
      cases ticket? with
      | none => exact hmake cell
      | some ticket => exact Does.bind (.ofWork (await cell ticket)) fun _ => hmake cell

/-- A call with a record does to the world what the call does. -/
theorem does_ensure (c : Catalog) (type : EntityType) :
    (ensure c type).Does (Provision.ensure c type) := does_ensureWithin c _ type

end Recorded

end LiveRecords.Provision

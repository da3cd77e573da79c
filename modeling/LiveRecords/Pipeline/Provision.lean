import LiveRecords.Pipeline.World

/-
  Making sure that the table of an entity type is declared.

  Either every request declares the table again, or the declaration is made once and
  remembered in a cell. The first that wants a cell made makes it, after the tables
  of the types that its type refers to; the others wait for it. If that fails, the
  cell is forgotten, and the next in line tries again. A table whose cell is there,
  made or not, is not waited for on behalf of a type that refers to it, so types that
  refer to each other do not wait for each other.
-/

namespace LiveRecords.Provision

/-- Declares the table of a type. -/
def declare (type : EntityType) : Work Unit := do
  let latency ← Work.ofJob (Job.act fun w =>
    (w.schemaLatency, { w with schema := w.schema.count }))
  Work.pause latency
  ExceptT.mk (Job.act fun w =>
    let (result, schema) := w.schema.createOrUpdate w.catalog type
    (result, { w with schema }))

/-! ## Cells -/

/-- The cell of a table, which is there from then on. -/
def cellFor (table : String) : Work Nat :=
  Work.ofJob (Job.act fun w =>
    match w.cellOf.get? table with
    | some cell => (cell, w)
    | none => (w.cells.length,
        { w with cellOf := w.cellOf.put table w.cells.length, cells := w.cells ++ [{}] }))

/-- Whether a cell is made. -/
def isMade (cell : Nat) (w : World) : Bool := (w.cells[cell]?).any (·.made)

/-- Whether the declaration of a table is made and remembered. -/
def isKnown (table : String) (w : World) : Bool := (w.cellOf.get? table).any fun cell => isMade cell w

/-- Whether a ticket for a cell was called. -/
def isCalled (cell ticket : Nat) (w : World) : Bool :=
  (w.cells[cell]?).any (·.gate.isCalled ticket)

/-- Asks to make a cell; returns a ticket if that has to wait. -/
def enter (cell : Nat) : Work (Option Nat) :=
  Work.ofJob (Job.act fun w =>
    match w.cells[cell]? with
    | some c => (c.gate.enter.1, w.onCell cell fun c => { c with gate := c.gate.enter.2 })
    | none => (none, w))

/-- Lets the next in line make a cell. -/
def release (cell : Nat) (w : World) : World :=
  w.onCell cell fun c => { c with gate := c.gate.release }

/-- Waits until a cell is made or the ticket is called. -/
def await (cell ticket : Nat) : Work Unit := do
  let leave (w : World) := w.onCell cell fun c => { c with gate := c.gate.leave ticket }
  Work.ofJob (.waitFor (fun w => isMade cell w || isCalled cell ticket w) none leave)
  Work.ofJob (.modify fun w => w.onCell cell fun c => { c with gate := c.gate.claim ticket })

/-- Marks a cell as made. -/
def markMade (cell : Nat) (w : World) : World := w.onCell cell fun c => { c with made := true }

/-- Forgets the cell of a table, if it is still the one that was not made. -/
def forget (table : String) (cell : Nat) (w : World) : World :=
  if w.cellOf.get? table = some cell ∧ !isMade cell w then
    { w with cellOf := w.cellOf.erase table }
  else w

/-- Makes a cell by some work; on failure the next in line may try. -/
def make (table : String) (cell : Nat) (work : Work Unit) : Work Unit :=
  ExceptT.mk do
    match ← work.run.onDrop (release cell) with
    | .ok _ =>
      Job.modify (markMade cell)
      return .ok ()
    | .error e =>
      Job.modify fun w => forget table cell (release cell w)
      return .error e

/-- Ensures the tables of types that are not known yet, one after another. -/
def ensureUnknown (ensure : EntityType → Work Unit) : List EntityType → Work Unit
  | [] => return
  | type :: rest => do
    if !(← Work.ofJob (.read fun w => w.cellOf.contains type.name)) then ensure type
    ensureUnknown ensure rest

/-- Makes sure that a table is declared, once; `fuel` bounds how deep the types on the
way refer to each other. -/
def ensureWithin (c : Catalog) : Nat → EntityType → Work Unit
  | 0, _ => return
  | fuel + 1, type => do
    let cell ← cellFor type.name
    if ← Work.ofJob (.read (isMade cell)) then return
    if let some ticket ← enter cell then await cell ticket
    if ← Work.ofJob (.read (isMade cell)) then return
    make type.name cell do
      ensureUnknown (ensureWithin c fuel) (c.referencedTypes type)
      declare type

/-- Makes sure that a table is declared, once. On the way every type comes once, and
the first perhaps again after a failure. -/
def ensure (c : Catalog) (type : EntityType) : Work Unit :=
  ensureWithin c (c.types.length + 2) type

/-- Makes sure that a table is declared, in the way that the store has it done. -/
def provide (schemaUse : SchemaUse) (type : EntityType) : Work Unit :=
  match schemaUse with
  | .unused => return
  | .direct => declare type
  | .cached => do ensure (← Work.ofJob (.read World.catalog)) type

/-- Forgets all declarations. -/
def clear (schemaUse : SchemaUse) : Work Unit :=
  match schemaUse with
  | .unused => return
  | .direct => Work.ofJob (.modify fun w => { w with schema := w.schema.clear })
  | .cached => Work.ofJob (.modify fun w => { w with schema := w.schema.clear, cellOf := [] })

end LiveRecords.Provision

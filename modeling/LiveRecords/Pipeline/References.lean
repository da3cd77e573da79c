import LiveRecords.Entity.Catalog
import LiveRecords.Failure

/-
  Reference-first writes: what a document refers to is written before the document.

  References are followed depth first, through embedded entities too. A referenced
  entity that is missing is inserted; one that is stored with other values in the
  fields that the reference carries takes these values; otherwise nothing is
  written. A null field of a reference means that the field was not loaded: it never
  clears stored data.

  A reference back to an entity on the way closes a cycle and is not followed. If
  its target is not stored yet, a stub with nothing but the key takes its place; the
  later write of a stubbed entity replaces the stub.

  The writer works over any backend, in any monad.
-/

namespace LiveRecords

/-- An entity: the name of its type and its key text. -/
abbrev EntityId := String × String

/-- What a reference-first writer needs of the store below it. -/
structure ReferenceStore (m : Type → Type) where
  find : EntityType → Value → ExceptT Failure m (Option Value)
  insert : EntityType → Value → ExceptT Failure m Value
  update : EntityType → Value → Option Nat → ExceptT Failure m Value
  upsert : EntityType → Value → ExceptT Failure m Value

/-- How a document is written. -/
inductive WriteMode where
  | insert
  | update (expected : Option Nat)
  | upsert
  deriving DecidableEq, Repr

namespace References

/-- The fields that a reference carries. -/
def carried (reference : Fields) : Fields := reference.filter fun (_, v) => !v.isNull

/-- Whether a stored document disagrees with a carried field. -/
def isStale (stored : Fields) (entry : String × Value) : Bool :=
  match stored.get? entry.1 with
  | some v => !v.alike entry.2
  | none => true

/-- The stored document with the carried fields of a reference, if any of them is
different. -/
def refreshed? (stored reference : Value) : Option Value :=
  match stored, reference with
  | .object stored, .object reference =>
    if (carried reference).any (isStale stored) then
      some (.object ((carried reference).foldl (fun all (name, v) => Keyed.put name v all) stored))
    else none
  | _, _ => none

/-- The identity of an entity. -/
def idOf (type : EntityType) (key : Value) : EntityId := (type.name, key.keyText)

section Writer

variable {m : Type → Type} [Monad m] (store : ReferenceStore m) (c : Catalog)

/-- Writes whatever a document of a type refers to: it takes the entities on the way
and the stubs written so far, and returns the stubs. -/
abbrev Resolver (m : Type → Type) :=
  EntityType → List EntityId → List EntityId → ExceptT Failure m (List EntityId)

/-- The failure of a stub that could not be written. -/
def stubFailure (id : EntityId) : Failure → Failure
  | .uniqueConstraint .. => .referenceCycle s!"key stub for {id.1} {id.2} violates a unique index"
  | f => f

/-- Makes sure that the target of a reference back is there, by a stub if need be. -/
def closeCycle (type : EntityType) (key : Value) (stubs : List EntityId) :
    ExceptT Failure m (List EntityId) := do
  let id := idOf type key
  if stubs.contains id then return stubs
  match ← store.find type key with
  | some _ => return stubs
  | none =>
    discard (ExceptT.adapt (stubFailure id) (store.insert type (type.keyStub key)))
    return id :: stubs

/-- Makes sure that a referenced entity is stored with the carried values. -/
def refresh (type : EntityType) (key reference : Value) : ExceptT Failure m Unit := do
  match ← store.find type key with
  | none => discard (store.insert type reference)
  | some stored =>
    match refreshed? stored reference with
    | some merged => discard (store.upsert type merged)
    | none => return

/-- Follows a reference; `inner` follows what the reference itself refers to. -/
def follow (inner : Resolver m) (type : EntityType) (reference : Value) (path stubs : List EntityId) :
    ExceptT Failure m (List EntityId) := do
  let key ← (type.requireKey reference : Outcome Value)
  let id := idOf type key
  if path.contains id then closeCycle store type key stubs
  else
    let stubs ← inner type (id :: path) stubs
    refresh store type key reference
    return stubs

/-- Follows one property of a document, if it refers to an entity. -/
def followProperty (inner : Resolver m) (type : EntityType) (p : Property) (value : Value)
    (path stubs : List EntityId) : ExceptT Failure m (List EntityId) :=
  match c.referenced? p with
  | none => return stubs
  | some target =>
    if !value.isObject then return stubs
    else
      ExceptT.adapt (.inContext s!"resolving reference {type.name}.{p.name}")
        (if c.isEmbedded p then inner target path stubs
         else follow store inner target value path stubs)

mutual

/-- Follows all references of a document, property by property. -/
def resolver : Value → Resolver m
  | .object fields =>
    let inner := fieldResolvers fields
    fun type path stubs =>
      type.properties.foldlM (fun stubs p =>
        match inner.get? p.name with
        | some (value, resolve) => followProperty store c resolve type p value path stubs
        | none => return stubs) stubs
  | _ => fun _ _ stubs => return stubs

/-- The fields of a document, each with what follows the references inside it. -/
def fieldResolvers : List (String × Value) → Keyed (Value × Resolver m)
  | [] => []
  | (name, value) :: rest => (name, value, resolver value) :: fieldResolvers rest

end

/-- Writes one document. -/
def writeEntity (type : EntityType) (entity : Value) : WriteMode → ExceptT Failure m Value
  | .insert => store.insert type entity
  | .update expected => store.update type entity expected
  | .upsert => store.upsert type entity

/-- Refuses to update what is not stored, before anything is written. -/
def checkStored (type : EntityType) (key : Value) (mode : WriteMode) : ExceptT Failure m Unit := do
  match mode with
  | .update _ =>
    match ← store.find type key with
    | some _ => return
    | none => throw (.notFound type.name key.keyText)
  | _ => return

/-- Writes a document after everything that it refers to. -/
def write (type : EntityType) (entity : Value) (mode : WriteMode) : ExceptT Failure m Value := do
  let key ← (type.requireKey entity : Outcome Value)
  if type.properties.all fun p => (c.referenced? p).isNone then
    writeEntity store type entity mode
  else
    checkStored store type key mode
    let stubs ← resolver store c entity type [idOf type key] []
    let isStubbed := stubs.contains (idOf type key)
    writeEntity store type entity (if mode = .insert ∧ isStubbed then .upsert else mode)

end Writer

end References

end LiveRecords

import LiveRecords.Change.Event
import LiveRecords.Entity.Catalog

/-
  The store: one table of documents per entity type, and the journal of its writes.

  Every key has a version. The first write of a key gives it version 1 and each
  update or delete adds one; the version of a deleted key is kept as a tombstone,
  so versions of a key only grow. A write either succeeds, and then reports one
  event, or fails and leaves the store as it was: its result is the next store or a
  failure.
-/

namespace LiveRecords

/-- A stored document and its version. -/
structure Row where
  value : Value
  version : Nat

/-- The documents of one entity type under their key texts, and the last versions of
the keys that were deleted. -/
structure Table where
  rows : Keyed Row := []
  tombstones : Keyed Nat := []

/-- All tables, and every event that was reported, the oldest first. -/
structure Store where
  tables : Keyed Table := []
  journal : Array StoreEvent := #[]

namespace Table

/-- The version that a key has once it is created. -/
def nextVersion (t : Table) (key : String) : Nat := (t.tombstones.get? key).getD 0 + 1

/-- Whether a row under another key has a value of a property. -/
def isTaken (t : Table) (key : String) (p : Property) (value : Value) : Bool :=
  t.rows.any fun (other, row) => other != key && (p.get row.value).alike value

/-- The first unique property whose value in a document is taken by another row. -/
def conflict? (t : Table) (type : EntityType) (key : String) (entity : Value) :
    Option Property :=
  type.properties.find? fun p =>
    p.isUnique && !p.isKey && !(p.get entity).isNull && t.isTaken key p (p.get entity)

/-- Refuses a document that would break a unique property. -/
def checkUnique (t : Table) (type : EntityType) (key : String) (entity : Value) :
    Outcome Unit :=
  match t.conflict? type key entity with
  | some p => .error (.uniqueConstraint type.name p.name)
  | none => .ok ()

/-- Puts a document under a key, with its version, in place of a tombstone or row. -/
def store (t : Table) (key : String) (entity : Value) (version : Nat) : Table :=
  { rows := t.rows.put key ⟨entity, version⟩, tombstones := t.tombstones.erase key }

/-- Leaves a tombstone in place of a row. -/
def bury (t : Table) (key : String) (version : Nat) : Table :=
  { rows := t.rows.erase key, tombstones := t.tombstones.put key version }

/-- The versions of all keys, of the deleted ones too. -/
def versions (t : Table) : Keyed Nat :=
  t.tombstones.foldl (fun all (key, version) => all.put key version)
    (t.rows.mapValues Row.version)

end Table

namespace Store

/-- The table of a name, empty if nothing was ever written to it. -/
def table (s : Store) (name : String) : Table := (s.tables.get? name).getD {}

/-- The store with a table replaced, and the event of the write that did it. -/
def commit (s : Store) (name : String) (t : Table) (event : StoreEvent) : Store :=
  { tables := s.tables.put name t, journal := s.journal.push event }

/-! ## Writes -/

/-- Stores a document under a key that has no row. -/
def create (s : Store) (type : EntityType) (key : String) (entity : Value) :
    Outcome Store := do
  let t := s.table type.name
  t.checkUnique type key entity
  let version := t.nextVersion key
  return s.commit type.name (t.store key entity version) (.created type.name entity version)

/-- Stores a document in place of a row. -/
def replace (s : Store) (type : EntityType) (key : String) (row : Row) (entity : Value) :
    Outcome Store := do
  let t := s.table type.name
  t.checkUnique type key entity
  let version := row.version + 1
  return s.commit type.name (t.store key entity version)
    (.updated type.name row.value entity version)

/-- The row of a key. -/
def row? (s : Store) (type : EntityType) (key : String) : Option Row :=
  (s.table type.name).rows.get? key

/-- The key text of a document that is to be written. -/
def keyFor (type : EntityType) (entity : Value) : Outcome String := do
  return (← type.requireKey entity).keyText

/-- Stores a document under a new key. -/
def insert (s : Store) (type : EntityType) (entity : Value) : Outcome Store := do
  let key ← keyFor type entity
  match s.row? type key with
  | some _ => .error (.duplicateKey type.name key)
  | none => s.create type key entity

/-- Replaces a stored document, if it has the expected version. -/
def update (s : Store) (type : EntityType) (entity : Value) (expected : Option Nat) :
    Outcome Store := do
  let key ← keyFor type entity
  match s.row? type key with
  | none => .error (.notFound type.name key)
  | some row =>
    match expected with
    | some version =>
      if version = row.version then s.replace type key row entity
      else .error (.concurrentModification type.name key version row.version)
    | none => s.replace type key row entity

/-- Stores a document, new or in place of the one under its key. -/
def upsert (s : Store) (type : EntityType) (entity : Value) : Outcome Store := do
  let key ← keyFor type entity
  match s.row? type key with
  | some row => s.replace type key row entity
  | none => s.create type key entity

/-- Removes the row of a key; says whether there was one. -/
def delete (s : Store) (type : EntityType) (key : Value) : Bool × Store :=
  match s.row? type key.keyText with
  | none => (false, s)
  | some row =>
    let version := row.version + 1
    (true, s.commit type.name ((s.table type.name).bury key.keyText version)
      (.deleted type.name row.value version))

/-- Removes one row of a table. -/
def dropRow (name : String) (s : Store) (entry : String × Row) : Store :=
  let version := entry.2.version + 1
  s.commit name ((s.table name).bury entry.1 version) (.deleted name entry.2.value version)

/-- Removes every row of every table. -/
def dropAll (s : Store) : Store :=
  s.tables.foldl (fun s (name, t) => t.rows.foldl (dropRow name) s) s

end Store

end LiveRecords

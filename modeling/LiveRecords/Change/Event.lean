import LiveRecords.Change.Notification

/-
  Events: what a store reports of each committed write.
-/

namespace LiveRecords

/-- A committed write to a table, with the version that the key has since. -/
inductive StoreEvent where
  | created (table : String) (new : Value) (version : Nat)
  | updated (table : String) (old new : Value) (version : Nat)
  | deleted (table : String) (old : Value) (version : Nat)

namespace StoreEvent

/-- The table written to. -/
def table : StoreEvent → String
  | .created table .. | .updated table .. | .deleted table .. => table

/-- The version of the key after the write. -/
def version : StoreEvent → Nat
  | .created _ _ version | .updated _ _ _ version | .deleted _ _ version => version

/-- The name of an event's kind. -/
def typeName : StoreEvent → String
  | .created .. => "entity:created"
  | .updated .. => "entity:updated"
  | .deleted .. => "entity:deleted"

/-- The event as a notification. -/
def toNotification : StoreEvent → Notification Value
  | .created _ new version => (Notification.create new).withVersion version
  | .updated _ old new version => (Notification.update old new).withVersion version
  | .deleted _ old version => (Notification.delete old).withVersion version

/-- The document of an event. -/
def encode : StoreEvent → Value
  | .created table new version =>
    .ofFields [("type", .text "entityCreated"), ("table", .text table), ("newValue", new),
      ("version", .int version)]
  | .updated table old new version =>
    .ofFields [("type", .text "entityUpdated"), ("table", .text table), ("oldValue", old),
      ("newValue", new), ("version", .int version)]
  | .deleted table old version =>
    .ofFields [("type", .text "entityDeleted"), ("table", .text table), ("oldValue", old),
      ("version", .int version)]

/-- The event in a document. -/
def decode (v : Value) : Outcome StoreEvent :=
  match v with
  | .object fields => do
    let field (name : String) := Keyed.get? name fields
    let type ← Decode.required Decode.text (field "type")
    let table := Decode.required Decode.text (field "table")
    let old := Decode.required .ok (field "oldValue")
    let new := Decode.required .ok (field "newValue")
    let version := Decode.required Decode.unsigned64 (field "version")
    match type with
    | "entityCreated" => return .created (← table) (← new) (← version)
    | "entityUpdated" => return .updated (← table) (← old) (← new) (← version)
    | "entityDeleted" => return .deleted (← table) (← old) (← version)
    | _ => .error .serialization
  | _ => .error .serialization

end StoreEvent

end LiveRecords

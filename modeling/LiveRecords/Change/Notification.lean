import LiveRecords.Document.Decode

/-
  Notifications: how the results of a query change.

  An entity that stops matching is reported as deleted, with the last value that
  matched. In a document, what is absent is left out, and null reads as absent.
-/

namespace LiveRecords

/-- The kinds of change. -/
inductive ChangeKind where
  | create
  | update
  | delete
  deriving DecidableEq, Repr, Inhabited

/-- A change, with the values before and after it and the version it led to. -/
structure Notification (α : Type) where
  kind : ChangeKind
  oldValue : Option α := none
  newValue : Option α := none
  version : Option Nat := none

namespace ChangeKind

/-- The word for a kind of change. -/
def word : ChangeKind → String
  | .create => "create"
  | .update => "update"
  | .delete => "delete"

/-- The kind of change that a word stands for. -/
def ofWord? : String → Option ChangeKind
  | "create" => some .create
  | "update" => some .update
  | "delete" => some .delete
  | _ => none

end ChangeKind

namespace Notification

variable {α β ε : Type}

/-- A new value. -/
def create (value : α) : Notification α := { kind := .create, newValue := some value }

/-- A value in place of another one. -/
def update (old new : α) : Notification α :=
  { kind := .update, oldValue := some old, newValue := some new }

/-- A value that is gone. -/
def delete (old : α) : Notification α := { kind := .delete, oldValue := some old }

/-- The same change with a version. -/
def withVersion (n : Notification α) (version : Option Nat) : Notification α :=
  { n with version }

/-- The value after the change, or else the one before it. -/
def current? (n : Notification α) : Option α := n.newValue.or n.oldValue

/-- The change with both values replaced. -/
def map (f : α → β) (n : Notification α) : Notification β :=
  { kind := n.kind, oldValue := n.oldValue.map f, newValue := n.newValue.map f
    version := n.version }

/-- The change with both values replaced, the old one first, if both can be. -/
def tryMap (f : α → Except ε β) (n : Notification α) : Except ε (Notification β) := do
  let old ← n.oldValue.mapM f
  let new ← n.newValue.mapM f
  return { kind := n.kind, oldValue := old, newValue := new, version := n.version }

/-! ## Documents -/

/-- A field that is left out when absent. -/
def fieldOf (name : String) (value : Option Value) : List (String × Value) :=
  match value with
  | some v => [(name, v)]
  | none => []

/-- The document of a notification. -/
def encode (n : Notification Value) : Value :=
  .ofFields (("kind", .text n.kind.word) :: fieldOf "oldValue" n.oldValue ++
    fieldOf "newValue" n.newValue ++ fieldOf "version" (n.version.map fun v => .int v))

end Notification

/-- The kind of change in a document: its word, or an object of that word and null. -/
def ChangeKind.decode : Value → Outcome ChangeKind
  | .text s =>
    match ChangeKind.ofWord? s with
    | some k => .ok k
    | none => .error .serialization
  | .object [(s, .null)] =>
    match ChangeKind.ofWord? s with
    | some k => .ok k
    | none => .error .serialization
  | _ => .error .serialization

/-- The notification in a document. -/
def Notification.decode (v : Value) : Outcome (Notification Value) := do
  let field ← Decode.record ["kind", "oldValue", "newValue", "version"] v
  let kind ← Decode.required ChangeKind.decode (field "kind")
  let old ← Decode.optional .ok (field "oldValue")
  let new ← Decode.optional .ok (field "newValue")
  let version ← Decode.optional Decode.unsigned64 (field "version")
  return { kind, oldValue := old, newValue := new, version }

end LiveRecords

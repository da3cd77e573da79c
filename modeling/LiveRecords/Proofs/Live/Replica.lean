import LiveRecords.Change.Notification
import LiveRecords.Entity.Catalog
import LiveRecords.Proofs.Entries

/-
  Replaying notifications.

  A subscriber holds entities by key: one that is created is added, an updated one is
  replaced, a deleted one is removed (`Replica.take`). A stream fits if each of its
  notifications fits what the subscriber holds when it comes (`Replica.Stream`).
-/

namespace LiveRecords

/-! ## Replaying notifications -/

/-- The key text of the entity that a notification is about. -/
def Notification.keyText? (type : EntityType) (n : Notification Value) : Option String :=
  n.current?.bind type.keyTextOf?

/-- The entities that a subscriber holds who replays notifications. -/
abbrev Replica := Keyed Value

/-- A notification fits what a subscriber holds: what is created is not there, what is
updated or deleted is there with the old value, and an update changes something. -/
def Notification.Fits (type : EntityType) (held : Replica) (n : Notification Value) : Prop :=
  ∃ key, n.keyText? type = some key ∧
    match n.kind with
    | .create => n.newValue.isSome ∧ held.get? key = none
    | .update => ∃ old new, n.oldValue = some old ∧ n.newValue = some new ∧
        held.get? key = some old ∧ old.same new = false
    | .delete => n.newValue = none ∧ n.oldValue.isSome ∧ held.get? key = n.oldValue

namespace Replica

variable (type : EntityType)

/-- What a subscriber holds after a notification. -/
def take (held : Replica) (n : Notification Value) : Replica :=
  match n.keyText? type with
  | none => held
  | some key =>
    match n.kind, n.newValue with
    | .delete, _ => held.erase key
    | _, some new => held.put key new
    | _, none => held

/-- What a subscriber holds after some notifications. -/
def takeAll (held : Replica) (ns : List (Notification Value)) : Replica :=
  ns.foldl (take type) held

/-- Each notification fits what the subscriber holds when it comes. -/
def Stream : Replica → List (Notification Value) → Prop
  | _, [] => True
  | held, n :: rest => n.Fits type held ∧ Stream (take type held n) rest

variable {type}

theorem take_of_keyed {n : Notification Value} {key : String} {held : Replica}
    (h : n.keyText? type = some key) :
    take type held n =
      match n.kind, n.newValue with
      | .delete, _ => held.erase key
      | _, some new => held.put key new
      | _, none => held := by
  unfold take
  rw [h]

theorem takeAll_append (held : Replica) (a b : List (Notification Value)) :
    takeAll type held (a ++ b) = takeAll type (takeAll type held a) b := List.foldl_append ..

theorem Stream.append {held : Replica} {a b : List (Notification Value)}
    (ha : Stream type held a) (hb : Stream type (takeAll type held a) b) :
    Stream type held (a ++ b) := by
  induction a generalizing held with
  | nil => exact hb
  | cons n rest ih => exact ⟨ha.1, ih ha.2 hb⟩

/-- All notifications of a stream are about some key. -/
theorem Stream.keyed {held : Replica} {ns : List (Notification Value)} (h : Stream type held ns) :
    ∀ n ∈ ns, (n.keyText? type).isSome = true := by
  induction ns generalizing held with
  | nil => exact nofun
  | cons n rest ih =>
    intro m hm
    rcases List.mem_cons.1 hm with rfl | hm
    · obtain ⟨key, hkey, _⟩ := h.1
      exact Option.isSome_of_eq_some hkey
    · exact ih h.2 m hm

end Replica

/-- The versions reported of a key rise from notification to notification. -/
def Rising (type : EntityType) (ns : List (Notification Value)) : Prop :=
  ns.Pairwise fun m n => ∀ key v w, m.keyText? type = some key → n.keyText? type = some key →
    m.version = some v → n.version = some w → v < w

end LiveRecords

import LiveRecords.Store.Basic

/-
  The change feed: receivers that follow the journal of a store.

  The feed keeps the newest events, as many as its capacity. A receiver starts
  behind the last event; if an event was dropped before the receiver took it, the
  receiver is told once how many it missed and goes on with the oldest event kept.
-/

namespace LiveRecords

/-- A receiver: its identity and the place in the journal of the next event for it. -/
structure Receiver where
  id : Nat
  place : Nat

/-- The receivers of a feed, and how many events it keeps for them. -/
structure Feed where
  capacity : Nat := 1024
  receivers : List Receiver := []
  opened : Nat := 0

/-- What a receiver takes from the feed. -/
inductive Delivery where
  | event (e : StoreEvent)
  | missed (count : Nat)

namespace Feed

/-- The least power of two from `size` on that is no less than `wanted`. -/
def roundUp (wanted : Nat) : Nat → Nat → Nat
  | 0, size => size
  | fuel + 1, size => if wanted ≤ size then size else roundUp wanted fuel (size * 2)

/-- A feed that keeps at least `wanted` events, and at least one: their number is a
power of two. -/
def ofCapacity (wanted : Nat) : Feed := { capacity := roundUp wanted 64 1 }

/-- Adds a receiver of the events from now on; returns its identity. -/
def subscribe (f : Feed) (journal : Array StoreEvent) : Nat × Feed :=
  (f.opened, { f with receivers := f.receivers ++ [⟨f.opened, journal.size⟩]
                      opened := f.opened + 1 })

/-- Removes a receiver. -/
def unsubscribe (f : Feed) (id : Nat) : Feed :=
  { f with receivers := f.receivers.filter (·.id != id) }

/-- The place of the next event for a receiver. -/
def place? (f : Feed) (id : Nat) : Option Nat :=
  (f.receivers.find? (·.id == id)).map (·.place)

/-- Sets the place of a receiver. -/
def moveTo (f : Feed) (id place : Nat) : Feed :=
  { f with receivers := f.receivers.map fun r => if r.id = id then { r with place } else r }

/-- Whether there is something to take for a receiver. -/
def hasNews (f : Feed) (journal : Array StoreEvent) (id : Nat) : Bool :=
  match f.place? id with
  | some place => place < journal.size
  | none => false

/-- Takes the next event for a receiver, or the number of those it missed. -/
def take? (f : Feed) (journal : Array StoreEvent) (id : Nat) : Option (Delivery × Feed) :=
  match f.place? id with
  | none => none
  | some place =>
    let oldest := journal.size - f.capacity
    if place < oldest then some (.missed (oldest - place), f.moveTo id oldest)
    else (journal[place]?).map fun e => (.event e, f.moveTo id (place + 1))

end Feed

end LiveRecords

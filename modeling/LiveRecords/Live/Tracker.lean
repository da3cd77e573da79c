import LiveRecords.Query.Expansion
import LiveRecords.Store.Read

/-
  The tracker of a live query: which entities match it, and what becomes of a change.

  | before      | after         | reported                  |
  |-------------|---------------|---------------------------|
  | not matched | matches       | a create                  |
  | matched     | still matches | an update                 |
  | matched     | does not      | a delete of the old value |
  | not matched | does not      | nothing                   |

  A change is dropped if its version is not newer than the last one seen for its key,
  or if it leaves the tracked value as it was. Entities are tracked in full; what is
  reported of them is shaped by the query.
-/

namespace LiveRecords

namespace Query

/-- The query for the entities behind a live query, in full. -/
def raw (q : Query) : Query :=
  { q with mapping := none, skip := none, limit := none, properties := [] }

/-- The compiled query by which a live query matches and shapes entities. -/
def shaping (c : Catalog) (q : Query) : Outcome Compiled :=
  let paths :=
    if q.properties.isEmpty then [] else Expansion.expand c q.properties (q.resultType? c)
  ({ q with skip := none, limit := none, properties := [] }.addProperties paths).compile

end Query

/-- The entities that a live query tracks, and the last version seen of each key. -/
structure Tracker where
  entity : EntityType
  query : Query.Compiled
  matched : Keyed Value := []
  versions : Keyed Nat := []

namespace Tracker

/-- The tracker of a query, before anything was read. -/
def ofQuery (c : Catalog) (q : Query) : Outcome Tracker := do
  return { entity := q.entity, query := ← q.shaping c }

/-- A change as it is reported: with its values shaped. -/
def shaped (t : Tracker) (n : Notification Value) : Notification Value := n.map t.query.shape

/-- The matching entities that have a key, each with its key text, in order. -/
def keyed (t : Tracker) (entities : List Value) : List (String × Value) :=
  (entities.filter t.query.admits).filterMap fun entity =>
    (t.entity.keyTextOf? entity).map fun key => (key, entity)

/-- Starts from a snapshot: every matching entity is reported as created. -/
def snapshot (t : Tracker) (s : Snapshot) : List (Notification Value) × Tracker :=
  let found := t.keyed s.entities
  (found.map fun (_, entity) => t.shaped (.create entity),
    { t with matched := found.foldl (fun all (key, entity) => all.put key entity) t.matched
             versions := s.versions })

/-- Moves a key to its new state, in which it may not be matched; reports the change
if there is one. The report is not shaped yet. -/
def transition (t : Tracker) (key : String) (after : Option Value) :
    Option (Notification Value) × Tracker :=
  match t.matched.get? key, after with
  | some before, some after =>
    if before.same after then (none, t)
    else (some (.update before after), { t with matched := t.matched.put key after })
  | none, some after => (some (.create after), { t with matched := t.matched.put key after })
  | some before, none => (some (.delete before), { t with matched := t.matched.erase key })
  | none, none => (none, t)

/-- Whether a version of a key is no newer than one seen before. -/
def isStale (t : Tracker) (key : String) (version : Nat) : Bool :=
  match t.versions.get? key with
  | some seen => version ≤ seen
  | none => false

/-- The value that a change leaves matched. -/
def matchedAfter (t : Tracker) (n : Notification Value) : Option Value :=
  match n.kind with
  | .delete => none
  | .create | .update => n.newValue.filter t.query.admits

/-- Takes a change of the table: what is reported of it, and the tracker after it. -/
def apply (t : Tracker) (n : Notification Value) : Option (Notification Value) × Tracker :=
  match n.current?.bind t.entity.keyTextOf? with
  | none => (none, t)
  | some key =>
    let go (t : Tracker) :=
      let (change, t) := t.transition key (t.matchedAfter n)
      (change.map fun c => t.shaped (c.withVersion n.version), t)
    match n.version with
    | none => go t
    | some version =>
      if t.isStale key version then (none, t)
      else go { t with versions := t.versions.put key version }

/-- Moves keys to their new states one after another. -/
def transitions (t : Tracker) : List (String × Option Value) →
    List (Notification Value) × Tracker
  | [] => ([], t)
  | (key, after) :: rest =>
    let (change, t) := t.transition key after
    let (changes, t) := transitions t rest
    (change.toList ++ changes, t)

/-- The new states of the keys in the order found. Of a key that is found twice the
last entity counts, and it is gone when its turn comes again. -/
def arrivals : Keyed Value → List String → List (String × Option Value)
  | _, [] => []
  | current, key :: rest => (key, current.get? key) :: arrivals (current.erase key) rest

/-- Takes the full list of entities: reports what has gone, in the order of keys, and
then what is new or changed, in the order given. -/
def diff (t : Tracker) (entities : List Value) : List (Notification Value) × Tracker :=
  let found := t.keyed entities
  let current := Keyed.ofList found
  let gone := t.matched.filter fun (key, _) => !current.contains key
  let (changes, t) := t.transitions
    (gone.map (fun (key, _) => (key, none)) ++ arrivals current (found.map (·.1)))
  (changes.map t.shaped, t)

/-- Takes a snapshot after changes were missed. -/
def resync (t : Tracker) (s : Snapshot) : List (Notification Value) × Tracker :=
  let newest (seen : Keyed Nat) (entry : String × Nat) : Keyed Nat :=
    seen.put entry.1 (max ((seen.get? entry.1).getD 0) entry.2)
  { t with versions := s.versions.foldl newest t.versions }.diff s.entities

end Tracker

end LiveRecords

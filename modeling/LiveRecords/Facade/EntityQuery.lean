import LiveRecords.Facade.Form
import LiveRecords.Pipeline.Handler

/-
  Typed access to a pipeline: entity sets and their queries.

  Documents go in and come out by the form of the entity type. A query starts with
  the entities of a set and may map them to results of another form; a projection
  is then about the result type.
-/

namespace LiveRecords

/-- The entities of one type, with the forms of documents and keys. -/
structure EntitySet where
  type : EntityType
  document : Form
  key : Form

/-- A query of entities of one type for results of a form; `result` is the entity type
of the results, if they are entities. -/
structure EntityQuery where
  query : Query
  form : Form
  result : Option EntityType

namespace EntitySet

/-- Inserts an entity. -/
def insert (s : EntitySet) (handle : Handler) (entity : Value) : Work Value := do
  let document ← (s.document.read entity : Outcome Value)
  let stored ← handle (.insert s.type document)
  (s.document.read stored : Outcome Value)

/-- Replaces a stored entity, if it has the expected version. -/
def update (s : EntitySet) (handle : Handler) (entity : Value) (expected : Option Nat) :
    Work Value := do
  let document ← (s.document.read entity : Outcome Value)
  let stored ← handle (.update s.type document expected)
  (s.document.read stored : Outcome Value)

/-- Inserts or replaces an entity. -/
def upsert (s : EntitySet) (handle : Handler) (entity : Value) : Work Value := do
  let document ← (s.document.read entity : Outcome Value)
  let stored ← handle (.upsert s.type document)
  (s.document.read stored : Outcome Value)

/-- Deletes by key; says whether there was an entity. -/
def delete (s : EntitySet) (handle : Handler) (key : Value) : Work Bool := do
  let key ← (s.key.read key : Outcome Value)
  handle (.delete s.type key)

/-- Finds by key. -/
def find (s : EntitySet) (handle : Handler) (key : Value) : Work (Option Value) := do
  let key ← (s.key.read key : Outcome Value)
  match ← handle (.find s.type key) with
  | some document => return some (← (s.document.read document : Outcome Value))
  | none => return none

/-- The query of all entities. -/
def all (s : EntitySet) : EntityQuery := ⟨{ entity := s.type }, s.document, some s.type⟩

end EntitySet

namespace EntityQuery

/-! ## Building -/

/-- Asks for entities that also satisfy a predicate. -/
def filter (q : EntityQuery) (e : Expr) : EntityQuery := { q with query := q.query.filter e }

/-- Sorts by one more expression. -/
def orderBy (q : EntityQuery) (e : Expr) (ascending : Bool) : EntityQuery :=
  { q with query := q.query.sort e ascending }

/-- Leaves out the first results. -/
def skip (q : EntityQuery) (n : Nat) : EntityQuery :=
  { q with query := { q.query with skip := some n } }

/-- Asks for at most so many results. -/
def limit (q : EntityQuery) (n : Nat) : EntityQuery :=
  { q with query := { q.query with limit := some n } }

/-- Restricts results to a property and what is always required. -/
def includePath (q : EntityQuery) (name : String) (e : Expr) : Outcome EntityQuery := do
  let path ← Outcome.inContext s!"include on {name}" (PropertyPath.ofExpr e)
  return { q with query := q.query.addProperty path }

/-- Maps every entity by an expression to a result of a form. -/
def select (q : EntityQuery) (e : Expr) (form : Form) (result : Option EntityType) :
    EntityQuery :=
  ⟨{ q.query with mapping := some e }, form, result⟩

/-! ## Running -/

/-- The results, each read by the form or refused. -/
def each (q : EntityQuery) (handle : Handler) : Work (List (Outcome Value)) := do
  let rows ← handle (.query q.query)
  return (← rows.all).map q.form.read

/-- Reads rows up to the first that does not fit the form; the rest is then given up. -/
def readRows (form : Form) (rows : Rows) : Nat → Work (List Value)
  | 0 => return []
  | count + 1 => do
    match ← rows.next with
    | none => return []
    | some (row, rest) =>
      match form.read row with
      | .ok v => return v :: (← readRows form rest count)
      | .error f =>
        Work.ofJob (.modify (·.abandonRows rest))
        throw f

/-- The results, if all fit the form. -/
def toList (q : EntityQuery) (handle : Handler) : Work (List Value) := do
  let rows ← handle (.query q.query)
  let count ← Work.ofJob (.read fun w => w.rowsLeft rows)
  readRows q.form rows (count + 1)

/-- The first result. -/
def first (q : EntityQuery) (handle : Handler) : Work (Option Value) := do
  let rows ← handle (.query (q.limit 1).query)
  match ← rows.first with
  | some row => return some (← (q.form.read row : Outcome Value))
  | none => return none

/-- The number of results. -/
def count (q : EntityQuery) (handle : Handler) : Work Nat := do
  let value ← handle (.aggregate q.query .count)
  match Decode.unsigned64 value with
  | .ok n => return n
  | .error _ => throw (.unavailable ("count returned " ++ value.render))

/-- An aggregation of the results, read by a form. -/
def aggregate (q : EntityQuery) (handle : Handler) (a : Aggregate) (form : Form) : Work Value := do
  let value ← handle (.aggregate q.query a)
  (form.read value : Outcome Value)

/-- Opens a live query. -/
def live (q : EntityQuery) (handle : Handler) : Work Changes := handle (.live q.query)

end EntityQuery

end LiveRecords

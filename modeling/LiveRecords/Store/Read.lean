import LiveRecords.Query.Aggregate
import LiveRecords.Query.Basic
import LiveRecords.Store.Basic

/-
  Reading a store: queries, snapshots and aggregations of one table.

  Rows are read in the order of their key texts. A query is checked and compiled
  before anything is read.
-/

namespace LiveRecords

/-- The entities that match a query, and the version of every key of their table;
no versions where they are not known. -/
structure Snapshot where
  entities : List Value := []
  versions : Keyed Nat := []

namespace Query

/-- The compiled form of a valid query. -/
def prepare (q : Query) : Outcome Compiled := do
  q.validate
  q.compile

end Query

/-- The compiled operand of an aggregation; none if it counts. -/
def Aggregate.prepare (a : Aggregate) : Outcome (Option (Value → Value)) :=
  a.operand?.mapM Expr.compile

/-- The result of an aggregation over entities; `operand` is its compiled operand. -/
def Aggregate.over (a : Aggregate) (operand : Option (Value → Value)) (entities : List Value) :
    Value :=
  a.reduce (entities.map fun entity =>
    match operand with
    | some run => run entity
    | none => .bool true)

namespace Store

/-- The documents of a table in the order of their key texts. -/
def documents (s : Store) (name : String) : List Value :=
  (s.table name).rows.values.map Row.value

/-- The results of a query. -/
def query (s : Store) (q : Query) (run : Query.Compiled) : List Value :=
  run.execute (s.documents q.entity.name)

/-- The results of a query, with the versions of the table. -/
def snapshot (s : Store) (q : Query) (run : Query.Compiled) : Snapshot :=
  ⟨s.query q run, (s.table q.entity.name).versions⟩

/-- An aggregation over the entities that a query selects. -/
def aggregate (s : Store) (q : Query) (run : Query.Compiled) (a : Aggregate)
    (operand : Option (Value → Value)) : Value :=
  a.over operand (run.select (s.documents q.entity.name))

end Store

end LiveRecords

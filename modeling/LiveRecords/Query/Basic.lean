import LiveRecords.Expr.Compile
import LiveRecords.Query.Projection

/-
  Queries: which entities of a type are asked for, in which order, from which place
  on, and what of each is returned.

  A query is valid if its expressions are about the entity type it asks for, its
  predicate is a truth value, its projection starts from the type of its results,
  and everything in it compiles.
-/

namespace LiveRecords

/-- An expression to sort by, and the direction. -/
structure Sorting where
  expr : Expr
  ascending : Bool

/-- A query of the entities of one type. -/
structure Query where
  entity : EntityType
  predicate : Option Expr := none
  mapping : Option Expr := none
  sorting : List Sorting := []
  skip : Option Nat := none
  limit : Option Nat := none
  properties : List PropertyPath := []

namespace Query

/-! ## Building -/

/-- Asks for entities that also satisfy another predicate. -/
def filter (q : Query) (e : Expr) : Query :=
  match q.predicate with
  | some p => { q with predicate := some (.binary .and .boolean p e) }
  | none => { q with predicate := some e }

/-- Sorts by one more expression, after those before. -/
def sort (q : Query) (e : Expr) (ascending : Bool) : Query :=
  { q with sorting := q.sorting ++ [⟨e, ascending⟩] }

/-- Asks for all entities that match. -/
def clearPaging (q : Query) : Query := { q with skip := none, limit := none }

/-- Adds a path to the projection, unless it is there already. -/
def addProperty (q : Query) (p : PropertyPath) : Query :=
  if q.properties.any p.same then q else { q with properties := q.properties ++ [p] }

/-- Adds some paths to the projection. -/
def addProperties (q : Query) (ps : List PropertyPath) : Query := ps.foldl addProperty q

/-- The query of the entity with a key. -/
def byKey (t : EntityType) (key : Value) : Outcome Query :=
  match t.key? with
  | none => .error (.invalidQuery s!"{t.name} has no key property")
  | some p =>
    .ok { entity := t
          predicate := some (.binary .equals .boolean (.property (.argument t.asType) p) (.const key))
          limit := some 1 }

/-! ## Types and text -/

/-- The type of the results, before projection. -/
def objectType (q : Query) : ValueType :=
  match q.mapping with
  | some m => m.objectType
  | none => q.entity.asType

/-- The entity type of the results, if they are entities. -/
def resultType? (c : Catalog) (q : Query) : Option EntityType :=
  match q.mapping with
  | some m => m.objectType.entity?.map c.resolve
  | none => some q.entity

/-- The text of an optional number. -/
def displayOption : Option Nat → String
  | none => "None"
  | some n => "Some(" ++ toString n ++ ")"

/-- The text of a query, for logs. -/
def display (q : Query) : String :=
  let field (name : String) (e : Option Expr) : String :=
    match e with
    | some e => ", " ++ name ++ ": " ++ Quoted.display e.display
    | none => ""
  let paths := ", ".intercalate (q.properties.map fun p => Quoted.display p.text)
  "QueryInfo \x7b meta_class: " ++ Quoted.display q.entity.name ++ field "predicate" q.predicate ++
    field "mapping" q.mapping ++ ", sorting: " ++ toString q.sorting.length ++ ", skip: " ++
    displayOption q.skip ++ ", limit: " ++ displayOption q.limit ++ ", properties: [" ++ paths ++
    "] \x7d"

/-! ## Execution -/

/-- A query whose expressions are functions. -/
structure Compiled where
  predicate : Option (Value → Value)
  mapping : Option (Value → Value)
  keys : List SortKey
  skip : Nat
  limit : Option Nat
  properties : List PropertyPath

/-- Compiles all expressions of a query: the predicate, the mapping, the sort keys. -/
def compile (q : Query) : Outcome Compiled := do
  let predicate ← q.predicate.mapM Expr.compile
  let mapping ← q.mapping.mapM Expr.compile
  let keys ← q.sorting.mapM fun s => SortKey.compile s.expr s.ascending
  return ⟨predicate, mapping, keys, q.skip.getD 0, q.limit, q.properties⟩

namespace Compiled

/-- Whether an entity is asked for. -/
def admits (q : Compiled) (entity : Value) : Bool :=
  match q.predicate with
  | some p => (p entity).isTrue
  | none => true

/-- What is returned of an entity. -/
def shape (q : Compiled) (entity : Value) : Value :=
  Projection.project ((q.mapping.map (· entity)).getD entity) q.properties

/-- The entities in the order asked for; entities that are equal under the sort keys
keep their order. -/
def sorted (q : Compiled) (entities : List Value) : List Value :=
  if q.keys.isEmpty then entities else SortKey.sort q.keys entities

/-- The entities that the query selects, in order. -/
def select (q : Compiled) (entities : List Value) : List Value :=
  let rest := (q.sorted (entities.filter q.admits)).drop q.skip
  match q.limit with
  | some n => rest.take n
  | none => rest

/-- The results of the query over some entities. -/
def execute (q : Compiled) (entities : List Value) : List Value := (q.select entities).map q.shape

end Compiled

/-! ## Validation -/

/-- Refuses an expression whose argument is an entity of another type. -/
def checkArgument (q : Query) (role : String) (e : Expr) : Outcome Unit :=
  match e.argumentType? with
  | some (.entity ref) =>
    if ref.name == q.entity.name then .ok ()
    else .error (.invalidQuery
      s!"{role} '{e.display}' is evaluated against {ref.name}, query targets {q.entity.name}")
  | _ => .ok ()

/-- Refuses a predicate that is no truth value. -/
def checkPredicate (e : Expr) : Outcome Unit :=
  if e.capability = .boolean then .ok ()
  else .error (.invalidQuery s!"predicate '{e.display}' is not a boolean expression")

/-- Refuses a projected path that starts from another type than that of the results. -/
def checkPath (result : ValueType) (p : PropertyPath) : Outcome Unit :=
  if p.rootType.same result then .ok ()
  else .error (.invalidQuery
    s!"projected property '{p.text}' is rooted at {p.rootType.display}, expected {result.display}")

/-- Refuses a query that is not valid, for the first reason found. -/
def validate (q : Query) : Outcome Unit := do
  q.predicate.forM (q.checkArgument "predicate")
  q.mapping.forM (q.checkArgument "mapping")
  q.sorting.forM fun s => q.checkArgument "sort key" s.expr
  q.predicate.forM checkPredicate
  q.properties.forM (checkPath q.objectType)
  discard q.compile

end Query

end LiveRecords

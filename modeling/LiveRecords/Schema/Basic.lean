import LiveRecords.Entity.Catalog
import LiveRecords.Failure

/-
  The schema of a database: the declared columns of its tables, and the statements
  that were executed to declare them.

  Declaring an entity type adds the columns that its table lacks and redeclares
  those whose type has changed. A column only changes to a type that can take the
  values stored so far; if one of them cannot, nothing is declared.
-/

namespace LiveRecords

/-- The columns of a table with their types. -/
abbrev Columns := Keyed ValueType

/-- The columns declared so far, the statements executed, the number of declarations
asked for, and the number of coming declarations that will be refused. -/
structure Schema where
  tables : Keyed Columns := []
  statements : Array String := #[]
  runs : Nat := 0
  refusals : Nat := 0

namespace Schema

/-! ## Statements -/

/-- The column type that stores values of a type. -/
def columnType (c : Catalog) : ValueType → String
  | .bool => "bool"
  | .int => "int"
  | .float => "float"
  | .string => "string"
  | .list item => "array<" ++ columnType c item ++ ">"
  | .entity ref =>
    if (c.resolve ref).key?.isSome then "record<" ++ ref.name ++ ">" else "object"
  | .any => "any"

/-- The statement that makes a table. -/
def tableStatement (table : String) : String :=
  s!"DEFINE TABLE IF NOT EXISTS {table} SCHEMAFULL;"

/-- The statement that makes a column. -/
def fieldStatement (table column type : String) : String :=
  s!"DEFINE FIELD IF NOT EXISTS {column} ON TABLE {table} TYPE {type};"

/-- The statement that makes an index; `rest` is what follows its columns. -/
def indexStatement (table index columns rest : String) : String :=
  s!"DEFINE INDEX IF NOT EXISTS {table}.{index} ON TABLE {table} COLUMNS {columns}{rest};"

/-- The index of a property: a key is unique, other properties as declared. -/
def indexStatements (table : String) (p : Property) : List String :=
  let index (rest : String) := [indexStatement table (p.name ++ "Index") p.name rest]
  if p.isKey then index " UNIQUE"
  else
    match p.index with
    | some .unique => index " UNIQUE"
    | some .plain => index ""
    | none => []

/-- The statements that declare a property; an embedded entity is also stored as
text. -/
def propertyStatements (c : Catalog) (table : String) (p : Property) : List String :=
  let base := columnType c p.type
  let type := if p.isKey then base else "option<" ++ base ++ ">"
  let embedded :=
    if c.isEmbedded p then [fieldStatement table (p.name ++ "AsString") "option<string>"] else []
  fieldStatement table p.name type :: embedded ++ indexStatements table p

/-- The text index over the searchable properties of a type, if it has any. -/
def textIndexStatements (type : EntityType) : List String :=
  match (type.properties.filter (·.searchable)).map (·.name) with
  | [] => []
  | names => [indexStatement type.name "textIndex" (", ".intercalate names) " SEARCH"]

/-! ## Declaring -/

/-- The first property whose column cannot change to its type, and the type that the
column has. -/
def conflict? (columns : Columns) (type : EntityType) : Option (Property × ValueType) :=
  type.properties.findSome? fun p =>
    match columns.get? p.name with
    | some stored => if stored.canWidenTo p.type then none else some (p, stored)
    | none => none

/-- Declares one property: the columns after it and the statements up to it. -/
def declareProperty (c : Catalog) (table : String) (done : Columns × List String)
    (p : Property) : Columns × List String :=
  let (columns, statements) := done
  if (columns.get? p.name).any (·.same p.type) then (columns, statements)
  else (columns.put p.name p.type, statements ++ propertyStatements c table p)

/-- Declares all properties of a type: the columns of its table and the statements. -/
def declareColumns (c : Catalog) (type : EntityType) (columns : Option Columns) :
    Columns × List String :=
  let first := if columns.isNone then [tableStatement type.name] else []
  let (columns, statements) :=
    type.properties.foldl (declareProperty c type.name) (columns.getD [], first)
  (columns, statements ++ if statements.isEmpty then [] else textIndexStatements type)

/-- Declares an entity type, or refuses to and changes nothing. -/
def declare (c : Catalog) (type : EntityType) (s : Schema) : Outcome Schema :=
  let stored := s.tables.get? type.name
  match conflict? (stored.getD []) type with
  | some (p, t) => .error (.schemaConflict type.name p.name t.display p.type.display)
  | none =>
    let (columns, statements) := declareColumns c type stored
    .ok { s with tables := s.tables.put type.name columns
                 statements := s.statements ++ statements.toArray }

/-- Counts a declaration that was asked for. -/
def count (s : Schema) : Schema := { s with runs := s.runs + 1 }

/-- Declares an entity type, unless the declaration is one of those to be refused. -/
def createOrUpdate (c : Catalog) (type : EntityType) (s : Schema) : Outcome Unit × Schema :=
  if 0 < s.refusals then
    (.error (.unavailable s!"schema backend rejected {type.name}"),
      { s with refusals := s.refusals - 1 })
  else
    match s.declare c type with
    | .ok s => (.ok (), s)
    | .error f => (.error f, s)

/-- Forgets all columns. The statements stay: they were executed. -/
def clear (s : Schema) : Schema := { s with tables := [] }

/-- The type of a column. -/
def column? (s : Schema) (table column : String) : Option ValueType :=
  (s.tables.get? table).bind (·.get? column)

end Schema

end LiveRecords

import LiveRecords.Entity.Catalog
import LiveRecords.Sample.Shop
import LiveRecords.Script.Basic

/-
  Types in scripts.

  A script declares entity types under identities of its own. The types of the shop
  are always there; a declared type hides the one of the same identity, and of two
  declared ones the later counts.
-/

namespace LiveRecords.Script

/-- The types that a script can name: the catalogue, and the place of each identity. -/
structure Names where
  catalog : Catalog
  places : List (String × Nat)

/-- A capability. -/
def capability (v : Value) : Reading Capability := do
  match Capability.ofName? (← asText v) with
  | some c => return c
  | none => bad "capability expected"

/-- A kind of expression. -/
def kind (v : Value) : Reading Kind := do
  match Kind.ofName? (← asText v) with
  | some k => return k
  | none => bad "kind expected"

/-- A type of at most so many nested lists; `name` is the name of the type at a place. -/
def typeWithin (places : List (String × Nat)) (name : Nat → String) : Nat → Value → Reading ValueType
  | _, .text "bool" => .ok .bool
  | _, .text "int" => .ok .int
  | _, .text "float" => .ok .float
  | _, .text "string" => .ok .string
  | _, .text "any" => .ok .any
  | 0, _ => bad "type expected"
  | fuel + 1, v => do
    match field? v "list", field? v "entity" with
    | some t, _ => return .list (← typeWithin places name fuel t)
    | _, some id =>
      match places.lookup (← asText id) with
      | some place => return .entity ⟨name place, place⟩
      | none => bad "unknown type"
    | _, _ => bad "type expected"

/-- A type. -/
def typeOf (places : List (String × Nat)) (name : Nat → String) (v : Value) : Reading ValueType :=
  typeWithin places name (v.depth + 1) v

/-- A property; `type` reads its type. -/
def propertyOf (type : Value → Reading ValueType) (v : Value) : Reading Property := do
  let index ← match field? v "index" with
    | some (.text "plain") => pure (some Index.plain)
    | some (.text "unique") => pure (some Index.unique)
    | some .null | none => pure none
    | _ => bad "index expected"
  return { name := ← asText (← field v "name"), type := ← type (← field v "type")
           isKey := ← boolField v "key" false, index
           searchable := ← boolField v "searchable" false
           mandatory := ← boolField v "mandatory" false
           dependsOn := ← (← listField v "depends_on").mapM asText }

/-- The identity and the name of a declared type. -/
def identity (t : Value) : Reading (String × String) := do
  let name ← asText (← field t "name")
  match field? t "id" with
  | some id => return (← asText id, name)
  | none => return (name, name)

namespace Names

/-- The names of the shop with further declared types. -/
def declare (declared : List Value) : Reading Names := do
  let shop := Shop.catalog.types
  let named ← declared.mapM identity
  let names := shop.map (·.name) ++ named.map (·.2)
  let places := (named.zipIdx.map fun ((id, _), i) => (id, shop.length + i)).reverse ++
    shop.zipIdx.map fun (t, i) => (t.name, i)
  let nameAt (place : Nat) := (names[place]?).getD ""
  let types ← (declared.zip named).zipIdx.mapM fun ((t, (_, name)), i) => do
    let properties ← (← listField t "props").mapM (propertyOf (typeOf places nameAt))
    return (⟨name, shop.length + i, properties⟩ : EntityType)
  return ⟨⟨shop ++ types⟩, places⟩

/-- The name of the type at a place. -/
def nameAt (names : Names) (place : Nat) : String :=
  ((names.catalog.types[place]?).map (·.name)).getD ""

/-- A type. -/
def type (names : Names) (v : Value) : Reading ValueType := typeOf names.places names.nameAt v

/-- A property. -/
def property (names : Names) (v : Value) : Reading Property := propertyOf names.type v

/-- The entity type of an identity. -/
def entity (names : Names) (v : Value) : Reading EntityType := do
  match (names.places.lookup (← asText v)).bind (names.catalog.types[·]?) with
  | some t => return t
  | none => bad "unknown type"

/-- The type that a request is about: that of an identity, or a type; any type if none is
given. -/
def argument (names : Names) (request : Value) : Reading ValueType :=
  match field? request "type" with
  | none => .ok .any
  | some v =>
    match v with
    | .text s =>
      match names.places.lookup s with
      | some place => .ok (.entity ⟨names.nameAt place, place⟩)
      | none => names.type v
    | v => names.type v

end Names

end LiveRecords.Script

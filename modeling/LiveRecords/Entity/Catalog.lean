import LiveRecords.Document.Order
import LiveRecords.Entity.ValueType
import LiveRecords.Failure

/-
  Entity types: their properties, their key, and the types they refer to.

  A catalogue lists the entity types of one program. A property whose type is an
  entity type with a key is a reference; without a key the entity is embedded.
-/

namespace LiveRecords

/-- How a property is indexed. -/
inductive Index where
  | plain
  | unique
  deriving DecidableEq, Repr

/-- A property of an entity type. -/
structure Property where
  name : String
  type : ValueType
  isKey : Bool := false
  index : Option Index := none
  searchable : Bool := false
  mandatory : Bool := false
  dependsOn : List String := []
  deriving DecidableEq, Repr, Inhabited

/-- An entity type: its name, its place in the catalogue and its properties. -/
structure EntityType where
  name : String
  place : Nat
  properties : List Property
  deriving DecidableEq, Repr, Inhabited

/-- The entity types of a program, each at its place. -/
structure Catalog where
  types : List EntityType
  deriving Inhabited

namespace Property

/-- Whether two properties agree in everything that was declared of them. -/
def same (p q : Property) : Bool :=
  p.name == q.name && p.type.same q.type && p.isKey == q.isKey && p.index == q.index &&
    p.searchable == q.searchable && p.mandatory == q.mandatory && p.dependsOn == q.dependsOn

/-- Whether values of the property are unique in their table. -/
def isUnique (p : Property) : Bool := p.index == some .unique

/-- The property's value in a document; null where it is missing. -/
def get (p : Property) (entity : Value) : Value := entity.get p.name

/-- The document with the property set. -/
def set (p : Property) (entity value : Value) : Value := entity.set p.name value

end Property

namespace EntityType

/-- The reference to this type. -/
def ref (t : EntityType) : EntityRef := ⟨t.name, t.place⟩

/-- This type as the type of a value. -/
def asType (t : EntityType) : ValueType := .entity t.ref

/-- The first property with a name. -/
def property? (t : EntityType) (name : String) : Option Property :=
  t.properties.find? (·.name == name)

/-- The key: the first property declared as one. -/
def key? (t : EntityType) : Option Property := t.properties.find? (·.isKey)

/-- The properties that every projection of the type must contain. -/
def alwaysRequired (t : EntityType) : List Property :=
  t.properties.filter fun p => p.isKey || p.mandatory

/-- The key of a document, if it has one that is not null. -/
def keyOf? (t : EntityType) (entity : Value) : Option Value :=
  match t.key? with
  | none => none
  | some key => if (key.get entity).isNull then none else some (key.get entity)

/-- The key text of a document. -/
def keyTextOf? (t : EntityType) (entity : Value) : Option String :=
  (t.keyOf? entity).map Value.keyText

/-- A document with nothing but the key. -/
def keyStub (t : EntityType) (key : Value) : Value :=
  match t.key? with
  | some p => p.set (.object []) key
  | none => .object []

/-- The key of a document that is to be written. -/
def requireKey (t : EntityType) (entity : Value) : Outcome Value :=
  if !entity.isObject then .error (.invalidEntity s!"{t.name} document must be an object")
  else
    match t.keyOf? entity with
    | some key => .ok key
    | none => .error (.invalidEntity s!"{t.name} document has no key")

end EntityType

namespace Catalog

/-- The type that a reference names; a type without properties if there is none. -/
def resolve (c : Catalog) (ref : EntityRef) : EntityType :=
  (c.types[ref.place]?).getD ⟨ref.name, ref.place, []⟩

/-- The entity type of a property's values. -/
def referenced? (c : Catalog) (p : Property) : Option EntityType := p.type.entity?.map c.resolve

/-- Whether the property refers to entities of their own table. -/
def isReference (c : Catalog) (p : Property) : Bool :=
  match c.referenced? p with
  | some t => t.key?.isSome
  | none => false

/-- Whether the property holds entities without a key. -/
def isEmbedded (c : Catalog) (p : Property) : Bool :=
  match c.referenced? p with
  | some t => t.key?.isNone
  | none => false

/-- The entity types that a type's properties refer to, each name once. -/
def referencedTypes (c : Catalog) (t : EntityType) : List EntityType :=
  (t.properties.filterMap c.referenced?).foldl
    (fun found next => if found.any (·.name == next.name) then found else found ++ [next]) []

end Catalog

end LiveRecords

import LiveRecords.Expr.Basic

/-
  Property paths: chains of property accesses from an argument, such as
  `vendor.name`.

  A path is held as the type of its argument and the properties on the way, so an
  expression is a path exactly if it is the expression of one.
-/

namespace LiveRecords

/-- A path: the type it starts from, the properties above its last one, outermost
first, and the last property. -/
structure PropertyPath where
  rootType : ValueType
  parents : List Property
  property : Property

namespace PropertyPath

/-- All properties of the path, outermost first. -/
def segments (p : PropertyPath) : List Property := p.parents ++ [p.property]

/-- The expression that follows the path. -/
def expr (p : PropertyPath) : Expr := p.segments.foldl Expr.property (.argument p.rootType)

/-- The names on the path, with points between them. -/
def text (p : PropertyPath) : String := ".".intercalate (p.segments.map (·.name))

/-- The number of properties on the path. -/
def depth (p : PropertyPath) : Nat := p.parents.length + 1

/-- Properties that are the same one by one. -/
def sameSegments : List Property → List Property → Bool
  | [], [] => true
  | p :: ps, q :: qs => p.same q && sameSegments ps qs
  | _, _ => false

/-- Whether two paths have the same expression. -/
def same (p q : PropertyPath) : Bool :=
  p.rootType.same q.rootType && sameSegments p.segments q.segments

/-- The path to a property of the entity type itself. -/
def root (t : EntityType) (property : Property) : PropertyPath := ⟨t.asType, [], property⟩

/-- The path one property further. -/
def child (p : PropertyPath) (property : Property) : PropertyPath :=
  ⟨p.rootType, p.segments, property⟩

/-- The path one property back. -/
def parent? (p : PropertyPath) : Option PropertyPath :=
  match p.parents.getLast? with
  | none => none
  | some last => some ⟨p.rootType, p.parents.dropLast, last⟩

/-- The paths one or more properties back, the longest first. -/
def ancestors (p : PropertyPath) : List PropertyPath :=
  (List.range p.parents.length).reverse.filterMap fun n =>
    (p.parents[n]?).map fun last => ⟨p.rootType, p.parents.take n, last⟩

/-- The properties of an expression that only accesses properties of its argument,
put before those in `below`. -/
def chain? (below : List Property) : Expr → Option (ValueType × List Property)
  | .argument type => some (type, below)
  | .property target p => chain? (p :: below) target
  | _ => none

/-- The path that an expression is. -/
def ofExpr (e : Expr) : Outcome PropertyPath :=
  let refused : Outcome PropertyPath :=
    .error (.invalidQuery s!"'{e.display}' is not a property path")
  match e with
  | .property target p =>
    match chain? [] target with
    | some (type, parents) => .ok ⟨type, parents, p⟩
    | none => refused
  | _ => refused

/-- Goes down the names of a path: `owner` is the entity type that the next name
belongs to, `found` the properties so far. -/
def resolve (c : Catalog) (path : String) :
    Option EntityType → List Property → List String → Outcome (List Property)
  | _, found, [] => .ok found
  | none, _, _ :: _ => .error (.invalidQuery s!"'{path}' descends into a non-entity property")
  | some owner, found, name :: rest =>
    match owner.property? name with
    | none => .error (.invalidQuery s!"{owner.name} has no property '{name}'")
    | some p => resolve c path (c.referenced? p) (found ++ [p]) rest

/-- The path with the given text, from an entity type on. -/
def ofText (c : Catalog) (t : EntityType) (path : String) : Outcome PropertyPath := do
  let found ← resolve c path (some t) [] (path.splitOn ".")
  match found.getLast? with
  | some last => return ⟨t.asType, found.dropLast, last⟩
  | none => .error (.invalidQuery "empty property path")

end PropertyPath

end LiveRecords

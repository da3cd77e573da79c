import LiveRecords.Expr.Path

/-
  Expansion of projections by the properties that the requested ones need.

  For each requested path come, in this order, its parent, the path itself, the
  properties it is computed from, and the key and mandatory properties of the
  entity type it leads to; at the end come those of the result type. A type that is
  being entered is not entered again, which ends the expansion of cyclic types.
-/

namespace LiveRecords.Expansion

/-- The entity type that declares the last property of a path. -/
def declaring? (c : Catalog) (p : PropertyPath) : Option EntityType :=
  match p.parent? with
  | some parent => c.referenced? parent.property
  | none => p.rootType.entity?.map c.resolve

/-- The path to another property of the type that declares the last one. -/
def sibling? (c : Catalog) (p : PropertyPath) (property : Property) : Option PropertyPath :=
  match p.parent? with
  | some parent => some (parent.child property)
  | none => (declaring? c p).map fun t => PropertyPath.root t property

/-- Whether a path is in a list. -/
def isIn (p : PropertyPath) (found : List PropertyPath) : Bool := found.any p.same

/-- The paths that the last property of a path is computed from. -/
def inputs (c : Catalog) (p : PropertyPath) : List PropertyPath :=
  match declaring? c p with
  | none => []
  | some t =>
    p.property.dependsOn.filterMap fun name => (t.property? name).bind (sibling? c p)

/-- Adds a path and what it needs to the paths found; `entered` are the names of the
types on the way that must not be entered again. -/
def add (c : Catalog) : Nat → List String → List PropertyPath → PropertyPath →
    List PropertyPath
  | 0, _, found, _ => found
  | fuel + 1, entered, found, p =>
    if isIn p found then found
    else
      let found := (p.parent?.map (add c fuel entered found)).getD found
      let found := if isIn p found then found else found ++ [p]
      let found := (inputs c p).foldl (add c fuel entered) found
      match c.referenced? p.property with
      | none => found
      | some t =>
        if entered.contains t.name then found
        else
          (t.alwaysRequired.map p.child).foldl (add c fuel (t.name :: entered)) found

/-- The greatest depth of some paths. -/
def depth (paths : List PropertyPath) : Nat := paths.foldl (fun n p => max n p.depth) 0

/-- A bound on how deep the addition of a path nests: it goes up to parents, aside to
at most all properties of a level, and down by one level for each type. -/
def fuelFor (c : Catalog) (requested : List PropertyPath) : Nat :=
  let types := c.types.length + 1
  let properties := c.types.foldl (fun n t => n + t.properties.length) 1
  (depth requested + types + 1) * (properties + 2) * (types + 1) + depth requested + 2

/-- The requested paths with all that they need, each once. -/
def expand (c : Catalog) (requested : List PropertyPath) (result : Option EntityType) :
    List PropertyPath :=
  let roots :=
    match result with
    | some t => t.alwaysRequired.map (PropertyPath.root t)
    | none => []
  let fuel := fuelFor c (requested ++ roots)
  (requested ++ roots).foldl (add c fuel []) []

end LiveRecords.Expansion

import LiveRecords.Expr.Path
import LiveRecords.Proofs.Entity.Graph

/-
  Paths and their parents.

  Two paths are the same exactly if they have the same identity, which leaves out the
  places of types (`PropertyPath.same_iff`). A path without a parent is a single property,
  any other one is a child of its parent (`PropertyPath.eq_child_of_parent?`).
-/

namespace LiveRecords.PropertyPath

/-- What a path is told by: its type and its properties, without places. -/
def identity (p : PropertyPath) : ValueType × List Property :=
  (p.rootType.withoutPlaces, p.segments.map Property.withoutPlaces)

theorem sameSegments_iff {ps qs : List Property} :
    sameSegments ps qs = true ↔ ps.map Property.withoutPlaces = qs.map Property.withoutPlaces := by
  induction ps generalizing qs with
  | nil => cases qs <;> simp [sameSegments]
  | cons p ps ih => cases qs <;> simp [sameSegments, ih, Property.same_iff]

theorem same_iff {p q : PropertyPath} : p.same q = true ↔ p.identity = q.identity := by
  simp [same, identity, ValueType.same_iff, sameSegments_iff]

@[simp] theorem parent?_child (p : PropertyPath) (r : Property) : (p.child r).parent? = some p := by
  simp [parent?, child, segments]

@[simp] theorem parent?_root (t : EntityType) (r : Property) : (root t r).parent? = none := rfl

theorem eq_child_of_parent? {p q : PropertyPath} (h : p.parent? = some q) :
    p = q.child p.property := by
  unfold parent? at h
  cases hlast : p.parents.getLast? with
  | none =>
    rw [hlast] at h
    cases h
  | some last =>
    rw [hlast] at h
    cases h
    obtain ⟨above, habove⟩ := List.getLast?_eq_some_iff.1 hlast
    obtain ⟨rootType, parents, property⟩ := p
    obtain rfl : parents = above ++ [last] := habove
    simp [child, segments]

theorem parents_eq_nil {p : PropertyPath} (h : p.parent? = none) : p.parents = [] := by
  unfold parent? at h
  cases hlast : p.parents.getLast? with
  | none => exact List.getLast?_eq_none_iff.1 hlast
  | some last =>
    rw [hlast] at h
    cases h

/-- The names on a path, outermost first. -/
def names (p : PropertyPath) : List String := p.segments.map (·.name)

theorem names_ne_nil (p : PropertyPath) : p.names ≠ [] := by
  unfold names segments
  simp

theorem text_eq (p : PropertyPath) : p.text = ".".intercalate p.names := rfl

theorem depth_child (p : PropertyPath) (r : Property) : (p.child r).depth = p.depth + 1 := by
  simp [depth, child, segments]

end LiveRecords.PropertyPath

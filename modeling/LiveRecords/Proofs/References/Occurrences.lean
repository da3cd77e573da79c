import LiveRecords.Proofs.References.Overlay
import LiveRecords.Proofs.References.Writer

/-
  The entities inside a document, in the order of the walk along its references.

  The walk comes to each entity after those inside it, and does not follow a reference back
  to an entity that it is inside of (`occurrences`, `id?_ne_of_mem_path`). An entity may
  occur several times. What its occurrences make of its row, one after another, goes from
  one part of the walk to the next (`Refreshed.append`).
-/

namespace LiveRecords.References

open Value (along)

/-! ## Occurrences -/

/-- An entity inside a document. -/
structure Occurrence where
  type : EntityType
  value : Value

/-- Which entity it is, if it has a key. -/
def Occurrence.id? (o : Occurrence) : Option EntityId := (o.type.keyOf? o.value).map (idOf o.type)

/-- The entities that the walk comes to at a reference: what it refers to, after what is
inside that, unless the walk is inside of it already. -/
def occurrencesOf (inner : EntityType → List EntityId → List Occurrence) (R : EntityType)
    (value : Value) (path : List EntityId) : List Occurrence :=
  match R.keyOf? value with
  | none => [⟨R, value⟩]
  | some key =>
    if path.contains (idOf R key) then [] else inner R (idOf R key :: path) ++ [⟨R, value⟩]

/-- The entities that the walk comes to at a property: those inside an embedded entity, and
those at a reference. -/
def occurrencesAt (c : Catalog) (inner : EntityType → List EntityId → List Occurrence)
    (p : Property) (value : Value) (path : List EntityId) : List Occurrence :=
  match c.referenced? p with
  | none => []
  | some R =>
    if !value.isObject then []
    else if c.isEmbedded p then inner R path
    else occurrencesOf inner R value path

mutual

/-- The entities that the walk comes to inside a document of a type, in this order; it is
inside those of a path. -/
def occurrences (c : Catalog) : Value → EntityType → List EntityId → List Occurrence
  | .object fields =>
    let inner := fieldOccurrences c fields
    fun T path => T.properties.flatMap fun p =>
      match inner.get? p.name with
      | some (value, within) => occurrencesAt c within p value path
      | none => []
  | _ => fun _ _ => []

/-- The fields of a document, each with the entities that the walk comes to inside it. -/
def fieldOccurrences (c : Catalog) :
    List (String × Value) → Keyed (Value × (EntityType → List EntityId → List Occurrence))
  | [] => []
  | (name, value) :: rest => (name, value, occurrences c value) :: fieldOccurrences c rest

end

variable {c : Catalog}

section

variable {p : Property} {value : Value} {R : EntityType}

theorem occurrencesAt_nowhere (plain : ∀ R, c.referenced? p = some R → value.isObject = false)
    (inner : EntityType → List EntityId → List Occurrence) (path : List EntityId) :
    occurrencesAt c inner p value path = [] := by
  unfold occurrencesAt
  cases htarget : c.referenced? p with
  | none => rfl
  | some R =>
    rw [plain R htarget]
    rfl

theorem occurrencesAt_inside (target : c.referenced? p = some R) (object : value.isObject = true)
    (embedded : R.key? = none) (inner : EntityType → List EntityId → List Occurrence)
    (path : List EntityId) : occurrencesAt c inner p value path = inner R path := by
  have hembeds := Catalog.isEmbedded_eq target
  rw [embedded, Option.isNone_none] at hembeds
  unfold occurrencesAt
  simp only [target, object, hembeds, Bool.not_true, Bool.false_eq_true, if_false, if_true]

theorem occurrencesAt_across (target : c.referenced? p = some R) (object : value.isObject = true)
    (keyed : R.key?.isSome = true) (inner : EntityType → List EntityId → List Occurrence)
    (path : List EntityId) :
    occurrencesAt c inner p value path = occurrencesOf inner R value path := by
  have hembeds := Catalog.isEmbedded_eq target
  rw [← Option.not_isSome, keyed, Bool.not_true] at hembeds
  unfold occurrencesAt
  simp only [target, object, hembeds, Bool.not_true, Bool.false_eq_true, if_false]

end

theorem get?_fieldOccurrences (name : String) (fields : List (String × Value)) :
    Keyed.get? name (fieldOccurrences c fields) =
      (Keyed.get? name fields).map fun value => (value, occurrences c value) := by
  induction fields with
  | nil => simp [fieldOccurrences, Keyed.get?_nil]
  | cons entry rest ih =>
    obtain ⟨n, value⟩ := entry
    unfold fieldOccurrences
    rw [Keyed.get?_cons, Keyed.get?_cons, ih]
    split <;> rfl

theorem occurrences_object (fields : List (String × Value)) (T : EntityType)
    (path : List EntityId) :
    occurrences c (.object fields) T path = T.properties.flatMap fun p =>
      occurrencesAt c (occurrences c (p.get (.object fields))) p (p.get (.object fields)) path := by
  conv =>
    lhs
    unfold occurrences
  dsimp only
  congr 1
  funext p
  have hget : p.get (.object fields) = (Keyed.get? p.name fields).getD .null := rfl
  rw [get?_fieldOccurrences, hget]
  cases Keyed.get? p.name fields with
  | some value => rfl
  | none => exact (occurrencesAt_nowhere (fun _ _ => rfl) _ path).symm

theorem occurrences_of_not_object {v : Value} (h : v.isObject = false) (T : EntityType)
    (path : List EntityId) : occurrences c v T path = [] := by
  cases v with
  | object fields => cases h
  | _ => rfl

/-- The walk never comes to an entity that it is inside of. -/
theorem id?_ne_of_mem_path (d : Value) {T : EntityType} {path : List EntityId} {o : Occurrence}
    (ho : o ∈ occurrences c d T path) {id : EntityId} (hid : id ∈ path) : o.id? ≠ some id := by
  induction d using Value.fields_induction generalizing T path with
  | object fields ih =>
    rw [occurrences_object, List.mem_flatMap] at ho
    obtain ⟨p, -, ho⟩ := ho
    cases Route.of c p (p.get (.object fields)) with
    | nowhere plain =>
      rw [occurrencesAt_nowhere plain] at ho
      cases ho
    | inside R target object embedded =>
      rw [occurrencesAt_inside target object embedded] at ho
      exact ih p.name ho hid
    | across R target object keyed =>
      rw [occurrencesAt_across target object keyed] at ho
      unfold occurrencesOf at ho
      split at ho
      · next hkey =>
        obtain rfl := List.mem_singleton.1 ho
        simp [Occurrence.id?, hkey]
      · next key hkey =>
        split at ho
        · cases ho
        · next hpath =>
          rcases List.mem_append.1 ho with ho | ho
          · exact ih p.name ho (List.mem_cons_of_mem _ hid)
          · obtain rfl := List.mem_singleton.1 ho
            simp only [Occurrence.id?, hkey, Option.map_some, ne_eq, Option.some.injEq]
            rintro rfl
            exact hpath (List.contains_iff_mem.2 hid)
  | other v hobject =>
    rw [occurrences_of_not_object hobject] at ho
    cases ho

/-- What the occurrences of an entity carry, in their order. -/
def valuesOf (id : EntityId) (occs : List Occurrence) : List Value :=
  (occs.filter fun o => o.id? = some id).map (·.value)

theorem valuesOf_append (id : EntityId) (occs occs' : List Occurrence) :
    valuesOf id (occs ++ occs') = valuesOf id occs ++ valuesOf id occs' := by
  simp [valuesOf]

theorem valuesOf_eq_nil {id : EntityId} {occs : List Occurrence}
    (h : ∀ o ∈ occs, o.id? ≠ some id) : valuesOf id occs = [] := by
  unfold valuesOf
  rw [List.filter_eq_nil_iff.2 fun o ho => by simpa using h o ho]
  rfl

/-! ## Rows -/

/-- What some occurrences of an entity, one after another, make of its row: without any of
them it stays as it is. It agrees with the last one, and has kept, with whatever is nested
in it, each field that none of them carries. -/
structure Refreshed (us : List Value) (before after : Option Row) : Prop where
  same : us = [] → after = before
  last : ∀ u, us.getLast? = some u → ∃ row, after = some row ∧ AgreesWith row.value u
  kept : ∀ old, before = some old → ∃ row, after = some row ∧
    ∀ name, (∀ u ∈ us, (u.get name).isNull = true) → ∀ rest,
      along (name :: rest) row.value = along (name :: rest) old.value

theorem Refreshed.refl (row : Option Row) : Refreshed [] row row where
  same _ := rfl
  last _ h := by cases h
  kept old h := ⟨old, h, fun _ _ _ => rfl⟩

theorem Refreshed.append {us vs : List Value} {before between after : Option Row}
    (h : Refreshed us before between) (h' : Refreshed vs between after) :
    Refreshed (us ++ vs) before after where
  same hnil := by
    obtain ⟨hus, hvs⟩ := List.append_eq_nil_iff.1 hnil
    exact (h'.same hvs).trans (h.same hus)
  last u hu := by
    cases vs with
    | nil =>
      rw [h'.same rfl]
      exact h.last u (by rwa [List.append_nil] at hu)
    | cons v rest =>
      refine h'.last u ?_
      rwa [List.getLast?_append_of_ne_nil _ (List.cons_ne_nil v rest)] at hu
  kept old hold := by
    obtain ⟨row, hrow, hfields⟩ := h.kept old hold
    obtain ⟨row', hrow', hfields'⟩ := h'.kept row hrow
    refine ⟨row', hrow', fun name hnull rest => ?_⟩
    rw [hfields' name (fun u hu => hnull u (List.mem_append_right _ hu)) rest]
    exact hfields name (fun u hu => hnull u (List.mem_append_left _ hu)) rest

/-- A row is created with what occurs. -/
theorem Refreshed.created (u : Value) (version : Nat) :
    Refreshed [u] none (some ⟨u, version⟩) where
  same hnil := by cases hnil
  last _ hu := by
    cases hu
    exact ⟨_, rfl, agreesWith_of_get_eq fun _ _ => rfl⟩
  kept _ hold := by cases hold

/-- A row that agrees with what occurs is left alone. -/
theorem Refreshed.agreed {u : Value} {row : Row} (h : AgreesWith row.value u) :
    Refreshed [u] (some row) (some row) where
  same _ := rfl
  last _ hu := by
    cases hu
    exact ⟨row, rfl, h⟩
  kept old hold := ⟨old, hold, fun _ _ _ => rfl⟩

/-- Any other row takes what the occurrence carries. -/
theorem Refreshed.overlaid {u merged : Value} {row : Row}
    (h : refreshed? row.value u = some merged)
    (ascending : ∀ fields, u = .object fields → Keyed.Ascending fields) (version : Nat) :
    Refreshed [u] (some row) (some ⟨merged, version⟩) where
  same hnil := by cases hnil
  last _ hu := by
    cases hu
    exact ⟨_, rfl, agreesWith_of_get_eq fun _ => get_refreshed_of_carried h ascending⟩
  kept _ hold := by
    cases hold
    refine ⟨_, rfl, fun name hnull rest => ?_⟩
    rw [along_refreshed h ascending, hnull u List.mem_cons_self]
    rfl

/-- What is refreshed may have been created just before. -/
theorem Refreshed.of_created {u : Value} {us : List Value} {before between after : Option Row}
    (h : Refreshed (u :: us) between after) (hrow : ∀ row, before = some row → between = some row) :
    Refreshed (u :: us) before after where
  same hnil := by cases hnil
  last := h.last
  kept old hold := h.kept old (hrow old hold)

end LiveRecords.References

import LiveRecords.Pipeline.References
import LiveRecords.Proofs.Document.Likeness
import LiveRecords.Proofs.Query.Projection

/-
  What refreshing makes of a stored document.

  A stored document is refreshed if it does not agree with the fields that a reference
  carries (`refreshed?_eq_none_iff`). Then it takes each of these fields, and keeps each
  other one (`get_refreshed`). A field is taken whole, with all that is nested in it. So a
  null means "not loaded" only at the top of a reference: what the reference leaves out of
  a nested object that it carries is lost (`refreshed_keeps_iff`).
-/

namespace LiveRecords.References

open Value (along)

variable {stored reference merged : Value}

/-! ## Carried fields -/

/-- What is carried are fields of the reference, each once. -/
theorem carried_nodup {new : Fields} (h : Keyed.Ascending new) :
    ((carried new).map (·.1)).Nodup := by
  have hsub : (carried new).Sublist new := List.filter_sublist
  exact h.nodup.sublist (hsub.map _)

theorem mem_carried {new : Fields} {entry : String × Value} :
    entry ∈ carried new ↔ entry ∈ new ∧ entry.2.isNull = false := by
  unfold carried
  rw [List.mem_filter, Bool.not_eq_true']

/-- With the carried fields set, each field that is not null is the reference's. -/
theorem get?_putAll_carried {new : Fields} (ascending : Keyed.Ascending new) (old : Fields)
    (name : String) :
    Keyed.get? name (Keyed.putAll (carried new) old) =
      if ((Value.object new).get name).isNull then Keyed.get? name old
      else Keyed.get? name new := by
  rw [show (Value.object new).get name = (Keyed.get? name new).getD .null from rfl]
  -- a field that is null, or missing, is none of the carried ones
  have hleft (hnull : ((Keyed.get? name new).getD .null).isNull = true) :
      name ∉ (carried new).map (·.1) := by
    intro hin
    obtain ⟨entry, hcarried, rfl⟩ := List.mem_map.1 hin
    obtain ⟨hentry, hvalue⟩ := mem_carried.1 hcarried
    rw [Keyed.get?_of_mem ascending hentry, Option.getD_some, hvalue] at hnull
    cases hnull
  split
  · next hnull => exact Keyed.get?_putAll_of_not_mem (hleft hnull) old
  · next hvalue =>
    cases hnew : Keyed.get? name new with
    | none =>
      rw [hnew] at hvalue
      exact absurd rfl hvalue
    | some value =>
      rw [hnew, Option.getD_some, Bool.not_eq_true] at hvalue
      have hin : (name, value) ∈ carried new := mem_carried.2 ⟨Keyed.mem_of_get? hnew, hvalue⟩
      exact Keyed.get?_putAll_of_mem (carried_nodup ascending) hin old

/-! ## Stale documents -/

/-- A document agrees with a reference: it has whatever the reference carries. -/
def AgreesWith (stored reference : Value) : Prop :=
  ∀ name, (reference.get name).isNull = false →
    (stored.get name).alike (reference.get name) = true

theorem agreesWith_of_get_eq
    (h : ∀ name, (reference.get name).isNull = false → stored.get name = reference.get name) :
    AgreesWith stored reference := fun name hvalue => by
  rw [h name hvalue]
  exact Value.alike_refl _

theorem isStale_eq (old : Fields) {entry : String × Value} (h : entry.2.isNull = false) :
    isStale old entry = !((Value.object old).get entry.1).alike entry.2 := by
  unfold isStale
  show _ = !((Keyed.get? entry.1 old).getD .null).alike entry.2
  cases Keyed.get? entry.1 old with
  | some value => rfl
  | none =>
    show true = !Value.null.alike entry.2
    rw [Value.alike_symm, Value.alike_null_of_value h]
    rfl

theorem any_isStale_iff {old new : Fields} (ascending : Keyed.Ascending new) :
    (carried new).any (isStale old) = true ↔ ¬AgreesWith (.object old) (.object new) := by
  rw [List.any_eq_true]
  constructor
  · rintro ⟨entry, hin, hstale⟩ hagrees
    obtain ⟨hentry, hvalue⟩ := mem_carried.1 hin
    have hget : (Value.object new).get entry.1 = entry.2 := by
      show (Keyed.get? entry.1 new).getD .null = _
      rw [Keyed.get?_of_mem ascending hentry]
      rfl
    have halike := hagrees entry.1 (hget ▸ hvalue)
    rw [isStale_eq old hvalue, ← hget, halike] at hstale
    cases hstale
  · intro hnot
    by_contra hnone
    refine hnot fun name hvalue => ?_
    by_contra halike
    refine hnone ⟨(name, (Value.object new).get name), mem_carried.2 ⟨?_, hvalue⟩, ?_⟩
    · have hcarried : ((Keyed.get? name new).getD .null).isNull = false := hvalue
      show (name, (Keyed.get? name new).getD .null) ∈ new
      cases hnew : Keyed.get? name new with
      | some value => exact Keyed.mem_of_get? hnew
      | none =>
        rw [hnew] at hcarried
        cases hcarried
    · rw [isStale_eq old hvalue, Bool.not_eq_true', Bool.eq_false_iff]
      exact halike

/-- A document is refreshed just if it does not agree with the reference. -/
theorem refreshed?_eq_none_iff (object : stored.isObject = true)
    (ascending : ∀ fields, reference = .object fields → Keyed.Ascending fields) :
    refreshed? stored reference = none ↔ AgreesWith stored reference := by
  cases stored with
  | object old =>
    cases reference with
    | object new =>
      have hany : (carried new).any (isStale old) = true ↔
          ¬AgreesWith (.object old) (.object new) := any_isStale_iff (ascending new rfl)
      unfold refreshed?
      dsimp only
      split
      · next hstale => exact iff_of_false nofun (hany.1 hstale)
      · next hfresh => exact iff_of_true rfl (not_not.1 fun h => hfresh (hany.2 h))
    | _ => exact iff_of_true rfl fun name h => by cases h
  | _ => cases object

/-! ## Refreshed documents -/

/-- A refreshed document is the stored one with the carried fields set. -/
theorem eq_of_refreshed? (h : refreshed? stored reference = some merged) :
    ∃ old new, stored = .object old ∧ reference = .object new ∧
      merged = .object (Keyed.putAll (carried new) old) := by
  unfold refreshed? at h
  split at h
  · next old new =>
    split at h
    · cases h
      exact ⟨old, new, rfl, rfl, rfl⟩
    · cases h
  · cases h

/-- A refreshed document has what the reference carries, and otherwise what was stored. -/
theorem get_refreshed (h : refreshed? stored reference = some merged)
    (ascending : ∀ fields, reference = .object fields → Keyed.Ascending fields) (name : String) :
    merged.get name =
      if (reference.get name).isNull then stored.get name else reference.get name := by
  obtain ⟨old, new, rfl, rfl, rfl⟩ := eq_of_refreshed? h
  show (Keyed.get? name (Keyed.putAll (carried new) old)).getD .null = _
  rw [get?_putAll_carried (ascending new rfl)]
  split <;> rfl

theorem get_refreshed_of_carried (h : refreshed? stored reference = some merged)
    (ascending : ∀ fields, reference = .object fields → Keyed.Ascending fields) {name : String}
    (carried : (reference.get name).isNull = false) : merged.get name = reference.get name := by
  rw [get_refreshed h ascending, carried]
  rfl

/-- So it has at any depth what one of the two has there, and which one depends on the
outermost field. -/
theorem along_refreshed (h : refreshed? stored reference = some merged)
    (ascending : ∀ fields, reference = .object fields → Keyed.Ascending fields) (name : String)
    (rest : List String) :
    along (name :: rest) merged =
      if (reference.get name).isNull then along (name :: rest) stored
      else along (name :: rest) reference := by
  obtain ⟨old, new, rfl, rfl, rfl⟩ := eq_of_refreshed? h
  show (Keyed.get? name (Keyed.putAll (carried new) old)).bind (along rest) = _
  rw [get?_putAll_carried (ascending new rfl)]
  split <;> rfl

/-! ## What is kept -/

/-- A reference leaves out a field at any depth: it has none there, or a null. -/
def LeavesOut (reference : Value) (names : List String) : Prop :=
  ((along names reference).getD .null).isNull = true

/-- A refreshed document keeps the stored value of whatever field the reference leaves out
at its top. A field inside one that the reference carries it takes from the reference; so
the stored value of a field that is left out there is lost, unless it was null as well. -/
theorem refreshed_keeps_iff (h : refreshed? stored reference = some merged)
    (ascending : ∀ fields, reference = .object fields → Keyed.Ascending fields) :
    (∀ name, (reference.get name).isNull = true → ∀ rest,
      along (name :: rest) merged = along (name :: rest) stored) ∧
    ∀ name rest value, along (name :: rest) stored = some value →
      LeavesOut reference (name :: rest) →
        (along (name :: rest) merged = some value ↔
          (reference.get name).isNull = true ∨
            (value = .null ∧ along (name :: rest) reference = some .null)) := by
  have halong := along_refreshed h ascending
  refine ⟨fun name hnull rest => (halong name rest).trans (if_pos hnull), ?_⟩
  intro name rest value hstored hout
  rw [halong]
  cases hnull : (reference.get name).isNull with
  | true => exact iff_of_true hstored (.inl rfl)
  | false =>
    simp only [Bool.false_eq_true, if_false, false_or]
    constructor
    · intro hcarried
      unfold LeavesOut at hout
      rw [hcarried] at hout
      obtain rfl := Value.eq_null_of_isNull hout
      exact ⟨rfl, hcarried⟩
    · rintro ⟨rfl, hcarried⟩
      exact hcarried

/-! ## A street that is lost -/

/-- A customer as stored, with her address. -/
def ann : Value :=
  .object [("address", .object [("city", .text "Rome"), ("street", .text "Main 1")]),
    ("id", .int 1), ("name", .text "Ann")]

/-- A reference to the customer, with nothing of the address but the city. -/
def annInOslo : Value :=
  .object [("address", .object [("city", .text "Oslo"), ("street", .null)]), ("id", .int 1),
    ("name", .null)]

/-- What the reference makes of the customer. -/
def annMoved : Value :=
  .object [("address", .object [("city", .text "Oslo"), ("street", .null)]), ("id", .int 1),
    ("name", .text "Ann")]

/-- It is not so that whatever a reference leaves out keeps its stored value. -/
theorem street_lost :
    ¬∀ merged, refreshed? ann annInOslo = some merged → ∀ names value,
      along names ann = some value → LeavesOut annInOslo names → along names merged = some value := by
  intro hclaim
  have hstreet := hclaim annMoved rfl ["address", "street"] (.text "Main 1") rfl rfl
  cases hstreet

/-- The name is kept, and the street is not. -/
theorem moved_keeps_name :
    along ["name"] annMoved = some (.text "Ann") ∧
      along ["address", "street"] annMoved ≠ some (.text "Main 1") := by
  have hascending : ∀ fields, annInOslo = .object fields → Keyed.Ascending fields := by
    intro fields hfields
    cases hfields
    unfold Keyed.Ascending
    decide
  have hmoved : refreshed? ann annInOslo = some annMoved := rfl
  obtain ⟨htop, hdeep⟩ := refreshed_keeps_iff hmoved hascending
  refine ⟨htop "name" rfl [], fun hkept => ?_⟩
  rcases (hdeep "address" ["street"] (.text "Main 1") rfl rfl).1 hkept with hnull | ⟨hvalue, -⟩
  · cases hnull
  · cases hvalue

end LiveRecords.References

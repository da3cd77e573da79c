/-
  Entries under names.

  The entries stand in ascending order of their names, each name once; `put` and
  `erase` keep this, so two collections with the same entries are one value.
-/

namespace LiveRecords

/-- Entries by name, in ascending order of names. -/
abbrev Keyed (α : Type) := List (String × α)

namespace Keyed

variable {α β : Type}

/-- Sets an entry, in the place that its name has in the order of names. -/
def put (name : String) (value : α) : Keyed α → Keyed α
  | [] => [(name, value)]
  | (n, v) :: rest =>
    if name < n then (name, value) :: (n, v) :: rest
    else if name = n then (name, value) :: rest
    else (n, v) :: put name value rest

/-- The value of an entry. -/
def get? (name : String) : Keyed α → Option α
  | [] => none
  | (n, v) :: rest => if n = name then some v else get? name rest

/-- The entries without one of a name. -/
def erase (name : String) : Keyed α → Keyed α
  | [] => []
  | (n, v) :: rest => if n = name then rest else (n, v) :: erase name rest

/-- Whether there is an entry of a name. -/
def contains (entries : Keyed α) (name : String) : Bool := (get? name entries).isSome

/-- The entries of a list of pairs; of a repeated name the last counts. -/
def ofList (pairs : List (String × α)) : Keyed α :=
  pairs.foldl (fun entries (name, value) => put name value entries) []

/-- The values in the order of their names. -/
def values (entries : Keyed α) : List α := entries.map (·.2)

/-- The entries with their values replaced. -/
def mapValues (f : α → β) (entries : Keyed α) : Keyed β := entries.map fun (n, v) => (n, f v)

/-! ## Reading what was written -/

/-- Setting an entry settles its value. -/
@[simp] theorem get?_put_self (name : String) (value : α) (entries : Keyed α) :
    get? name (put name value entries) = some value := by
  induction entries with
  | nil => simp [put, get?]
  | cons entry rest ih =>
    obtain ⟨n, v⟩ := entry
    by_cases hlt : name < n
    · simp [put, get?, hlt]
    · by_cases heq : name = n
      · simp [put, get?, heq]
      · simp [put, get?, hlt, heq, ih, Ne.symm heq]

/-- Setting an entry leaves the others as they are. -/
theorem get?_put_of_ne {name other : String} (h : other ≠ name) (value : α)
    (entries : Keyed α) : get? other (put name value entries) = get? other entries := by
  induction entries with
  | nil => simp [put, get?, Ne.symm h]
  | cons entry rest ih =>
    obtain ⟨n, v⟩ := entry
    by_cases hlt : name < n
    · simp [put, get?, hlt, Ne.symm h]
    · by_cases heq : name = n
      · subst heq
        simp [put, get?, Ne.symm h]
      · simp [put, get?, hlt, heq, ih]

/-- Erasing an entry leaves the others as they are. -/
theorem get?_erase_of_ne {name other : String} (h : other ≠ name) (entries : Keyed α) :
    get? other (erase name entries) = get? other entries := by
  induction entries with
  | nil => rfl
  | cons entry rest ih =>
    obtain ⟨n, v⟩ := entry
    by_cases heq : n = name
    · subst heq
      simp [erase, get?, Ne.symm h]
    · simp [erase, get?, heq, ih]

/-! ## Order -/

/-- The names ascend, so that each stands once. -/
def Ascending (entries : Keyed α) : Prop := entries.Pairwise fun a b => a.1 < b.1

/-- A name before all others has no entry. -/
theorem get?_eq_none_of_lt {name : String} {entries : Keyed α}
    (h : ∀ entry ∈ entries, name < entry.1) : get? name entries = none := by
  induction entries with
  | nil => rfl
  | cons entry rest ih =>
    obtain ⟨n, v⟩ := entry
    have hlt : name < n := h (n, v) (by simp)
    have hne : n ≠ name := fun e => String.lt_irrefl name (e ▸ hlt)
    simp only [get?, hne, if_false]
    exact ih fun entry hin => h entry (by simp [hin])

/-- Erasing an entry leaves none of its name. -/
theorem get?_erase_self (name : String) {entries : Keyed α} (h : Ascending entries) :
    get? name (erase name entries) = none := by
  induction entries with
  | nil => rfl
  | cons entry rest ih =>
    obtain ⟨n, v⟩ := entry
    obtain ⟨hhead, hrest⟩ := List.pairwise_cons.1 h
    by_cases heq : n = name
    · subst heq
      simpa [erase] using get?_eq_none_of_lt hhead
    · simp [erase, get?, heq, ih hrest]

/-- Every name in a collection after an entry is set was there or is that entry's. -/
theorem mem_put {name : String} {value : α} {entries : Keyed α} {entry : String × α}
    (h : entry ∈ put name value entries) : entry = (name, value) ∨ entry ∈ entries := by
  induction entries with
  | nil => simpa [put] using h
  | cons first rest ih =>
    obtain ⟨n, v⟩ := first
    unfold put at h
    split at h
    · simpa using h
    · split at h
      · rcases List.mem_cons.1 h with h | h
        · exact .inl h
        · exact .inr (by simp [h])
      · rcases List.mem_cons.1 h with h | h
        · exact .inr (by simp [h])
        · rcases ih h with h | h
          · exact .inl h
          · exact .inr (by simp [h])

/-- Setting an entry keeps the order. -/
theorem Ascending.put {entries : Keyed α} (h : Ascending entries) (name : String) (value : α) :
    Ascending (put name value entries) := by
  induction entries with
  | nil => simp [Keyed.put, Ascending]
  | cons entry rest ih =>
    obtain ⟨n, v⟩ := entry
    obtain ⟨hhead, hrest⟩ := List.pairwise_cons.1 h
    unfold Keyed.put
    split
    · next hlt =>
      refine List.pairwise_cons.2 ⟨fun entry hin => ?_, h⟩
      rcases List.mem_cons.1 hin with rfl | hin
      · exact hlt
      · exact String.lt_trans hlt (hhead entry hin)
    · next hlt =>
      split
      · next heq =>
        subst heq
        exact List.pairwise_cons.2 ⟨hhead, hrest⟩
      · next heq =>
        have hgt : n < name :=
          Decidable.byContradiction fun hle => heq (String.le_antisymm hle hlt)
        refine List.pairwise_cons.2 ⟨fun entry hin => ?_, ih hrest⟩
        rcases mem_put hin with rfl | hin
        · exact hgt
        · exact hhead entry hin

/-- Erasing only takes entries away. -/
theorem erase_sublist (name : String) (entries : Keyed α) :
    (erase name entries).Sublist entries := by
  induction entries with
  | nil => exact List.Sublist.refl []
  | cons entry rest ih =>
    obtain ⟨n, v⟩ := entry
    by_cases heq : n = name
    · simp [erase, heq]
    · simpa [erase, heq] using ih

/-- Erasing an entry keeps the order. -/
theorem Ascending.erase {entries : Keyed α} (h : Ascending entries) (name : String) :
    Ascending (erase name entries) := List.Pairwise.sublist (erase_sublist name entries) h

end Keyed

end LiveRecords

import LiveRecords.Document.Keyed

/-
  Entries under names, as look-up sees them.

  Look-up after each of the operations is an equation, and in a collection whose
  names ascend an entry is there exactly if look-up finds it (`get?_of_mem`,
  `mem_of_get?`). Setting many entries at once, the last entry of a name counts;
  where no name comes twice, every entry is found (`get?_putAll_of_mem`). Collections
  whose names ascend are the same if look-up finds the same in them (`ext`), so changes
  under different names may be made in any order.
-/

namespace LiveRecords.Keyed

variable {α β : Type}

/-! ## One entry -/

theorem get?_nil (name : String) : get? name ([] : Keyed α) = none := rfl

theorem get?_cons (name n : String) (v : α) (rest : Keyed α) :
    get? name ((n, v) :: rest) = if n = name then some v else get? name rest := rfl

theorem get?_put (name other : String) (value : α) (entries : Keyed α) :
    get? other (put name value entries) =
      if other = name then some value else get? other entries := by
  by_cases h : other = name
  · subst h
    simp
  · rw [get?_put_of_ne h, if_neg h]

theorem get?_erase {entries : Keyed α} (h : Ascending entries) (name other : String) :
    get? other (erase name entries) = if other = name then none else get? other entries := by
  by_cases he : other = name
  · subst he
    rw [get?_erase_self other h, if_pos rfl]
  · rw [get?_erase_of_ne he, if_neg he]

/-- Erasing the first entry leaves the others. -/
theorem erase_head (name : String) (value : α) (rest : Keyed α) :
    erase name ((name, value) :: rest) = rest := by
  simp [erase]

theorem ascending_nil : Ascending ([] : Keyed α) := List.Pairwise.nil

theorem Ascending.tail {entry : String × α} {rest : Keyed α} (h : Ascending (entry :: rest)) :
    Ascending rest := (List.pairwise_cons.1 h).2

/-- The first name of an ascending collection does not come again. -/
theorem Ascending.get?_head {n : String} {v : α} {rest : Keyed α}
    (h : Ascending ((n, v) :: rest)) : get? n rest = none :=
  get?_eq_none_of_lt (List.pairwise_cons.1 h).1

theorem Ascending.mapValues {entries : Keyed α} (h : Ascending entries) (f : α → β) :
    Ascending (entries.mapValues f) := by
  unfold Keyed.mapValues Ascending
  rw [List.pairwise_map]
  exact h

theorem get?_mapValues (f : α → β) (name : String) (entries : Keyed α) :
    get? name (entries.mapValues f) = (get? name entries).map f := by
  induction entries with
  | nil => rfl
  | cons entry rest ih =>
    obtain ⟨n, v⟩ := entry
    have hstep : mapValues f ((n, v) :: rest) = (n, f v) :: mapValues f rest := rfl
    rw [hstep, get?_cons, get?_cons, ih]
    by_cases h : n = name
    · simp [h]
    · simp [h]

/-! ## Membership -/

theorem mem_of_get? {name : String} {value : α} {entries : Keyed α}
    (h : get? name entries = some value) : (name, value) ∈ entries := by
  induction entries with
  | nil => cases h
  | cons entry rest ih =>
    obtain ⟨n, v⟩ := entry
    rw [get?_cons] at h
    split at h
    · next heq =>
      cases h
      subst heq
      exact List.mem_cons_self
    · exact List.mem_cons_of_mem _ (ih h)

theorem get?_of_mem {name : String} {value : α} {entries : Keyed α} (hasc : Ascending entries)
    (h : (name, value) ∈ entries) : get? name entries = some value := by
  induction entries with
  | nil => cases h
  | cons entry rest ih =>
    obtain ⟨n, v⟩ := entry
    obtain ⟨hhead, hrest⟩ := List.pairwise_cons.1 hasc
    rcases List.mem_cons.1 h with heq | hin
    · cases heq
      rw [get?_cons, if_pos rfl]
    · have hlt : n < name := hhead _ hin
      have hne : n ≠ name := fun e => String.lt_irrefl name (e ▸ hlt)
      rw [get?_cons, if_neg hne, ih hrest hin]

theorem not_mem_of_get? {name : String} {entries : Keyed α} (h : get? name entries = none) :
    name ∉ entries.map (·.1) := by
  induction entries with
  | nil => exact List.not_mem_nil
  | cons entry rest ih =>
    obtain ⟨n, v⟩ := entry
    rw [get?_cons] at h
    split at h
    · cases h
    · next hne =>
      rw [List.map_cons, List.mem_cons, not_or]
      exact ⟨fun heq => hne heq.symm, ih h⟩

/-- No name comes twice. -/
theorem Ascending.nodup {entries : Keyed α} (h : Ascending entries) :
    (entries.map (·.1)).Nodup := by
  unfold List.Nodup
  rw [List.pairwise_map]
  refine List.Pairwise.imp ?_ h
  intro a b hlt heq
  rw [heq] at hlt
  exact String.lt_irrefl _ hlt

/-- Of the entries that satisfy a condition the one found first has the least name. -/
theorem le_of_find? {entries : Keyed α} (hasc : Ascending entries) {p : α → Bool}
    {name other : String} {value v : α}
    (h : entries.find? (fun entry => p entry.2) = some (name, value))
    (hother : get? other entries = some v) (hv : p v = true) : name ≤ other := by
  obtain ⟨_, before, after, rfl, hbefore⟩ := List.find?_eq_some_iff_append.1 h
  obtain ⟨_, hfrom, _⟩ := List.pairwise_append.1 hasc
  rcases List.mem_append.1 (mem_of_get? hother) with hin | hin
  · have hno := hbefore (other, v) hin
    simp only [hv, Bool.not_true, Bool.false_eq_true] at hno
  · rcases List.mem_cons.1 hin with heq | hin
    · cases heq
      exact String.le_refl name
    · have hlt : name < other := (List.pairwise_cons.1 hfrom).1 _ hin
      exact fun hgt => String.lt_irrefl name (String.lt_trans hlt hgt)

theorem get?_of_find? {entries : Keyed α} (hasc : Ascending entries) {p : α → Bool}
    {name : String} {value : α}
    (h : entries.find? (fun entry => p entry.2) = some (name, value)) :
    get? name entries = some value ∧ p value = true := by
  have hp : p (name, value).2 = true :=
    List.find?_some (p := fun entry : String × α => p entry.2) h
  exact ⟨get?_of_mem hasc (List.mem_of_find?_eq_some h), hp⟩

/-- What is found first stands under a given name just if the entry of that name satisfies
the condition and is the first that does. -/
theorem find?_eq_iff {entries : Keyed α} (hasc : Ascending entries) (p : α → Bool)
    (name : String) :
    entries.find? (fun entry => p entry.2) = (get? name entries).map (Prod.mk name) ↔
      (∀ v, get? name entries = some v → p v = true) ∧
        ∀ other v, get? other entries = some v → p v = true →
          (get? name entries).isSome = true ∧ name ≤ other := by
  constructor
  · intro h
    cases hget : get? name entries with
    | none =>
      have hnone : entries.find? (fun entry => p entry.2) = none := by
        rw [h, hget]
        rfl
      refine ⟨nofun, fun other v hother hv => ?_⟩
      exact absurd hv (List.find?_eq_none.1 hnone (other, v) (mem_of_get? hother))
    | some v =>
      rw [hget] at h
      refine ⟨?_, fun other v' hother hv => ⟨rfl, le_of_find? hasc h hother hv⟩⟩
      intro v' hv'
      cases hv'
      exact (get?_of_find? hasc h).2
  · intro h
    obtain ⟨hthere, hfirst⟩ := h
    cases hfound : entries.find? fun entry => p entry.2 with
    | none =>
      cases hget : get? name entries with
      | none => rfl
      | some v =>
        exact absurd (hthere v hget) (List.find?_eq_none.1 hfound (name, v) (mem_of_get? hget))
    | some entry =>
      obtain ⟨n, v⟩ := entry
      obtain ⟨hget, hp⟩ := get?_of_find? hasc hfound
      obtain ⟨hsome, hle⟩ := hfirst n v hget hp
      obtain ⟨v', hv'⟩ := Option.isSome_iff_exists.1 hsome
      -- neither name is before the other
      obtain rfl : n = name :=
        String.le_antisymm (le_of_find? hasc hfound hv' (hthere v' hv')) hle
      rw [hget]
      rfl

/-! ## Order of changes -/

/-- Collections in order with the same entries are the same. -/
theorem ext {a b : Keyed α} (ha : Ascending a) (hb : Ascending b)
    (h : ∀ name, get? name a = get? name b) : a = b := by
  induction a generalizing b with
  | nil =>
    cases b with
    | nil => rfl
    | cons entry rest =>
      obtain ⟨n, v⟩ := entry
      have hn := h n
      rw [get?_cons, if_pos rfl] at hn
      cases hn
  | cons entry rest ih =>
    obtain ⟨n, v⟩ := entry
    cases b with
    | nil =>
      have hn := h n
      rw [get?_cons, if_pos rfl] at hn
      cases hn
    | cons entry' rest' =>
      obtain ⟨n', v'⟩ := entry'
      have hn : n = n' := by
        have hat := h n
        have hat' := h n'
        rw [get?_cons, if_pos rfl] at hat
        rw [get?_cons n' n' v', if_pos rfl] at hat'
        -- each of the first names is in the other collection, so none of them is less
        rcases List.mem_cons.1 (mem_of_get? hat.symm) with heq | hin
        · exact congrArg Prod.fst heq
        · rcases List.mem_cons.1 (mem_of_get? hat') with heq' | hin'
          · exact (congrArg Prod.fst heq').symm
          · have hlt : n' < n := (List.pairwise_cons.1 hb).1 _ hin
            have hlt' : n < n' := (List.pairwise_cons.1 ha).1 _ hin'
            exact absurd (String.lt_trans hlt hlt') (String.lt_irrefl n')
      subst hn
      have hv := h n
      rw [get?_cons, if_pos rfl, get?_cons, if_pos rfl] at hv
      cases hv
      refine congrArg _ (ih ha.tail hb.tail fun name => ?_)
      by_cases hname : n = name
      · subst hname
        rw [ha.get?_head, hb.get?_head]
      · have hrest := h name
        rwa [get?_cons, if_neg hname, get?_cons, if_neg hname] at hrest

theorem put_comm {name other : String} (hne : name ≠ other) (value value' : α)
    {entries : Keyed α} (h : Ascending entries) :
    put name value (put other value' entries) = put other value' (put name value entries) := by
  refine ext ((h.put ..).put ..) ((h.put ..).put ..) fun at_ => ?_
  rw [get?_put, get?_put, get?_put, get?_put]
  by_cases h₁ : at_ = name
  · rw [if_pos h₁, if_neg (h₁ ▸ hne), if_pos h₁]
  · rw [if_neg h₁, if_neg h₁]

theorem erase_comm (name other : String) {entries : Keyed α} (h : Ascending entries) :
    erase name (erase other entries) = erase other (erase name entries) := by
  refine ext ((h.erase _).erase _) ((h.erase _).erase _) fun at_ => ?_
  rw [get?_erase (h.erase _), get?_erase h, get?_erase (h.erase _), get?_erase h]
  by_cases h₁ : at_ = name
  · rw [if_pos h₁, if_pos h₁, ite_self]
  · rw [if_neg h₁, if_neg h₁]

/-- An entry that is not looked for, in place of one that is not either, is not found. -/
theorem find?_put {p : α → Bool} {name : String} {value : α} (hvalue : p value = false)
    {entries : Keyed α} (hold : ∀ v, get? name entries = some v → p v = false) :
    (put name value entries).find? (fun entry => p entry.2) =
      entries.find? fun entry => p entry.2 := by
  induction entries with
  | nil =>
    show [(name, value)].find? _ = none
    rw [List.find?_cons_of_neg (by rw [hvalue]; exact Bool.false_ne_true)]
    rfl
  | cons entry rest ih =>
    obtain ⟨n, v⟩ := entry
    unfold put
    split
    · rw [List.find?_cons_of_neg (by rw [hvalue]; exact Bool.false_ne_true)]
    · split
      · next heq =>
        subst heq
        have hv : p v = false := hold v (by rw [get?_cons, if_pos rfl])
        rw [List.find?_cons_of_neg (by rw [hvalue]; exact Bool.false_ne_true),
          List.find?_cons_of_neg (by rw [hv]; exact Bool.false_ne_true)]
      · next hne =>
        have hrest : ∀ v, get? name rest = some v → p v = false := fun v' hv' =>
          hold v' (by rw [get?_cons, if_neg (Ne.symm hne), hv'])
        rw [List.find?_cons, List.find?_cons, ih hrest]

/-! ## Many entries -/

/-- The entries with those of a list set, one after another. -/
def putAll (pairs : List (String × α)) (entries : Keyed α) : Keyed α :=
  pairs.foldl (fun entries pair => put pair.1 pair.2 entries) entries

theorem Ascending.putAll {entries : Keyed α} (h : Ascending entries)
    (pairs : List (String × α)) : Ascending (putAll pairs entries) := by
  induction pairs generalizing entries with
  | nil => exact h
  | cons pair rest ih => exact ih (h.put pair.1 pair.2)

theorem get?_putAll_of_not_mem {name : String} {pairs : List (String × α)}
    (h : name ∉ pairs.map (·.1)) (entries : Keyed α) :
    get? name (putAll pairs entries) = get? name entries := by
  induction pairs generalizing entries with
  | nil => rfl
  | cons pair rest ih =>
    rw [List.map_cons, List.mem_cons, not_or] at h
    have hstep := ih h.2 (put pair.1 pair.2 entries)
    rwa [get?_put_of_ne h.1] at hstep

theorem get?_putAll_of_mem {name : String} {value : α} {pairs : List (String × α)}
    (hn : (pairs.map (·.1)).Nodup) (h : (name, value) ∈ pairs) (entries : Keyed α) :
    get? name (putAll pairs entries) = some value := by
  induction pairs generalizing entries with
  | nil => cases h
  | cons pair rest ih =>
    rw [List.map_cons, List.nodup_cons] at hn
    rcases List.mem_cons.1 h with heq | hin
    · subst heq
      exact (get?_putAll_of_not_mem hn.1 _).trans (get?_put_self name value entries)
    · exact ih hn.2 hin _

/-- What stands in a collection after many entries were set is one of them or was
there before. -/
theorem mem_putAll {entry : String × α} {pairs : List (String × α)} {entries : Keyed α}
    (h : entry ∈ putAll pairs entries) : entry ∈ pairs ∨ entry ∈ entries := by
  induction pairs generalizing entries with
  | nil => exact .inr h
  | cons pair rest ih =>
    rcases ih h with hin | hput
    · exact .inl (List.mem_cons_of_mem _ hin)
    · rcases mem_put hput with heq | hin
      · subst heq
        exact .inl List.mem_cons_self
      · exact .inr hin

theorem ofList_eq_putAll (pairs : List (String × α)) : ofList pairs = putAll pairs [] := rfl

end LiveRecords.Keyed

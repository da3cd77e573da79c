import LiveRecords.Store.Basic

/-
  Keys of documents.

  A document has a key if its type has one and the document's is not null
  (`EntityType.keyOf?_eq_some`). Just such documents can be written, each under the
  text of its key (`Store.keyFor_eq`).
-/

namespace LiveRecords

/-- Only an object has fields. -/
theorem Value.isObject_of_field {v : Value} {name : String} (h : (v.get name).isNull = false) :
    v.isObject = true := by
  cases v <;> first | rfl | cases h

theorem EntityType.keyOf?_eq_some {T : EntityType} {entity key : Value} :
    T.keyOf? entity = some key ↔
      ∃ p, T.key? = some p ∧ p.get entity = key ∧ key.isNull = false := by
  unfold EntityType.keyOf?
  cases T.key? with
  | none => simp
  | some p =>
    cases hnull : (p.get entity).isNull with
    | true =>
      simp only [hnull, if_true, reduceCtorEq, Option.some.injEq, exists_eq_left', false_iff,
        not_and]
      intro heq hkey
      subst heq
      rw [hnull] at hkey
      cases hkey
    | false =>
      simp only [hnull, Bool.false_eq_true, if_false, Option.some.injEq, exists_eq_left']
      constructor
      · intro heq
        subst heq
        exact ⟨rfl, hnull⟩
      · exact fun h => h.1

theorem EntityType.keyTextOf?_of_keyOf? {T : EntityType} {entity key : Value}
    (h : T.keyOf? entity = some key) : T.keyTextOf? entity = some key.keyText := by
  unfold EntityType.keyTextOf?
  rw [h]
  rfl

/-- A document that has a key has the one that is asked of it. -/
theorem EntityType.requireKey_of_keyOf? {T : EntityType} {entity key : Value}
    (h : T.keyOf? entity = some key) : T.requireKey entity = .ok key := by
  obtain ⟨p, _, hget, hvalue⟩ := EntityType.keyOf?_eq_some.1 h
  have hobject : entity.isObject = true := Value.isObject_of_field (hget ▸ hvalue)
  unfold EntityType.requireKey
  rw [hobject, h]
  rfl

theorem EntityType.requireKey_of_keyless {T : EntityType} {entity : Value}
    (h : T.keyOf? entity = none) : ∃ e, T.requireKey entity = .error e := by
  unfold EntityType.requireKey
  split
  · exact ⟨_, rfl⟩
  · rw [h]
    exact ⟨_, rfl⟩

theorem Store.keyFor_eq {T : EntityType} {entity : Value} {key : String}
    (h : T.keyTextOf? entity = some key) : Store.keyFor T entity = .ok key := by
  obtain ⟨k, hk, rfl⟩ := Option.map_eq_some_iff.1 h
  unfold Store.keyFor
  rw [EntityType.requireKey_of_keyOf? hk]
  rfl

end LiveRecords

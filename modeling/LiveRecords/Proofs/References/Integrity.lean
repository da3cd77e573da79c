import Mathlib.Data.List.Nodup
import LiveRecords.Pipeline.References
import LiveRecords.Proofs.Entity.Key
import LiveRecords.Proofs.Store.Commit

/-
  Referential integrity of a store.

  A document refers to what its reference properties hold, and to what those of its
  embedded entities hold (`Refers`). A store is integral if whatever a stored document
  refers to has a row in the table of its type (`Integral`). Storing a document whose
  references are there keeps a store integral and takes no row away (`Integral.put`).
-/

namespace LiveRecords

/-! ## Keys -/

/-- What the keys of an entity type are. -/
inductive KeyKind where
  | text
  | integer

/-- A value is a key of a kind: a string, or an integer of 64 bits with sign. -/
def KeyKind.Allows : KeyKind → Value → Prop
  | .text, .text _ => True
  | .integer, .int n => InSigned64 n
  | _, _ => False

/-- Keys of one kind that are alike are one key. -/
theorem KeyKind.eq_of_alike {kind : KeyKind} {a b : Value} (ha : kind.Allows a)
    (hb : kind.Allows b) (h : a.alike b = true) : a = b := by
  cases kind with
  | text =>
    cases a <;> cases b <;> try exact ha.elim
    all_goals try exact hb.elim
    simp only [Value.alike, beq_iff_eq] at h
    rw [h]
  | integer =>
    cases a <;> cases b <;> try exact ha.elim
    all_goals try exact hb.elim
    next m n =>
      have hm : signed64? m = some m := if_pos ha
      have hn : signed64? n = some n := if_pos hb
      simp only [Value.alike, Value.alikeNumbers, Value.signed64?, hm, hn, beq_iff_eq] at h
      rw [h]

theorem KeyKind.Allows.not_object {kind : KeyKind} {v : Value} (h : kind.Allows v) :
    v.isObject = false := by
  cases kind <;> cases v <;> first | rfl | exact h.elim

/-! ## References -/

/-- What stands at a property refers to an entity: the property is a reference and holds
the entity, or it embeds something one of whose properties refers to it. -/
inductive RefersBy (c : Catalog) : Property → Value → EntityType → Value → Prop where
  | held {p : Property} {R : EntityType} {u : Value} (target : c.referenced? p = some R)
      (keyed : R.key?.isSome = true) (object : u.isObject = true) : RefersBy c p u R u
  | inside {p q : Property} {E R : EntityType} {v u : Value} (target : c.referenced? p = some E)
      (embedded : E.key? = none) (mem : q ∈ E.properties) (h : RefersBy c q (q.get v) R u) :
      RefersBy c p v R u

/-- A document of a type refers to an entity. -/
def Refers (c : Catalog) (T : EntityType) (d : Value) (R : EntityType) (u : Value) : Prop :=
  ∃ p ∈ T.properties, RefersBy c p (p.get d) R u

theorem Value.isObject_of_get {v : Value} {name : String} (h : (v.get name).isObject = true) :
    v.isObject = true := by
  cases v <;> first | rfl | cases h

mutual

/-- What holds of whatever is no object, and of an object if it holds of its fields, holds
of every value. -/
theorem Value.fields_induction {motive : Value → Prop}
    (object : ∀ fields, (∀ name, motive ((Value.object fields).get name)) →
      motive (.object fields))
    (other : ∀ v : Value, v.isObject = false → motive v) : ∀ v : Value, motive v
  | .object fields => object fields (Value.get_induction object other fields)
  | .null => other _ rfl
  | .bool _ => other _ rfl
  | .int _ => other _ rfl
  | .float _ => other _ rfl
  | .text _ => other _ rfl
  | .list _ => other _ rfl

theorem Value.get_induction {motive : Value → Prop}
    (object : ∀ fields, (∀ name, motive ((Value.object fields).get name)) →
      motive (.object fields))
    (other : ∀ v : Value, v.isObject = false → motive v) :
    ∀ (fields : List (String × Value)) (name : String), motive ((Value.object fields).get name)
  | [], _ => other _ rfl
  | (n, v) :: rest, name => by
    have hrest := Value.get_induction object other rest name
    show motive ((Keyed.get? name ((n, v) :: rest)).getD .null)
    rw [Keyed.get?_cons]
    split
    · exact Value.fields_induction object other v
    · exact hrest

end

theorem RefersBy.isObject {c : Catalog} {p : Property} {v u : Value} {R : EntityType}
    (h : RefersBy c p v R u) : v.isObject = true := by
  induction h with
  | held _ _ object => exact object
  | inside _ _ _ _ ih => exact Value.isObject_of_get ih

/-- What is no reference refers to nothing. -/
theorem RefersBy.exists_target {c : Catalog} {p : Property} {v u : Value} {R : EntityType}
    (h : RefersBy c p v R u) : ∃ T, c.referenced? p = some T := by
  cases h with
  | held target => exact ⟨_, target⟩
  | inside target => exact ⟨_, target⟩

/-- A reference to an entity with a key refers to what it holds. -/
theorem RefersBy.eq_of_keyed {c : Catalog} {p : Property} {v u : Value} {R T : EntityType}
    (h : RefersBy c p v R u) (target : c.referenced? p = some T) (keyed : T.key?.isSome = true) :
    R = T ∧ u = v := by
  cases h with
  | held target' =>
    obtain rfl := Option.some.inj (target'.symm.trans target)
    exact ⟨rfl, rfl⟩
  | inside target' embedded =>
    obtain rfl := Option.some.inj (target'.symm.trans target)
    rw [embedded] at keyed
    cases keyed

/-- An embedded entity is not referred to itself, but what it refers to is. -/
theorem RefersBy.refers_of_embedded {c : Catalog} {p : Property} {v u : Value} {R T : EntityType}
    (h : RefersBy c p v R u) (target : c.referenced? p = some T) (embedded : T.key? = none) :
    Refers c T v R u := by
  cases h with
  | held target' keyed =>
    obtain rfl := Option.some.inj (target'.symm.trans target)
    rw [embedded] at keyed
    cases keyed
  | inside target' _ mem h =>
    obtain rfl := Option.some.inj (target'.symm.trans target)
    exact ⟨_, mem, h⟩

theorem Catalog.isEmbedded_eq {c : Catalog} {p : Property} {R : EntityType}
    (target : c.referenced? p = some R) : c.isEmbedded p = R.key?.isNone := by
  unfold Catalog.isEmbedded
  rw [target]

theorem Catalog.mem_of_referenced {c : Catalog} {p : Property} {R : EntityType}
    (h : c.referenced? p = some R) (keyed : R.key?.isSome = true) : R ∈ c.types := by
  unfold Catalog.referenced? at h
  obtain ⟨ref, _, rfl⟩ := Option.map_eq_some_iff.1 h
  unfold Catalog.resolve at keyed ⊢
  cases hget : c.types[ref.place]? with
  | some T => exact List.mem_of_getElem? hget
  | none =>
    -- a type that is not in the catalogue has no properties
    rw [hget] at keyed
    cases keyed

/-! ## Following a property -/

/-- Where a property leads from what stands there: nowhere, into an embedded entity, or to an
entity with a key. -/
inductive Route (c : Catalog) (p : Property) (value : Value) : Prop where
  | nowhere (plain : ∀ R, c.referenced? p = some R → value.isObject = false)
  | inside (R : EntityType) (target : c.referenced? p = some R) (object : value.isObject = true)
      (embedded : R.key? = none)
  | across (R : EntityType) (target : c.referenced? p = some R) (object : value.isObject = true)
      (keyed : R.key?.isSome = true)

theorem Route.of (c : Catalog) (p : Property) (value : Value) : Route c p value := by
  cases htarget : c.referenced? p with
  | none => exact .nowhere fun R hR => nomatch htarget.symm.trans hR
  | some R =>
    cases hobject : value.isObject with
    | false => exact .nowhere fun _ _ => hobject
    | true =>
      cases hkey : R.key? with
      | none => exact .inside R htarget hobject hkey
      | some k => exact .across R htarget hobject (Option.isSome_of_eq_some hkey)

namespace References

variable {m : Type → Type} [Monad m] {store : ReferenceStore m} {c : Catalog} {p : Property}
  {value : Value} {R : EntityType}

theorem followProperty_nowhere (plain : ∀ R, c.referenced? p = some R → value.isObject = false)
    (inner : Resolver m) (T : EntityType) (path stubs : List EntityId) :
    followProperty store c inner T p value path stubs = return stubs := by
  unfold followProperty
  cases htarget : c.referenced? p with
  | none => rfl
  | some R =>
    rw [plain R htarget]
    rfl

theorem followProperty_inside (target : c.referenced? p = some R) (object : value.isObject = true)
    (embedded : R.key? = none) (inner : Resolver m) (T : EntityType) (path stubs : List EntityId) :
    followProperty store c inner T p value path stubs =
      ExceptT.adapt (.inContext s!"resolving reference {T.name}.{p.name}")
        (inner R path stubs) := by
  have hembeds := Catalog.isEmbedded_eq target
  rw [embedded, Option.isNone_none] at hembeds
  unfold followProperty
  simp only [target, object, hembeds, Bool.not_true, Bool.false_eq_true, if_false, if_true]

theorem followProperty_across (target : c.referenced? p = some R) (object : value.isObject = true)
    (keyed : R.key?.isSome = true) (inner : Resolver m) (T : EntityType)
    (path stubs : List EntityId) :
    followProperty store c inner T p value path stubs =
      ExceptT.adapt (.inContext s!"resolving reference {T.name}.{p.name}")
        (follow store inner R value path stubs) := by
  have hembeds := Catalog.isEmbedded_eq target
  rw [← Option.not_isSome, keyed, Bool.not_true] at hembeds
  unfold followProperty
  simp only [target, object, hembeds, Bool.not_true, Bool.false_eq_true, if_false]

end References

/-- A document that takes every field from one of two refers to what one of them refers
to. -/
theorem Refers.of_overlay {c : Catalog} {T R : EntityType} {a b d u : Value}
    (hget : ∀ name, d.get name = a.get name ∨ d.get name = b.get name) (h : Refers c T d R u) :
    Refers c T a R u ∨ Refers c T b R u := by
  obtain ⟨p, hp, hby⟩ := h
  have hp' : p.get d = p.get a ∨ p.get d = p.get b := hget p.name
  rcases hp' with heq | heq
  · exact .inl ⟨p, hp, heq ▸ hby⟩
  · exact .inr ⟨p, hp, heq ▸ hby⟩

/-! ## Stores -/

/-- There is a row for an entity. -/
def Store.Has (s : Store) (R : EntityType) (u : Value) : Prop :=
  ∃ key, R.keyTextOf? u = some key ∧ ((s.table R.name).rows.get? key).isSome = true

/-- No row has gone. -/
def Store.Grows (s s' : Store) : Prop :=
  ∀ name key, ((s.table name).rows.get? key).isSome = true →
    ((s'.table name).rows.get? key).isSome = true

theorem Store.Grows.refl (s : Store) : s.Grows s := fun _ _ h => h

theorem Store.Grows.trans {s s' s'' : Store} (h : s.Grows s') (h' : s'.Grows s'') : s.Grows s'' :=
  fun name key hrow => h' name key (h name key hrow)

theorem Store.Has.grows {s s' : Store} {R : EntityType} {u : Value} (h : s.Has R u)
    (hs : s.Grows s') : s'.Has R u := by
  obtain ⟨key, hkey, hrow⟩ := h
  exact ⟨key, hkey, hs _ _ hrow⟩

/-- What a document of a type is allowed to be in a store. -/
structure Integral.Row (c : Catalog) (kinds : String → KeyKind) (s : Store) (T : EntityType)
    (key : String) (d : Value) : Prop where
  mem : T ∈ c.types
  keyed : T.keyTextOf? d = some key
  kind : ∀ k, T.keyOf? d = some k → (kinds T.name).Allows k
  refers : ∀ R u, Refers c T d R u → s.Has R u

/-- Every stored document has a type, a key of the right kind, and refers only to
entities that have a row. -/
structure Integral (c : Catalog) (kinds : String → KeyKind) (s : Store) : Prop where
  ascending : ∀ name, (s.table name).rows.Ascending
  row : ∀ {name key row}, (s.table name).rows.get? key = some row →
    ∃ T, T.name = name ∧ Integral.Row c kinds s T key row.value

namespace Integral

variable {c : Catalog} {kinds : String → KeyKind} {s : Store}

theorem empty (c : Catalog) (kinds : String → KeyKind) : Integral c kinds {} where
  ascending _ := Keyed.ascending_nil
  row h := by cases h

theorem Row.grows {T : EntityType} {key : String} {d : Value} {s' : Store}
    (h : Row c kinds s T key d) (hs : s.Grows s') : Row c kinds s' T key d :=
  ⟨h.mem, h.keyed, h.kind, fun R u hr => (h.refers R u hr).grows hs⟩

/-- Putting a document in its place takes no row away. -/
theorem grows_put (s : Store) (name key : String) (entity : Value) (version : Nat)
    (e : StoreEvent) : s.Grows (s.commit name ((s.table name).store key entity version) e) := by
  intro table other hrow
  rw [Store.table_commit]
  by_cases ht : table = name
  · rw [if_pos ht, Table.get?_rows_store]
    split
    · rfl
    · exact ht ▸ hrow
  · rw [if_neg ht]
    exact hrow

/-- Storing a document whose references are there keeps the store integral. -/
theorem put (h : Integral c kinds s) {T : EntityType} {key : String} {entity : Value}
    (hrow : Row c kinds s T key entity) (version : Nat) (e : StoreEvent) :
    Integral c kinds (s.commit T.name ((s.table T.name).store key entity version) e) := by
  have hgrows := grows_put s T.name key entity version e
  constructor
  · intro name
    rw [Store.table_commit]
    split
    · exact (h.ascending T.name).put ..
    · exact h.ascending name
  · intro name other row hget
    rw [Store.table_commit] at hget
    by_cases ht : name = T.name
    · rw [if_pos ht, Table.get?_rows_store] at hget
      split at hget
      · -- the document that was put, which may have replaced one
        next hother =>
        cases hget
        exact ⟨T, ht.symm, hother ▸ hrow.grows hgrows⟩
      · obtain ⟨S, hS, hold⟩ := h.row hget
        exact ⟨S, hS.trans ht.symm, hold.grows hgrows⟩
    · rw [if_neg ht] at hget
      obtain ⟨S, hS, hold⟩ := h.row hget
      exact ⟨S, hS, hold.grows hgrows⟩

theorem has_put {T : EntityType} {key : String} {entity : Value}
    (keyed : T.keyTextOf? entity = some key) (version : Nat) (e : StoreEvent) :
    (s.commit T.name ((s.table T.name).store key entity version) e).Has T entity := by
  refine ⟨key, keyed, ?_⟩
  rw [Store.table_commit, if_pos rfl, Table.get?_rows_store, if_pos rfl]
  rfl

/-- Where type names are unique, the documents of a table are of its type. -/
theorem row_of_mem (h : Integral c kinds s) (names : (c.types.map (·.name)).Nodup)
    {T : EntityType} (mem : T ∈ c.types) {key : String} {row : LiveRecords.Row}
    (hget : (s.table T.name).rows.get? key = some row) : Row c kinds s T key row.value := by
  obtain ⟨S, hS, hrow⟩ := h.row hget
  obtain rfl : S = T := List.inj_on_of_nodup_map names hrow.mem mem hS
  exact hrow

end Integral

end LiveRecords

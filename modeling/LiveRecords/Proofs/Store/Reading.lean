import Mathlib.Data.List.Basic
import LiveRecords.Proofs.Store.Journal
import LiveRecords.Store.Read

/-
  What a snapshot shows.

  Sorting only permutes. So a query for whole entities, from the first to the last,
  reads exactly the documents of its table that it admits (`mem_snapshot`), no two of
  them with one key (`snapshot_distinct`), and with them the last version of every
  key, deleted or not (`Table.getD_versions`).
-/

namespace LiveRecords

/-! ## Sorting -/

theorem SortKey.insert_perm (keys : List SortKey) (v : Value) (values : List Value) :
    (SortKey.insert keys v values).Perm (v :: values) := by
  induction values with
  | nil => exact List.Perm.refl _
  | cons w rest ih =>
    unfold SortKey.insert
    split
    · exact (ih.cons w).trans (List.Perm.swap v w rest)
    · exact List.Perm.refl _

theorem SortKey.sort_perm (keys : List SortKey) (values : List Value) :
    (SortKey.sort keys values).Perm values := by
  have hfold : ∀ done : List Value,
      (values.foldl (fun done v => SortKey.insert keys v done) done).Perm (values ++ done) := by
    induction values with
    | nil => exact fun done => List.Perm.refl done
    | cons v rest ih =>
      intro done
      refine (ih _).trans ?_
      refine ((SortKey.insert_perm keys v done).append_left rest).trans ?_
      exact List.perm_middle
  unfold SortKey.sort
  refine (List.reverse_perm _).trans ?_
  have hdone := hfold []
  rwa [List.append_nil] at hdone

/-- A compiled query for whole entities, from the first to the last. -/
structure Query.Compiled.Whole (run : Query.Compiled) : Prop where
  mapping : run.mapping = none
  properties : run.properties = []
  skip : run.skip = 0
  limit : run.limit = none

namespace Query.Compiled

/-- A query without mapping and projection returns entities as they are. -/
theorem shape_eq {run : Compiled} (mapping : run.mapping = none) (properties : run.properties = [])
    (v : Value) : run.shape v = v := by
  unfold shape
  rw [mapping, properties]
  rfl

theorem Whole.execute_perm {run : Compiled} (h : run.Whole) (entities : List Value) :
    (run.execute entities).Perm (entities.filter run.admits) := by
  have hshape : run.shape = id := funext (shape_eq h.mapping h.properties)
  unfold execute select
  rw [hshape, List.map_id, h.skip, h.limit, List.drop_zero]
  unfold sorted
  split
  · exact List.Perm.refl _
  · exact SortKey.sort_perm ..

end Query.Compiled

/-! ## Tables -/

namespace Table

variable {type : EntityType} {t : Table}

/-- The versions that a table reports are those of all keys that it holds. -/
theorem getD_versions (wf : t.WellFormed type) (key : String) :
    (t.versions.get? key).getD 0 = (t.held key).version := by
  have hversions : t.versions = Keyed.putAll t.tombstones (t.rows.mapValues Row.version) := rfl
  rw [hversions]
  cases htomb : t.tombstones.get? key with
  | some v =>
    have hrow : t.rows.get? key = none := by
      cases hrow : t.rows.get? key with
      | none => rfl
      | some row =>
        rw [wf.no_tombstone hrow] at htomb
        cases htomb
    rw [Keyed.get?_putAll_of_mem wf.tombstones_ascending.nodup (Keyed.mem_of_get? htomb)]
    unfold held
    rw [hrow, htomb]
    rfl
  | none =>
    rw [Keyed.get?_putAll_of_not_mem (Keyed.not_mem_of_get? htomb), Keyed.get?_mapValues]
    unfold held
    rw [htomb]
    cases t.rows.get? key <;> rfl

theorem versions_ascending (wf : t.WellFormed type) : t.versions.Ascending :=
  (wf.rows_ascending.mapValues Row.version).putAll t.tombstones

end Table

/-! ## Snapshots -/

namespace Store

variable {owners : Owners} {s : Store} {q : Query} {run : Query.Compiled}

theorem mem_documents (wf : s.WellFormed owners) {name : String} {v : Value} :
    v ∈ s.documents name ↔ ∃ key row, (s.table name).rows.get? key = some row ∧ row.value = v := by
  unfold documents Keyed.values
  simp only [List.mem_map, Prod.exists, exists_eq_right]
  constructor
  · intro h
    obtain ⟨row, ⟨key, hin⟩, rfl⟩ := h
    exact ⟨key, row, Keyed.get?_of_mem (wf.table name).rows_ascending hin, rfl⟩
  · intro h
    obtain ⟨key, row, hget, rfl⟩ := h
    exact ⟨row, ⟨key, Keyed.mem_of_get? hget⟩, rfl⟩

theorem mem_snapshot (wf : s.WellFormed owners) (whole : run.Whole) {v : Value} :
    v ∈ (s.snapshot q run).entities ↔
      (∃ key row, (s.table q.entity.name).rows.get? key = some row ∧ row.value = v) ∧
        run.admits v = true := by
  show v ∈ run.execute (s.documents q.entity.name) ↔ _
  rw [(whole.execute_perm _).mem_iff, List.mem_filter, mem_documents wf]

/-- The documents of a table have distinct keys. -/
theorem keys_documents (wf : s.WellFormed owners) (name : String) :
    (s.documents name).filterMap (owners name).keyTextOf? = (s.table name).rows.map (·.1) := by
  unfold documents Keyed.values
  rw [List.map_map, List.filterMap_map, List.filterMap_eq_map_iff_forall_eq_some]
  intro entry hin
  obtain ⟨key, row⟩ := entry
  exact (wf.table name).keyed (Keyed.get?_of_mem (wf.table name).rows_ascending hin)

theorem snapshot_distinct (wf : s.WellFormed owners) (whole : run.Whole)
    (owned : owners q.entity.name = q.entity) :
    ((s.snapshot q run).entities.filterMap q.entity.keyTextOf?).Nodup := by
  have hperm := (whole.execute_perm (s.documents q.entity.name)).filterMap q.entity.keyTextOf?
  refine hperm.nodup_iff.2 ?_
  refine List.Nodup.sublist (List.filter_sublist.filterMap _) ?_
  have hkeys := keys_documents wf q.entity.name
  rw [owned] at hkeys
  rw [hkeys]
  exact (wf.table q.entity.name).rows_ascending.nodup

end Store

end LiveRecords

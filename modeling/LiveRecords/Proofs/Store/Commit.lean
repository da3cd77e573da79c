import Mathlib.Logic.Relation
import LiveRecords.Proofs.Entries
import LiveRecords.Store.Basic

/-
  Commits: what a write can do to a store.

  Whatever a write does, it does in commits, and a commit does one of three things:
  it creates a row, replaces one, or removes one (`Commit`). A write that fails does
  nothing, a write of one document is one commit, and dropping everything is one
  removal after another (`Write.commits`). What is said of all stores that writes
  lead to therefore follows from what one commit keeps; `WellFormed` is the first
  of it: every key stands once, is never both a row and a tombstone, and is the key
  of the document stored under it.

  Each table is written through one entity type: `Owners` says through which.
-/

namespace LiveRecords

/-- The entity type that each table is written through. -/
abbrev Owners := String → EntityType

/-- A request to change a store. -/
inductive Write where
  | insert (type : EntityType) (entity : Value)
  | update (type : EntityType) (entity : Value) (expected : Option Nat)
  | upsert (type : EntityType) (entity : Value)
  | delete (type : EntityType) (key : Value)
  | dropAll

namespace Write

/-- What a write comes to: the next store, or a failure. -/
def carryOut : Write → Store → Outcome Store
  | .insert type entity, s => s.insert type entity
  | .update type entity expected, s => s.update type entity expected
  | .upsert type entity, s => s.upsert type entity
  | .delete type key, s => .ok (s.delete type key).2
  | .dropAll, s => .ok s.dropAll

/-- The store after a write; one that fails leaves it as it is. -/
def after (w : Write) (s : Store) : Store :=
  match w.carryOut s with
  | .ok next => next
  | .error _ => s

/-- A write goes through the entity type that owns its table. -/
def OwnedBy (owners : Owners) : Write → Prop
  | .insert type _ | .update type _ _ | .upsert type _ | .delete type _ => owners type.name = type
  | .dropAll => True

end Write

/-- The store after some writes, whichever of them fail. -/
def Store.afterAll (s : Store) (writes : List Write) : Store :=
  writes.foldl (fun s w => w.after s) s

/-- The removal of one row. -/
inductive Removal (s : Store) : Store → Prop where
  | row {name key : String} {row : Row} (present : (s.table name).rows.get? key = some row) :
      Removal s (s.commit name ((s.table name).bury key (row.version + 1))
        (.deleted name row.value (row.version + 1)))

/-- Some removals, one after another. -/
abbrev Removals : Store → Store → Prop := Relation.ReflTransGen Removal

/-- One committed change of a store: a row is created, replaced or removed. -/
inductive Commit (owners : Owners) (s : Store) : Store → Prop where
  | created {type : EntityType} {key : String} {entity : Value}
      (owned : owners type.name = type) (keyed : type.keyTextOf? entity = some key)
      (absent : s.row? type key = none)
      (free : (s.table type.name).conflict? type key entity = none) :
      Commit owners s (s.commit type.name
        ((s.table type.name).store key entity ((s.table type.name).nextVersion key))
        (.created type.name entity ((s.table type.name).nextVersion key)))
  | replaced {type : EntityType} {key : String} {entity : Value} {row : Row}
      (owned : owners type.name = type) (keyed : type.keyTextOf? entity = some key)
      (present : s.row? type key = some row)
      (free : (s.table type.name).conflict? type key entity = none) :
      Commit owners s (s.commit type.name
        ((s.table type.name).store key entity (row.version + 1))
        (.updated type.name row.value entity (row.version + 1)))
  | removed {s' : Store} (removal : Removal s s') : Commit owners s s'

/-- Some commits, one after another. -/
abbrev Commits (owners : Owners) : Store → Store → Prop := Relation.ReflTransGen (Commit owners)

/-! ## Well-formed stores -/

/-- What holds of a table that was only ever written through one entity type. -/
structure Table.WellFormed (type : EntityType) (t : Table) : Prop where
  rows_ascending : t.rows.Ascending
  tombstones_ascending : t.tombstones.Ascending
  no_tombstone : ∀ {key row}, t.rows.get? key = some row → t.tombstones.get? key = none
  keyed : ∀ {key row}, t.rows.get? key = some row → type.keyTextOf? row.value = some key

/-- What holds of a store each of whose tables was written through its owner. -/
structure Store.WellFormed (owners : Owners) (s : Store) : Prop where
  tables_ascending : s.tables.Ascending
  table : ∀ name, (s.table name).WellFormed (owners name)

namespace Table

theorem get?_rows_store (t : Table) (key other : String) (entity : Value) (version : Nat) :
    (t.store key entity version).rows.get? other =
      if other = key then some ⟨entity, version⟩ else t.rows.get? other :=
  Keyed.get?_put ..

theorem get?_rows_bury {t : Table} (h : t.rows.Ascending) (key other : String) (version : Nat) :
    (t.bury key version).rows.get? other = if other = key then none else t.rows.get? other :=
  Keyed.get?_erase h ..

theorem get?_tombstones_store {t : Table} (h : t.tombstones.Ascending) (key other : String)
    (entity : Value) (version : Nat) :
    (t.store key entity version).tombstones.get? other =
      if other = key then none else t.tombstones.get? other :=
  Keyed.get?_erase h ..

theorem get?_tombstones_bury (t : Table) (key other : String) (version : Nat) :
    (t.bury key version).tombstones.get? other =
      if other = key then some version else t.tombstones.get? other :=
  Keyed.get?_put ..

namespace WellFormed

variable {type : EntityType} {t : Table}

theorem empty (type : EntityType) : ({} : Table).WellFormed type where
  rows_ascending := Keyed.ascending_nil
  tombstones_ascending := Keyed.ascending_nil
  no_tombstone h := by cases h
  keyed h := by cases h

theorem store (wf : t.WellFormed type) {key : String} {entity : Value}
    (keyed : type.keyTextOf? entity = some key) (version : Nat) :
    (t.store key entity version).WellFormed type where
  rows_ascending := wf.rows_ascending.put key _
  tombstones_ascending := wf.tombstones_ascending.erase key
  no_tombstone {other row} h := by
    rw [get?_tombstones_store wf.tombstones_ascending]
    rw [get?_rows_store] at h
    split
    · rfl
    · next hne =>
      rw [if_neg hne] at h
      exact wf.no_tombstone h
  keyed {other row} h := by
    rw [get?_rows_store] at h
    split at h
    · next heq =>
      cases h
      rw [heq]
      exact keyed
    · exact wf.keyed h

theorem bury (wf : t.WellFormed type) (key : String) (version : Nat) :
    (t.bury key version).WellFormed type where
  rows_ascending := wf.rows_ascending.erase key
  tombstones_ascending := wf.tombstones_ascending.put key version
  no_tombstone {other row} h := by
    rw [get?_rows_bury wf.rows_ascending] at h
    split at h
    · cases h
    · next hne =>
      rw [get?_tombstones_bury, if_neg hne]
      exact wf.no_tombstone h
  keyed {other row} h := by
    rw [get?_rows_bury wf.rows_ascending] at h
    split at h
    · cases h
    · exact wf.keyed h

end WellFormed

end Table

namespace Store

theorem table_commit (s : Store) (name other : String) (t : Table) (e : StoreEvent) :
    (s.commit name t e).table other = if other = name then t else s.table other := by
  unfold table commit
  rw [Keyed.get?_put]
  split <;> rfl

theorem WellFormed.empty (owners : Owners) : ({} : Store).WellFormed owners where
  tables_ascending := Keyed.ascending_nil
  table name := Table.WellFormed.empty (owners name)

theorem WellFormed.commit {owners : Owners} {s : Store} (wf : s.WellFormed owners) {name : String}
    {t : Table} (ht : t.WellFormed (owners name)) (e : StoreEvent) :
    (s.commit name t e).WellFormed owners where
  tables_ascending := wf.tables_ascending.put name t
  table other := by
    rw [table_commit]
    split
    · next heq =>
      rw [heq]
      exact ht
    · exact wf.table other

end Store

theorem Commit.wellFormed {owners : Owners} {s s' : Store} (h : Commit owners s s')
    (wf : s.WellFormed owners) : s'.WellFormed owners := by
  cases h with
  | created owned keyed absent free =>
    exact wf.commit ((wf.table _).store (by rw [owned]; exact keyed) _) _
  | replaced owned keyed present free =>
    exact wf.commit ((wf.table _).store (by rw [owned]; exact keyed) _) _
  | removed removal =>
    obtain ⟨hpresent⟩ := removal
    exact wf.commit ((wf.table _).bury _ _) _

theorem Commits.wellFormed {owners : Owners} {s s' : Store} (h : Commits owners s s')
    (wf : s.WellFormed owners) : s'.WellFormed owners := by
  induction h with
  | refl => exact wf
  | tail _ hlast ih => exact hlast.wellFormed ih

/-! ## Writes of one document -/

namespace Store

variable {owners : Owners} {s s' : Store} {type : EntityType} {key : String} {entity : Value}

theorem keyFor_ok (h : keyFor type entity = .ok key) : type.keyTextOf? entity = some key := by
  unfold keyFor EntityType.requireKey at h
  unfold EntityType.keyTextOf?
  split at h
  · cases h
  · split at h
    · next value heq =>
      rw [heq]
      cases h
      rfl
    · cases h

theorem checkUnique_ok {t : Table} (h : t.checkUnique type key entity = .ok ()) :
    t.conflict? type key entity = none := by
  unfold Table.checkUnique at h
  split at h
  · cases h
  · assumption

theorem create_ok (h : s.create type key entity = .ok s') :
    (s.table type.name).conflict? type key entity = none ∧
      s' = s.commit type.name
        ((s.table type.name).store key entity ((s.table type.name).nextVersion key))
        (.created type.name entity ((s.table type.name).nextVersion key)) := by
  unfold create at h
  obtain ⟨_, hunique, hdone⟩ := Outcome.bind_ok h
  cases hdone
  exact ⟨checkUnique_ok hunique, rfl⟩

theorem replace_ok {row : Row} (h : s.replace type key row entity = .ok s') :
    (s.table type.name).conflict? type key entity = none ∧
      s' = s.commit type.name ((s.table type.name).store key entity (row.version + 1))
        (.updated type.name row.value entity (row.version + 1)) := by
  unfold replace at h
  obtain ⟨_, hunique, hdone⟩ := Outcome.bind_ok h
  cases hdone
  exact ⟨checkUnique_ok hunique, rfl⟩

/-- What an insertion that succeeds has found and done. -/
theorem insert_ok (h : s.insert type entity = .ok s') :
    ∃ key, type.keyTextOf? entity = some key ∧ s.row? type key = none ∧
      s.create type key entity = .ok s' := by
  unfold insert at h
  obtain ⟨key, hkey, hrest⟩ := Outcome.bind_ok h
  refine ⟨key, keyFor_ok hkey, ?_⟩
  cases hrow : s.row? type key with
  | some row =>
    simp only [hrow] at hrest
    cases hrest
  | none => exact ⟨rfl, by simpa only [hrow] using hrest⟩

/-- What an update that succeeds has found and done. -/
theorem update_ok {expected : Option Nat} (h : s.update type entity expected = .ok s') :
    ∃ key row, type.keyTextOf? entity = some key ∧ s.row? type key = some row ∧
      (∀ version, expected = some version → version = row.version) ∧
      s.replace type key row entity = .ok s' := by
  unfold update at h
  obtain ⟨key, hkey, hrest⟩ := Outcome.bind_ok h
  cases hrow : s.row? type key with
  | none =>
    simp only [hrow] at hrest
    cases hrest
  | some row =>
    simp only [hrow] at hrest
    refine ⟨key, row, keyFor_ok hkey, hrow, ?_⟩
    cases expected with
    | none => exact ⟨nofun, hrest⟩
    | some version =>
      -- a version that was expected is that of the row, or the update is refused
      simp only at hrest
      split at hrest
      · next heq => exact ⟨fun _ hv => Option.some.inj hv ▸ heq, hrest⟩
      · cases hrest

/-- What an upsert that succeeds has found and done. -/
theorem upsert_ok (h : s.upsert type entity = .ok s') :
    ∃ key, type.keyTextOf? entity = some key ∧
      ((∃ row, s.row? type key = some row ∧ s.replace type key row entity = .ok s') ∨
        (s.row? type key = none ∧ s.create type key entity = .ok s')) := by
  unfold upsert at h
  obtain ⟨key, hkey, hrest⟩ := Outcome.bind_ok h
  refine ⟨key, keyFor_ok hkey, ?_⟩
  cases hrow : s.row? type key with
  | some row => exact .inl ⟨row, rfl, by simpa only [hrow] using hrest⟩
  | none => exact .inr ⟨rfl, by simpa only [hrow] using hrest⟩

theorem create_commit (owned : owners type.name = type) (keyed : type.keyTextOf? entity = some key)
    (absent : s.row? type key = none) (h : s.create type key entity = .ok s') :
    Commit owners s s' := by
  obtain ⟨hfree, rfl⟩ := create_ok h
  exact .created owned keyed absent hfree

theorem replace_commit {row : Row} (owned : owners type.name = type)
    (keyed : type.keyTextOf? entity = some key) (present : s.row? type key = some row)
    (h : s.replace type key row entity = .ok s') : Commit owners s s' := by
  obtain ⟨hfree, rfl⟩ := replace_ok h
  exact .replaced owned keyed present hfree

theorem insert_commit (owned : owners type.name = type) (h : s.insert type entity = .ok s') :
    Commit owners s s' := by
  obtain ⟨key, hkey, habs, hc⟩ := insert_ok h
  exact create_commit owned hkey habs hc

theorem update_commit {expected : Option Nat} (owned : owners type.name = type)
    (h : s.update type entity expected = .ok s') : Commit owners s s' := by
  obtain ⟨key, row, hkey, hrow, _, hr⟩ := update_ok h
  exact replace_commit owned hkey hrow hr

theorem upsert_commit (owned : owners type.name = type) (h : s.upsert type entity = .ok s') :
    Commit owners s s' := by
  obtain ⟨key, hkey, ⟨row, hrow, hr⟩ | ⟨habs, hc⟩⟩ := upsert_ok h
  · exact replace_commit owned hkey hrow hr
  · exact create_commit owned hkey habs hc

theorem delete_eq (s : Store) (type : EntityType) (key : Value) :
    (s.row? type key.keyText = none ∧ s.delete type key = (false, s)) ∨
      ∃ row, s.row? type key.keyText = some row ∧
        s.delete type key = (true, s.commit type.name
          ((s.table type.name).bury key.keyText (row.version + 1))
          (.deleted type.name row.value (row.version + 1))) := by
  unfold delete
  cases hr : s.row? type key.keyText with
  | none => exact .inl ⟨rfl, rfl⟩
  | some row => exact .inr ⟨row, rfl, rfl⟩

end Store

/-! ## Dropping everything -/

theorem Removals.commits {s s' : Store} (owners : Owners) (h : Removals s s') :
    Commits owners s s' :=
  Relation.ReflTransGen.mono (r := Removal) (fun _ _ h => Commit.removed h) _ _ h

namespace Store

/-- Dropping the rows of a table removes one after another, and nothing else. -/
theorem removals_dropRows {name : String} {rows : Keyed Row} {s : Store}
    (h : (s.table name).rows = rows) :
    Removals s (rows.foldl (dropRow name) s) ∧
      ∀ other, other ≠ name → (rows.foldl (dropRow name) s).table other = s.table other := by
  induction rows generalizing s with
  | nil => exact ⟨.refl, fun _ _ => rfl⟩
  | cons entry rest ih =>
    obtain ⟨key, row⟩ := entry
    -- the first row goes, and leaves the rest for the induction
    have hhead : (s.table name).rows.get? key = some row := by
      rw [h, Keyed.get?_cons, if_pos rfl]
    have hrest : ((dropRow name s (key, row)).table name).rows = rest := by
      unfold dropRow
      rw [table_commit, if_pos rfl]
      show (s.table name).rows.erase key = rest
      rw [h, Keyed.erase_head]
    obtain ⟨hrem, hother⟩ := ih hrest
    refine ⟨Relation.ReflTransGen.head (Removal.row hhead) hrem, ?_⟩
    intro other hne
    rw [List.foldl_cons, hother other hne]
    unfold dropRow
    rw [table_commit, if_neg hne]

theorem removals_dropTables {tables : Keyed Table} {s : Store} (hasc : tables.Ascending)
    (h : ∀ entry ∈ tables, s.table entry.1 = entry.2) :
    Removals s (tables.foldl (fun s (name, t) => t.rows.foldl (dropRow name) s) s) := by
  induction tables generalizing s with
  | nil => exact .refl
  | cons entry rest ih =>
    obtain ⟨name, t⟩ := entry
    obtain ⟨hhead, hrest⟩ := List.pairwise_cons.1 hasc
    have ht : (s.table name).rows = t.rows := by rw [h (name, t) List.mem_cons_self]
    obtain ⟨hrem, hother⟩ := removals_dropRows ht
    refine hrem.trans (ih hrest ?_)
    -- the tables that are still to be dropped were not touched
    intro entry hin
    have hne : entry.1 ≠ name := fun e => String.lt_irrefl name (e ▸ hhead entry hin)
    rw [hother entry.1 hne]
    exact h entry (List.mem_cons_of_mem _ hin)

theorem removals_dropAll {owners : Owners} {s : Store} (wf : s.WellFormed owners) :
    Removals s s.dropAll := by
  refine removals_dropTables wf.tables_ascending ?_
  intro entry hin
  unfold table
  rw [Keyed.get?_of_mem wf.tables_ascending hin]
  rfl

end Store

/-! ## All writes -/

/-- A write does nothing, or it is one commit, or it is some removals. -/
theorem Write.commit_or_removals {owners : Owners} {w : Write} {s : Store}
    (owned : w.OwnedBy owners) (wf : s.WellFormed owners) :
    w.after s = s ∨ Commit owners s (w.after s) ∨ Removals s (w.after s) := by
  -- a write of one document either fails or is one commit
  have hone : (∀ s', w.carryOut s = .ok s' → Commit owners s s') →
      w.after s = s ∨ Commit owners s (w.after s) ∨ Removals s (w.after s) := by
    intro h
    unfold Write.after
    cases hr : w.carryOut s with
    | error e => exact .inl rfl
    | ok s' => exact .inr (.inl (h s' hr))
  cases w with
  | insert type entity => exact hone fun _ h => Store.insert_commit owned h
  | update type entity expected => exact hone fun _ h => Store.update_commit owned h
  | upsert type entity => exact hone fun _ h => Store.upsert_commit owned h
  | delete type key =>
    show (s.delete type key).2 = s ∨ Commit owners s (s.delete type key).2 ∨ _
    rcases s.delete_eq type key with ⟨_, he⟩ | ⟨row, hrow, he⟩
    · exact .inl (by rw [he])
    · refine .inr (.inl ?_)
      rw [he]
      exact .removed (.row hrow)
  | dropAll => exact .inr (.inr (Store.removals_dropAll wf))

/-- A write is some commits, none if it fails. -/
theorem Write.commits {owners : Owners} {w : Write} {s : Store} (owned : w.OwnedBy owners)
    (wf : s.WellFormed owners) : Commits owners s (w.after s) := by
  rcases w.commit_or_removals owned wf with hsame | hcommit | hremovals
  · rw [hsame]
  · exact .single hcommit
  · exact hremovals.commits owners

theorem Store.commits_afterAll {owners : Owners} {writes : List Write} {s : Store}
    (owned : ∀ w ∈ writes, w.OwnedBy owners) (wf : s.WellFormed owners) :
    Commits owners s (s.afterAll writes) := by
  induction writes generalizing s with
  | nil => exact .refl
  | cons w rest ih =>
    have hfirst : Commits owners s (w.after s) := w.commits (owned w List.mem_cons_self) wf
    have hrest := ih (fun w hw => owned w (List.mem_cons_of_mem _ hw)) (hfirst.wellFormed wf)
    exact hfirst.trans hrest

end LiveRecords

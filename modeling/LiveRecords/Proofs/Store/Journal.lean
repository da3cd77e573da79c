import LiveRecords.Proofs.Store.Commit
import LiveRecords.Sample.Shop

/-
  The journal of a store: what its events say, and that they say it truly.

  A reader of events who begins with nothing knows of every key whether it has a row,
  a tombstone or neither (`Ledger`). Every commit adds one event that tells such a
  reader of the one key it changes, with the version after the one before
  (`Commit.logged`). So at any time the reader knows exactly what the store holds
  (`Commits.ledger_eq`), each event fits what was known before it, and the versions
  of a key count its events (`Chained.versions`). `afterAll_journaled` puts this
  together for every run of writes.
-/

namespace LiveRecords

/-- What is held under a key: nothing yet, a row, or the version of a deleted row. -/
inductive Held where
  | nothing
  | row (r : Row)
  | tombstone (version : Nat)

namespace Held

/-- The row held. -/
def row? : Held → Option Row
  | .row r => some r
  | _ => none

/-- The version of the tombstone held. -/
def tombstone? : Held → Option Nat
  | .tombstone version => some version
  | _ => none

/-- The last version of the key. -/
def version : Held → Nat
  | .nothing => 0
  | .row r => r.version
  | .tombstone version => version

end Held

namespace StoreEvent

/-- The document that an event is about: the new one, or else the old one. -/
def value : StoreEvent → Value
  | .created _ new _ | .updated _ _ new _ => new
  | .deleted _ old _ => old

/-- What an event leaves under its key. -/
def leaves : StoreEvent → Held
  | .created _ new version | .updated _ _ new version => .row ⟨new, version⟩
  | .deleted _ _ version => .tombstone version

/-- Whether an event is about a key of a table. -/
def concerns (owners : Owners) (e : StoreEvent) (table key : String) : Bool :=
  e.table == table && (owners e.table).keyTextOf? e.value == some key

/-- An event fits what was held under its key: only an absent key is created, only a
present one updated or deleted, and then the old document is the one that was there. -/
def Fits (e : StoreEvent) (before : Held) : Prop :=
  match e with
  | .created .. => before.row? = none
  | .updated _ old _ _ | .deleted _ old _ => before.row?.map Row.value = some old

/-- The events about one key of a table, in order. -/
def about (owners : Owners) (table key : String) (events : List StoreEvent) : List StoreEvent :=
  events.filter fun e => e.concerns owners table key

theorem version_leaves (e : StoreEvent) : e.leaves.version = e.version := by
  cases e <;> rfl

theorem concerns_of_keyed {owners : Owners} {e : StoreEvent} {key : String}
    (h : (owners e.table).keyTextOf? e.value = some key) (table other : String) :
    e.concerns owners table other = decide (e.table = table ∧ key = other) := by
  unfold concerns
  rw [h, Bool.eq_iff_iff]
  simp

theorem concerns_of_keyed_ne {owners : Owners} {e : StoreEvent} {key other : String}
    (h : (owners e.table).keyTextOf? e.value = some key) (hne : other ≠ key) (table : String) :
    e.concerns owners table other = false := by
  rw [concerns_of_keyed h]
  exact decide_eq_false fun heq => hne heq.2.symm

theorem concerns_of_ne {owners : Owners} {e : StoreEvent} {table : String} (h : e.table ≠ table)
    (key : String) : e.concerns owners table key = false := by
  unfold concerns
  rw [beq_false_of_ne h, Bool.false_and]

end StoreEvent

/-! ## Reading events -/

/-- What is known of every key of every table. -/
abbrev Ledger := String → String → Held

namespace Ledger

/-- What is known before any event. -/
def empty : Ledger := fun _ _ => .nothing

/-- What is known after one more event. -/
def record (owners : Owners) (l : Ledger) (e : StoreEvent) : Ledger := fun table key =>
  if e.concerns owners table key then e.leaves else l table key

/-- What is known after some more events. -/
def recordAll (owners : Owners) (l : Ledger) (events : List StoreEvent) : Ledger :=
  events.foldl (record owners) l

theorem record_of_keyed {owners : Owners} {e : StoreEvent} {key : String}
    (h : (owners e.table).keyTextOf? e.value = some key) (l : Ledger) (table other : String) :
    l.record owners e table other =
      if e.table = table ∧ key = other then e.leaves else l table other := by
  unfold record
  rw [StoreEvent.concerns_of_keyed h]
  simp

theorem recordAll_append (owners : Owners) (l : Ledger) (a b : List StoreEvent) :
    l.recordAll owners (a ++ b) = (l.recordAll owners a).recordAll owners b :=
  List.foldl_append ..

end Ledger

/-- Each event fits what was known of its key before it, and has the next version. -/
def Chained (owners : Owners) (l : Ledger) : List StoreEvent → Prop
  | [] => True
  | e :: rest =>
    (∃ key, (owners e.table).keyTextOf? e.value = some key ∧ e.Fits (l e.table key) ∧
      e.version = (l e.table key).version + 1) ∧ Chained owners (l.record owners e) rest

namespace Chained

variable {owners : Owners} {l : Ledger}

theorem append {a b : List StoreEvent} :
    Chained owners l (a ++ b) ↔
      Chained owners l a ∧ Chained owners (l.recordAll owners a) b := by
  induction a generalizing l with
  | nil => exact ⟨fun h => ⟨trivial, h⟩, fun h => h.2⟩
  | cons e rest ih =>
    show _ ∧ Chained owners (l.record owners e) (rest ++ b) ↔
      (_ ∧ Chained owners (l.record owners e) rest) ∧ _
    rw [ih, and_assoc]
    rfl

/-- The versions of a key go up by one from event to event. -/
theorem versions {events : List StoreEvent} (h : Chained owners l events) (table key : String) :
    (StoreEvent.about owners table key events).map StoreEvent.version =
      List.range' ((l table key).version + 1) (StoreEvent.about owners table key events).length := by
  induction events generalizing l with
  | nil => rfl
  | cons e rest ih =>
    obtain ⟨⟨k, hk, _, hv⟩, hrest⟩ := h
    have hnext := ih hrest
    rw [Ledger.record_of_keyed hk] at hnext
    unfold StoreEvent.about at hnext ⊢
    rw [List.filter_cons, StoreEvent.concerns_of_keyed hk]
    by_cases hc : e.table = table ∧ k = key
    · rw [if_pos hc, StoreEvent.version_leaves] at hnext
      rw [if_pos (decide_eq_true hc), List.map_cons, List.length_cons, List.range'_succ, hnext, hv,
        hc.1, hc.2]
    · rw [if_neg hc] at hnext
      rw [if_neg (by simpa using hc), hnext]

/-- What is known of a key never goes back to an earlier version. -/
theorem version_le {events : List StoreEvent} (h : Chained owners l events) (table key : String) :
    (l table key).version ≤ (l.recordAll owners events table key).version := by
  induction events generalizing l with
  | nil => exact Nat.le_refl _
  | cons e rest ih =>
    obtain ⟨⟨k, hk, _, hv⟩, hrest⟩ := h
    refine Nat.le_trans ?_ (ih hrest)
    rw [Ledger.record_of_keyed hk]
    split
    · next hc =>
      rw [StoreEvent.version_leaves, hv, hc.1, hc.2]
      omega
    · exact Nat.le_refl _

end Chained

/-! ## What the store holds -/

/-- What a table holds under a key. -/
def Table.held (t : Table) (key : String) : Held :=
  match t.rows.get? key with
  | some row => .row row
  | none =>
    match t.tombstones.get? key with
    | some version => .tombstone version
    | none => .nothing

/-- What a store holds under every key. -/
def Store.ledger (s : Store) : Ledger := fun name key => (s.table name).held key

namespace Table

theorem row?_held (t : Table) (key : String) : (t.held key).row? = t.rows.get? key := by
  unfold held
  cases t.rows.get? key with
  | some row => rfl
  | none => cases t.tombstones.get? key <;> rfl

theorem tombstone?_held {type : EntityType} {t : Table} (wf : t.WellFormed type) (key : String) :
    (t.held key).tombstone? = t.tombstones.get? key := by
  unfold held
  cases hr : t.rows.get? key with
  | some row =>
    rw [wf.no_tombstone hr]
    rfl
  | none => cases t.tombstones.get? key <;> rfl

theorem version_held_of_row {t : Table} {key : String} {row : Row}
    (h : t.rows.get? key = some row) : (t.held key).version = row.version := by
  unfold held
  rw [h]
  rfl

theorem version_held_of_absent {t : Table} {key : String} (h : t.rows.get? key = none) :
    (t.held key).version + 1 = t.nextVersion key := by
  unfold held nextVersion
  rw [h]
  cases t.tombstones.get? key <;> rfl

theorem held_store {type : EntityType} {t : Table} (wf : t.WellFormed type) (key other : String)
    (entity : Value) (version : Nat) :
    (t.store key entity version).held other =
      if other = key then .row ⟨entity, version⟩ else t.held other := by
  unfold held
  rw [get?_rows_store, get?_tombstones_store wf.tombstones_ascending]
  by_cases h : other = key <;> simp [h]

theorem held_bury {type : EntityType} {t : Table} (wf : t.WellFormed type) (key other : String)
    (version : Nat) :
    (t.bury key version).held other =
      if other = key then .tombstone version else t.held other := by
  unfold held
  rw [get?_rows_bury wf.rows_ascending, get?_tombstones_bury]
  by_cases h : other = key <;> simp [h]

end Table

/-- What a commit has done: one event was added, which is about one key and tells what
is held under it since. -/
structure Logged (owners : Owners) (s s' : Store) (e : StoreEvent) (key : String) : Prop where
  journal : s'.journal = s.journal.push e
  keyed : (owners e.table).keyTextOf? e.value = some key
  fits : e.Fits (s.ledger e.table key)
  version : e.version = (s.ledger e.table key).version + 1
  ledger : ∀ table other, s'.ledger table other =
    if e.table = table ∧ key = other then e.leaves else s.ledger table other

namespace Store

/-- What is held after one table was changed under one key. -/
theorem ledger_commit (s : Store) {name key : String} {t : Table} {held : Held}
    (h : ∀ other, t.held other = if other = key then held else (s.table name).held other)
    (e : StoreEvent) (table other : String) :
    (s.commit name t e).ledger table other =
      if name = table ∧ key = other then held else s.ledger table other := by
  unfold ledger
  rw [table_commit]
  by_cases ht : table = name
  · rw [if_pos ht, h, ht]
    by_cases ho : other = key
    · rw [if_pos ho, if_pos ⟨rfl, ho.symm⟩]
    · rw [if_neg ho, if_neg fun hh => ho hh.2.symm]
  · rw [if_neg ht, if_neg fun hh => ht hh.1.symm]

variable {owners : Owners} {s : Store}

theorem ledger_store (wf : s.WellFormed owners) (name key : String) (entity : Value)
    (version : Nat) (e : StoreEvent) (table other : String) :
    (s.commit name ((s.table name).store key entity version) e).ledger table other =
      if name = table ∧ key = other then .row ⟨entity, version⟩ else s.ledger table other :=
  s.ledger_commit (fun other => Table.held_store (wf.table name) key other entity version) ..

theorem ledger_bury (wf : s.WellFormed owners) (name key : String) (version : Nat)
    (e : StoreEvent) (table other : String) :
    (s.commit name ((s.table name).bury key version) e).ledger table other =
      if name = table ∧ key = other then .tombstone version else s.ledger table other :=
  s.ledger_commit (fun other => Table.held_bury (wf.table name) key other version) ..

theorem row?_ledger {name key : String} {row : Row}
    (h : (s.table name).rows.get? key = some row) : (s.ledger name key).row? = some row :=
  (Table.row?_held ..).trans h

end Store

theorem Commit.logged {owners : Owners} {s s' : Store} (h : Commit owners s s')
    (wf : s.WellFormed owners) : ∃ e key, Logged owners s s' e key := by
  cases h with
  | @created type key entity owned keyed absent free =>
    refine ⟨_, key, rfl, ?_, ?_, ?_, Store.ledger_store wf _ _ _ _ _⟩
    · show (owners type.name).keyTextOf? entity = some key
      rw [owned]
      exact keyed
    · exact ((s.table type.name).row?_held key).trans absent
    · exact (Table.version_held_of_absent absent).symm
  | @replaced type key entity row owned keyed present free =>
    refine ⟨_, key, rfl, ?_, ?_, ?_, Store.ledger_store wf _ _ _ _ _⟩
    · show (owners type.name).keyTextOf? entity = some key
      rw [owned]
      exact keyed
    · exact congrArg (Option.map Row.value) (Store.row?_ledger present)
    · exact congrArg (· + 1) (Table.version_held_of_row present).symm
  | removed removal =>
    obtain @⟨name, key, row, present⟩ := removal
    refine ⟨_, key, rfl, ?_, ?_, ?_, Store.ledger_bury wf _ _ _ _⟩
    · exact (wf.table name).keyed present
    · exact congrArg (Option.map Row.value) (Store.row?_ledger present)
    · exact congrArg (· + 1) (Table.version_held_of_row present).symm

/-! ## Runs -/

/-- What the events say of every key. -/
def Store.recorded (owners : Owners) (s : Store) : Ledger :=
  Ledger.empty.recordAll owners s.journal.toList

namespace Commits

variable {owners : Owners} {s : Store}

theorem chained_and_recorded (h : Commits owners {} s) :
    Chained owners Ledger.empty s.journal.toList ∧ s.ledger = s.recorded owners := by
  induction h with
  | refl => exact ⟨trivial, rfl⟩
  | @tail b c hrun hlast ih =>
    obtain ⟨hchain, hledger⟩ := ih
    obtain ⟨e, key, hlog⟩ := hlast.logged (Commits.wellFormed hrun (.empty owners))
    -- reading the events once more up to here gives what is held here
    have hback : Ledger.empty.recordAll owners b.journal.toList = b.ledger := hledger.symm
    have hrecorded : c.recorded owners = b.ledger.record owners e := by
      unfold Store.recorded
      rw [hlog.journal, Array.toList_push, Ledger.recordAll_append, hback]
      rfl
    constructor
    · rw [hlog.journal, Array.toList_push, Chained.append, hback]
      exact ⟨hchain, ⟨key, hlog.keyed, hlog.fits, hlog.version⟩, trivial⟩
    · rw [hrecorded]
      funext table other
      rw [hlog.ledger, Ledger.record_of_keyed hlog.keyed]

theorem chained (h : Commits owners {} s) : Chained owners Ledger.empty s.journal.toList :=
  h.chained_and_recorded.1

theorem ledger_eq (h : Commits owners {} s) : s.ledger = s.recorded owners :=
  h.chained_and_recorded.2

/-- Each event has come after the ones before it and has the next version, and the
ones after it go on from there. -/
theorem chained_at (h : Commits owners {} s) {before after : List StoreEvent} {e : StoreEvent}
    (heq : s.journal.toList = before ++ e :: after) :
    (∃ key, (owners e.table).keyTextOf? e.value = some key ∧
      e.Fits (Ledger.empty.recordAll owners before e.table key) ∧
      e.version = (Ledger.empty.recordAll owners before e.table key).version + 1) ∧
      Chained owners ((Ledger.empty.recordAll owners before).record owners e) after := by
  have hchain := h.chained
  rw [heq, Chained.append] at hchain
  exact hchain.2

end Commits

/-! ## Growth -/

section growth

variable {owners : Owners} {s s' : Store}

/-- Commits only add to the journal. -/
theorem Commits.journal_append (h : Commits owners s s') (wf : s.WellFormed owners) :
    ∃ new, s'.journal.toList = s.journal.toList ++ new := by
  induction h with
  | refl => exact ⟨[], (List.append_nil _).symm⟩
  | @tail b c hrun hlast ih =>
    obtain ⟨new, hnew⟩ := ih
    obtain ⟨e, key, hlog⟩ := hlast.logged (Commits.wellFormed hrun wf)
    refine ⟨new ++ [e], ?_⟩
    rw [hlog.journal, Array.toList_push, hnew, List.append_assoc]

theorem Commits.size_le (h : Commits owners s s') (wf : s.WellFormed owners) :
    s.journal.size ≤ s'.journal.size := by
  obtain ⟨new, hnew⟩ := h.journal_append wf
  have hlength := congrArg List.length hnew
  rw [List.length_append, Array.length_toList, Array.length_toList] at hlength
  omega

end growth

/-! ## Versions count writes -/

/-- Along removals a key stays as it is, or its row goes and its version is the next. -/
theorem Removals.ledger {owners : Owners} {s s' : Store} (h : Removals s s')
    (wf : s.WellFormed owners) (table key : String) :
    s'.ledger table key = s.ledger table key ∨
      (s'.ledger table key).row? = none ∧
        (s'.ledger table key).version = (s.ledger table key).version + 1 := by
  induction h with
  | refl => exact .inl rfl
  | @tail b c hrun hlast ih =>
    have hwf : b.WellFormed owners := (Removals.commits owners hrun).wellFormed wf
    obtain @⟨name, k, row, hpresent⟩ := hlast
    rw [Store.ledger_bury hwf]
    by_cases heq : name = table ∧ k = key
    · obtain ⟨rfl, rfl⟩ := heq
      have hrow : (b.ledger name k).row? = some row := Store.row?_ledger hpresent
      have hversion : (b.ledger name k).version = row.version := Table.version_held_of_row hpresent
      -- the row was still there, so it has not gone before
      rcases ih with hsame | ⟨hgone, _⟩
      · refine .inr ?_
        rw [if_pos ⟨rfl, rfl⟩, ← hsame, hversion]
        exact ⟨rfl, rfl⟩
      · rw [hgone] at hrow
        cases hrow
    · rw [if_neg heq]
      exact ih

/-- A write takes the version of a key on by one at most. -/
theorem Write.version_after_le {owners : Owners} {w : Write} {s : Store} (owned : w.OwnedBy owners)
    (wf : s.WellFormed owners) (table key : String) :
    ((w.after s).ledger table key).version ≤ (s.ledger table key).version + 1 := by
  rcases w.commit_or_removals owned wf with hsame | hcommit | hremovals
  · rw [hsame]
    omega
  · obtain ⟨e, k, hlog⟩ := hcommit.logged wf
    rw [hlog.ledger]
    split
    · next heq =>
      have hnext : e.version = (s.ledger table key).version + 1 := by
        rw [hlog.version, heq.1, heq.2]
      have hleaves : e.leaves.version = e.version := e.version_leaves
      omega
    · omega
  · rcases hremovals.ledger wf table key with hsame | ⟨_, hnext⟩
    · rw [hsame]
      omega
    · omega

theorem Store.version_afterAll_le {owners : Owners} {writes : List Write} {s : Store}
    (owned : ∀ w ∈ writes, w.OwnedBy owners) (wf : s.WellFormed owners) (table key : String) :
    ((s.afterAll writes).ledger table key).version ≤
      (s.ledger table key).version + writes.length := by
  induction writes generalizing s with
  | nil => exact Nat.le_refl _
  | cons w rest ih =>
    have hw : w.OwnedBy owners := owned w List.mem_cons_self
    have hfirst := Write.version_after_le hw wf table key
    have hrest := ih (fun w hw => owned w (List.mem_cons_of_mem _ hw))
      ((Write.commits hw wf).wellFormed wf)
    show (((w.after s).afterAll rest).ledger table key).version ≤ _
    rw [List.length_cons]
    omega

/-! ## The journal of a run -/

/-- The journal of a store tells all that the store holds, and nothing else: reading
its events from the first on gives every row and every tombstone with their versions,
each key stands once and is never both, the versions of a key are 1, 2, 3 and so on, and
each event fits what the events before it have left. -/
structure Store.Journaled (owners : Owners) (s : Store) : Prop where
  rows : ∀ table key,
    (s.table table).rows.get? key = (s.recorded owners table key).row?
  tombstones : ∀ table key,
    (s.table table).tombstones.get? key = (s.recorded owners table key).tombstone?
  ascending : ∀ table,
    (s.table table).rows.Ascending ∧ (s.table table).tombstones.Ascending
  exclusive : ∀ table key,
    ¬((s.table table).rows.contains key ∧ (s.table table).tombstones.contains key)
  versions : ∀ table key,
    (StoreEvent.about owners table key s.journal.toList).map StoreEvent.version =
      List.range' 1 (StoreEvent.about owners table key s.journal.toList).length
  fits : ∀ before e after, s.journal.toList = before ++ e :: after →
    ∃ key, (owners e.table).keyTextOf? e.value = some key ∧
      e.Fits (Ledger.empty.recordAll owners before e.table key)

namespace Commits

variable {owners : Owners} {s : Store}

theorem journaled (h : Commits owners {} s) : s.Journaled owners where
  rows table key := by
    rw [← h.ledger_eq]
    exact (Table.row?_held ..).symm
  tombstones table key := by
    rw [← h.ledger_eq]
    exact (Table.tombstone?_held ((h.wellFormed (.empty owners)).table table) key).symm
  ascending table :=
    have wf := (h.wellFormed (.empty owners)).table table
    ⟨wf.rows_ascending, wf.tombstones_ascending⟩
  exclusive table key := by
    intro hboth
    obtain ⟨hrow, htombstone⟩ := hboth
    obtain ⟨row, hrow⟩ := Option.isSome_iff_exists.1 hrow
    have hnone := ((h.wellFormed (.empty owners)).table table).no_tombstone hrow
    unfold Keyed.contains at htombstone
    rw [hnone] at htombstone
    cases htombstone
  versions table key := h.chained.versions table key
  fits before e after heq := by
    obtain ⟨⟨key, hkey, hfits, _⟩, _⟩ := h.chained_at heq
    exact ⟨key, hkey, hfits⟩

/-- No event has a later version than its key has now. -/
theorem version_le_ledger (h : Commits owners {} s) {e : StoreEvent} (he : e ∈ s.journal) :
    ∃ key, e.version ≤ (s.ledger e.table key).version := by
  obtain ⟨before, after, heq⟩ := List.append_of_mem (Array.mem_toList_iff.2 he)
  obtain ⟨⟨key, hkey, _, _⟩, hafter⟩ := h.chained_at heq
  refine ⟨key, ?_⟩
  -- the later events only take the version on
  have hle := hafter.version_le e.table key
  rw [Ledger.record_of_keyed hkey, if_pos ⟨rfl, rfl⟩, StoreEvent.version_leaves] at hle
  rw [h.ledger_eq]
  unfold Store.recorded
  rw [heq, Ledger.recordAll_append]
  exact hle

end Commits

/-- Whatever is written to an empty store, its journal tells all that it holds; and no
version is greater than the number of writes. -/
theorem Store.afterAll_journaled (owners : Owners) (writes : List Write)
    (owned : ∀ w ∈ writes, w.OwnedBy owners) :
    (Store.afterAll {} writes).Journaled owners ∧
      ∀ e ∈ (Store.afterAll {} writes).journal, e.version ≤ writes.length := by
  have hrun : Commits owners {} (Store.afterAll {} writes) :=
    Store.commits_afterAll owned (.empty owners)
  refine ⟨hrun.journaled, ?_⟩
  intro e he
  obtain ⟨key, hle⟩ := hrun.version_le_ledger he
  have hbound := Store.version_afterAll_le owned (.empty owners) e.table key
  have hzero : (Store.ledger {} e.table key).version = 0 := rfl
  omega

/-- The tables of the shop, each written through its own type. -/
def Shop.owners : Owners := fun name =>
  (Shop.catalog.types.find? (·.name == name)).getD ⟨name, 0, []⟩

/-- A product that comes and goes: it is inserted, inserted again in vain, changed,
deleted, inserted anew, dropped with everything, and stored once more. -/
def Shop.comings : List Write :=
  [.insert Shop.product (.object [("key", .text "p")]),
   .insert Shop.product (.object [("key", .text "p"), ("name", .text "again")]),
   .update Shop.product (.object [("key", .text "p"), ("name", .text "lamp")]) (some 1),
   .delete Shop.product (.text "p"),
   .insert Shop.product (.object [("key", .text "p")]),
   .dropAll,
   .upsert Shop.product (.object [("key", .text "p"), ("name", .text "desk")])]

theorem Shop.comings_journaled :
    (∀ w ∈ Shop.comings, w.OwnedBy Shop.owners) ∧
      (Store.afterAll {} Shop.comings).Journaled Shop.owners ∧
        ((Store.afterAll {} Shop.comings).journal.map StoreEvent.version) =
          #[1, 2, 3, 4, 5, 6] := by
  have owned : ∀ w ∈ Shop.comings, w.OwnedBy Shop.owners := by
    intro w hw
    simp only [Shop.comings, List.mem_cons, List.not_mem_nil, or_false] at hw
    rcases hw with rfl | rfl | rfl | rfl | rfl | rfl | rfl
    all_goals first | rfl | trivial
  exact ⟨owned, (Store.afterAll_journaled Shop.owners Shop.comings owned).1, by decide +kernel⟩

end LiveRecords

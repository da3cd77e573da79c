import LiveRecords.Proofs.References.Calls
import LiveRecords.Proofs.Store.Commit

/-
  Calls that do not matter to each other.

  A write is a change of one table, and what it comes to hangs on no more than the row
  under its key, the tombstone there, and the unique property that is taken
  (`WriteMode.change_eq`). So two calls can only matter to each other if they are about
  one table and one key, or write to a table in which a property is unique
  (`StoreCall.Conflict`). Any other two calls come to the same whichever of them is first,
  and leave the same tables (`StoreCall.commute`).
-/

namespace LiveRecords

/-! ## Writes, by what they find -/

/-- Whether a property other than the key is unique. -/
def EntityType.hasUnique (T : EntityType) : Bool :=
  T.properties.any fun p => p.isUnique && !p.isKey

/-- The version that a document gets, by the row under its key, the version that it would
have as a new one, and the unique property that is taken. -/
def WriteMode.verdict (T : EntityType) (key : String) (row : Option Row) (fresh : Nat)
    (taken : Option Property) (mode : WriteMode) : Outcome Nat :=
  let grant := fun version => match taken with
    | some p => Except.error (.uniqueConstraint T.name p.name)
    | none => .ok version
  match mode, row with
  | .insert, some _ => .error (.duplicateKey T.name key)
  | .insert, none => grant fresh
  | .update _, none => .error (.notFound T.name key)
  | .update none, some row => grant (row.version + 1)
  | .update (some expected), some row =>
    if expected = row.version then grant (row.version + 1)
    else .error (.concurrentModification T.name key expected row.version)
  | .upsert, some row => grant (row.version + 1)
  | .upsert, none => grant fresh

/-- The same, in a table. -/
def WriteMode.verdictIn (T : EntityType) (d : Value) (key : String) (mode : WriteMode)
    (t : Table) : Outcome Nat :=
  mode.verdict T key (t.rows.get? key) (t.nextVersion key) (t.conflict? T key d)

/-- What is reported of a document that was written. -/
def reported (T : EntityType) (d : Value) (row : Option Row) (version : Nat) : StoreEvent :=
  match row with
  | some row => .updated T.name row.value d version
  | none => .created T.name d version

variable {T R : EntityType} {d e : Value} {key : String} {mode : WriteMode} {s s' : Store}
  {owners : Owners}

theorem create_eq (T : EntityType) (d : Value) (key : String) (s : Store) :
    s.create T key d = match (s.table T.name).conflict? T key d with
      | some p => .error (.uniqueConstraint T.name p.name)
      | none => .ok (s.commit T.name
          ((s.table T.name).store key d ((s.table T.name).nextVersion key))
          (.created T.name d ((s.table T.name).nextVersion key))) := by
  unfold Store.create Table.checkUnique
  dsimp only
  cases (s.table T.name).conflict? T key d <;> rfl

theorem replace_eq (T : EntityType) (d : Value) (key : String) (row : Row) (s : Store) :
    s.replace T key row d = match (s.table T.name).conflict? T key d with
      | some p => .error (.uniqueConstraint T.name p.name)
      | none => .ok (s.commit T.name ((s.table T.name).store key d (row.version + 1))
          (.updated T.name row.value d (row.version + 1))) := by
  unfold Store.replace Table.checkUnique
  dsimp only
  cases (s.table T.name).conflict? T key d <;> rfl

/-- A write puts the document in its place, with the version that it is to get. -/
theorem WriteMode.change_eq (keyed : T.keyTextOf? d = some key) (mode : WriteMode) (s : Store) :
    mode.change T d s = (mode.verdictIn T d key (s.table T.name)).map fun version =>
      s.commit T.name ((s.table T.name).store key d version)
        (reported T d (s.row? T key) version) := by
  have hkey := Store.keyFor_eq keyed
  unfold verdictIn
  show _ = (mode.verdict T key (s.row? T key) _ _).map _
  cases mode with
  | insert =>
    show s.insert T d = _
    unfold Store.insert
    rw [hkey]
    dsimp only [Bind.bind, Except.bind]
    cases hrow : s.row? T key with
    | some row => rfl
    | none =>
      dsimp only
      rw [create_eq]
      unfold verdict
      cases (s.table T.name).conflict? T key d <;> rfl
  | update expected =>
    show s.update T d expected = _
    unfold Store.update
    rw [hkey]
    dsimp only [Bind.bind, Except.bind]
    cases hrow : s.row? T key with
    | none => cases expected <;> rfl
    | some row =>
      dsimp only
      rw [replace_eq]
      unfold verdict
      cases expected with
      | none => cases (s.table T.name).conflict? T key d <;> rfl
      | some version =>
        dsimp only
        split
        · cases (s.table T.name).conflict? T key d <;> rfl
        · rfl
  | upsert =>
    show s.upsert T d = _
    unfold Store.upsert
    rw [hkey]
    dsimp only [Bind.bind, Except.bind]
    cases hrow : s.row? T key with
    | some row =>
      dsimp only
      rw [replace_eq]
      unfold verdict
      cases (s.table T.name).conflict? T key d <;> rfl
    | none =>
      dsimp only
      rw [create_eq]
      unfold verdict
      cases (s.table T.name).conflict? T key d <;> rfl

/-- A table after a write, whether that succeeds or not. -/
def WriteMode.written (T : EntityType) (d : Value) (key : String) (mode : WriteMode) (t : Table) :
    Table :=
  match mode.verdictIn T d key t with
  | .ok version => t.store key d version
  | .error _ => t

/-! ## Tables -/

/-- Two stores have the same tables. -/
def Store.SameTables (s s' : Store) : Prop := ∀ name, s.table name = s'.table name

theorem Store.SameTables.refl (s : Store) : s.SameTables s := fun _ => rfl

theorem Store.SameTables.symm (h : s.SameTables s') : s'.SameTables s := fun name => (h name).symm

theorem Store.SameTables.trans {s'' : Store} (h : s.SameTables s') (h' : s'.SameTables s'') :
    s.SameTables s'' := fun name => (h name).trans (h' name)

namespace StoreCall

/-- What a write of a document with a key comes to, and what it does to the tables. -/
theorem run_write (keyed : T.keyTextOf? d = some key) (mode : WriteMode) (s : Store) :
    ((write T d mode).run s).1 = (mode.verdictIn T d key (s.table T.name)).map (fun _ => d) ∧
      ∀ name, ((write T d mode).run s).2.table name =
        if name = T.name then mode.written T d key (s.table T.name) else s.table name := by
  have hchange := WriteMode.change_eq keyed mode s
  unfold WriteMode.written
  cases hverdict : mode.verdictIn T d key (s.table T.name) with
  | error e =>
    rw [hverdict] at hchange
    rw [run_write_error hchange]
    refine ⟨rfl, fun name => ?_⟩
    split
    · next hname => rw [hname]
    · rfl
  | ok version =>
    rw [hverdict] at hchange
    rw [run_write_ok hchange]
    exact ⟨rfl, fun name => Store.table_commit ..⟩

/-- A document without a key is refused, whatever is stored. -/
theorem run_write_keyless (keyless : T.keyTextOf? d = none) (mode : WriteMode) :
    ∃ e, ∀ s, (write T d mode).run s = (.error e, s) := by
  cases hrequire : T.requireKey d with
  | ok key =>
    rw [EntityType.keyTextOf?_of_keyOf? (References.keyOf?_of_requireKey hrequire)] at keyless
    cases keyless
  | error e =>
    exact ⟨e, fun s => run_write_error (References.change_of_requireKey hrequire mode s)⟩

/-- A call leaves every other table as it is. -/
theorem run_elsewhere (call : StoreCall) (s : Store) {name : String} (h : name ≠ call.type.name) :
    (call.run s).2.table name = s.table name := by
  cases call with
  | find T key => rfl
  | write T d mode =>
    cases hkey : T.keyTextOf? d with
    | none =>
      obtain ⟨e, he⟩ := run_write_keyless hkey mode
      rw [he]
    | some key =>
      rw [(run_write hkey mode s).2]
      exact if_neg h

/-- What a call comes to, and what it does, is settled by its table. -/
theorem run_local (call : StoreCall) (h : s.table call.type.name = s'.table call.type.name) :
    (call.run s).1 = (call.run s').1 ∧
      (call.run s).2.table call.type.name = (call.run s').2.table call.type.name := by
  cases call with
  | find T key =>
    have hlookup : s.lookup T key = s'.lookup T key := by
      unfold Store.lookup Store.documents
      rw [show s.table T.name = s'.table T.name from h]
    refine ⟨?_, h⟩
    show (Query.byKey T key).map _ = (Query.byKey T key).map _
    rw [hlookup]
  | write T d mode =>
    have htable : s.table T.name = s'.table T.name := h
    show _ ∧ ((write T d mode).run s).2.table T.name = ((write T d mode).run s').2.table T.name
    cases hkey : T.keyTextOf? d with
    | none =>
      obtain ⟨e, he⟩ := run_write_keyless hkey mode
      rw [he, he]
      exact ⟨rfl, htable⟩
    | some key =>
      rw [(run_write hkey mode s).1, (run_write hkey mode s').1, (run_write hkey mode s).2,
        (run_write hkey mode s').2, htable]
      exact ⟨rfl, rfl⟩

theorem run_congr (call : StoreCall) (h : s.SameTables s') :
    (call.run s).1 = (call.run s').1 ∧ (call.run s).2.SameTables (call.run s').2 := by
  obtain ⟨hanswer, htable⟩ := call.run_local (h call.type.name)
  refine ⟨hanswer, fun name => ?_⟩
  by_cases hname : name = call.type.name
  · rw [hname]
    exact htable
  · rw [call.run_elsewhere s hname, call.run_elsewhere s' hname]
    exact h name

/-! ## Conflicts -/

/-- Under the key text of a document there may be a key alike the one asked for. -/
def Touches (T : EntityType) (key : Value) (R : EntityType) (d : Value) : Prop :=
  T.name = R.name ∧ ∃ k : Value, R.keyTextOf? d = some k.keyText ∧ k.alike key = true

/-- Two calls that may matter to each other: a document is written that may be the one
asked for, or two are written under one key, or to a table with a unique property. -/
def Conflict : StoreCall → StoreCall → Prop
  | .find .., .find .. => False
  | .find T key, .write R d _ => Touches T key R d
  | .write R d _, .find T key => Touches T key R d
  | .write T d _, .write R e _ => T.name = R.name ∧
      (T.hasUnique = true ∨ ∃ key, T.keyTextOf? d = some key ∧ R.keyTextOf? e = some key)

theorem not_conflict_of_ne {a b : StoreCall} (h : a.type.name ≠ b.type.name) : ¬a.Conflict b := by
  intro hconflict
  cases a <;> cases b
  · exact hconflict
  · exact h hconflict.1
  · exact h hconflict.1.symm
  · exact h hconflict.1

/-- Whichever of two calls is first, both come to the same, and so do the tables. -/
structure Commute (a b : StoreCall) (s : Store) : Prop where
  first : (a.run (b.run s).2).1 = (a.run s).1
  second : (b.run (a.run s).2).1 = (b.run s).1
  tables : (a.run (b.run s).2).2.SameTables (b.run (a.run s).2).2

namespace Commute

theorem symm {a b : StoreCall} (h : Commute a b s) : Commute b a s :=
  ⟨h.second, h.first, h.tables.symm⟩

theorem of_keyless (keyless : T.keyTextOf? d = none) (mode : WriteMode) (b : StoreCall) :
    Commute (.write T d mode) b s := by
  obtain ⟨e, he⟩ := run_write_keyless keyless mode
  refine ⟨?_, ?_, ?_⟩
  · rw [he, he]
  · rw [he]
  · rw [he, he]
    exact .refl _

/-- Calls about different tables commute. -/
theorem of_tables {a b : StoreCall} (h : a.type.name ≠ b.type.name) : Commute a b s := by
  obtain ⟨ha, hatable⟩ := a.run_local (b.run_elsewhere s h)
  obtain ⟨hb, hbtable⟩ := b.run_local (a.run_elsewhere s (Ne.symm h))
  refine ⟨ha, hb, fun name => ?_⟩
  by_cases haname : name = a.type.name
  · rw [haname, hatable, b.run_elsewhere _ h]
  · rw [a.run_elsewhere _ haname]
    by_cases hbname : name = b.type.name
    · rw [hbname, hbtable]
    · rw [b.run_elsewhere _ hbname, b.run_elsewhere _ hbname, a.run_elsewhere _ haname]

end Commute

/-- A document that is not under a key alike is not found, nor is what it replaces. -/
theorem lookup_store (wf : s.WellFormed owners) (owned : owners T.name = T)
    (keyed : T.keyTextOf? d = some key) {asked : Value} (free : ¬Touches T asked T d)
    (version : Nat) (event : StoreEvent) :
    (s.commit T.name ((s.table T.name).store key d version) event).lookup T asked =
      s.lookup T asked := by
  have hnot : ∀ v, T.keyTextOf? v = some key → (T.keyIn v).alike asked = false := by
    intro v hv
    obtain ⟨k, hk, htext⟩ := Option.map_eq_some_iff.1 hv
    have hin : T.keyIn v = k := by
      unfold EntityType.keyIn
      rw [hk]
      rfl
    cases halike : (T.keyIn v).alike asked with
    | false => rfl
    | true => exact absurd ⟨rfl, k, htext ▸ keyed, hin ▸ halike⟩ free
  have hold : ∀ row, (s.table T.name).rows.get? key = some row →
      (T.keyIn row.value).alike asked = false := by
    intro row hrow
    have hkeyed := (wf.table T.name).keyed hrow
    rw [owned] at hkeyed
    exact hnot row.value hkeyed
  unfold Store.lookup Store.documents Keyed.values
  rw [Store.table_commit, if_pos rfl, List.map_map, List.map_map, List.find?_map, List.find?_map]
  show Option.map _ (((s.table T.name).rows.put key ⟨d, version⟩).find? fun entry =>
    (T.keyIn entry.2.value).alike asked) = _
  rw [Keyed.find?_put (p := fun row : Row => (T.keyIn row.value).alike asked) (hnot d keyed) hold]
  rfl

theorem commute_find_write (wf : s.WellFormed owners) (owned : owners T.name = T) (asked : Value)
    (free : ¬Touches T asked T d) : Commute (.find T asked) (.write T d mode) s := by
  cases hkey : T.keyTextOf? d with
  | none => exact (Commute.of_keyless hkey mode _).symm
  | some key =>
    have hlookup : ((write T d mode).run s).2.lookup T asked = s.lookup T asked := by
      have hchange := WriteMode.change_eq hkey mode s
      cases hverdict : mode.verdictIn T d key (s.table T.name) with
      | error e =>
        rw [hverdict] at hchange
        rw [run_write_error hchange]
      | ok version =>
        rw [hverdict] at hchange
        rw [run_write_ok hchange]
        exact lookup_store wf owned hkey free ..
    refine ⟨?_, rfl, .refl _⟩
    show (Query.byKey T asked).map _ = (Query.byKey T asked).map _
    rw [hlookup]

/-- Where no property is unique none is taken. -/
theorem conflict?_of_not_unique (plain : T.hasUnique = false) (t : Table) (key : String)
    (d : Value) : t.conflict? T key d = none := by
  refine List.find?_eq_none.2 fun p hp htaken => ?_
  have hp' := List.any_eq_false.1 plain p hp
  simp only [Bool.and_eq_true] at htaken hp'
  exact hp' htaken.1.1

/-- A write under another key changes nothing about what a write comes to. -/
theorem verdictIn_written {other : String} (hne : key ≠ other) (plain : T.hasUnique = false)
    (mode mode' : WriteMode) (t : Table) :
    mode.verdictIn T d key (mode'.written T e other t) = mode.verdictIn T d key t := by
  unfold WriteMode.verdictIn
  rw [conflict?_of_not_unique plain, conflict?_of_not_unique plain]
  unfold WriteMode.written Table.nextVersion
  cases mode'.verdictIn T e other t with
  | error _ => rfl
  | ok version =>
    show mode.verdict T key ((t.rows.put other _).get? key)
      (((t.tombstones.erase other).get? key).getD 0 + 1) none = _
    rw [Keyed.get?_put_of_ne hne, Keyed.get?_erase_of_ne hne]

/-- Documents are stored under two keys in any order. -/
theorem store_comm {t : Table} (wf : t.WellFormed T) {other : String} (hne : key ≠ other)
    (version version' : Nat) :
    (t.store other e version').store key d version =
      (t.store key d version).store other e version' := by
  unfold Table.store
  rw [Keyed.put_comm hne _ _ wf.rows_ascending, Keyed.erase_comm _ _ wf.tombstones_ascending]

theorem written_comm {t : Table} (wf : t.WellFormed T) {other : String} (hne : key ≠ other)
    (plain : T.hasUnique = false) (mode' : WriteMode) :
    mode.written T d key (mode'.written T e other t) =
      mode'.written T e other (mode.written T d key t) := by
  have hfirst := verdictIn_written (d := d) (e := e) hne plain mode mode' t
  have hsecond := verdictIn_written (d := e) (e := d) (Ne.symm hne) plain mode' mode t
  unfold WriteMode.written at hfirst hsecond ⊢
  cases hverdict : mode.verdictIn T d key t with
  | error _ =>
    cases hverdict' : mode'.verdictIn T e other t with
    | error _ => simp only [hverdict]
    | ok version' =>
      simp only [hverdict'] at hfirst
      simp only [hverdict, hfirst]
  | ok version =>
    simp only [hverdict] at hsecond
    cases hverdict' : mode'.verdictIn T e other t with
    | error _ => simp only [hverdict, hverdict', hsecond]
    | ok version' =>
      simp only [hverdict'] at hfirst
      simp only [hverdict, hverdict', hfirst, hsecond]
      exact store_comm wf hne version version'

theorem commute_writes (wf : s.WellFormed owners) (owned : owners T.name = T) {mode' : WriteMode}
    (free : ¬Conflict (.write T d mode) (.write T e mode')) :
    Commute (.write T d mode) (.write T e mode') s := by
  cases hd : T.keyTextOf? d with
  | none => exact .of_keyless hd mode _
  | some key =>
    cases he : T.keyTextOf? e with
    | none => exact (Commute.of_keyless he mode' _).symm
    | some other =>
      have hne : key ≠ other := fun heq => free ⟨rfl, .inr ⟨key, hd, heq ▸ he⟩⟩
      have hplain : T.hasUnique = false := Bool.eq_false_iff.2 fun h => free ⟨rfl, .inl h⟩
      have htable : (s.table T.name).WellFormed T := by
        have hwf := wf.table T.name
        rwa [owned] at hwf
      have hfirst := run_write hd mode
      have hsecond := run_write he mode'
      refine ⟨?_, ?_, fun name => ?_⟩
      · rw [(hfirst _).1, (hfirst _).1, (hsecond _).2, if_pos rfl, verdictIn_written hne hplain]
      · rw [(hsecond _).1, (hsecond _).1, (hfirst _).2, if_pos rfl,
          verdictIn_written (Ne.symm hne) hplain]
      · rw [(hfirst _).2, (hsecond _).2, (hsecond _).2, (hsecond _).2, (hfirst _).2, (hfirst _).2]
        split
        · rw [if_pos rfl, if_pos rfl, written_comm htable hne hplain]
        · rfl

/-- Calls that are not in conflict commute. -/
theorem commute {a b : StoreCall} (wf : s.WellFormed owners) (ha : owners a.type.name = a.type)
    (hb : owners b.type.name = b.type) (free : ¬a.Conflict b) : Commute a b s := by
  by_cases hname : a.type.name = b.type.name
  · have htype : a.type = b.type := ha.symm.trans ((congrArg owners hname).trans hb)
    cases a with
    | find T key =>
      cases b with
      | find R key' => exact ⟨rfl, rfl, .refl _⟩
      | write R d mode =>
        obtain rfl : T = R := htype
        exact commute_find_write wf ha key free
    | write T d mode =>
      cases b with
      | find R key =>
        obtain rfl : T = R := htype
        exact (commute_find_write wf ha key free).symm
      | write R e mode' =>
        obtain rfl : T = R := htype
        exact commute_writes wf ha free
  · exact .of_tables hname

theorem run_wellFormed {call : StoreCall} (wf : s.WellFormed owners)
    (owned : owners call.type.name = call.type) : (call.run s).2.WellFormed owners := by
  cases call with
  | find T key => exact wf
  | write T d mode =>
    have hcommit : ∀ s', mode.change T d s = .ok s' → Commit owners s s' := by
      intro s' hs'
      cases mode with
      | insert => exact Store.insert_commit owned hs'
      | update expected => exact Store.update_commit owned hs'
      | upsert => exact Store.upsert_commit owned hs'
    cases hchange : mode.change T d s with
    | error e =>
      rw [run_write_error hchange]
      exact wf
    | ok s' =>
      rw [run_write_ok hchange]
      exact (hcommit s' hchange).wellFormed wf

end StoreCall

end LiveRecords

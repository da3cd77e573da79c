import LiveRecords.Proofs.References.Walk
import LiveRecords.Proofs.Store.Uniqueness

/-
  What a reference-first write stores.

  The document itself is written last, and just once: it finds its row as it was before, or
  a stub where there was none. All other rows are as the walk has left them. So a write that
  succeeds has stored the document, has refreshed the rows of the entities inside it, and
  has left every other row alone (`write_stores`).
-/

namespace LiveRecords

open Job (Goes)
open Plan (Gives)

namespace References

variable {c : Catalog} {owners : Owners} {kinds : String → KeyKind} {T : EntityType}
  {d key : Value} {s s' : Store} {mode : WriteMode}

/-! ## Steps of a write -/

/-- Where no property is a reference, the walk comes to nothing. -/
theorem occurrences_of_no_reference
    (none : (T.properties.all fun p => (c.referenced? p).isNone) = true) (path : List EntityId) :
    occurrences c d T path = [] := by
  cases d with
  | object fields =>
    rw [occurrences_object, List.flatMap_eq_nil_iff]
    intro p hp
    have hno := Option.isNone_iff_eq_none.1 (List.all_eq_true.1 none p hp)
    exact occurrencesAt_nowhere (fun R hR => nomatch hno.symm.trans hR) _ path
  | _ => rfl

theorem gives_checkStored_planned (T : EntityType) (key : Value) (mode : WriteMode) (s : Store) :
    Gives (fun _ s' => s' = s) (checkStored planned T key mode) s := by
  cases mode with
  | insert => exact Gives.pure rfl
  | upsert => exact Gives.pure rfl
  | update expected =>
    have hfind : Gives (fun _ s' => s' = s) (planned.find T key) s :=
      Gives.one (.find T key) fun _ s' hrun => (Prod.mk.inj hrun).2.symm
    refine hfind.bind fun found s₁ hs₁ => ?_
    cases found with
    | some stored => exact Gives.pure hs₁
    | none => exact Gives.throw _

/-! ## The rows after a write -/

/-- What a write of a document with a key stores. -/
structure Stores (c : Catalog) (T : EntityType) (d key : Value) (s s' : Store) : Prop where
  /-- The document is stored. If there was a row, it was replaced just once. -/
  itself : ∃ version, s'.rowAt (idOf T key) = some ⟨d, version⟩ ∧
    ∀ row, s.rowAt (idOf T key) = some row → version = row.version + 1
  /-- Every other row is refreshed with what occurs of its entity inside the document; so it
  stays as it was, with its version, if nothing does. -/
  others : ∀ id, id ≠ idOf T key →
    Refreshed (valuesOf id (occurrences c d T [idOf T key])) (s.rowAt id) (s'.rowAt id)

/-- What is known after a write of a document. -/
structure Written (c : Catalog) (owners : Owners) (kinds : String → KeyKind) (T : EntityType)
    (d : Value) (s s' : Store) (key : Value) : Prop where
  keyed : T.keyOf? d = some key
  stores : Stores c T d key s s'
  inside : ∀ o ∈ occurrences c d T [idOf T key], o.id?.isSome = true
  ofKinds : OfKinds c owners kinds s'
  free : (s'.table T.name).conflict? T key.keyText d = none

/-- The last step of a write, after the walk. -/
theorem Walked.written (names : ∀ S ∈ c.types, owners S.name = S) (mem : T ∈ c.types)
    (keyed : T.keyOf? d = some key) (kind : (kinds T.name).Allows key) {between : Store}
    (h : Walked [idOf T key] (occurrences c d T [idOf T key]) s between)
    (hs : OfKinds c owners kinds between) (change : mode.change T d between = .ok s') :
    Written c owners kinds T d s s' key := by
  obtain ⟨text, version, e, htext, rfl, hfree, hversion⟩ := WriteMode.change_ok change
  obtain rfl : key.keyText = text :=
    Option.some.inj ((EntityType.keyTextOf?_of_keyOf? keyed).symm.trans htext)
  refine ⟨keyed, ⟨⟨version, ?_, fun row hrow => ?_⟩, fun id hid => ?_⟩, h.keyed,
    hs.put (names T mem) names keyed kind version e, ?_⟩
  · exact Store.rowAt_put_self ..
  · exact hversion row (h.on _ List.mem_cons_self row hrow)
  · rw [Store.rowAt_put_of_ne between hid]
    exact h.off id fun hin => hid (List.mem_singleton.1 hin)
  · rw [Store.table_commit, if_pos rfl, Table.conflict?_store (hs.wf.table T.name).rows_ascending]
    exact hfree

/-- A write that succeeds walks along the references, and then puts the document. -/
theorem gives_written (names : ∀ S ∈ c.types, owners S.name = S) (mem : T ∈ c.types)
    (fits : AllFit c kinds T d) (mode : WriteMode) (hs : OfKinds c owners kinds s) :
    Gives (fun _ s' => ∃ key, Written c owners kinds T d s s' key)
      (write planned c T d mode) s := by
  unfold write
  refine (Gives.outcome (T.requireKey d) s).bind ?_
  rintro key s ⟨rfl, hrequire⟩
  have hkey := keyOf?_of_requireKey hrequire
  have hkind := (fits T d .here).key key hkey
  have hput : ∀ {between : Store} {mode : WriteMode},
      Walked [idOf T key] (occurrences c d T [idOf T key]) s between →
      OfKinds c owners kinds between →
      Gives (fun _ s' => ∃ key, Written c owners kinds T d s s' key)
        (writeEntity planned T d mode) between := fun hwalked hbetween =>
    (Plan.gives_change d _).mono fun _ s' hend =>
      ⟨key, hwalked.written names mem hkey hkind hbetween hend.2⟩
  split
  · next hnone =>
    refine hput ?_ hs
    rw [occurrences_of_no_reference hnone]
    exact .refl _ s
  · refine (gives_checkStored_planned T key mode s).bind ?_
    rintro _ s rfl
    refine Gives.bind (resolver_walks names d fits _ [] s hs) fun stubs between hend => ?_
    exact hput hend.2 hend.1

/-- A reference-first write that succeeds while nobody else writes has stored just what it
should, whatever the catalogue, the store and the document, if all keys are of the kinds of
their types: the document itself, and of each entity inside it what its occurrences carry. -/
theorem write_stores (owners : Owners) (kinds : String → KeyKind) (writes : List Write)
    (T : EntityType) (d v : Value) (mode : WriteMode) (w w' : World)
    (names : ∀ S ∈ w.catalog.types, owners S.name = S) (mem : T ∈ w.catalog.types)
    (owned : ∀ x ∈ writes, x.OwnedBy owners) (reached : w.store = Store.afterAll {} writes)
    (stored : ∀ S ∈ w.catalog.types, ∀ key row, w.store.row? S key = some row →
      (kinds S.name).Allows (S.keyIn row.value))
    (fits : AllFit w.catalog kinds T d)
    (written : Goes Idle (request T d mode) w (.done (.ok v)) w') :
    ∃ key, T.keyOf? d = some key ∧ Stores w.catalog T d key w.store w'.store := by
  have hs := OfKinds.of_reached owned reached stored
  obtain ⟨⟨key, hwritten⟩, -⟩ := of_written mem (gives_written names mem fits mode hs) written
  exact ⟨key, hwritten.keyed, hwritten.stores⟩

/-! ## A friend who was there before -/

/-- A world in which the second friend is stored, with a name. -/
def acquainted : World where
  catalog := people
  store := Store.afterAll {} [.insert person (.object [("id", .int 2), ("name", .text "Bo")])]

theorem acquainted_keys : ∀ S ∈ people.types, ∀ key row, acquainted.store.row? S key = some row →
    KeyKind.integer.Allows (S.keyIn row.value) := by
  intro S hS key row hrow
  obtain rfl := List.mem_singleton.1 hS
  have hin : (key, row) ∈ [("2", Row.mk (.object [("id", .int 2), ("name", .text "Bo")]) 1)] :=
    Keyed.mem_of_get? hrow
  obtain ⟨-, rfl⟩ := Prod.mk.inj (List.mem_singleton.1 hin)
  show InSigned64 2
  decide

theorem friends_succeed : ∃ v w',
    (request person friends .insert).alone acquainted = some (.ok v, w') ∧
      w'.schemaUse = .unused := by
  have hsucceeds : ((request person friends .insert).alone acquainted).any
      (fun x => x.1.isOk && x.2.schemaUse = .unused) = true := by decide +kernel
  cases halone : (request person friends .insert).alone acquainted with
  | none =>
    rw [halone] at hsucceeds
    cases hsucceeds
  | some ending =>
    obtain ⟨result, w'⟩ := ending
    rw [halone] at hsucceeds
    cases result with
    | error e => cases hsucceeds
    | ok v => exact ⟨v, w', rfl, of_decide_eq_true hsucceeds⟩

/-- The first friend is stubbed, the second one refreshed, and the stub replaced. The second
one has kept her name, and has the first one for a friend. -/
theorem friends_stored : ∃ v w', Goes Idle (request person friends .insert) acquainted
      (.done (.ok v)) w' ∧
    (∃ version, w'.store.rowAt ("Person", "1") = some ⟨friends, version⟩) ∧
    ∃ row, w'.store.rowAt ("Person", "2") = some row ∧
      Value.along ["name"] row.value = some (.text "Bo") ∧
      AgreesWith row.value (friends.get "friend") := by
  obtain ⟨v, w', halone, -⟩ := friends_succeed
  have hgoes : Goes Idle (request person friends .insert) acquainted (.done (.ok v)) w' :=
    Job.goes_of_alone halone
  obtain ⟨key, hkey, hstores⟩ := write_stores (fun _ => person) (fun _ => .integer)
    [.insert person (.object [("id", .int 2), ("name", .text "Bo")])] person friends v .insert
    acquainted w' (fun S hS => (List.mem_singleton.1 hS).symm) List.mem_cons_self
    (fun x hx => by rw [List.mem_singleton.1 hx]; rfl) rfl acquainted_keys friends_fit hgoes
  obtain rfl : key = .int 1 := (Option.some.inj hkey).symm
  obtain ⟨version, hitself, -⟩ := hstores.itself
  have hfriend : Refreshed [friends.get "friend"] (acquainted.store.rowAt ("Person", "2"))
      (w'.store.rowAt ("Person", "2")) := hstores.others ("Person", "2") (by decide)
  obtain ⟨row, hrow, hagrees⟩ := hfriend.last _ rfl
  obtain ⟨row', hrow', hkept⟩ := hfriend.kept _ rfl
  obtain rfl := Option.some.inj (hrow.symm.trans hrow')
  refine ⟨v, w', hgoes, ⟨version, hitself⟩, row, hrow, ?_, hagrees⟩
  refine hkept "name" (fun u hu => ?_) []
  rw [List.mem_singleton.1 hu]
  rfl

end References

end LiveRecords

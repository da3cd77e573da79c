import LiveRecords.Proofs.References.Effect

/-
  Writing a document once more.

  After a write the row of every entity inside the document agrees with what occurs of it,
  if it occurs once. So the walk of the next write finds every row fresh and writes nothing
  (`alone_resolver`), and only the document itself is put in its place again
  (`repeated_write`).
-/

namespace LiveRecords

open Job (Finishes Goes)

/-! ## Plans that succeed -/

namespace Plan

variable {α β : Type} {x : ExceptT Failure Plan α} {s s' : Store}

theorem alone_bind_ok {f : α → ExceptT Failure Plan β} {a : α}
    (h : x.run.alone s = (.ok a, s')) : (x >>= f).run.alone s = (f a).run.alone s' := by
  have h : Plan.alone x s = (.ok a, s') := h
  refine (Plan.alone_bind ..).trans ?_
  rw [h]
  rfl

theorem alone_adapt_ok {a : α} (h : x.run.alone s = (.ok a, s')) (change : Failure → Failure) :
    (ExceptT.adapt change x).run.alone s = (.ok a, s') := by
  have h : Plan.alone x s = (.ok a, s') := h
  refine (Plan.alone_bind ..).trans ?_
  rw [h]
  rfl

end Plan

namespace References

variable {c : Catalog} {owners : Owners} {kinds : String → KeyKind} {T : EntityType}
  {d u key : Value} {s s' : Store} {path : List EntityId}

/-! ## A walk that writes nothing -/

/-- There is a row for what occurs somewhere, and it agrees. -/
def FreshIn (s : Store) (o : Occurrence) : Prop :=
  ∃ id row, o.id? = some id ∧ s.rowAt id = some row ∧ AgreesWith row.value o.value

section Walk

variable (names : ∀ S ∈ c.types, owners S.name = S) (hs : OfKinds c owners kinds s)

include names hs

theorem alone_find {row : Row} (mem : T ∈ c.types) (keyed : T.keyOf? u = some key)
    (kind : (kinds T.name).Allows key) (hrow : s.rowAt (idOf T key) = some row) :
    (planned.find T key).run.alone s = (.ok (some row.value), s) := by
  obtain ⟨p, hp, -⟩ := EntityType.keyOf?_eq_some.1 keyed
  obtain ⟨q, hq, -⟩ := Query.prepare_byKey hp key
  show ((Query.byKey T key).map fun _ => s.lookup T key, s) = _
  rw [hq, hs.lookup_eq mem (names T mem) kind, show s.row? T key.keyText = some row from hrow]
  rfl

theorem alone_closeCycle {row : Row} (mem : T ∈ c.types) (keyed : T.keyOf? u = some key)
    (kind : (kinds T.name).Allows key) (hrow : s.rowAt (idOf T key) = some row)
    (stubs : List EntityId) : (closeCycle planned T key stubs).run.alone s = (.ok stubs, s) := by
  unfold closeCycle
  dsimp only
  split
  · rfl
  · rw [Plan.alone_bind_ok (alone_find names hs mem keyed kind hrow)]
    rfl

theorem alone_refresh {row : Row} (mem : T ∈ c.types) (keyed : T.keyOf? u = some key)
    (fits : FitsKind kinds T u) (hrow : s.rowAt (idOf T key) = some row)
    (agrees : AgreesWith row.value u) : (refresh planned T key u).run.alone s = (.ok (), s) := by
  have hnone : refreshed? row.value u = none :=
    (refreshed?_eq_none_iff (hs.isObject (names T mem) hrow) fits.ascending).2 agrees
  unfold refresh
  rw [Plan.alone_bind_ok (alone_find names hs mem keyed (fits.key key keyed) hrow)]
  simp only [hnone]
  rfl

theorem alone_follow {inner : Resolver Plan}
    {within : EntityType → List EntityId → List Occurrence} (mem : T ∈ c.types)
    (fits : FitsKind kinds T u)
    (hinner : ∀ path, (∀ id ∈ path, (s.rowAt id).isSome = true) →
      (∀ o ∈ within T path, FreshIn s o) →
        ∀ stubs, (inner T path stubs).run.alone s = (.ok stubs, s))
    (rows : ∀ id ∈ path, (s.rowAt id).isSome = true)
    (fresh : ∀ o ∈ occurrencesOf within T u path, FreshIn s o) (stubs : List EntityId) :
    (follow planned inner T u path stubs).run.alone s = (.ok stubs, s) := by
  unfold occurrencesOf at fresh
  unfold follow
  cases hkey : T.keyOf? u with
  | none =>
    rw [hkey] at fresh
    obtain ⟨id, _, hid, _⟩ := fresh _ (List.mem_singleton.2 rfl)
    rw [Occurrence.id?, hkey] at hid
    cases hid
  | some key =>
    rw [hkey] at fresh
    dsimp only at fresh
    have hrequire : (liftM (T.requireKey u) : ExceptT Failure Plan Value).run.alone s =
        (.ok key, s) := by
      rw [EntityType.requireKey_of_keyOf? hkey]
      rfl
    rw [Plan.alone_bind_ok hrequire]
    dsimp only
    split
    · next hpath =>
      obtain ⟨row, hrow⟩ := Option.isSome_iff_exists.1 (rows _ (List.contains_iff_mem.1 hpath))
      exact alone_closeCycle names hs mem hkey (fits.key key hkey) hrow stubs
    · next hpath =>
      rw [if_neg hpath] at fresh
      obtain ⟨id, row, hid, hrow, hagrees⟩ :=
        fresh ⟨T, u⟩ (List.mem_append_right _ (List.mem_singleton.2 rfl))
      obtain rfl : idOf T key = id := by simpa [Occurrence.id?, hkey] using hid
      have hrows : ∀ id ∈ idOf T key :: path, (s.rowAt id).isSome = true := by
        intro id hin
        rcases List.mem_cons.1 hin with rfl | hin
        · rw [hrow]
          rfl
        · exact rows id hin
      rw [Plan.alone_bind_ok (hinner _ hrows (fun o ho => fresh o (List.mem_append_left _ ho)) stubs),
        Plan.alone_bind_ok (alone_refresh names hs mem hkey fits hrow hagrees)]
      rfl

theorem alone_followProperty (S : EntityType) {p : Property} {value : Value}
    (fits : ∀ R, c.referenced? p = some R → value.isObject = true → AllFit c kinds R value)
    {inner : Resolver Plan}
    (hinner : ∀ R, AllFit c kinds R value → ∀ path, (∀ id ∈ path, (s.rowAt id).isSome = true) →
      (∀ o ∈ occurrences c value R path, FreshIn s o) →
        ∀ stubs, (inner R path stubs).run.alone s = (.ok stubs, s))
    (rows : ∀ id ∈ path, (s.rowAt id).isSome = true)
    (fresh : ∀ o ∈ occurrencesAt c (occurrences c value) p value path, FreshIn s o)
    (stubs : List EntityId) :
    (followProperty planned c inner S p value path stubs).run.alone s = (.ok stubs, s) := by
  cases Route.of c p value with
  | nowhere plain =>
    rw [followProperty_nowhere plain]
    rfl
  | inside R target object embedded =>
    rw [occurrencesAt_inside target object embedded] at fresh
    rw [followProperty_inside target object embedded]
    exact Plan.alone_adapt_ok (hinner R (fits R target object) path rows fresh stubs) _
  | across R target object keyed =>
    rw [occurrencesAt_across target object keyed] at fresh
    rw [followProperty_across target object keyed]
    have hfits := fits R target object
    have hmem := Catalog.mem_of_referenced target keyed
    exact Plan.alone_adapt_ok
      (alone_follow names hs hmem (hfits R value .here) (hinner R hfits) rows fresh stubs) _

omit names hs in
theorem alone_foldlM {ps : List Property} {stubs : List EntityId}
    {step : List EntityId → Property → ExceptT Failure Plan (List EntityId)}
    (h : ∀ p ∈ ps, (step stubs p).run.alone s = (.ok stubs, s)) :
    (ps.foldlM step stubs).run.alone s = (.ok stubs, s) := by
  induction ps with
  | nil => rfl
  | cons p rest ih =>
    rw [List.foldlM_cons, Plan.alone_bind_ok (h p List.mem_cons_self)]
    exact ih fun q hq => h q (List.mem_cons_of_mem _ hq)

/-- Where every row that the walk comes to is fresh, and those that it is inside of are there,
it writes nothing. -/
theorem alone_resolver (d : Value) {T : EntityType} (fits : AllFit c kinds T d)
    (path : List EntityId) (rows : ∀ id ∈ path, (s.rowAt id).isSome = true)
    (fresh : ∀ o ∈ occurrences c d T path, FreshIn s o) (stubs : List EntityId) :
    (resolver planned c d T path stubs).run.alone s = (.ok stubs, s) := by
  induction d using Value.fields_induction generalizing T path stubs with
  | object fields ih =>
    rw [resolver_object]
    rw [occurrences_object] at fresh
    refine alone_foldlM fun p hp => ?_
    refine alone_followProperty names hs T (fun R => fits.inside hp)
      (fun R hR path hrows hfresh stubs => ih p.name hR path hrows hfresh stubs) rows
      (fun o ho => fresh o (List.mem_flatMap.2 ⟨p, hp, ho⟩)) stubs
  | other v hobject =>
    rw [resolver_of_not_object hobject]
    rfl

end Walk

/-! ## The next write -/

/-- A document that is free to stay replaces its row. -/
theorem upsert_of_row {row : Row} (keyed : T.keyOf? d = some key)
    (hrow : s.rowAt (idOf T key) = some row)
    (free : (s.table T.name).conflict? T key.keyText d = none) :
    s.upsert T d = .ok (s.commit T.name ((s.table T.name).store key.keyText d (row.version + 1))
      (.updated T.name row.value d (row.version + 1))) := by
  have hrow : s.row? T key.keyText = some row := hrow
  simp only [Store.upsert, Store.keyFor_eq (EntityType.keyTextOf?_of_keyOf? keyed), bind,
    Except.bind, hrow, Store.replace, Table.checkUnique, free, pure, Except.pure]

/-- What occurs once is all that occurs of its entity. -/
theorem valuesOf_of_nodup {occs : List Occurrence} (once : (occs.filterMap Occurrence.id?).Nodup)
    {o : Occurrence} (ho : o ∈ occs) {id : EntityId} (hid : o.id? = some id) :
    valuesOf id occs = [o.value] := by
  induction occs with
  | nil => cases ho
  | cons first rest ih =>
    have hcons : valuesOf id (first :: rest) = valuesOf id [first] ++ valuesOf id rest :=
      valuesOf_append id [first] rest
    rw [hcons]
    rcases List.mem_cons.1 ho with rfl | ho
    · rw [List.filterMap_cons_some hid, List.nodup_cons] at once
      have hrest : ∀ o' ∈ rest, o'.id? ≠ some id := fun o' ho' hid' =>
        once.1 (List.mem_filterMap.2 ⟨o', ho', hid'⟩)
      rw [valuesOf_eq_nil hrest]
      simp [valuesOf, hid]
    · have hfirst : first.id? ≠ some id := by
        intro heq
        rw [List.filterMap_cons_some heq, List.nodup_cons] at once
        exact once.1 (List.mem_filterMap.2 ⟨o, ho, hid⟩)
      have honce : (rest.filterMap Occurrence.id?).Nodup :=
        once.sublist ((List.sublist_cons_self first rest).filterMap _)
      rw [ih honce ho, valuesOf_eq_nil fun o' ho' => by rwa [List.mem_singleton.1 ho']]
      rfl

/-- After a write of a document in which every entity occurs once, all of them are fresh. -/
theorem Written.fresh (h : Written c owners kinds T d s s' key)
    (once : ((occurrences c d T [idOf T key]).filterMap Occurrence.id?).Nodup) :
    ∀ o ∈ occurrences c d T [idOf T key], FreshIn s' o := by
  intro o ho
  obtain ⟨id, hid⟩ := Option.isSome_iff_exists.1 (h.inside o ho)
  have hother : id ≠ idOf T key := by
    rintro rfl
    exact id?_ne_of_mem_path d ho List.mem_cons_self hid
  have hrefreshed := h.stores.others id hother
  rw [valuesOf_of_nodup once ho hid] at hrefreshed
  obtain ⟨row, hrow, hagrees⟩ := hrefreshed.last o.value rfl
  exact ⟨id, row, hid, hrow, hagrees⟩

/-- What another write of a document comes to: its row gets the next version, and no other
row is touched. One event tells of it. -/
structure Repeats (T : EntityType) (d key : Value) (s s' : Store) : Prop where
  itself : ∃ version, s.rowAt (idOf T key) = some ⟨d, version⟩ ∧
    s'.rowAt (idOf T key) = some ⟨d, version + 1⟩ ∧
    s'.journal = s.journal.push (.updated T.name d d (version + 1))
  others : ∀ id, id ≠ idOf T key → s'.rowAt id = s.rowAt id

/-- Alone, the plan of the next write does just that. -/
theorem Written.alone_plan (names : ∀ S ∈ c.types, owners S.name = S)
    (h : Written c owners kinds T d s s' key) (fits : AllFit c kinds T d)
    (once : ((occurrences c d T [idOf T key]).filterMap Occurrence.id?).Nodup) :
    ∃ s'', (plan c T d .upsert).alone s' = (.ok d, s'') ∧ Repeats T d key s' s'' := by
  obtain ⟨version, hrow, -⟩ := h.stores.itself
  have hchange : WriteMode.upsert.change T d s' = .ok _ := upsert_of_row h.keyed hrow h.free
  refine ⟨_, ?_, ⟨version, hrow, Store.rowAt_put_self .., rfl⟩,
    fun id hid => Store.rowAt_put_of_ne s' hid ..⟩
  have hput : (writeEntity planned T d .upsert).run.alone s' = _ :=
    StoreCall.run_write_ok hchange
  have hrequire : (liftM (T.requireKey d) : ExceptT Failure Plan Value).run.alone s' =
      (.ok key, s') := by
    rw [EntityType.requireKey_of_keyOf? h.keyed]
    rfl
  have hrows : ∀ id ∈ [idOf T key], (s'.rowAt id).isSome = true := by
    intro id hid
    rw [List.mem_singleton.1 hid, hrow]
    rfl
  unfold plan write
  rw [Plan.alone_bind_ok hrequire]
  split
  · exact hput
  · have hcheck : (checkStored planned T key .upsert).run.alone s' = (.ok (), s') := rfl
    rw [Plan.alone_bind_ok hcheck, Plan.alone_bind_ok (alone_resolver names h.ofKinds d fits _ hrows
      (h.fresh once) [])]
    exact hput

/-- After a reference-first write that succeeds while nobody else writes, whatever the
catalogue, the store and the document, if all keys are of the kinds of their types and no
entity occurs twice inside the document: an upsert of the same document comes to its end and
succeeds, if the store has no declarations and nobody else writes. All that it does is an
update of the document itself. -/
theorem repeated_write (owners : Owners) (kinds : String → KeyKind) (writes : List Write)
    (T : EntityType) (d v : Value) (mode : WriteMode) (w w' : World)
    (names : ∀ S ∈ w.catalog.types, owners S.name = S) (mem : T ∈ w.catalog.types)
    (owned : ∀ x ∈ writes, x.OwnedBy owners) (reached : w.store = Store.afterAll {} writes)
    (stored : ∀ S ∈ w.catalog.types, ∀ key row, w.store.row? S key = some row →
      (kinds S.name).Allows (S.keyIn row.value))
    (fits : AllFit w.catalog kinds T d)
    (once : ∀ key, T.keyOf? d = some key →
      ((occurrences w.catalog d T [idOf T key]).filterMap Occurrence.id?).Nodup)
    (written : Goes Idle (request T d mode) w (.done (.ok v)) w')
    (unused : w'.schemaUse = .unused) :
    ∃ key, T.keyOf? d = some key ∧
      (request T d .upsert).Finishes Undisturbed
        (fun result w'' => result = .ok d ∧ Repeats T d key w'.store w''.store) w' := by
  have hs := OfKinds.of_reached owned reached stored
  obtain ⟨⟨key, hwritten⟩, hcatalog⟩ :=
    of_written mem (gives_written names mem fits mode hs) written
  obtain ⟨s'', hplan, hrepeats⟩ := hwritten.alone_plan names fits (once key hwritten.keyed)
  refine ⟨key, hwritten.keyed, ?_⟩
  rw [← hcatalog] at mem hplan
  refine (finishes_as_planned mem unused hplan).mono fun result w'' hend => ?_
  exact ⟨hend.1, hend.2.symm ▸ hrepeats⟩

/-- Once the two friends are stored, storing them again updates the first one only. -/
theorem friends_stored_again : ∃ v w', Goes Idle (request person friends .insert) acquainted
      (.done (.ok v)) w' ∧
    (request person friends .upsert).Finishes Undisturbed (fun result w'' =>
      result = .ok friends ∧ w''.store.rowAt ("Person", "2") = w'.store.rowAt ("Person", "2")) w' := by
  obtain ⟨v, w', halone, hunused⟩ := friends_succeed
  have hgoes : Goes Idle (request person friends .insert) acquainted (.done (.ok v)) w' :=
    Job.goes_of_alone halone
  have honce : ∀ key, person.keyOf? friends = some key →
      ((occurrences people friends person [idOf person key]).filterMap Occurrence.id?).Nodup := by
    intro key hkey
    obtain rfl : key = .int 1 := (Option.some.inj hkey).symm
    decide +kernel
  obtain ⟨key, hkey, hfinishes⟩ := repeated_write (fun _ => person) (fun _ => .integer)
    [.insert person (.object [("id", .int 2), ("name", .text "Bo")])] person friends v .insert
    acquainted w' (fun S hS => (List.mem_singleton.1 hS).symm) List.mem_cons_self
    (fun x hx => by rw [List.mem_singleton.1 hx]; rfl) rfl acquainted_keys friends_fit honce hgoes
    hunused
  obtain rfl : key = .int 1 := (Option.some.inj hkey).symm
  refine ⟨v, w', hgoes, hfinishes.mono fun result w'' hend => ⟨hend.1, ?_⟩⟩
  exact hend.2.others ("Person", "2") (by decide)

end References

end LiveRecords

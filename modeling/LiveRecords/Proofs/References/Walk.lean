import LiveRecords.Proofs.References.Occurrences
import LiveRecords.Proofs.References.Undisturbed

/-
  What the walk along the references of a document does to the store.

  When the walk leaves an entity, it refreshes its row with what occurs there: a row that
  agrees with the occurrence is left alone, and any other one takes what the occurrence
  carries. By induction on the document, that is all that happens to the rows of entities
  that the walk is not inside of (`resolver_walks`). The rows of those stay as they are,
  but a stub may come where there was none.
-/

namespace LiveRecords

open Plan (Gives)

namespace Store

/-- The row of an entity. -/
def rowAt (s : Store) (id : EntityId) : Option Row := (s.table id.1).rows.get? id.2

theorem rowAt_put_self (s : Store) (T : EntityType) (key entity : Value) (version : Nat)
    (e : StoreEvent) :
    (s.commit T.name ((s.table T.name).store key.keyText entity version) e).rowAt
      (References.idOf T key) = some ⟨entity, version⟩ :=
  References.get?_put s T.name key.keyText entity version e

theorem rowAt_put_of_ne (s : Store) {T : EntityType} {key : Value} {id : EntityId}
    (h : id ≠ References.idOf T key) (entity : Value) (version : Nat) (e : StoreEvent) :
    (s.commit T.name ((s.table T.name).store key.keyText entity version) e).rowAt id =
      s.rowAt id :=
  (References.sameAt_put s entity version e fun hsame => h (Prod.ext hsame.1 hsame.2)).1

end Store

namespace References

variable {c : Catalog}

/-! ## Keys of one kind -/

/-- The keys of the stored entities are of the kinds of their types. -/
structure OfKinds (c : Catalog) (owners : Owners) (kinds : String → KeyKind) (s : Store) :
    Prop where
  wf : s.WellFormed owners
  kind : ∀ T ∈ c.types, ∀ key row, s.row? T key = some row →
    (kinds T.name).Allows (T.keyIn row.value)

theorem OfKinds.of_reached {owners : Owners} {kinds : String → KeyKind} {writes : List Write}
    {s : Store} (owned : ∀ x ∈ writes, x.OwnedBy owners) (reached : s = Store.afterAll {} writes)
    (stored : ∀ T ∈ c.types, ∀ key row, s.row? T key = some row →
      (kinds T.name).Allows (T.keyIn row.value)) : OfKinds c owners kinds s := by
  refine ⟨?_, stored⟩
  rw [reached]
  exact (Store.commits_afterAll owned (.empty owners)).wellFormed (.empty owners)

theorem kindred_of_allows {kind : KeyKind} {a b : Value} (ha : kind.Allows a)
    (hb : kind.Allows b) : a.Kindred b := by
  cases kind <;> cases a <;> try exact ha.elim
  all_goals cases b <;> try exact hb.elim
  · exact .texts _ _
  · exact .integers ha hb

variable {owners : Owners} {kinds : String → KeyKind} {T R : EntityType} {s s' s'' : Store}
  {path stubs : List EntityId} {u key : Value}

theorem keyIn_of_keyOf? (h : T.keyOf? u = some key) : T.keyIn u = key := by
  unfold EntityType.keyIn
  rw [h]
  rfl

/-- A look-up finds the row under the text of the key. -/
theorem OfKinds.lookup_eq (h : OfKinds c owners kinds s) (mem : T ∈ c.types)
    (own : owners T.name = T) (kind : (kinds T.name).Allows key) :
    s.lookup T key = (s.row? T key.keyText).map Row.value := by
  refine (Store.lookup_eq_iff h.wf own key).2 (Store.unambiguous_of_kindred h.wf own ?_)
  exact fun name row hrow => kindred_of_allows (h.kind T mem name row hrow) kind

theorem OfKinds.isObject (h : OfKinds c owners kinds s) (own : owners T.name = T) {key : String}
    {row : Row} (hrow : s.row? T key = some row) : row.value.isObject = true := by
  have hkeyed := (h.wf.table T.name).keyed hrow
  rw [own] at hkeyed
  obtain ⟨k, hk, -⟩ := Option.map_eq_some_iff.1 hkeyed
  obtain ⟨p, -, hget, hvalue⟩ := EntityType.keyOf?_eq_some.1 hk
  exact Value.isObject_of_field (hget ▸ hvalue)

theorem OfKinds.put (h : OfKinds c owners kinds s) (own : owners T.name = T)
    (names : ∀ S ∈ c.types, owners S.name = S) (keyed : T.keyOf? u = some key)
    (kind : (kinds T.name).Allows key) (version : Nat) (e : StoreEvent) :
    OfKinds c owners kinds
      (s.commit T.name ((s.table T.name).store key.keyText u version) e) where
  wf := by
    refine h.wf.commit ((h.wf.table T.name).store ?_ version) e
    rw [own]
    exact EntityType.keyTextOf?_of_keyOf? keyed
  kind S hS other row hrow := by
    by_cases hsame : (S.name, other) = idOf T key
    · -- the document that was put; its type is the only one of the name
      obtain ⟨hname, rfl⟩ := Prod.mk.inj hsame
      obtain rfl : S = T := by rw [← names S hS, hname, own]
      obtain rfl := Option.some.inj ((Store.rowAt_put_self s S key u version e).symm.trans hrow)
      rw [keyIn_of_keyOf? keyed]
      exact kind
    · exact h.kind S hS other row ((Store.rowAt_put_of_ne s hsame ..).symm.trans hrow)

/-! ## Walks -/

/-- What a walk does to the rows: those of the entities that it is not inside of are
refreshed with what occurs of them, and those of the others stay. -/
structure Walked (path : List EntityId) (occs : List Occurrence) (s s' : Store) : Prop where
  keyed : ∀ o ∈ occs, o.id?.isSome = true
  off : ∀ id, id ∉ path → Refreshed (valuesOf id occs) (s.rowAt id) (s'.rowAt id)
  on : ∀ id ∈ path, ∀ row, s.rowAt id = some row → s'.rowAt id = some row

/-- Following some references walks along them, whatever stubs there are. -/
def Walks (c : Catalog) (owners : Owners) (kinds : String → KeyKind) (path : List EntityId)
    (occs : List Occurrence)
    (resolve : List EntityId → ExceptT Failure Plan (List EntityId)) : Prop :=
  ∀ stubs s, OfKinds c owners kinds s →
    Gives (fun _ s' => OfKinds c owners kinds s' ∧ Walked path occs s s') (resolve stubs) s

theorem Walked.refl (path : List EntityId) (s : Store) : Walked path [] s s where
  keyed _ h := by cases h
  off _ _ := .refl _
  on _ _ _ h := h

theorem Walked.append {occs occs' : List Occurrence} (h : Walked path occs s s')
    (h' : Walked path occs' s' s'') : Walked path (occs ++ occs') s s'' where
  keyed o ho := (List.mem_append.1 ho).elim (h.keyed o) (h'.keyed o)
  off id hid := by
    rw [valuesOf_append]
    exact (h.off id hid).append (h'.off id hid)
  on id hid row hrow := h'.on id hid row (h.on id hid row hrow)

/-- The walk through an entity, followed by the refreshing of its row, as a walk on the path
that leads to the entity. -/
theorem Walked.refreshed {occs : List Occurrence} (h : Walked (idOf T key :: path) occs s s')
    (keyed : T.keyOf? u = some key) (off : ∀ o ∈ occs, ∀ id ∈ idOf T key :: path, o.id? ≠ some id)
    (hpath : idOf T key ∉ path)
    (row : Refreshed [u] (s'.rowAt (idOf T key)) (s''.rowAt (idOf T key)))
    (others : ∀ id, id ≠ idOf T key → s''.rowAt id = s'.rowAt id) :
    Walked path (occs ++ [⟨T, u⟩]) s s'' := by
  have hid : (Occurrence.mk T u).id? = some (idOf T key) := by
    simp [Occurrence.id?, keyed]
  constructor
  · intro o ho
    rcases List.mem_append.1 ho with ho | ho
    · exact h.keyed o ho
    · rw [List.mem_singleton.1 ho, hid]
      rfl
  · intro id hout
    rw [valuesOf_append]
    by_cases hsame : id = idOf T key
    · subst hsame
      have hself : valuesOf (idOf T key) [⟨T, u⟩] = [u] := by
        simp [valuesOf, hid]
      rw [valuesOf_eq_nil fun o ho => off o ho _ List.mem_cons_self, List.nil_append, hself]
      exact row.of_created (h.on _ List.mem_cons_self)
    · have hnone : valuesOf id [⟨T, u⟩] = [] := by
        refine valuesOf_eq_nil fun o ho => ?_
        rw [List.mem_singleton.1 ho, hid]
        exact fun heq => hsame (Option.some.inj heq).symm
      rw [hnone, List.append_nil, others id hsame]
      exact h.off id fun hin => (List.mem_cons.1 hin).elim hsame hout
  · intro id hin before hbefore
    have hother : id ≠ idOf T key := fun heq => hpath (heq ▸ hin)
    rw [others id hother]
    exact h.on id (List.mem_cons_of_mem _ hin) before hbefore

theorem foldlM_walks {ps : List Property}
    {step : List EntityId → Property → ExceptT Failure Plan (List EntityId)}
    {occs : Property → List Occurrence}
    (hstep : ∀ p ∈ ps, Walks c owners kinds path (occs p) fun stubs => step stubs p) :
    Walks c owners kinds path (ps.flatMap occs) fun stubs => ps.foldlM step stubs := by
  induction ps with
  | nil => exact fun stubs s hs => Gives.pure ⟨hs, .refl path s⟩
  | cons p rest ih =>
    intro stubs s hs
    dsimp only
    rw [List.foldlM_cons, List.flatMap_cons]
    refine Gives.bind (hstep p List.mem_cons_self stubs s hs) fun stubs₁ s₁ hend => ?_
    obtain ⟨hs₁, hfirst⟩ := hend
    refine (ih (fun q hq => hstep q (List.mem_cons_of_mem _ hq)) stubs₁ s₁ hs₁).mono ?_
    exact fun _ s' hend => ⟨hend.1, hfirst.append hend.2⟩

section Steps

variable (names : ∀ S ∈ c.types, owners S.name = S)

include names

/-! ## Calls -/

/-- What is found under a key is the document of its row. -/
theorem gives_row (h : OfKinds c owners kinds s) (mem : T ∈ c.types)
    (kind : (kinds T.name).Allows key) :
    Gives (fun found s' => s' = s ∧ found = (s.rowAt (idOf T key)).map Row.value)
      (planned.find T key) s := by
  refine Gives.one (.find T key) fun found s' hrun => ?_
  obtain ⟨hanswer, rfl⟩ := Prod.mk.inj hrun
  refine ⟨rfl, ?_⟩
  cases hq : Query.byKey T key with
  | error e =>
    rw [hq] at hanswer
    cases hanswer
  | ok q =>
    rw [hq] at hanswer
    rw [← Except.ok.inj hanswer]
    exact h.lookup_eq mem (names T mem) kind

/-- A document that is written is the row of its entity, and no other row is touched. -/
theorem gives_put (h : OfKinds c owners kinds s) (mem : T ∈ c.types)
    (keyed : T.keyOf? u = some key) (kind : (kinds T.name).Allows key) (mode : WriteMode) :
    Gives (fun _ s' => OfKinds c owners kinds s' ∧
        (∃ version, s'.rowAt (idOf T key) = some ⟨u, version⟩) ∧
        ∀ id, id ≠ idOf T key → s'.rowAt id = s.rowAt id)
      (writeEntity planned T u mode) s := by
  refine (Plan.gives_change u mode).mono fun _ s' hend => ?_
  obtain ⟨text, version, e, htext, rfl⟩ := mode.puts T u s s' hend.2
  obtain rfl : key.keyText = text :=
    Option.some.inj ((EntityType.keyTextOf?_of_keyOf? keyed).symm.trans htext)
  refine ⟨h.put (names T mem) names keyed kind version e, ⟨version, ?_⟩, fun id hid => ?_⟩
  · exact Store.rowAt_put_self ..
  · exact Store.rowAt_put_of_ne s hid ..

/-! ## One reference -/

/-- A reference back leaves everything as it is, but for a stub where there was no row. -/
theorem closeCycle_walks (mem : T ∈ c.types) (keyed : T.keyOf? u = some key)
    (kind : (kinds T.name).Allows key) (inside : idOf T key ∈ path) :
    Walks c owners kinds path [] (closeCycle planned T key) := by
  intro stubs s hs
  have hsame : OfKinds c owners kinds s ∧ Walked path [] s s := ⟨hs, .refl path s⟩
  unfold closeCycle
  dsimp only
  split
  · exact Gives.pure hsame
  refine (gives_row names hs mem kind).bind ?_
  rintro found s ⟨rfl, hfound⟩
  cases found with
  | some stored => exact Gives.pure hsame
  | none =>
    have habsent : s.rowAt (idOf T key) = none := Option.map_eq_none_iff.1 hfound.symm
    have hstub := gives_put names hs mem (keyOf?_keyStub keyed) kind .insert
    refine Gives.bind (Gives.discard (Gives.adapt hstub)) ?_
    rintro _ s' ⟨_, hs', _, hothers⟩
    refine Gives.pure ⟨hs', ⟨fun _ h => (by cases h), fun id hid => ?_, fun id _ row hrow => ?_⟩⟩
    · rw [hothers id fun h => hid (h ▸ inside)]
      exact .refl _
    · have hother : id ≠ idOf T key := by
        rintro rfl
        rw [habsent] at hrow
        cases hrow
      exact (hothers id hother).trans hrow

/-- A reference that is followed to its end refreshes the row of its entity, and touches no
other one. -/
theorem gives_refreshed (h : OfKinds c owners kinds s) (mem : T ∈ c.types)
    (keyed : T.keyOf? u = some key) (fits : FitsKind kinds T u) :
    Gives (fun _ s' => OfKinds c owners kinds s' ∧
        Refreshed [u] (s.rowAt (idOf T key)) (s'.rowAt (idOf T key)) ∧
        ∀ id, id ≠ idOf T key → s'.rowAt id = s.rowAt id)
      (refresh planned T key u) s := by
  have hkind := fits.key key keyed
  unfold refresh
  refine (gives_row names h mem hkind).bind ?_
  rintro found s ⟨rfl, hfound⟩
  cases found with
  | none =>
    refine (Gives.discard (gives_put names h mem keyed hkind .insert)).mono ?_
    rintro _ s' ⟨_, hs', ⟨version, hrow⟩, hothers⟩
    refine ⟨hs', ?_, hothers⟩
    rw [hrow, Option.map_eq_none_iff.1 hfound.symm]
    exact .created u version
  | some stored =>
    obtain ⟨row, hrow, rfl⟩ := Option.map_eq_some_iff.1 hfound.symm
    rw [hrow]
    dsimp only
    cases hmerged : refreshed? row.value u with
    | none =>
      refine Gives.pure ⟨h, ?_, fun _ _ => rfl⟩
      rw [hrow]
      have hobject := h.isObject (names T mem) hrow
      exact .agreed ((refreshed?_eq_none_iff hobject fits.ascending).1 hmerged)
    | some merged =>
      have hmergedKey : T.keyOf? merged = some key :=
        keyOf?_of_carried keyed fun _ => get_refreshed_of_carried hmerged fits.ascending
      refine (Gives.discard (gives_put names h mem hmergedKey hkind .upsert)).mono ?_
      rintro _ s' ⟨_, hs', ⟨version, hnew⟩, hothers⟩
      refine ⟨hs', ?_, hothers⟩
      rw [hnew]
      exact .overlaid hmerged fits.ascending version

/-! ## All references -/

theorem follow_walks (mem : T ∈ c.types) (fits : FitsKind kinds T u) {inner : Resolver Plan}
    {within : EntityType → List EntityId → List Occurrence}
    (hinner : ∀ path, Walks c owners kinds path (within T path) (inner T path))
    (off : ∀ path, ∀ o ∈ within T path, ∀ id ∈ path, o.id? ≠ some id) (path : List EntityId) :
    Walks c owners kinds path (occurrencesOf within T u path) (follow planned inner T u path) := by
  intro stubs s hs
  unfold follow
  refine (Gives.outcome (T.requireKey u) s).bind ?_
  rintro key s ⟨rfl, hrequire⟩
  have hkey := keyOf?_of_requireKey hrequire
  unfold occurrencesOf
  rw [hkey]
  dsimp only
  split
  · next hin =>
    exact closeCycle_walks names mem hkey (fits.key key hkey) (List.contains_iff_mem.1 hin) stubs s
      hs
  · next hpath =>
    refine Gives.bind (hinner _ stubs s hs) fun stubs' s₁ hend => ?_
    obtain ⟨hs₁, hwalked⟩ := hend
    refine Gives.bind (gives_refreshed names hs₁ mem hkey fits) fun _ s₂ hend => ?_
    obtain ⟨hs₂, hrow, hothers⟩ := hend
    refine Gives.pure ⟨hs₂, hwalked.refreshed hkey (off _) (fun hin => ?_) hrow hothers⟩
    exact hpath (List.contains_iff_mem.2 hin)

theorem followProperty_walks {p : Property} {value : Value} (S : EntityType)
    (fits : ∀ R, c.referenced? p = some R → value.isObject = true → AllFit c kinds R value)
    {inner : Resolver Plan}
    (hinner : ∀ R, AllFit c kinds R value → ∀ path,
      Walks c owners kinds path (occurrences c value R path) (inner R path))
    (path : List EntityId) :
    Walks c owners kinds path (occurrencesAt c (occurrences c value) p value path)
      (followProperty planned c inner S p value path) := by
  intro stubs s hs
  cases Route.of c p value with
  | nowhere plain =>
    rw [followProperty_nowhere plain, occurrencesAt_nowhere plain]
    exact Gives.pure ⟨hs, .refl path s⟩
  | inside R target object embedded =>
    rw [followProperty_inside target object embedded, occurrencesAt_inside target object embedded]
    exact Gives.adapt (hinner R (fits R target object) path stubs s hs)
  | across R target object keyed =>
    rw [followProperty_across target object keyed, occurrencesAt_across target object keyed]
    have hfits := fits R target object
    have hmem := Catalog.mem_of_referenced target keyed
    exact Gives.adapt (follow_walks names hmem (hfits R value .here) (hinner R hfits)
      (fun path o ho id hid => id?_ne_of_mem_path value ho hid) path stubs s hs)

/-- Resolving a document walks along all that it leads to. -/
theorem resolver_walks (d : Value) {T : EntityType} (fits : AllFit c kinds T d)
    (path : List EntityId) :
    Walks c owners kinds path (occurrences c d T path) (resolver planned c d T path) := by
  induction d using Value.fields_induction generalizing T path with
  | object fields ih =>
    intro stubs s hs
    rw [resolver_object, occurrences_object]
    refine foldlM_walks (fun p hp => ?_) stubs s hs
    exact followProperty_walks names T (fun R => fits.inside hp)
      (fun R hR path => ih p.name hR path) path
  | other v hobject =>
    intro stubs s hs
    rw [resolver_of_not_object hobject, occurrences_of_not_object hobject]
    exact Gives.pure ⟨hs, .refl path s⟩

end Steps

end References

end LiveRecords

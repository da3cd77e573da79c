import LiveRecords.Proofs.References.Backing
import LiveRecords.Proofs.References.Overlay

/-
  A reference-first writer keeps the store integral.

  Resolving a document leaves a row for everything that the document refers to
  (`resolver_resolves`): by induction on the document, since what a reference holds is
  a part of it. A reference that is followed is settled before its entity is written,
  and one that closes a cycle finds its target or leaves a stub, which refers to
  nothing. So whatever the writer commits refers only to entities that are there
  (`gives_referencesWrite`).
-/

namespace LiveRecords

open Job (Terms)
open Work (Gives)

/-! ## Documents that fit -/

/-- What a document holds as an entity of some type: itself, and what stands at the
entity properties of what it holds. -/
inductive Holds (c : Catalog) : EntityType → Value → EntityType → Value → Prop where
  | here {T : EntityType} {d : Value} : Holds c T d T d
  | inside {T R S : EntityType} {d u : Value} {p : Property} (mem : p ∈ T.properties)
      (target : c.referenced? p = some R) (object : (p.get d).isObject = true)
      (h : Holds c R (p.get d) S u) : Holds c T d S u

/-- An entity has a key of the right kind, if it has one, and each field once. -/
structure FitsKind (kinds : String → KeyKind) (T : EntityType) (d : Value) : Prop where
  key : ∀ k, T.keyOf? d = some k → (kinds T.name).Allows k
  ascending : ∀ fields, d = .object fields → Keyed.Ascending fields

/-- Everything that a document holds as an entity fits its type. -/
def AllFit (c : Catalog) (kinds : String → KeyKind) (T : EntityType) (d : Value) : Prop :=
  ∀ S u, Holds c T d S u → FitsKind kinds S u

theorem AllFit.inside {c : Catalog} {kinds : String → KeyKind} {T R : EntityType} {d : Value}
    {p : Property} (h : AllFit c kinds T d) (mem : p ∈ T.properties)
    (target : c.referenced? p = some R) (object : (p.get d).isObject = true) :
    AllFit c kinds R (p.get d) :=
  fun S u hin => h S u (.inside mem target object hin)

/-! ## Steps of the writer -/

variable {c : Catalog} {kinds : String → KeyKind}

theorem Idle.kept {w w' : World} (h : Idle w w') (hw : Integral c kinds w.store) :
    Kept c kinds w w' :=
  ⟨h.1.symm ▸ hw, h.1.symm ▸ Store.Grows.refl _, h.2⟩

theorem Kept.trans {w w' w'' : World} (h : Kept c kinds w w') (h' : Kept c kinds w' w'') :
    Kept c kinds w w'' :=
  ⟨h'.integral, h.grows.trans h'.grows, h'.catalog.trans h.catalog⟩

/-- The writer over the store. -/
abbrev backing : ReferenceStore (Job World) := Handler.referenceStore Handler.ofStore

namespace References

/-- The stubs that were written are there. -/
def StubsHave (s : Store) (stubs : List EntityId) : Prop :=
  ∀ id ∈ stubs, ((s.table id.1).rows.get? id.2).isSome = true

theorem StubsHave.grows {s s' : Store} {stubs : List EntityId} (h : StubsHave s stubs)
    (hs : s.Grows s') : StubsHave s' stubs := fun id hin => hs _ _ (h id hin)

/-- What the writer has come to: the store is integral and has all stubs, and what it
was about to settle is settled. -/
def Settled (c : Catalog) (kinds : String → KeyKind) (w : World)
    (goal : EntityType → Value → Prop) (stubs : List EntityId) (w' : World) : Prop :=
  Kept c kinds w w' ∧ StubsHave w'.store stubs ∧ ∀ R u, goal R u → w'.store.Has R u

/-- Resolving, from any world on, settles what a goal says. -/
def Settles (c : Catalog) (kinds : String → KeyKind) (goal : EntityType → Value → Prop)
    (resolve : List EntityId → Work (List EntityId)) : Prop :=
  ∀ stubs w, Integral c kinds w.store → StubsHave w.store stubs →
    Gives (writing c kinds) (Settled c kinds w goal) (resolve stubs) w

theorem Settled.later {w w' w'' : World} {goal : EntityType → Value → Prop}
    {stubs : List EntityId} (h : Settled c kinds w goal stubs w') (hw : Idle w' w'') :
    Settled c kinds w goal stubs w'' := by
  obtain ⟨hkept, hstubs, hgoal⟩ := h
  refine ⟨hkept.trans (hw.kept hkept.integral), ?_, ?_⟩
  · rw [hw.1]
    exact hstubs
  · rw [hw.1]
    exact hgoal

/-- Where there is nothing to settle, nothing needs to be done. -/
theorem Settles.return {goal : EntityType → Value → Prop} (h : ∀ R u, ¬goal R u) :
    Settles c kinds goal fun stubs => return stubs := by
  intro stubs w hw hstubs
  have hnow : Settled c kinds w goal stubs w :=
    ⟨Idle.kept ⟨rfl, rfl⟩ hw, hstubs, fun R u hgoal => absurd hgoal (h R u)⟩
  exact Gives.pure fun w' hw' => hnow.later hw'

theorem Settles.mono {goal goal' : EntityType → Value → Prop}
    {resolve : List EntityId → Work (List EntityId)} (h : Settles c kinds goal resolve)
    (hgoal : ∀ R u, goal' R u → goal R u) : Settles c kinds goal' resolve :=
  fun stubs w hw hstubs => (h stubs w hw hstubs).mono fun _ _ hsettled =>
    ⟨hsettled.1, hsettled.2.1, fun R u hg => hsettled.2.2 R u (hgoal R u hg)⟩

theorem writeEntity_eq (T : EntityType) (d : Value) (mode : WriteMode) :
    writeEntity backing T d mode = Backend.write T d (mode.change T d) := by
  cases mode <;> rfl

/-- A document whose references are there is written, and then has a row. -/
theorem gives_writeEntity {T : EntityType} {d : Value} {w : World} (mode : WriteMode)
    (mem : T ∈ c.types) (kind : ∀ k, T.keyOf? d = some k → (kinds T.name).Allows k)
    (hw : Integral c kinds w.store) (refers : ∀ R u, Refers c T d R u → w.store.Has R u) :
    Gives (writing c kinds) (fun _ w' => Kept c kinds w w' ∧ w'.store.Has T d)
      (writeEntity backing T d mode) w := by
  rw [writeEntity_eq]
  exact gives_write (mode.puts T d) mem kind refers hw

/-! ## Stubs -/

theorem keyOf?_keyStub {T : EntityType} {d key : Value} (h : T.keyOf? d = some key) :
    T.keyOf? (T.keyStub key) = some key := by
  obtain ⟨p, hp, _, hnull⟩ := EntityType.keyOf?_eq_some.1 h
  refine EntityType.keyOf?_eq_some.2 ⟨p, hp, ?_, hnull⟩
  unfold EntityType.keyStub
  rw [hp]
  show ((Keyed.get? p.name (Keyed.put p.name key [])).getD .null) = key
  rw [Keyed.get?_put_self]
  rfl

/-- A stub has nothing but the key, which is no entity, so it refers to nothing. -/
theorem not_refers_keyStub {T R : EntityType} {key u : Value} (hkey : key.isObject = false) :
    ¬Refers c T (T.keyStub key) R u := by
  intro h
  obtain ⟨p, _, hby⟩ := h
  have hobject := hby.isObject
  have hget : p.get (T.keyStub key) = key ∨ p.get (T.keyStub key) = .null := by
    unfold EntityType.keyStub
    cases T.key? with
    | none => exact .inr rfl
    | some k =>
      show (Keyed.get? p.name (Keyed.put k.name key [])).getD .null = key ∨
        (Keyed.get? p.name (Keyed.put k.name key [])).getD .null = .null
      rw [Keyed.get?_put]
      split
      · exact .inl rfl
      · exact .inr rfl
  rcases hget with heq | heq
  · rw [heq, hkey] at hobject
    cases hobject
  · rw [heq] at hobject
    cases hobject

/-- A stub that is written is a row under the key of its target. -/
theorem gives_stub {T : EntityType} (mem : T ∈ c.types) {d key : Value}
    (hkey : T.keyOf? d = some key) (kind : (kinds T.name).Allows key) {w : World}
    (hw : Integral c kinds w.store) :
    Gives (writing c kinds)
      (fun _ w' => Kept c kinds w w' ∧
        ((w'.store.table T.name).rows.get? key.keyText).isSome = true)
      (writeEntity backing T (T.keyStub key) .insert) w := by
  have hstub := keyOf?_keyStub hkey
  have hallows : ∀ k, T.keyOf? (T.keyStub key) = some k → (kinds T.name).Allows k := by
    intro k hk
    obtain rfl := Option.some.inj (hstub.symm.trans hk)
    exact kind
  refine (gives_writeEntity .insert mem hallows hw fun R u hr =>
    absurd hr (not_refers_keyStub kind.not_object)).mono ?_
  intro _ w' hend
  obtain ⟨hkept, text, htext, hrow⟩ := hend
  obtain rfl : key.keyText = text :=
    Option.some.inj ((EntityType.keyTextOf?_of_keyOf? hstub).symm.trans htext)
  exact ⟨hkept, hrow⟩

/-- Where the target has a row, the cycle is closed. -/
theorem settled_of_row {T : EntityType} {d key : Value} (hkey : T.keyOf? d = some key)
    {stubs : List EntityId} {w w' : World} (hkept : Kept c kinds w w')
    (hrow : ((w'.store.table T.name).rows.get? key.keyText).isSome = true)
    (hstubs : StubsHave w'.store stubs) :
    Settled c kinds w (fun R u => R = T ∧ u = d) stubs w' := by
  refine ⟨hkept, hstubs, ?_⟩
  intro R u hgoal
  obtain ⟨rfl, rfl⟩ := hgoal
  exact ⟨_, EntityType.keyTextOf?_of_keyOf? hkey, hrow⟩

theorem closeCycle_settles (names : (c.types.map (·.name)).Nodup) {T : EntityType}
    (mem : T ∈ c.types) {d key : Value} (hkey : T.keyOf? d = some key)
    (kind : (kinds T.name).Allows key) :
    Settles c kinds (fun R u => R = T ∧ u = d) (closeCycle backing T key) := by
  intro stubs w hw hstubs
  unfold closeCycle
  cases hstub : stubs.contains (idOf T key) with
  | true =>
    -- a stub was written before, on another way to the target
    have hrow := hstubs _ (List.contains_iff_mem.1 hstub)
    have hnow := settled_of_row hkey (Idle.kept ⟨rfl, rfl⟩ hw) hrow hstubs
    simp only [hstub, if_true]
    exact Gives.pure fun w' hw' => hnow.later hw'
  | false =>
    simp only [hstub, Bool.false_eq_true, if_false]
    refine Gives.bind (gives_find names mem kind hw) ?_
    intro found w₁ hend
    obtain ⟨hidle, hfound⟩ := hend
    have hkept := hidle.kept hw
    have hstubs₁ : StubsHave w₁.store stubs := hidle.1.symm ▸ hstubs
    cases found with
    | some stored =>
      obtain ⟨row, hrow, _⟩ := hfound stored rfl
      have hnow := settled_of_row hkey hkept (by rw [hidle.1, hrow]; rfl) hstubs₁
      exact Gives.pure fun w' hw' => hnow.later hw'
    | none =>
      refine Gives.bind (Gives.discard (Gives.adapt (gives_stub mem hkey kind hkept.integral))) ?_
      intro _ w₂ hend
      obtain ⟨_, hwrite, hrow⟩ := hend
      have hstubs₂ : StubsHave w₂.store (idOf T key :: stubs) := by
        intro id hin
        rcases List.mem_cons.1 hin with rfl | hin
        · exact hrow
        · exact hstubs₁.grows hwrite.grows id hin
      have hnow := settled_of_row hkey (hkept.trans hwrite) hrow hstubs₂
      exact Gives.pure fun w' hw' => hnow.later hw'

/-! ## Refreshing -/

/-- A key that a refreshed document has is that of the reference or the stored one. -/
theorem keyOf?_refreshed {T : EntityType} {stored reference merged k : Value}
    (hget : ∀ name, merged.get name = reference.get name ∨ merged.get name = stored.get name)
    (hk : T.keyOf? merged = some k) :
    T.keyOf? reference = some k ∨ T.keyOf? stored = some k := by
  obtain ⟨p, hp, hpk, hnull⟩ := EntityType.keyOf?_eq_some.1 hk
  have hp' : p.get merged = p.get reference ∨ p.get merged = p.get stored := hget p.name
  rcases hp' with heq | heq
  · exact .inl (EntityType.keyOf?_eq_some.2 ⟨p, hp, heq ▸ hpk, hnull⟩)
  · exact .inr (EntityType.keyOf?_eq_some.2 ⟨p, hp, heq ▸ hpk, hnull⟩)

/-- A stored document that takes what a reference carries still has a key of the right kind,
and refers only to what is there. -/
theorem allowed_refreshed {s : Store} {T : EntityType} {key : String}
    {stored reference merged : Value} (hold : Integral.Row c kinds s T key stored)
    (hmerged : refreshed? stored reference = some merged) (fits : FitsKind kinds T reference)
    (refers : ∀ R u, Refers c T reference R u → s.Has R u) :
    (∀ k, T.keyOf? merged = some k → (kinds T.name).Allows k) ∧
      ∀ R u, Refers c T merged R u → s.Has R u := by
  have hget : ∀ name, merged.get name = reference.get name ∨
      merged.get name = stored.get name := by
    intro name
    rw [get_refreshed hmerged fits.ascending]
    split
    · exact .inr rfl
    · exact .inl rfl
  constructor
  · intro k hk
    rcases keyOf?_refreshed hget hk with hreference | hstored
    · exact fits.key k hreference
    · exact hold.kind k hstored
  · intro R u hr
    rcases hr.of_overlay hget with hr | hr
    · exact refers R u hr
    · exact hold.refers R u hr

theorem gives_refresh (names : (c.types.map (·.name)).Nodup) {T : EntityType} (mem : T ∈ c.types)
    {reference key : Value} {w : World} (hkey : T.keyOf? reference = some key)
    (fits : FitsKind kinds T reference) (hw : Integral c kinds w.store)
    (refers : ∀ R u, Refers c T reference R u → w.store.Has R u) :
    Gives (writing c kinds) (fun _ w' => Kept c kinds w w' ∧ w'.store.Has T reference)
      (refresh backing T key reference) w := by
  have htext := EntityType.keyTextOf?_of_keyOf? hkey
  unfold refresh
  refine Gives.bind (gives_find names mem (fits.key key hkey) hw) ?_
  intro found w₁ hend
  obtain ⟨hidle, hfound⟩ := hend
  have hkept := hidle.kept hw
  have hrefers : ∀ R u, Refers c T reference R u → w₁.store.Has R u := by
    rw [hidle.1]
    exact refers
  cases found with
  | none =>
    refine (Gives.discard (gives_writeEntity .insert mem fits.key hkept.integral
      hrefers)).mono ?_
    intro _ w' hend
    obtain ⟨_, hwrite, hhas⟩ := hend
    exact ⟨hkept.trans hwrite, hhas⟩
  | some stored =>
    obtain ⟨row, hrow, rfl⟩ := hfound stored rfl
    have hhas : w₁.store.Has T reference := ⟨key.keyText, htext, by rw [hidle.1, hrow]; rfl⟩
    cases hmerged : refreshed? row.value reference with
    | none =>
      simp only [hmerged]
      refine Gives.pure fun w' (hw' : Idle w₁ w') => ?_
      exact ⟨hkept.trans (hw'.kept hkept.integral), hw'.1.symm ▸ hhas⟩
    | some merged =>
      simp only [hmerged]
      obtain ⟨hallows, hrefers'⟩ := allowed_refreshed (hw.row_of_mem names mem hrow) hmerged fits
        refers
      rw [← hidle.1] at hrefers'
      refine (Gives.discard (gives_writeEntity .upsert mem hallows hkept.integral
        hrefers')).mono ?_
      intro _ w' hend
      obtain ⟨_, hwrite, _⟩ := hend
      exact ⟨hkept.trans hwrite, hhas.grows hwrite.grows⟩

/-! ## Following -/

theorem keyOf?_of_requireKey {T : EntityType} {d key : Value} (h : T.requireKey d = .ok key) :
    T.keyOf? d = some key := by
  unfold EntityType.requireKey at h
  split at h
  · cases h
  · cases hkey : T.keyOf? d with
    | none =>
      rw [hkey] at h
      cases h
    | some k =>
      rw [hkey] at h
      cases h
      rfl

/-- A reference is followed to the end: what it refers to is there, and so is itself. -/
theorem follow_settles (names : (c.types.map (·.name)).Nodup) {T : EntityType} (mem : T ∈ c.types)
    {reference : Value} (fits : FitsKind kinds T reference) {inner : Resolver (Job World)}
    (hinner : ∀ path, Settles c kinds (Refers c T reference) (inner T path))
    (path : List EntityId) :
    Settles c kinds (fun R u => R = T ∧ u = reference) (follow backing inner T reference path) := by
  intro stubs w hw hstubs
  unfold follow
  refine (Gives.outcome _ (T.requireKey reference) w).bind ?_
  intro key w₁ hend
  obtain ⟨hidle, hrequire⟩ := hend
  have hkey := keyOf?_of_requireKey hrequire
  have hkept := Idle.kept hidle hw
  have hstubs₁ : StubsHave w₁.store stubs := hidle.1.symm ▸ hstubs
  cases hpath : path.contains (idOf T key) with
  | true =>
    -- the entity is already on the way, so it is not followed again
    simp only [hpath, if_true]
    refine (closeCycle_settles names mem hkey (fits.key key hkey) stubs w₁ hkept.integral
      hstubs₁).mono ?_
    exact fun _ _ hsettled => ⟨hkept.trans hsettled.1, hsettled.2⟩
  | false =>
    simp only [hpath, Bool.false_eq_true, if_false]
    refine Gives.bind (hinner (idOf T key :: path) stubs w₁ hkept.integral hstubs₁) ?_
    intro stubs' w₂ hend
    obtain ⟨hkept₂, hstubs₂, hrefers⟩ := hend
    refine Gives.bind (gives_refresh names mem hkey fits hkept₂.integral hrefers) ?_
    intro _ w₃ hend
    obtain ⟨hkept₃, hhas⟩ := hend
    have hnow : Settled c kinds w (fun R u => R = T ∧ u = reference) stubs' w₃ := by
      refine ⟨(hkept.trans hkept₂).trans hkept₃, hstubs₂.grows hkept₃.grows, ?_⟩
      intro R u hgoal
      obtain ⟨rfl, rfl⟩ := hgoal
      exact hhas
    exact Gives.pure fun w' hw' => hnow.later hw'

theorem Settles.adapt {goal : EntityType → Value → Prop} {change : Failure → Failure}
    {resolve : List EntityId → Work (List EntityId)} (h : Settles c kinds goal resolve) :
    Settles c kinds goal fun stubs => ExceptT.adapt change (resolve stubs) :=
  fun stubs w hw hstubs => Gives.adapt (h stubs w hw hstubs)

/-- Following a property settles what its value refers to. -/
theorem followProperty_settles (names : (c.types.map (·.name)).Nodup) (T : EntityType)
    (p : Property) {value : Value} {inner : Resolver (Job World)}
    (fits : ∀ R, c.referenced? p = some R → value.isObject = true → AllFit c kinds R value)
    (hinner : ∀ R, AllFit c kinds R value →
      ∀ path, Settles c kinds (Refers c R value) (inner R path)) (path : List EntityId) :
    Settles c kinds (RefersBy c p value) (followProperty backing c inner T p value path) := by
  intro stubs w hw hstubs
  cases Route.of c p value with
  | nowhere plain =>
    rw [followProperty_nowhere plain]
    refine Settles.return (fun R u hby => ?_) stubs w hw hstubs
    obtain ⟨S, hS⟩ := hby.exists_target
    exact absurd hby.isObject (Bool.eq_false_iff.1 (plain S hS))
  | inside R target object embedded =>
    rw [followProperty_inside target object embedded]
    have hinside : Settles c kinds (RefersBy c p value) (inner R path) :=
      (hinner R (fits R target object) path).mono fun S u hby =>
        hby.refers_of_embedded target embedded
    exact hinside.adapt stubs w hw hstubs
  | across R target object keyed =>
    rw [followProperty_across target object keyed]
    have hfits := fits R target object
    have hmem := Catalog.mem_of_referenced target keyed
    have hfollow : Settles c kinds (RefersBy c p value) (follow backing inner R value path) :=
      (follow_settles names hmem (hfits R value .here) (hinner R hfits) path).mono
        fun S u hby => hby.eq_of_keyed target keyed
    exact hfollow.adapt stubs w hw hstubs

/-! ## Resolving -/

theorem get?_fieldResolvers {m : Type → Type} [Monad m] (store : ReferenceStore m)
    (name : String) (fields : List (String × Value)) :
    Keyed.get? name (fieldResolvers store c fields) =
      (Keyed.get? name fields).map fun value => (value, resolver store c value) := by
  induction fields with
  | nil => simp [fieldResolvers, Keyed.get?_nil]
  | cons entry rest ih =>
    obtain ⟨n, value⟩ := entry
    unfold fieldResolvers
    rw [Keyed.get?_cons, Keyed.get?_cons, ih]
    split <;> rfl

/-- An object is resolved property by property. -/
theorem resolver_object {m : Type → Type} [Monad m] (store : ReferenceStore m)
    (fields : List (String × Value)) (T : EntityType) (path stubs : List EntityId) :
    resolver store c (.object fields) T path stubs = T.properties.foldlM (fun stubs p =>
      followProperty store c (resolver store c (p.get (.object fields))) T p
        (p.get (.object fields)) path stubs) stubs := by
  conv =>
    lhs
    unfold resolver
  dsimp only
  congr 1
  funext stubs p
  have hget : p.get (.object fields) = (Keyed.get? p.name fields).getD .null := rfl
  rw [get?_fieldResolvers, hget]
  cases Keyed.get? p.name fields with
  | some value => rfl
  | none =>
    -- a property without a value is null, which is not followed
    exact (followProperty_nowhere (fun _ _ => rfl) _ T path stubs).symm

theorem resolver_of_not_object {m : Type → Type} [Monad m] {store : ReferenceStore m} {v : Value}
    (h : v.isObject = false) : resolver store c v = fun _ _ stubs => return stubs := by
  cases v with
  | object fields => cases h
  | _ => rfl

/-- Going through some properties settles what stands at each of them. -/
theorem foldlM_settles {d : Value} {ps : List Property}
    {step : List EntityId → Property → Work (List EntityId)}
    (hstep : ∀ p ∈ ps, Settles c kinds (RefersBy c p (p.get d)) fun stubs => step stubs p) :
    Settles c kinds (fun R u => ∃ p ∈ ps, RefersBy c p (p.get d) R u)
      fun stubs => ps.foldlM step stubs := by
  induction ps with
  | nil => exact .return fun R u ⟨p, hp, _⟩ => by cases hp
  | cons p rest ih =>
    intro stubs w hw hstubs
    dsimp only
    rw [List.foldlM_cons]
    -- what the first property has settled stays so while the others are followed
    refine Gives.bind (hstep p List.mem_cons_self stubs w hw hstubs) ?_
    intro stubs₁ w₁ hend
    obtain ⟨hkept₁, hstubs₁, hfirst⟩ := hend
    have hrest := ih (fun q hq => hstep q (List.mem_cons_of_mem _ hq)) stubs₁ w₁ hkept₁.integral
      hstubs₁
    refine hrest.mono ?_
    intro stubs' w' hend
    obtain ⟨hkept', hstubs', hothers⟩ := hend
    refine ⟨hkept₁.trans hkept', hstubs', ?_⟩
    intro R u hgoal
    obtain ⟨q, hq, hby⟩ := hgoal
    rcases List.mem_cons.1 hq with rfl | hq
    · exact (hfirst R u hby).grows hkept'.grows
    · exact hothers R u ⟨q, hq, hby⟩

/-- A property of what is no object is null, and refers to nothing. -/
theorem not_refers_of_not_object {T R : EntityType} {d u : Value} (h : d.isObject = false) :
    ¬Refers c T d R u := by
  intro hboth
  obtain ⟨p, _, hby⟩ := hboth
  rw [Value.isObject_of_get hby.isObject] at h
  cases h

/-- A document's resolver settles the document, as an entity of whatever type it fits. -/
def Resolves (c : Catalog) (kinds : String → KeyKind) (d : Value) : Prop :=
  ∀ T, AllFit c kinds T d → ∀ path,
    Settles c kinds (Refers c T d) (resolver backing c d T path)

theorem resolver_resolves (names : (c.types.map (·.name)).Nodup) (d : Value) :
    Resolves c kinds d := by
  induction d using Value.fields_induction with
  | object fields ih =>
    intro T hfits path stubs
    rw [resolver_object]
    refine foldlM_settles (fun p hp => ?_) stubs
    exact followProperty_settles names T p (fun R => hfits.inside hp)
      (fun R hR path => ih p.name R hR path) path
  | other v hobject =>
    intro T _ path
    rw [resolver_of_not_object hobject]
    exact .return fun _ _ => not_refers_of_not_object hobject

/-! ## Writing -/

theorem gives_checkStored (names : (c.types.map (·.name)).Nodup) {T : EntityType}
    (mem : T ∈ c.types) {key : Value} (kind : (kinds T.name).Allows key) (mode : WriteMode)
    {w : World} (hw : Integral c kinds w.store) :
    Gives (writing c kinds) (fun _ w' => Idle w w') (checkStored backing T key mode) w := by
  cases mode with
  | insert => exact Gives.pure fun w' hw' => hw'
  | upsert => exact Gives.pure fun w' hw' => hw'
  | update expected =>
    refine Gives.bind (gives_find names mem kind hw) ?_
    intro found w₁ hend
    obtain ⟨hidle, _⟩ := hend
    cases found with
    | none => exact Gives.throw _
    | some stored => exact Gives.pure fun w' hw' => hidle.trans hw'

/-- A document that fits is written with all that it refers to, and the store stays
integral with every commit on the way. -/
theorem gives_referencesWrite (names : (c.types.map (·.name)).Nodup) {T : EntityType}
    (mem : T ∈ c.types) {d : Value} (fits : AllFit c kinds T d) (mode : WriteMode) {w : World}
    (hw : Integral c kinds w.store) :
    Gives (writing c kinds) (fun _ w' => Kept c kinds w w') (write backing c T d mode) w := by
  unfold write
  refine (Gives.outcome _ (T.requireKey d) w).bind ?_
  intro key w₁ hend
  obtain ⟨hidle, hrequire⟩ := hend
  have hkept := Idle.kept hidle hw
  have hhere := fits T d .here
  split
  · next hnone =>
    refine (gives_writeEntity mode mem hhere.key hkept.integral fun R u hr => ?_).mono
      fun _ _ h => hkept.trans h.1
    -- a type that refers to nothing
    obtain ⟨p, hp, hby⟩ := hr
    obtain ⟨S, hS⟩ := hby.exists_target
    have hp' := List.all_eq_true.1 hnone p hp
    rw [hS] at hp'
    cases hp'
  · refine Gives.bind (gives_checkStored names mem
      (hhere.key key (keyOf?_of_requireKey hrequire)) mode hkept.integral) fun _ w₂ hidle₂ => ?_
    have hkept₂ := hkept.trans (hidle₂.kept hkept.integral)
    refine Gives.bind (resolver_resolves names d T fits _ [] w₂ hkept₂.integral
      fun id hin => by cases hin) ?_
    intro stubs w₃ hend
    obtain ⟨hkept₃, _, hrefers⟩ := hend
    exact (gives_writeEntity _ mem hhere.key hkept₃.integral hrefers).mono
      fun _ _ h => (hkept₂.trans hkept₃).trans h.1

end References

end LiveRecords

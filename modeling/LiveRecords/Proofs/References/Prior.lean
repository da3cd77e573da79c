import LiveRecords.Proofs.Pipeline.Clients
import LiveRecords.Proofs.References.Runs

/-
  What happens before a document is written.

  References are written one by one before the document itself, each as a write of its
  own. Until the last write every change of the store is one of a few (`Prior`): an
  entity that the document leads to is created or replaced, and in place of the document
  there is at most a stub. By induction on the document every step of the resolver is
  such a change or none (`resolver_prepares`), and the last write either succeeds or
  changes nothing (`ensures_prior`).
-/

namespace LiveRecords

open Job (Each Ensures Goes Terms)
open Work (Gives)

/-! ## Steps that write nothing -/

theorem World.idle_takeRow (rows : Rows) (w : World) : Idle w (takeRow rows w).2 := by
  unfold takeRow
  cases rows with
  | listed rows => cases rows <;> exact ⟨rfl, rfl⟩
  | piped pipe =>
    dsimp only
    split <;> exact ⟨rfl, rfl⟩

theorem World.idle_abandonRows (rows : Rows) (w : World) : Idle w (w.abandonRows rows) := by
  cases rows <;> exact ⟨rfl, rfl⟩

theorem Backend.idle_prepare (type : EntityType) : Each Idle (prepare type).run :=
  (each_prepare type).mono fun _ _ h => ⟨h.store.symm, h.catalog⟩

/-- Looking something up writes nothing. -/
theorem Handler.idle_find (T : EntityType) (key : Value) :
    Each Idle (Handler.ofStore (.find T key) : Work (Option Value)).run := by
  refine Work.each_outcome fun q _ => Work.each_bind (Work.each_outcome fun run _ => ?_)
    fun rows => ?_
  · refine Work.each_bind (Backend.idle_prepare q.entity) fun _ => ?_
    exact Work.each_bind (Work.each_read (fun _ => ⟨rfl, rfl⟩) _) fun _ => trivial
  · refine Work.each_bind (Work.each_bind (Work.each_ofJob (j := .waitFor ..) trivial)
      fun _ => Work.each_act (World.idle_takeRow rows)) fun _ => ?_
    exact Work.each_bind (Work.each_modify (World.idle_abandonRows rows)) fun _ => trivial

namespace References

/-! ## Writes before the document -/

/-- A document leads to an entity by references, one after another. -/
inductive LeadsTo (c : Catalog) : EntityType → Value → EntityType → Value → Prop where
  | last {T R : EntityType} {d u : Value} (refers : Refers c T d R u) : LeadsTo c T d R u
  | further {T R S : EntityType} {d u v : Value} (refers : Refers c T d R u)
      (rest : LeadsTo c R u S v) : LeadsTo c T d S v

/-- What is written for a reference: a stub, or a document with all that the reference
carries. -/
def WrittenFor (R : EntityType) (u entity : Value) : Prop :=
  (∃ key, entity = R.keyStub key) ∨
    ∀ name, (u.get name).isNull = false → entity.get name = u.get name

/-- A write that comes before that of a document: an entity that the document leads to is
created, just as a stub if it is the document itself, or another one is replaced. -/
inductive Prior (c : Catalog) (T : EntityType) (d : Value) (s : Store) : Store → Prop where
  | created {R : EntityType} {u entity : Value} {key : String} (leads : LeadsTo c T d R u)
      (carried : R.keyTextOf? u = some key) (written : WrittenFor R u entity)
      (absent : s.row? R key = none)
      (stub : R.name = T.name → T.keyTextOf? d = some key → ∃ k, entity = R.keyStub k) :
      Prior c T d s (s.commit R.name
        ((s.table R.name).store key entity ((s.table R.name).nextVersion key))
        (.created R.name entity ((s.table R.name).nextVersion key)))
  | replaced {R : EntityType} {u entity : Value} {key : String} {row : Row}
      (leads : LeadsTo c T d R u) (carried : R.keyTextOf? u = some key)
      (written : WrittenFor R u entity) (present : s.row? R key = some row)
      (other : ¬(R.name = T.name ∧ T.keyTextOf? d = some key)) :
      Prior c T d s (s.commit R.name ((s.table R.name).store key entity (row.version + 1))
        (.updated R.name row.value entity (row.version + 1)))

/-- What happens on the way to a document. -/
abbrev Preparing (c : Catalog) (T : EntityType) (d : Value) (w w' : World) : Prop :=
  Relation.ReflTransGen (Prior c T d) w.store w'.store ∧ w'.catalog = w.catalog

variable {c : Catalog} {T R : EntityType} {d u : Value}

theorem Preparing.of_idle {w w' : World} (h : Idle w w') : Preparing c T d w w' :=
  ⟨h.1.symm ▸ .refl, h.2⟩

/-- Whatever happens besides prepares the document, too. -/
def preparing (c : Catalog) (T : EntityType) (d : Value) : Terms World where
  rely := Preparing c T d
  guarantee _ _ := True
  rely_refl _ := ⟨.refl, rfl⟩
  rely_trans h h' := ⟨h.1.trans h'.1, h'.2.trans h.2⟩

/-! ## One reference -/

theorem keyOf?_of_carried {entity key : Value} (hkey : R.keyOf? u = some key)
    (h : ∀ name, (u.get name).isNull = false → entity.get name = u.get name) :
    R.keyOf? entity = some key := by
  obtain ⟨p, hp, hget, hnull⟩ := EntityType.keyOf?_eq_some.1 hkey
  have hvalue : (p.get u).isNull = false := by
    rw [hget]
    exact hnull
  have hsame : p.get entity = p.get u := h p.name hvalue
  exact EntityType.keyOf?_eq_some.2 ⟨p, hp, hsame.trans hget, hnull⟩

/-- A write that comes before that of the document, step by step. -/
theorem writeEntity_prepares {entity : Value} (mode : WriteMode)
    (h : ∀ s s', mode.change R entity s = .ok s' → Prior c T d s s') :
    Each (Preparing c T d) (writeEntity backing R entity mode).run := by
  rw [writeEntity_eq]
  have hidle : ∀ w w' : World, Idle w w' → Preparing c T d w w' := fun _ _ => .of_idle
  refine Work.each_bind (Work.each_discard (x := liftM (R.requireKey entity)) trivial) fun _ => ?_
  refine Work.each_bind ((Backend.idle_prepare R).mono hidle) fun _ => ?_
  refine Work.each_attempt (fun w => ⟨.refl, rfl⟩) fun w a w' hdone => ?_
  obtain ⟨s', hs', heq⟩ := Outcome.bind_ok hdone
  cases heq
  exact ⟨.single (h _ _ hs'), rfl⟩

theorem find_prepares (key : Value) :
    Each (Preparing c T d) (backing.find R key).run :=
  (Handler.idle_find R key).mono fun _ _ => .of_idle

/-- The path to a reference begins with the document. -/
def Begins (T : EntityType) (d : Value) (path : List EntityId) : Prop :=
  ∀ key, T.keyOf? d = some key → idOf T key ∈ path

theorem closeCycle_prepares (leads : LeadsTo c T d R u) {key : Value}
    (hkey : R.keyOf? u = some key) (stubs : List EntityId) :
    Each (Preparing c T d) (closeCycle backing R key stubs).run := by
  have hstub := EntityType.keyTextOf?_of_keyOf? (keyOf?_keyStub hkey)
  have hinsert : ∀ s s', WriteMode.insert.change R (R.keyStub key) s = .ok s' →
      Prior c T d s s' := by
    intro s s' hs'
    obtain ⟨text, htext, habsent, hcreate⟩ := Store.insert_ok hs'
    obtain ⟨_, rfl⟩ := Store.create_ok hcreate
    obtain rfl := Option.some.inj (hstub.symm.trans htext)
    exact .created leads (EntityType.keyTextOf?_of_keyOf? hkey) (.inl ⟨key, rfl⟩) habsent
      fun _ _ => ⟨key, rfl⟩
  unfold closeCycle
  dsimp only
  split
  · trivial
  · refine Work.each_bind (find_prepares key) fun found => ?_
    cases found with
    | some stored => trivial
    | none =>
      refine Work.each_bind (Work.each_discard (Work.each_adapt ?_)) fun _ => trivial
      exact writeEntity_prepares .insert hinsert

/-- A reference to another entity than the document is written whole, or over what is
stored. -/
theorem refresh_prepares (leads : LeadsTo c T d R u) {key : Value} (hkey : R.keyOf? u = some key)
    (ascending : ∀ fields, u = .object fields → Keyed.Ascending fields)
    (other : ∀ own, T.keyOf? d = some own → idOf T own ≠ idOf R key) :
    Each (Preparing c T d) (refresh backing R key u).run := by
  have hother : ¬(R.name = T.name ∧ T.keyTextOf? d = some key.keyText) := by
    intro hboth
    obtain ⟨hname, htext⟩ := hboth
    obtain ⟨own, hown, hsame⟩ := Option.map_eq_some_iff.1 htext
    exact other own hown (Prod.ext hname.symm hsame)
  have hcarried := EntityType.keyTextOf?_of_keyOf? hkey
  have hcreate : ∀ {entity s s'}, WrittenFor R u entity → s.row? R key.keyText = none →
      s.create R key.keyText entity = .ok s' → Prior c T d s s' := by
    intro entity s s' hwritten habsent hs'
    obtain ⟨_, rfl⟩ := Store.create_ok hs'
    exact .created leads hcarried hwritten habsent fun hname htext => absurd ⟨hname, htext⟩ hother
  unfold refresh
  refine Work.each_bind (find_prepares key) fun found => ?_
  cases found with
  | none =>
    refine Work.each_discard (writeEntity_prepares .insert fun s s' hs' => ?_)
    obtain ⟨text, htext, habsent, hs'⟩ := Store.insert_ok hs'
    obtain rfl := Option.some.inj (hcarried.symm.trans htext)
    exact hcreate (.inr fun _ _ => rfl) habsent hs'
  | some stored =>
    dsimp only
    cases hmerged : refreshed? stored u with
    | none => trivial
    | some merged =>
      have hfields : ∀ name, (u.get name).isNull = false → merged.get name = u.get name :=
        fun _ => get_refreshed_of_carried hmerged ascending
      have hmergedKey := EntityType.keyTextOf?_of_keyOf? (keyOf?_of_carried hkey hfields)
      refine Work.each_discard (writeEntity_prepares .upsert fun s s' hs' => ?_)
      obtain ⟨text, htext, ⟨row, hrow, hs'⟩ | ⟨habsent, hs'⟩⟩ := Store.upsert_ok hs'
      · obtain rfl := Option.some.inj (hmergedKey.symm.trans htext)
        obtain ⟨_, rfl⟩ := Store.replace_ok hs'
        exact .replaced leads hcarried (.inr hfields) hrow hother
      · obtain rfl := Option.some.inj (hmergedKey.symm.trans htext)
        exact hcreate (.inr hfields) habsent hs'

/-! ## Following and resolving -/

/-- From any path that begins with the document, resolving only prepares it. -/
def Prepares (c : Catalog) (T : EntityType) (d : Value)
    (resolve : List EntityId → List EntityId → Work (List EntityId)) : Prop :=
  ∀ path stubs, Begins T d path → Each (Preparing c T d) (resolve path stubs).run

/-- A document leads to whatever another one refers to, as an entity of a type. -/
def Covers (c : Catalog) (T : EntityType) (d : Value) (R : EntityType) (u : Value) : Prop :=
  ∀ S v, LeadsTo c R u S v → LeadsTo c T d S v

/-- Each entity that a document leads to has each field once. -/
def FieldsOnce (c : Catalog) (T : EntityType) (d : Value) : Prop :=
  ∀ R u, LeadsTo c T d R u → ∀ fields, u = .object fields → Keyed.Ascending fields

theorem follow_prepares (once : FieldsOnce c T d) (leads : LeadsTo c T d R u)
    {inner : Resolver (Job World)} (hinner : Prepares c T d (inner R)) :
    Prepares c T d (follow backing inner R u) := by
  intro path stubs hbegins
  refine Work.each_outcome fun key hrequire => ?_
  have hkey := keyOf?_of_requireKey hrequire
  dsimp only
  split
  · exact closeCycle_prepares leads hkey stubs
  · next hpath =>
    -- an entity that is not on the way is not the document
    have hother : ∀ own, T.keyOf? d = some own → idOf T own ≠ idOf R key := by
      intro own hown heq
      exact hpath (List.contains_iff_mem.2 (heq ▸ hbegins own hown))
    refine Work.each_bind (hinner _ _ fun own hown => ?_) fun stubs' => ?_
    · exact List.mem_cons_of_mem _ (hbegins own hown)
    · exact Work.each_bind (refresh_prepares leads hkey (once R u leads) hother) fun _ => trivial

theorem followProperty_prepares (once : FieldsOnce c T d) (S : EntityType) {p : Property}
    {value : Value} (leads : ∀ R u, RefersBy c p value R u →
      LeadsTo c T d R u ∧ Covers c T d R u)
    {inner : Resolver (Job World)}
    (hinner : ∀ R, Covers c T d R value → Prepares c T d (inner R)) :
    Prepares c T d (followProperty backing c inner S p value) := by
  intro path stubs hbegins
  cases Route.of c p value with
  | nowhere plain =>
    rw [followProperty_nowhere plain]
    trivial
  | inside R target object embedded =>
    rw [followProperty_inside target object embedded]
    refine Work.each_adapt ?_
    -- the document refers to what an embedded entity refers to
    have hin : ∀ S v, Refers c R value S v → LeadsTo c T d S v ∧ Covers c T d S v := by
      intro S v hr
      obtain ⟨q, hq, hby⟩ := hr
      exact leads S v (.inside target embedded hq hby)
    refine hinner R (fun S v hlead => ?_) path stubs hbegins
    cases hlead with
    | last refers => exact (hin _ _ refers).1
    | further refers rest => exact (hin _ _ refers).2 _ _ rest
  | across R target object keyed =>
    rw [followProperty_across target object keyed]
    obtain ⟨hleads, hcovers⟩ := leads R value (.held target keyed object)
    exact Work.each_adapt (follow_prepares once hleads (hinner R hcovers) path stubs hbegins)

/-- Resolving a value, as an entity of whatever type, only prepares a document that leads
to all that it leads to. -/
def ResolvesBefore (c : Catalog) (T : EntityType) (d u : Value) : Prop :=
  ∀ R, Covers c T d R u → Prepares c T d (resolver backing c u R)

theorem resolver_prepares (once : FieldsOnce c T d) (u : Value) : ResolvesBefore c T d u := by
  induction u using Value.fields_induction with
  | object fields ih =>
    intro R hcovers path stubs hbegins
    rw [resolver_object]
    refine Work.each_foldlM (fun p hp stubs => ?_) stubs
    refine followProperty_prepares once R (fun S v hby => ?_) (fun S => ih p.name S) path stubs
      hbegins
    have hrefers : Refers c R (.object fields) S v := ⟨p, hp, hby⟩
    exact ⟨hcovers S v (.last hrefers),
      fun S' v' hlead => hcovers S' v' (.further hrefers hlead)⟩
  | other v hobject =>
    intro R _ path stubs _
    rw [resolver_of_not_object hobject]
    trivial

/-! ## The write itself -/

/-- A write that fails changes nothing but what happened before. -/
theorem ensures_writeEntity (T : EntityType) (d : Value) (mode : WriteMode) (w : World) :
    Ensures (preparing c T d) (fun result w' => ∀ e, result = .error e → Preparing c T d w w')
      (writeEntity backing T d mode).run w := by
  have hidle : ∀ s s' : World, Idle s s' → (preparing c T d).rely s s' ∧ True :=
    fun _ _ h => ⟨.of_idle h, trivial⟩
  rw [writeEntity_eq]
  have hrequire : Each Idle (discard (liftM (T.requireKey d)) : Work Unit).run :=
    Work.each_discard (x := liftM (T.requireKey d)) trivial
  refine Work.ensures_bind (hrequire.ensures w hidle) ?_ fun e w₁ h w' hw' _ _ =>
    (preparing c T d).rely_trans h hw'
  intro _ w₁ hw₁
  refine Work.ensures_bind ((Backend.idle_prepare T).ensures w₁ hidle) ?_ fun e w₂ h w' hw' _ _ =>
    (preparing c T d).rely_trans hw₁ ((preparing c T d).rely_trans h hw')
  intro _ w₂ hw₂
  refine (Work.ensures_attempt_failing (fun _ _ => trivial) _ w₂).mono fun _ w' hend e he => ?_
  exact (preparing c T d).rely_trans hw₁ ((preparing c T d).rely_trans hw₂ (hend e he))

/-- Up to its failure a write only prepares its document. -/
theorem ensures_prior (once : FieldsOnce c T d) (mode : WriteMode) (w : World) :
    Ensures (preparing c T d) (fun result w' => ∀ e, result = .error e → Preparing c T d w w')
      (write backing c T d mode).run w := by
  have hlater : ∀ {w₁ w₂ : World} {result : Outcome Value}, Preparing c T d w w₁ →
      (∀ e, result = .error e → Preparing c T d w₁ w₂) →
      ∀ e, result = .error e → Preparing c T d w w₂ :=
    fun h h' e he => (preparing c T d).rely_trans h (h' e he)
  unfold write
  refine Work.ensures_bind (Work.ensures_outcome _ (T.requireKey d) w) ?_
    fun e w₁ h w' hw' _ _ => (preparing c T d).rely_trans h.1 hw'
  intro key w₁ hend
  obtain ⟨hw₁, hrequire⟩ := hend
  split
  · exact (ensures_writeEntity T d mode w₁).mono fun _ _ h => hlater hw₁ h
  have hcheck : Each (Preparing c T d) (checkStored backing T key mode).run := by
    cases mode with
    | insert => trivial
    | upsert => trivial
    | update expected =>
      refine Work.each_bind (find_prepares key) fun found => ?_
      cases found <;> trivial
  have hresolve : Each (Preparing c T d) (resolver backing c d T [idOf T key] []).run := by
    refine resolver_prepares once d T (fun _ _ h => h) _ _ fun own hown => ?_
    obtain rfl := Option.some.inj ((keyOf?_of_requireKey hrequire.symm).symm.trans hown)
    exact List.mem_singleton.2 rfl
  refine Work.ensures_bind (hcheck.ensures (T := preparing c T d) w₁ fun _ _ h => ⟨h, trivial⟩) ?_
    fun e w₂ h w' hw' _ _ =>
      (preparing c T d).rely_trans hw₁ ((preparing c T d).rely_trans h hw')
  intro _ w₂ hw₂
  have hw₂ : Preparing c T d w w₂ := (preparing c T d).rely_trans hw₁ hw₂
  refine Work.ensures_bind (hresolve.ensures (T := preparing c T d) w₂ fun _ _ h => ⟨h, trivial⟩) ?_
    fun e w₃ h w' hw' _ _ =>
      (preparing c T d).rely_trans hw₂ ((preparing c T d).rely_trans h hw')
  intro stubs w₃ hw₃
  refine (ensures_writeEntity T d _ w₃).mono fun _ _ h => ?_
  exact hlater ((preparing c T d).rely_trans hw₂ hw₃) h

end References

end LiveRecords

import LiveRecords.Proofs.Pipeline.Lookup
import LiveRecords.Proofs.References.Prior
import LiveRecords.Sample.Shop

/-
  What a write that fails leaves behind.

  Nothing takes the writes before that of a document back if a later one fails. So of a
  failed write there may remain what was written for references, and in place of the
  document a stub; whatever the document does not lead to is as it was
  (`failed_write_remains`). A write that is refused before it comes to its references
  leaves nothing at all.
-/

namespace LiveRecords

open Job (Each Ensures Goes Terms)
open Work (Gives)

namespace References

variable {c : Catalog} {T R : EntityType} {d u : Value}

/-! ## What remains -/

/-- A document leads to an entity of a table with a key text. -/
def Led (c : Catalog) (T : EntityType) (d : Value) (name key : String) : Prop :=
  ∃ R u, LeadsTo c T d R u ∧ R.name = name ∧ R.keyTextOf? u = some key

/-- Under a key there is what there was: the row, with its version, and the tombstone. -/
def SameAt (s s' : Store) (name key : String) : Prop :=
  (s'.table name).rows.get? key = (s.table name).rows.get? key ∧
    (s'.table name).tombstones.get? key = (s.table name).tombstones.get? key

/-- There is a stub under a key that had no row. -/
def Stubbed (s s' : Store) (name key : String) : Prop :=
  (s.table name).rows.get? key = none ∧ ∃ (R : EntityType) (k : Value), R.name = name ∧
    (s'.table name).rows.get? key = some ⟨R.keyStub k, (s.table name).nextVersion key⟩

/-- An event tells of something that was written for a reference. -/
def TellsOfReference (c : Catalog) (T : EntityType) (d : Value) (e : StoreEvent) : Prop :=
  ∃ R u entity version, LeadsTo c T d R u ∧ WrittenFor R u entity ∧
    (e = .created R.name entity version ∨ ∃ old, e = .updated R.name old entity version)

/-- What the writes before that of a document leave in a store. -/
structure Remains (c : Catalog) (T : EntityType) (d : Value) (s s' : Store) : Prop where
  /-- What the document does not lead to is as it was. -/
  elsewhere : ∀ name key, ¬Led c T d name key → SameAt s s' name key
  /-- The document is not written: what is stored under its key is as it was, or a stub
  where nothing was. -/
  itself : ∀ key, T.keyTextOf? d = some key → SameAt s s' T.name key ∨ Stubbed s s' T.name key
  /-- No row has gone, and no version has gone down. -/
  grows : ∀ name key row, (s.table name).rows.get? key = some row →
    ∃ row', (s'.table name).rows.get? key = some row' ∧ row.version ≤ row'.version
  /-- The journal has gone on with what was written for references. -/
  reported : ∃ events, s'.journal.toList = s.journal.toList ++ events ∧
    ∀ e ∈ events, TellsOfReference c T d e

variable {s s' s'' : Store}

theorem SameAt.trans {name key : String} (h : SameAt s s' name key) (h' : SameAt s' s'' name key) :
    SameAt s s'' name key := ⟨h'.1.trans h.1, h'.2.trans h.2⟩

/-- Putting a document in its place changes nothing under other keys. -/
theorem sameAt_put (s : Store) {name key other table : String} (entity : Value) (version : Nat)
    (e : StoreEvent) (h : ¬(table = name ∧ other = key)) :
    SameAt s (s.commit name ((s.table name).store key entity version) e) table other := by
  unfold SameAt
  rw [Store.table_commit]
  split
  · next htable =>
    subst htable
    have hne : other ≠ key := fun heq => h ⟨rfl, heq⟩
    exact ⟨Keyed.get?_put_of_ne hne _ _, Keyed.get?_erase_of_ne hne _⟩
  · exact ⟨rfl, rfl⟩

theorem get?_put (s : Store) (name key : String) (entity : Value) (version : Nat)
    (e : StoreEvent) :
    ((s.commit name ((s.table name).store key entity version) e).table name).rows.get? key =
      some ⟨entity, version⟩ := by
  rw [Store.table_commit, if_pos rfl, Table.get?_rows_store, if_pos rfl]

/-- A write before that of the document puts something for a reference in its place. -/
theorem Prior.puts (h : Prior c T d s s') :
    ∃ R u key entity version e, LeadsTo c T d R u ∧ R.keyTextOf? u = some key ∧
      WrittenFor R u entity ∧
      (e = .created R.name entity version ∨ ∃ old, e = .updated R.name old entity version) ∧
      (∀ row, s.row? R key = some row → row.version ≤ version) ∧
      s' = s.commit R.name ((s.table R.name).store key entity version) e := by
  cases h with
  | created leads carried written absent stub =>
    refine ⟨_, _, _, _, _, _, leads, carried, written, .inl rfl, fun row hrow => ?_, rfl⟩
    rw [absent] at hrow
    cases hrow
  | replaced leads carried written present other =>
    refine ⟨_, _, _, _, _, _, leads, carried, written, .inr ⟨_, rfl⟩, fun row hrow => ?_, rfl⟩
    obtain rfl := Option.some.inj (present.symm.trans hrow)
    exact Nat.le_succ _

/-- Under the key of the document itself nothing happens, or a stub is created. -/
theorem Prior.itself (h : Prior c T d s s') {key : String} (hkey : T.keyTextOf? d = some key) :
    SameAt s s' T.name key ∨ Stubbed s s' T.name key := by
  cases h with
  | @created R u entity other leads carried written absent stub =>
    by_cases hsame : T.name = R.name ∧ key = other
    · obtain ⟨hname, rfl⟩ := hsame
      obtain ⟨k, rfl⟩ := stub hname.symm hkey
      rw [hname]
      exact .inr ⟨absent, R, k, rfl, get?_put ..⟩
    · exact .inl (sameAt_put s _ _ _ hsame)
  | @replaced R u entity other row leads carried written present away =>
    refine .inl (sameAt_put s _ _ _ fun hsame => away ⟨hsame.1.symm, ?_⟩)
    rw [← hsame.2]
    exact hkey

theorem Remains.refl (c : Catalog) (T : EntityType) (d : Value) (s : Store) :
    Remains c T d s s where
  elsewhere _ _ _ := ⟨rfl, rfl⟩
  itself _ _ := .inl ⟨rfl, rfl⟩
  grows _ _ row h := ⟨row, h, Nat.le_refl _⟩
  reported := ⟨[], (List.append_nil _).symm, nofun⟩

/-- What remains after one more write before that of the document. -/
theorem Remains.step (h : Remains c T d s s') (hlast : Prior c T d s' s'') :
    Remains c T d s s'' := by
  have hitself : ∀ key, T.keyTextOf? d = some key →
      SameAt s' s'' T.name key ∨ Stubbed s' s'' T.name key := fun _ => hlast.itself
  obtain ⟨R, u, at_, entity, version, e, leads, carried, written, he, hversion, rfl⟩ := hlast.puts
  constructor
  · intro name key hled
    refine (h.elsewhere name key hled).trans (sameAt_put s' _ _ _ fun hsame => hled ?_)
    exact ⟨R, u, leads, hsame.1.symm, hsame.2 ▸ carried⟩
  · intro key hkey
    rcases h.itself key hkey with hsame | ⟨hnone, S, k, hS, hstub⟩
    · rcases hitself key hkey with hnext | ⟨hnone, S, k, hS, hstub⟩
      · exact .inl (hsame.trans hnext)
      · refine .inr ⟨hsame.1.symm.trans hnone, S, k, hS, hstub.trans ?_⟩
        unfold Table.nextVersion
        rw [hsame.2]
    · -- a stub has a row, and stays
      rcases hitself key hkey with hnext | ⟨habsent, _⟩
      · exact .inr ⟨hnone, S, k, hS, hnext.1.trans hstub⟩
      · rw [hstub] at habsent
        cases habsent
  · intro name key row hrow
    obtain ⟨row', hrow', hle⟩ := h.grows name key row hrow
    by_cases hsame : name = R.name ∧ key = at_
    · obtain ⟨rfl, rfl⟩ := hsame
      exact ⟨_, get?_put .., hle.trans (hversion row' hrow')⟩
    · exact ⟨row', (sameAt_put s' _ _ _ hsame).1.trans hrow', hle⟩
  · obtain ⟨events, hevents, htells⟩ := h.reported
    refine ⟨events ++ [e], ?_, ?_⟩
    · show (s'.journal.push e).toList = _
      rw [Array.toList_push, hevents, List.append_assoc]
    · intro e' hin
      rcases List.mem_append.1 hin with hin | hin
      · exact htells e' hin
      · obtain rfl := List.mem_singleton.1 hin
        exact ⟨R, u, entity, version, leads, written, he⟩

theorem remains_of_prior (h : Relation.ReflTransGen (Prior c T d) s s') :
    Remains c T d s s' := by
  induction h with
  | refl => exact .refl c T d s
  | tail _ hlast ih => exact ih.step hlast

/-! ## Writes that are refused -/

/-- A write that does not get to its references: the document has no key, it is to replace
what is not stored, or it refers to nothing. -/
inductive Refused (c : Catalog) (T : EntityType) (d : Value) (mode : WriteMode) (s : Store) :
    Prop where
  | keyless (h : T.keyOf? d = none)
  | missing {key : Value} {expected : Option Nat} (update : mode = .update expected)
      (keyed : T.keyOf? d = some key) (absent : s.lookup T key = none)
  | nothing (h : ∀ R u, ¬LeadsTo c T d R u)

variable {kinds : String → KeyKind}

/-- What is found under a key is what a look-up finds, if nobody writes. -/
theorem gives_lookup (c : Catalog) (kinds : String → KeyKind) (keyed : T.key?.isSome = true)
    (key : Value) (w : World) :
    Gives (writing c kinds) (fun found _ => found = w.store.lookup T key)
      (Handler.ofStore (.find T key) : Work (Option Value)) w := by
  obtain ⟨p, hp⟩ := Option.isSome_iff_exists.1 keyed
  obtain ⟨q, hq, hentity, hprepare⟩ := Query.prepare_byKey hp key
  refine (Gives.outcome _ (Query.byKey T key) w).bind fun q' w₁ hend => ?_
  obtain ⟨hw₁, hq'⟩ := hend
  obtain rfl := Except.ok.inj (hq.symm.trans hq')
  refine (Backend.gives_query q w₁).bind fun rows w₂ hend => ?_
  obtain ⟨_, run, hrun, rfl⟩ := hend
  obtain rfl := Except.ok.inj (hprepare.symm.trans hrun)
  refine (Rows.gives_first _ w₂).mono fun found _ hend => ?_
  rw [hend.2, w₁.store.head?_query hp hentity, hw₁.1]

/-- To replace what is not stored is refused before anything is written. -/
theorem ensures_missing {expected : Option Nat} {key : Value} (keyed : T.keyOf? d = some key)
    (refers : ¬(T.properties.all fun p => (c.referenced? p).isNone) = true) {w : World}
    (absent : w.store.lookup T key = none) :
    Ensures (writing c kinds) (fun _ w' => Idle w w')
      (write backing c T d (.update expected)).run w := by
  have hsome : T.key?.isSome = true := by
    obtain ⟨p, hp, _⟩ := EntityType.keyOf?_eq_some.1 keyed
    rw [hp]
    rfl
  have hidle := fun w : World => (Handler.idle_find T key).ensures (T := writing c kinds) w
    fun _ _ h => ⟨h, writing_guarantee_of_idle h⟩
  unfold write
  refine Work.ensures_bind (Work.ensures_outcome _ (T.requireKey d) w) ?_
    fun e w₁ h w' hw' => Idle.trans h.1 hw'
  intro own w₁ hend
  obtain ⟨hw₁, hrequire⟩ := hend
  obtain rfl := Option.some.inj ((keyOf?_of_requireKey hrequire.symm).symm.trans keyed)
  rw [if_neg refers]
  have hcheck : Ensures (writing c kinds)
      (fun result w' => Idle w w' ∧ ∃ e, result = .error e)
      (checkStored backing T own (.update expected)).run w₁ := by
    refine Work.ensures_bind ((hidle w₁).and (gives_lookup c kinds hsome own w₁)) ?_
      fun e w₂ h w' hw' => ⟨Idle.trans hw₁ (Idle.trans h.1 hw'), e, rfl⟩
    intro found w₂ hend
    obtain ⟨hw₂, hfound⟩ := hend
    obtain rfl : found = none := by rw [hfound found rfl, hw₁.1, absent]
    exact fun w' hw' => ⟨Idle.trans hw₁ (Idle.trans hw₂ hw'), _, rfl⟩
  refine Work.ensures_bind hcheck (fun _ w₂ hend => ?_) fun e w₂ h w' hw' => Idle.trans h.1 hw'
  obtain ⟨_, e, he⟩ := hend
  cases he

/-! ## Failed writes -/

/-- What the write ensures the request ensures, if a context around a failure does not
matter. -/
theorem ensures_request_of_write {terms : Terms World} {post : Outcome Value → World → Prop}
    {w : World} {mode : WriteMode} (free : ∀ w, terms.guarantee w w)
    (catalog : ∀ w', terms.rely w w' → w'.catalog = w.catalog)
    (context : ∀ context e w', post (.error e) w' → post (.error (.inContext context e)) w')
    (h : ∀ w₁, terms.rely w w₁ →
      Ensures terms post (write backing w.catalog T d mode).run w₁) :
    Ensures terms post (request T d mode) w := by
  have hwrite : Ensures terms post (Handler.writeReferences .ofStore T d mode).run w := by
    refine Work.ensures_bind (Work.ensures_read free World.catalog w) ?_ ?_
    · intro c w₁ hend
      obtain ⟨now, hnow, hw₁, ⟨⟩⟩ := hend
      rw [catalog now hnow]
      exact h w₁ (terms.rely_trans hnow hw₁)
    · intro e w₁ hend
      obtain ⟨_, _, _, ⟨⟩⟩ := hend
  have hrequest : ∀ context, Ensures terms post
      ((Handler.writeReferences .ofStore T d mode).inContext context).run w := fun message => by
    refine Ensures.map hwrite fun result w' hpost => ?_
    cases result with
    | ok a => exact hpost
    | error e => exact context message e w' hpost
  cases mode with
  | insert => exact hrequest s!"insert {T.name}"
  | update expected => exact hrequest s!"update {T.name}"
  | upsert => exact hrequest s!"upsert {T.name}"

theorem not_leadsTo_of_no_reference
    (none : (T.properties.all fun p => (c.referenced? p).isNone) = true) : ¬LeadsTo c T d R u := by
  have hno : ∀ S v, ¬Refers c T d S v := by
    intro S v hr
    obtain ⟨p, hp, hby⟩ := hr
    obtain ⟨target, htarget⟩ := hby.exists_target
    have hp' := List.all_eq_true.1 none p hp
    rw [htarget] at hp'
    cases hp'
  intro h
  cases h with
  | last refers => exact hno _ _ refers
  | further refers rest => exact hno _ _ refers

theorem eq_of_prior_of_nothing (h : Relation.ReflTransGen (Prior c T d) s s')
    (nothing : ∀ R u, ¬LeadsTo c T d R u) : s' = s := by
  induction h with
  | refl => rfl
  | tail _ hlast _ =>
    obtain ⟨R, u, _, _, _, _, leads, _⟩ := hlast.puts
    exact absurd leads (nothing R u)

/-- If a write of a document fails while nobody else writes, all that has happened to the
store is that entities that the document leads to were created or replaced, one by one,
and that there may be a stub in place of the document. If it was refused at the start,
nothing at all has happened. -/
theorem failed_write_remains (T : EntityType) (d : Value) (mode : WriteMode) (w w' : World)
    (e : Failure) (once : FieldsOnce w.catalog T d)
    (fails : Goes Idle (request T d mode) w (.done (.error e)) w') :
    Remains w.catalog T d w.store w'.store ∧
      (Refused w.catalog T d mode w.store → w'.store = w.store) := by
  have hprior : Preparing w.catalog T d w w' := by
    have hrequest : Ensures (preparing w.catalog T d)
        (fun result w' => ∀ e, result = .error e → Preparing w.catalog T d w w')
        (request T d mode) w := by
      refine ensures_request_of_write (fun _ => trivial) (fun _ h => h.2)
        (fun _ e _ h _ _ => h e rfl) fun w₁ hw₁ => ?_
      refine (ensures_prior once mode w₁).mono fun _ _ h e he => ?_
      exact (preparing w.catalog T d).rely_trans hw₁ (h e he)
    exact (hrequest.goes (fails.mono fun _ _ => .of_idle)).result e rfl
  refine ⟨remains_of_prior hprior.1, fun refused => ?_⟩
  cases refused with
  | nothing h => exact eq_of_prior_of_nothing hprior.1 h
  | keyless h =>
    obtain ⟨failure, hrequire⟩ := EntityType.requireKey_of_keyless h
    have hrequest : Ensures (writing w.catalog fun _ => .text)
        (fun result w' => ∀ e, result = .error e → Idle w w') (request T d mode) w := by
      refine ensures_request_of_write (fun _ => writing_guarantee_of_idle ⟨rfl, rfl⟩)
        (fun _ h => h.2) (fun _ e _ h _ _ => h e rfl) fun w₁ hw₁ => ?_
      unfold write
      rw [hrequire]
      exact fun w₂ hw₂ _ _ => Idle.trans hw₁ hw₂
    exact ((hrequest.goes fails).result e rfl).1
  | @missing key expected update keyed absent =>
    subst update
    by_cases hnone : (T.properties.all fun p => (w.catalog.referenced? p).isNone) = true
    · exact eq_of_prior_of_nothing hprior.1 fun R u => not_leadsTo_of_no_reference hnone
    have hrequest : Ensures (writing w.catalog fun _ => .text)
        (fun result w' => ∀ e, result = .error e → Idle w w')
        (request T d (.update expected)) w := by
      refine ensures_request_of_write (fun _ => writing_guarantee_of_idle ⟨rfl, rfl⟩)
        (fun _ h => h.2) (fun _ e _ h _ _ => h e rfl) fun w₁ hw₁ => ?_
      refine (ensures_missing keyed hnone (hw₁.1.symm ▸ absent)).mono fun _ _ h _ _ => ?_
      exact Idle.trans hw₁ h
    exact ((hrequest.goes fails).result e rfl).1

end References

/-! ## A vendor that is left behind -/

namespace Shop

open References

/-- A shop with one product. -/
def onSale : World := stocked product (.object [("key", .text "p")])

/-- The product, from a vendor that is not stored. -/
def supplied : Value :=
  .object [("key", .text "p"), ("vendor", .object [("id", .int 7), ("name", .text "Acme")])]

/-- Why the product cannot be inserted again. -/
def isOnSale : Failure := .inContext "insert Product" (.duplicateKey "Product" "p")

/-- The insertion fails once the vendor has been stored. -/
theorem supplied_fails :
    ∃ w', Goes Idle (request product supplied .insert) onSale (.done (.error isOnSale)) w' ∧
      ((w'.store.table "Vendor").rows.get? "7").isSome = true ∧
      w'.store.journal.map StoreEvent.typeName = #["entity:created", "entity:created"] := by
  cases halone : (request product supplied .insert).alone onSale with
  | none =>
    have hends : ((request product supplied .insert).alone onSale).isSome = true := by rfl
    rw [halone] at hends
    cases hends
  | some end_ =>
    obtain ⟨result, w'⟩ := end_
    have hresult : ((request product supplied .insert).alone onSale).map (·.1) =
        some (.error isOnSale) := by rfl
    have hvendor : ((request product supplied .insert).alone onSale).map (fun x =>
        ((x.2.store.table "Vendor").rows.get? "7").isSome) = some true := by rfl
    have hevents : ((request product supplied .insert).alone onSale).map (fun x =>
        x.2.store.journal.map StoreEvent.typeName) =
        some #["entity:created", "entity:created"] := by decide +kernel
    rw [halone] at hresult hvendor hevents
    obtain rfl := Option.some.inj hresult
    exact ⟨w', Job.goes_of_alone halone, Option.some.inj hvendor, Option.some.inj hevents⟩

/-- It is not so that the insertion, since it fails, leaves every row as it was. -/
theorem vendor_left_behind :
    ¬∀ w', Goes Idle (request product supplied .insert) onSale (.done (.error isOnSale)) w' →
      ∀ name key, (w'.store.table name).rows.get? key = (onSale.store.table name).rows.get? key := by
  intro hclaim
  obtain ⟨w', hfails, hvendor, _⟩ := supplied_fails
  rw [hclaim w' hfails "Vendor" "7"] at hvendor
  cases hvendor

/-- The product leads to its vendor, and to nothing else. -/
theorem leadsTo_of_supplied {R : EntityType} {u : Value}
    (h : LeadsTo catalog product supplied R u) :
    R = vendor ∧ u = .object [("id", .int 7), ("name", .text "Acme")] := by
  have hfirst : ∀ {S v}, Refers catalog product supplied S v →
      S = vendor ∧ v = .object [("id", .int 7), ("name", .text "Acme")] := by
    intro S v hr
    obtain ⟨p, hp, hby⟩ := hr
    obtain ⟨target, htarget⟩ := hby.exists_target
    simp only [product, List.mem_cons, List.not_mem_nil, or_false] at hp
    rcases hp with rfl | rfl | rfl | rfl | rfl | rfl | rfl <;> try cases htarget
    exact hby.eq_of_keyed rfl rfl
  cases h with
  | last refers => exact hfirst refers
  | further refers rest =>
    obtain ⟨rfl, rfl⟩ := hfirst refers
    exact absurd rest (not_leadsTo_of_no_reference rfl)

/-- The vendor is all that remains of the insertion. -/
theorem supplied_remains :
    FieldsOnce catalog product supplied ∧ ∃ w',
      Goes Idle (request product supplied .insert) onSale (.done (.error isOnSale)) w' ∧
        Remains catalog product supplied onSale.store w'.store := by
  have honce : FieldsOnce catalog product supplied := by
    intro R u hleads fields hfields
    obtain ⟨_, rfl⟩ := leadsTo_of_supplied hleads
    cases hfields
    unfold Keyed.Ascending
    decide
  obtain ⟨w', hfails, _⟩ := supplied_fails
  exact ⟨honce, w', hfails,
    (failed_write_remains product supplied .insert onSale w' isOnSale honce hfails).1⟩

end Shop

end LiveRecords

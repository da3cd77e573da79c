import LiveRecords.Proofs.Document.KeyText
import LiveRecords.Proofs.Document.Likeness
import LiveRecords.Proofs.Pipeline.Alone
import LiveRecords.Proofs.Pipeline.Backend
import LiveRecords.Proofs.Store.Reading

/-
  Looking up by key.

  A deletion and an insertion look for the row under the text of a key. Finding is a
  query: it goes through the rows in the order of their key texts and returns the
  first whose key is alike the one asked for (`Handler.alone_find`). So the three
  address one row just where likeness and key texts do not part ways, which is a
  condition on the rows and the key (`Store.Unambiguous`, `World.addresses_iff`). It
  is met where the keys of the table are of one kind with the key asked for
  (`Store.unambiguous_of_kindred`).

  It is not met everywhere (`Shop.keys_part_ways`): a string has the key text of the
  number that it spells, -2^63 as a floating number does not have the key text of the
  integer it is alike to, and two integers beyond 2^63 may be alike.
-/

namespace LiveRecords

/-! ## What a query for a key finds -/

/-- The key of a document; null if it has none. -/
def EntityType.keyIn (T : EntityType) (d : Value) : Value := (T.keyOf? d).getD .null

theorem EntityType.keyIn_eq {T : EntityType} {p : Property} (h : T.key? = some p) (d : Value) :
    T.keyIn d = p.get d := by
  unfold keyIn keyOf?
  rw [h]
  cases hnull : (p.get d).isNull with
  | true =>
    simp only [hnull, if_true]
    exact (Value.eq_null_of_isNull hnull).symm
  | false => simp only [hnull, Bool.false_eq_true, if_false, Option.getD_some]

/-- The first document of a table, in the order of key texts, whose key is alike a key. -/
def Store.lookup (s : Store) (T : EntityType) (key : Value) : Option Value :=
  (s.documents T.name).find? fun d => (T.keyIn d).alike key

/-- The compiled query for a key. -/
def Query.Compiled.forKey (p : Property) (key : Value) : Query.Compiled :=
  ⟨some fun v => .bool ((p.get v).alike key), none, [], 0, some 1, []⟩

/-- A query with nothing but a predicate is valid if that is a truth value, is about the
entity type asked for, and compiles. -/
theorem Query.prepare_of_predicate {q : Query} {e : Expr} {run : Query.Compiled}
    (predicate : q.predicate = some e) (mapping : q.mapping = none) (sorting : q.sorting = [])
    (properties : q.properties = []) (about : e.argumentType? = some q.entity.asType)
    (truth : e.capability = .boolean) (compiled : q.compile = .ok run) : q.prepare = .ok run := by
  have hargument : (some e).forM (q.checkArgument "predicate") = .ok () := by
    show q.checkArgument "predicate" e = .ok ()
    unfold Query.checkArgument
    rw [about]
    exact if_pos (beq_self_eq_true q.entity.name)
  have htruth : (some e).forM Query.checkPredicate = .ok () := if_pos truth
  unfold Query.prepare Query.validate
  rw [predicate, mapping, sorting, properties, compiled, hargument, htruth]
  rfl

/-- Where entities have keys a query for a key is valid. -/
theorem Query.prepare_byKey {T : EntityType} {p : Property} (h : T.key? = some p) (key : Value) :
    ∃ q, Query.byKey T key = .ok q ∧ q.entity = T ∧ q.prepare = .ok (.forKey p key) := by
  unfold Query.byKey
  rw [h]
  exact ⟨_, rfl, rfl, Query.prepare_of_predicate rfl rfl rfl rfl rfl rfl rfl⟩

theorem Store.head?_query (s : Store) {q : Query} {T : EntityType} {p : Property}
    (h : T.key? = some p) (entity : q.entity = T) (key : Value) :
    (s.query q (.forKey p key)).head? = s.lookup T key := by
  have hadmits : (Query.Compiled.forKey p key).admits = fun d => (T.keyIn d).alike key := by
    funext d
    rw [EntityType.keyIn_eq h]
    rfl
  have hshape : (Query.Compiled.forKey p key).shape = id :=
    funext (Query.Compiled.shape_eq rfl rfl)
  show (((((s.documents q.entity.name).filter (Query.Compiled.forKey p key).admits).drop 0).take
    1).map (Query.Compiled.forKey p key).shape).head? = _
  rw [hshape, hadmits, List.map_id, List.drop_zero, List.head?_take, if_neg (by decide),
    List.head?_filter, entity]
  rfl

/-- Alone in a quiet world finding comes to what a query for the key finds. -/
theorem Handler.alone_find {w : World} {T : EntityType} (keyed : T.key?.isSome = true)
    (quiet : w.Quiet) (key : Value) :
    (Handler.ofStore (.find T key) : Work (Option Value)).run.alone w =
      some (.ok (w.store.lookup T key), w) := by
  obtain ⟨p, hp⟩ := Option.isSome_iff_exists.1 keyed
  obtain ⟨q, hq, hentity, hprepare⟩ := Query.prepare_byKey hp key
  have hquery := Backend.alone_query hprepare quiet
  show (liftM (Query.byKey T key) >>= fun q => Backend.query q >>= Rows.first : Work _).run.alone w = _
  rw [Work.alone_bind_ok (Work.alone_outcome hq w), Work.alone_bind_ok hquery, Rows.alone_first,
    w.store.head?_query hp hentity]

/-! ## One row for all -/

/-- Likeness and key texts do not part ways for a key and the rows of a table: the row
under its key text has a key alike it, and where any row has such a key, the row under
its key text is there and is the first of them. -/
structure Store.Unambiguous (s : Store) (T : EntityType) (key : Value) : Prop where
  there : ∀ row, s.row? T key.keyText = some row → (T.keyIn row.value).alike key = true
  first : ∀ name row, s.row? T name = some row → (T.keyIn row.value).alike key = true →
    (s.row? T key.keyText).isSome = true ∧ key.keyText ≤ name

/-- A query for a key finds the row under its text just where the two do not part ways. -/
theorem Store.lookup_eq_iff {owners : Owners} {s : Store} (wf : s.WellFormed owners)
    {T : EntityType} (owned : owners T.name = T) (key : Value) :
    s.lookup T key = (s.row? T key.keyText).map Row.value ↔ s.Unambiguous T key := by
  have hasc := (wf.table T.name).rows_ascending
  have hkeyed : ∀ {name row}, s.row? T name = some row → T.keyTextOf? row.value = some name := by
    intro name row hrow
    rw [← owned]
    exact (wf.table T.name).keyed hrow
  -- the look-up goes through the rows, and shows the document of the row that it finds
  have hlookup : s.lookup T key = ((s.table T.name).rows.find? fun entry =>
      (T.keyIn entry.2.value).alike key).map fun entry => entry.2.value := by
    unfold Store.lookup Store.documents Keyed.values
    rw [List.map_map, List.find?_map]
    rfl
  have hsame : (s.table T.name).rows.find? (fun entry => (T.keyIn entry.2.value).alike key) =
      (s.row? T key.keyText).map (Prod.mk key.keyText) ↔ s.Unambiguous T key :=
    (Keyed.find?_eq_iff hasc (fun row => (T.keyIn row.value).alike key) key.keyText).trans
      ⟨fun h => ⟨h.1, h.2⟩, fun h => ⟨h.there, h.first⟩⟩
  rw [hlookup, ← hsame]
  constructor
  · intro h
    cases hfound : (s.table T.name).rows.find? fun entry => (T.keyIn entry.2.value).alike key with
    | none =>
      rw [hfound] at h
      rw [Option.map_eq_none_iff.1 h.symm]
      rfl
    | some entry =>
      obtain ⟨name, row⟩ := entry
      rw [hfound] at h
      obtain ⟨row', hrow', hvalue⟩ := Option.map_eq_some_iff.1 h.symm
      have hvalue' : row'.value = row.value := hvalue
      have hrow : s.row? T name = some row :=
        (Keyed.get?_of_find? (p := fun row => (T.keyIn row.value).alike key) hasc hfound).1
      -- a document says under which key text it stands
      have hkey := hkeyed hrow'
      rw [hvalue', hkeyed hrow] at hkey
      obtain rfl : name = key.keyText := Option.some.inj hkey
      rw [hrow]
      rfl
  · intro h
    rw [h, Option.map_map]
    rfl

/-- Where the keys of a table are of one kind with a key, likeness and key texts do not part
ways. -/
theorem Store.unambiguous_of_kindred {owners : Owners} {s : Store} (wf : s.WellFormed owners)
    {T : EntityType} (owned : owners T.name = T) {key : Value}
    (kindred : ∀ name row, s.row? T name = some row → (T.keyIn row.value).Kindred key) :
    s.Unambiguous T key := by
  have htext : ∀ {name row}, s.row? T name = some row → (T.keyIn row.value).keyText = name := by
    intro name row hrow
    have hkeyed : T.keyTextOf? row.value = some name := by
      rw [← owned]
      exact (wf.table T.name).keyed hrow
    obtain ⟨k, hk, htext⟩ := Option.map_eq_some_iff.1 hkeyed
    unfold EntityType.keyIn
    rw [hk]
    exact htext
  constructor
  · intro row hrow
    exact (kindred _ row hrow).alike_iff.2 (htext hrow)
  · intro name row hrow halike
    have heq : name = key.keyText := (htext hrow).symm.trans ((kindred _ row hrow).alike_iff.1 halike)
    rw [heq] at hrow ⊢
    exact ⟨by rw [hrow]; rfl, String.le_refl _⟩

/-! ## Finding, deleting and inserting -/

theorem Store.insert_of_row {s : Store} {T : EntityType} {entity : Value} {key : String} {row : Row}
    (keyed : T.keyTextOf? entity = some key) (present : s.row? T key = some row) :
    s.insert T entity = .error (.duplicateKey T.name key) := by
  simp only [Store.insert, keyFor_eq keyed, bind, Except.bind, present]

/-- Where there is no row under its key, a document is no duplicate. -/
theorem Store.insert_of_no_row {s : Store} {T : EntityType} {entity : Value} {key : String}
    (keyed : T.keyTextOf? entity = some key) (absent : s.row? T key = none) (name other : String) :
    s.insert T entity ≠ .error (.duplicateKey name other) := by
  have hinsert : s.insert T entity = s.create T key entity := by
    simp only [Store.insert, keyFor_eq keyed, bind, Except.bind, absent]
  rw [hinsert]
  unfold Store.create Table.checkUnique
  dsimp only
  cases (s.table T.name).conflict? T key entity with
  | none =>
    intro h
    cases h
  | some property =>
    intro h
    cases h

/-- Finding, deleting and inserting address one row by a key: the first returns the row
under its text, the second says whether there is one, and the third refuses a document
with this key as a duplicate just if there is. -/
structure World.Addresses (w : World) (T : EntityType) (key : Value) : Prop where
  found : (Handler.ofStore (.find T key) : Work (Option Value)).run.alone w =
    some (.ok ((w.store.row? T key.keyText).map Row.value), w)
  deleted : ∃ w', (Handler.ofStore (.delete T key) : Work Bool).run.alone w =
    some (.ok (w.store.row? T key.keyText).isSome, w')
  refused : ∀ entity, T.keyOf? entity = some key →
    ((Handler.ofStore (.insert T entity) : Work Value).run.alone w =
        some (.error (.duplicateKey T.name key.keyText), w) ↔
      (w.store.row? T key.keyText).isSome = true)

namespace World

variable {w : World} {T : EntityType}

theorem delete_alone (quiet : w.Quiet) (T : EntityType) (key : Value) :
    ∃ w', (Handler.ofStore (.delete T key) : Work Bool).run.alone w =
      some (.ok (w.store.row? T key.keyText).isSome, w') := by
  have halone := Backend.alone_delete T key quiet
  have hanswer : (w.store.delete T key).1 = (w.store.row? T key.keyText).isSome := by
    rcases w.store.delete_eq T key with ⟨hrow, heq⟩ | ⟨row, hrow, heq⟩
    · rw [heq, hrow]
      rfl
    · rw [heq, hrow]
      rfl
  rw [hanswer] at halone
  exact ⟨_, halone⟩

theorem insert_alone_iff (quiet : w.Quiet) {key entity : Value} (h : T.keyOf? entity = some key) :
    (Handler.ofStore (.insert T entity) : Work Value).run.alone w =
        some (.error (.duplicateKey T.name key.keyText), w) ↔
      (w.store.row? T key.keyText).isSome = true := by
  have hkeyed := EntityType.keyTextOf?_of_keyOf? h
  have halone : (Handler.ofStore (.insert T entity) : Work Value).run.alone w = _ :=
    Backend.alone_write h (fun s => s.insert T entity) quiet
  rw [halone]
  cases hrow : w.store.row? T key.keyText with
  | some row =>
    rw [Store.insert_of_row hkeyed hrow]
    exact ⟨fun _ => rfl, fun _ => rfl⟩
  | none =>
    have hno := Store.insert_of_no_row hkeyed hrow T.name key.keyText
    refine ⟨fun hsame => ?_, nofun⟩
    cases hinsert : w.store.insert T entity with
    | ok s =>
      simp only [hinsert] at hsame
      cases hsame
    | error e =>
      simp only [hinsert] at hsame
      cases hsame
      exact absurd hinsert hno

/-- In every store that writes lead to, finding, deleting and inserting address one row by
a key just where likeness and key texts do not part ways; and they do so wherever the keys
of the table are of one kind with the key. -/
theorem addresses_iff (owners : Owners) (writes : List Write)
    (owned : ∀ w ∈ writes, w.OwnedBy owners) (reached : w.store = Store.afterAll {} writes)
    (quiet : w.Quiet) (own : owners T.name = T) (keyed : T.key?.isSome = true) (key : Value) :
    (w.Addresses T key ↔ w.store.Unambiguous T key) ∧
      ((∀ name row, w.store.row? T name = some row → (T.keyIn row.value).Kindred key) →
        w.Addresses T key) := by
  have wf : w.store.WellFormed owners := by
    rw [reached]
    exact (Store.commits_afterAll owned (.empty owners)).wellFormed (.empty owners)
  have hfind := Handler.alone_find keyed quiet key
  have hiff : w.Addresses T key ↔ w.store.Unambiguous T key := by
    rw [← Store.lookup_eq_iff wf own key]
    constructor
    · intro h
      have hsame := h.found
      rw [hfind] at hsame
      exact Except.ok.inj (Prod.mk.inj (Option.some.inj hsame)).1
    · intro h
      refine ⟨?_, delete_alone quiet T key, fun entity hkey => insert_alone_iff quiet hkey⟩
      rw [hfind, h]
  exact ⟨hiff, fun kindred => hiff.2 (Store.unambiguous_of_kindred wf own kindred)⟩

end World

namespace Shop

/-- A quiet shop with one document stored in it. -/
def stocked (T : EntityType) (d : Value) : World :=
  { catalog, store := Store.afterAll {} [.insert T d] }

/-- A customer with an integer for a key is addressed by a floating number too. -/
theorem customer_addressed :
    (stocked customer (.object [("id", .int 2)])).Addresses customer (.float (.ofInt 2)) ∧
      ((stocked customer (.object [("id", .int 2)])).store.lookup customer
        (.float (.ofInt 2))).isSome = true := by
  have kindred : ∀ name row,
      (stocked customer (.object [("id", .int 2)])).store.row? customer name = some row →
        (customer.keyIn row.value).Kindred (.float (.ofInt 2)) := by
    intro name row hrow
    have hin : (name, row) ∈ [("2", Row.mk (.object [("id", .int 2)]) 1)] := Keyed.mem_of_get? hrow
    obtain ⟨-, rfl⟩ := Prod.mk.inj (List.mem_singleton.1 hin)
    exact .wholes (m := 2) (n := 2) rfl (by decide +kernel) (by decide) (by decide)
  exact ⟨(World.addresses_iff (fun _ => customer) [.insert customer (.object [("id", .int 2)])]
    (by simp [Write.OwnedBy]) rfl ⟨rfl, rfl⟩ rfl rfl (.float (.ofInt 2))).2 kindred,
    by decide +kernel⟩

/-- Parcels; their keys may be any values. -/
def parcel : EntityType := ⟨"Parcel", 5, [{ name := "id", type := .any, isKey := true }]⟩

/-- A row that a look-up misses, one that it finds under another text, and one that it
takes for another. -/
theorem keys_part_ways :
    ¬(stocked parcel (.object [("id", .text "1")])).Addresses parcel (.int 1) ∧
      ¬(stocked parcel (.object [("id", .int (-2 ^ 63))])).Addresses parcel
        (.float (.ofInt (-2 ^ 63))) ∧
      ¬(stocked parcel (.object [("id", .int (2 ^ 63 + 1))])).Addresses parcel (.int (2 ^ 63)) := by
  have misses : ∀ d key, ((stocked parcel d).store.lookup parcel key).isSome ≠
      ((stocked parcel d).store.row? parcel key.keyText).isSome →
        ¬(stocked parcel d).Addresses parcel key := by
    intro d key hne h
    have hfound := h.found
    rw [Handler.alone_find rfl ⟨rfl, rfl⟩ key] at hfound
    rw [Except.ok.inj (Prod.mk.inj (Option.some.inj hfound)).1] at hne
    exact hne Option.isSome_map
  exact ⟨misses _ _ (by decide +kernel), misses _ _ (by decide +kernel),
    misses _ _ (by decide +kernel)⟩

end Shop

end LiveRecords

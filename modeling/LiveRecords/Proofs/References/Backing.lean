import LiveRecords.Pipeline.Handler
import LiveRecords.Proofs.Pipeline.Backend
import LiveRecords.Proofs.References.Integrity

/-
  The store below a reference-first writer.

  The writer is the only one that writes; whatever else happens between its steps
  leaves the store alone (`writing`). On these terms looking up a key finds its row
  (`gives_find`), and writing a document whose references are there keeps the store
  integral and leaves a row for the document (`gives_write`).
-/

namespace LiveRecords

open Job (Ensures Terms)
open Work (Gives)

/-- Nothing was written. -/
abbrev Idle (w w' : World) : Prop := w'.store = w.store ∧ w'.catalog = w.catalog

theorem Idle.refl (w : World) : Idle w w := ⟨rfl, rfl⟩

theorem Idle.trans {w w' w'' : World} (h : Idle w w') (h' : Idle w' w'') : Idle w w'' :=
  ⟨h'.1.trans h.1, h'.2.trans h.2⟩

/-- Others do not write, and no step of the writer breaks the integrity of the store. -/
def writing (c : Catalog) (kinds : String → KeyKind) : Terms World where
  rely := Idle
  guarantee w w' := w'.catalog = w.catalog ∧
    (Integral c kinds w.store → Integral c kinds w'.store)
  rely_refl _ := ⟨rfl, rfl⟩
  rely_trans h h' := Idle.trans h h'

variable {c : Catalog} {kinds : String → KeyKind} {w : World}

theorem writing_guarantee_of_idle {w w' : World} (h : Idle w w') :
    (writing c kinds).guarantee w w' := ⟨h.2, fun hi => h.1.symm ▸ hi⟩

namespace Backend

theorem gives_prepare (type : EntityType) (w : World) :
    Gives (writing c kinds) (fun _ w' => Idle w w') (prepare type) w := by
  refine ((each_prepare type).ensures w fun s s' (hs : s.Keeps s') => ?_).mono
    fun _ _ hidle _ _ => hidle
  have hidle : Idle s s' := ⟨hs.store.symm, hs.catalog⟩
  exact ⟨hidle, writing_guarantee_of_idle hidle⟩

theorem gives_query (q : Query) (w : World) :
    Gives (writing c kinds)
      (fun rows w' => Idle w w' ∧ ∃ run, q.prepare = .ok run ∧ rows = .listed (w.store.query q run))
      (query q) w := by
  refine (Gives.outcome _ q.prepare w).bind ?_
  intro run w₁ hend
  obtain ⟨hw₁, hrun⟩ := hend
  refine (gives_prepare q.entity w₁).bind fun _ w₂ hw₂ => ?_
  refine (Gives.read (fun _ => writing_guarantee_of_idle ⟨rfl, rfl⟩) _ w₂).bind ?_
  intro _ w₃ hend
  obtain ⟨now, hnow, hw₃, rfl⟩ := hend
  refine Gives.pure fun w' hw' => ?_
  have hread : Idle w now := (Idle.trans hw₁ hw₂).trans hnow
  have hafter : Idle now w' := Idle.trans hw₃ hw'
  refine ⟨hread.trans hafter, run, hrun, ?_⟩
  rw [hread.1]

end Backend

/-- The first row of a list of rows is its head. -/
theorem Rows.gives_first (rows : List Value) (w : World) :
    Gives (writing c kinds) (fun first w' => Idle w w' ∧ first = rows.head?)
      (Rows.first (.listed rows)) w := by
  have htake : ∀ now, (World.takeRow (.listed rows) now).2 = now := by
    intro now
    cases rows <;> rfl
  have hnext : Gives (writing c kinds) (fun next w' => Idle w w' ∧ next.map (·.1) = rows.head?)
      (Rows.next (.listed rows)) w := by
    refine Gives.bind (Gives.waitFor _ _ _) fun _ w₁ hw₁ => ?_
    refine (Gives.act fun now _ => ?_).mono ?_
    · rw [htake]
      exact writing_guarantee_of_idle ⟨rfl, rfl⟩
    · intro _ w' hend
      obtain ⟨now, hnow, hw', rfl⟩ := hend
      rw [htake] at hw'
      refine ⟨(Idle.trans hw₁ hnow).trans hw', ?_⟩
      cases rows <;> rfl
  refine hnext.bind ?_
  intro next w₁ hend
  obtain ⟨hw₁, heq⟩ := hend
  refine (Gives.modify fun now _ => writing_guarantee_of_idle ⟨rfl, rfl⟩).bind ?_
  intro _ w₂ hend
  obtain ⟨now, hnow, hw₂⟩ := hend
  refine Gives.pure fun w' hw' => ⟨?_, heq⟩
  exact ((hw₁.trans hnow).trans hw₂).trans hw'

/-! ## Looking up -/

theorem Query.byKey_ok {T : EntityType} {key : Value} {q : Query} (h : Query.byKey T key = .ok q) :
    ∃ p, T.key? = some p ∧ q.entity = T ∧
      q.compile = .ok ⟨some fun v => .bool ((p.get v).alike key), none, [], 0, some 1, []⟩ := by
  unfold Query.byKey at h
  cases hkey : T.key? with
  | none =>
    rw [hkey] at h
    cases h
  | some p =>
    rw [hkey] at h
    cases h
    exact ⟨p, rfl, rfl, rfl⟩

/-- What a query for a key finds is a document of the table with a key alike. -/
theorem Query.of_mem_byKey {T : EntityType} {key d : Value} {q : Query} {run : Query.Compiled}
    {s : Store} (h : Query.byKey T key = .ok q) (hrun : q.prepare = .ok run)
    (hin : d ∈ s.query q run) :
    d ∈ s.documents T.name ∧ ∃ p, T.key? = some p ∧ (p.get d).alike key = true := by
  obtain ⟨p, hp, rfl, hcompile⟩ := Query.byKey_ok h
  obtain rfl := Except.ok.inj (hcompile.symm.trans (Query.compile_of_prepare hrun))
  obtain ⟨d', hselect, rfl⟩ := List.mem_map.1 hin
  have hselected := List.mem_filter.1 (List.mem_of_mem_take hselect)
  exact ⟨hselected.1, p, hp, hselected.2⟩

/-- A document of a table whose key is alike stands under just that key. -/
theorem Integral.get?_of_alike {s : Store} (h : Integral c kinds s)
    (names : (c.types.map (·.name)).Nodup) {T : EntityType} (mem : T ∈ c.types) {key d : Value}
    (kind : (kinds T.name).Allows key) (hin : d ∈ s.documents T.name) {p : Property}
    (hp : T.key? = some p) (halike : (p.get d).alike key = true) :
    ∃ row, (s.table T.name).rows.get? key.keyText = some row ∧ row.value = d := by
  unfold Store.documents Keyed.values at hin
  simp only [List.mem_map, Prod.exists, exists_eq_right] at hin
  obtain ⟨row, ⟨text, hentry⟩, rfl⟩ := hin
  have hget := Keyed.get?_of_mem (h.ascending T.name) hentry
  have hrow := h.row_of_mem names mem hget
  obtain ⟨k, hk, htext⟩ := Option.map_eq_some_iff.1 hrow.keyed
  obtain ⟨p', hp', hpk, _⟩ := EntityType.keyOf?_eq_some.1 hk
  obtain rfl : p = p' := Option.some.inj (hp.symm.trans hp')
  have hsame : k = key := KeyKind.eq_of_alike (hrow.kind k hk) kind (hpk ▸ halike)
  rw [← hsame, htext]
  exact ⟨row, hget, rfl⟩

/-- What is found under a key is the document of its row. -/
theorem gives_find (names : (c.types.map (·.name)).Nodup) {T : EntityType} (mem : T ∈ c.types)
    {key : Value} (kind : (kinds T.name).Allows key) (h : Integral c kinds w.store) :
    Gives (writing c kinds)
      (fun found w' => Idle w w' ∧ ∀ d, found = some d →
        ∃ row, (w.store.table T.name).rows.get? key.keyText = some row ∧ row.value = d)
      (Handler.ofStore (.find T key) : Work (Option Value)) w := by
  refine (Gives.outcome _ (Query.byKey T key) w).bind ?_
  intro q w₁ hend
  obtain ⟨hw₁, hq⟩ := hend
  refine (Backend.gives_query q w₁).bind ?_
  intro _ w₂ hend
  obtain ⟨hw₂, run, hrun, rfl⟩ := hend
  refine (Rows.gives_first _ w₂).mono ?_
  intro _ w' hend
  obtain ⟨hw', rfl⟩ := hend
  refine ⟨(Idle.trans hw₁ hw₂).trans hw', fun d hd => ?_⟩
  rw [hw₁.1] at hd
  obtain ⟨hin, p, hp, halike⟩ := Query.of_mem_byKey hq hrun (List.mem_of_mem_head? hd)
  exact h.get?_of_alike names mem kind hin hp halike

/-! ## Writing -/

/-- A change of the store that, if it succeeds, puts one document in its place. -/
def Puts (T : EntityType) (entity : Value) (change : Store → Outcome Store) : Prop :=
  ∀ s s', change s = .ok s' → ∃ key version e, T.keyTextOf? entity = some key ∧
    s' = s.commit T.name ((s.table T.name).store key entity version) e

/-- What a write changes in the store. -/
def WriteMode.change (T : EntityType) (entity : Value) : WriteMode → Store → Outcome Store
  | .insert => fun s => s.insert T entity
  | .update expected => fun s => s.update T entity expected
  | .upsert => fun s => s.upsert T entity

/-- A write that succeeds replaces the row under the key of the document, or creates one. -/
theorem WriteMode.change_cases {mode : WriteMode} {T : EntityType} {entity : Value}
    {s s' : Store} (h : mode.change T entity s = .ok s') :
    ∃ key, T.keyTextOf? entity = some key ∧
      ((∃ row, s.row? T key = some row ∧ s.replace T key row entity = .ok s') ∨
        (s.row? T key = none ∧ s.create T key entity = .ok s')) := by
  cases mode with
  | insert =>
    obtain ⟨key, hkey, habsent, hcreate⟩ := Store.insert_ok h
    exact ⟨key, hkey, .inr ⟨habsent, hcreate⟩⟩
  | update expected =>
    obtain ⟨key, row, hkey, hrow, -, hreplace⟩ := Store.update_ok h
    exact ⟨key, hkey, .inl ⟨row, hrow, hreplace⟩⟩
  | upsert => exact Store.upsert_ok h

/-- The document has not been found in conflict with other rows, and a row that is replaced
gets the next version. -/
theorem WriteMode.change_ok {mode : WriteMode} {T : EntityType} {entity : Value} {s s' : Store}
    (h : mode.change T entity s = .ok s') :
    ∃ key version e, T.keyTextOf? entity = some key ∧
      s' = s.commit T.name ((s.table T.name).store key entity version) e ∧
      (s.table T.name).conflict? T key entity = none ∧
      ∀ row, s.row? T key = some row → version = row.version + 1 := by
  obtain ⟨key, hkey, ⟨row, hrow, hreplace⟩ | ⟨habsent, hcreate⟩⟩ := WriteMode.change_cases h
  · obtain ⟨hfree, hs'⟩ := Store.replace_ok hreplace
    refine ⟨key, _, _, hkey, hs', hfree, fun row' hrow' => ?_⟩
    rw [Option.some.inj (hrow'.symm.trans hrow)]
  · obtain ⟨hfree, hs'⟩ := Store.create_ok hcreate
    refine ⟨key, _, _, hkey, hs', hfree, fun row' hrow' => ?_⟩
    rw [habsent] at hrow'
    cases hrow'

theorem WriteMode.puts (mode : WriteMode) (T : EntityType) (entity : Value) :
    Puts T entity (mode.change T entity) := by
  intro s s' h
  obtain ⟨key, version, e, hkey, hs', -⟩ := WriteMode.change_ok h
  exact ⟨key, version, e, hkey, hs'⟩

/-- The store is integral, and no row has gone since. -/
structure Kept (c : Catalog) (kinds : String → KeyKind) (w w' : World) : Prop where
  integral : Integral c kinds w'.store
  grows : w.store.Grows w'.store
  catalog : w'.catalog = w.catalog

/-- Writing a document whose references are there. -/
theorem gives_write {T : EntityType} {entity : Value} {change : Store → Outcome Store}
    (puts : Puts T entity change) (mem : T ∈ c.types)
    (kind : ∀ k, T.keyOf? entity = some k → (kinds T.name).Allows k)
    (refers : ∀ R u, Refers c T entity R u → w.store.Has R u) (h : Integral c kinds w.store) :
    Gives (writing c kinds) (fun _ w' => Kept c kinds w w' ∧ w'.store.Has T entity)
      (Backend.write T entity change) w := by
  -- the change is made in a world in which nothing was written since
  have hchange : ∀ {now : World}, now.store = w.store → ∀ {s'}, change now.store = .ok s' →
      Integral c kinds s' ∧ w.store.Grows s' ∧ s'.Has T entity := by
    intro now hnow s' hs'
    obtain ⟨key, version, e, hkey, rfl⟩ := puts _ _ hs'
    rw [hnow]
    exact ⟨h.put ⟨mem, hkey, kind, refers⟩ version e, Integral.grows_put _ _ _ _ _ _,
      Integral.has_put hkey version e⟩
  refine Gives.bind (Gives.outcome _ (T.requireKey entity) w).discard ?_
  intro _ w₁ hend
  obtain ⟨_, hw₁, _⟩ := hend
  refine (Backend.gives_prepare T w₁).bind fun _ w₂ hw₂ => ?_
  have hidle : Idle w w₂ := Idle.trans hw₁ hw₂
  have hnext : ∀ {now next : World} {a : Value},
      (do return (entity, { now with store := ← change now.store }) : Outcome (Value × World)) =
        .ok (a, next) → ∃ s', change now.store = .ok s' ∧ next = { now with store := s' } := by
    intro now next a hok
    obtain ⟨s', hs', hdone⟩ := Outcome.bind_ok hok
    cases hdone
    exact ⟨s', hs', rfl⟩
  refine (Gives.attempt (fun _ => writing_guarantee_of_idle ⟨rfl, rfl⟩) ?_).mono ?_
  · intro now hnow a next hok
    obtain ⟨s', hs', rfl⟩ := hnext hok
    exact ⟨rfl, fun _ => (hchange (hidle.trans hnow).1 hs').1⟩
  · intro a w' hend
    obtain ⟨now, next, hnow, hok, hw'⟩ := hend
    obtain ⟨s', hs', rfl⟩ := hnext hok
    obtain ⟨hintegral, hgrows, hhas⟩ := hchange (hidle.trans hnow).1 hs'
    have hstore : w'.store = s' := hw'.1
    refine ⟨⟨hstore ▸ hintegral, hstore ▸ hgrows, ?_⟩, hstore ▸ hhas⟩
    exact hw'.2.trans (hidle.trans hnow).2

end LiveRecords

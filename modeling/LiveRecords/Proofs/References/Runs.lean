import LiveRecords.Proofs.References.Writer

/-
  Runs of a reference-first writer.

  A writer inserts, updates and upserts documents one after another, each through the
  layer that writes references first (`Step`). The steps of a write are seen one by
  one, so what holds of every state of a run holds after every single commit, also of
  a write that is still going on or fails later. If everything written fits its type,
  a stored document never refers to an entity that has no row (`stored_refers`).
-/

namespace LiveRecords.References

open Job (Moves Ensures)

/-- A write of a document through the layer. -/
def request (T : EntityType) (d : Value) : WriteMode → Job World (Outcome Value)
  | .insert => (Handler.ofLayers [.references] (.insert T d)).run
  | .update expected => (Handler.ofLayers [.references] (.update T d expected)).run
  | .upsert => (Handler.ofLayers [.references] (.upsert T d)).run

/-- A writer between two writes, or in the middle of one. -/
inductive Writer where
  | free
  | busy (job : Job World (Outcome Value))

/-- What may happen next: something else than a write, or the writer takes one step. -/
inductive Step (c : Catalog) (kinds : String → KeyKind) :
    World × Writer → World × Writer → Prop where
  | elsewhere {w w' : World} {a : Writer} (idle : Idle w w') : Step c kinds (w, a) (w', a)
  | begins {w : World} {T : EntityType} {d : Value} {mode : WriteMode} (mem : T ∈ c.types)
      (fits : AllFit c kinds T d) : Step c kinds (w, .free) (w, .busy (request T d mode))
  | moves {w w' : World} {job job' : Job World (Outcome Value)} (moves : Moves job w job' w') :
      Step c kinds (w, .busy job) (w', .busy job')
  | ends {w : World} {result : Outcome Value} :
      Step c kinds (w, .busy (.done result)) (w, .free)
  | breaks {w : World} : Step c kinds (w, .busy .broken) (w, .free)

/-- Some steps, one after another. -/
abbrev Runs (c : Catalog) (kinds : String → KeyKind) :
    World × Writer → World × Writer → Prop := Relation.ReflTransGen (Step c kinds)

/-- What holds at any time. -/
structure Sound (c : Catalog) (kinds : String → KeyKind) (x : World × Writer) : Prop where
  integral : Integral c kinds x.1.store
  catalog : x.1.catalog = c
  job : ∀ job, x.2 = .busy job → Ensures (writing c kinds) (fun _ _ => True) job x.1

variable {c : Catalog} {kinds : String → KeyKind} {x y : World × Writer}

theorem ensures_request (names : (c.types.map (·.name)).Nodup) {T : EntityType}
    (mem : T ∈ c.types) {d : Value} (fits : AllFit c kinds T d) (mode : WriteMode) {w : World}
    (hw : Integral c kinds w.store) (catalog : w.catalog = c) :
    Ensures (writing c kinds) (fun _ _ => True) (request T d mode) w := by
  have hgives : Work.Gives (writing c kinds) (fun _ _ => True)
      (Handler.writeReferences .ofStore T d mode) w := by
    refine (Work.Gives.read (fun _ => writing_guarantee_of_idle ⟨rfl, rfl⟩) World.catalog w).bind ?_
    intro _ w₁ hend
    obtain ⟨now, hnow, hw₁, rfl⟩ := hend
    have hidle : Idle w w₁ := Idle.trans hnow hw₁
    have hcatalog : now.catalog = c := hnow.2.trans catalog
    rw [hcatalog]
    exact (gives_referencesWrite names mem fits mode (hidle.kept hw).integral).mono
      fun _ _ _ => trivial
  have hwrite : ∀ context, Ensures (writing c kinds) (fun _ _ => True)
      ((Handler.writeReferences .ofStore T d mode).inContext context).run w := fun context =>
    Ensures.mono (Work.Gives.adapt hgives) fun _ _ _ => trivial
  cases mode with
  | insert => exact hwrite s!"insert {T.name}"
  | update expected => exact hwrite s!"update {T.name}"
  | upsert => exact hwrite s!"upsert {T.name}"

theorem Step.sound (h : Step c kinds x y) (names : (c.types.map (·.name)).Nodup)
    (hx : Sound c kinds x) : Sound c kinds y := by
  cases h with
  | elsewhere idle =>
    exact ⟨idle.1.symm ▸ hx.integral, idle.2.trans hx.catalog,
      fun job hjob => (hx.job job hjob).later idle⟩
  | begins mem fits =>
    refine ⟨hx.integral, hx.catalog, ?_⟩
    intro _ hn
    cases hn
    exact ensures_request names mem fits _ hx.integral hx.catalog
  | moves moves =>
    -- the step that waits changes nothing, any other one is within the terms
    obtain ⟨hsame | hguarantee, hjob⟩ := (hx.job _ rfl).moves moves
    · subst hsame
      refine ⟨hx.integral, hx.catalog, ?_⟩
      intro _ hn
      cases hn
      exact hjob
    · refine ⟨hguarantee.2 hx.integral, hguarantee.1.trans hx.catalog, ?_⟩
      intro _ hn
      cases hn
      exact hjob
  | ends => exact ⟨hx.integral, hx.catalog, nofun⟩
  | breaks => exact ⟨hx.integral, hx.catalog, nofun⟩

theorem Runs.sound (h : Runs c kinds x y) (names : (c.types.map (·.name)).Nodup)
    (hx : Sound c kinds x) : Sound c kinds y := by
  induction h with
  | refl => exact hx
  | tail _ hlast ih => exact hlast.sound names ih

/-- Over a store that begins empty, at any time of any run, every stored document is of
a type of the catalogue, and whatever it refers to has a row. -/
theorem stored_refers (c : Catalog) (kinds : String → KeyKind)
    (names : (c.types.map (·.name)).Nodup) (w w' : World) (a : Writer) (catalog : w.catalog = c)
    (empty : w.store = {}) (runs : Runs c kinds (w, .free) (w', a)) (name key : String) (row : Row)
    (stored : (w'.store.table name).rows.get? key = some row) :
    ∃ T ∈ c.types, T.name = name ∧
      ∀ R u, Refers c T row.value R u → w'.store.Has R u := by
  have hstart : Sound c kinds (w, .free) := ⟨empty ▸ .empty c kinds, catalog, nofun⟩
  obtain ⟨T, hT, hrow⟩ := (runs.sound names hstart).integral.row stored
  exact ⟨T, hrow.mem, hT, hrow.refers⟩

/-! ## A cycle -/

/-- The reference to persons. -/
def personRef : EntityRef := ⟨"Person", 0⟩

/-- Persons; each may refer to a friend. -/
def person : EntityType :=
  ⟨"Person", 0, [{ name := "id", type := .int, isKey := true },
    { name := "friend", type := .entity personRef }]⟩

/-- The catalogue of persons. -/
def people : Catalog := ⟨[person]⟩

/-- Two persons who are each other's friend, as a document of the first. -/
def friends : Value :=
  .object [("friend", .object [("friend", .object [("id", .int 1)]), ("id", .int 2)]),
    ("id", .int 1)]

theorem allFit_person {d : Value} (key : KeyKind.integer.Allows (d.get "id"))
    (ascending : ∀ fields, d = .object fields → Keyed.Ascending fields)
    (friend : (d.get "friend").isObject = true →
      AllFit people (fun _ => .integer) person (d.get "friend")) :
    AllFit people (fun _ => .integer) person d := by
  intro S u h
  cases h with
  | here =>
    refine ⟨fun k hk => ?_, ascending⟩
    obtain ⟨p, hp, rfl, _⟩ := EntityType.keyOf?_eq_some.1 hk
    cases hp
    exact key
  | inside mem target object h =>
    simp only [person, List.mem_cons, List.not_mem_nil, or_false] at mem
    rcases mem with rfl | rfl
    · cases target
    · cases target
      exact friend object S u h

theorem friends_fit : AllFit people (fun _ => .integer) person friends := by
  have hfields : Keyed.Ascending [("friend", Value.object [("friend", .object [("id", .int 1)]),
      ("id", .int 2)]), ("id", .int 1)] := by
    unfold Keyed.Ascending
    decide
  have hothers : Keyed.Ascending [("friend", Value.object [("id", .int 1)]), ("id", .int 2)] := by
    unfold Keyed.Ascending
    decide
  have hstub : Keyed.Ascending [("id", Value.int 1)] := List.pairwise_singleton _ _
  have hone : KeyKind.integer.Allows (.int 1) := by
    show InSigned64 1
    decide
  have htwo : KeyKind.integer.Allows (.int 2) := by
    show InSigned64 2
    decide
  -- the first person, the friend inside, and the key only reference back to the first
  refine allFit_person hone (fun _ h => ?_) fun _ => ?_
  · cases h
    exact hfields
  refine allFit_person htwo (fun _ h => ?_) fun _ => ?_
  · cases h
    exact hothers
  refine allFit_person hone (fun _ h => ?_) fun hobject => ?_
  · cases h
    exact hstub
  · cases hobject

/-- The world after the first friend was inserted. -/
def befriended : World :=
  (((request person friends .insert).alone { catalog := people }).map (·.2)).getD
    { catalog := people }

/-- The first friend is stubbed, the second one inserted, and the stub replaced. -/
theorem friends_stored_refers :
    befriended.store.journal.map StoreEvent.typeName =
        #["entity:created", "entity:created", "entity:updated"] ∧
      ∃ row, (befriended.store.table "Person").rows.get? "2" = some row ∧
        ∃ T ∈ people.types, T.name = "Person" ∧
          ∀ R u, Refers people T row.value R u → befriended.store.Has R u := by
  refine ⟨by decide +kernel, ?_⟩
  obtain ⟨row, hrow⟩ := Option.isSome_iff_exists.1
    (show ((befriended.store.table "Person").rows.get? "2").isSome = true by decide +kernel)
  cases halone : (request person friends .insert).alone { catalog := people } with
  | none =>
    have hsome : ((request person friends .insert).alone { catalog := people }).isSome = true := by
      decide +kernel
    rw [halone] at hsome
    cases hsome
  | some end_ =>
    obtain ⟨result, w'⟩ := end_
    have hafter : befriended = w' := by
      unfold befriended
      rw [halone]
      rfl
    have hruns : Runs people (fun _ => .integer) ({ catalog := people }, .free)
        (befriended, .busy (.done result)) := by
      rw [hafter]
      have hbegins : Step people (fun _ => .integer) ({ catalog := people }, .free)
          ({ catalog := people }, .busy (request person friends .insert)) :=
        .begins List.mem_cons_self friends_fit
      exact .head hbegins <|
        Relation.ReflTransGen.lift (p := Step people (fun _ => .integer))
          (fun x : Job World (Outcome Value) × World => (x.2, Writer.busy x.1))
          (fun _ _ h => .moves h) _ _ (Job.moves_of_alone halone)
    exact ⟨row, hrow, stored_refers people (fun _ => .integer) (by decide) { catalog := people }
      befriended _ rfl rfl hruns "Person" "2" row hrow⟩

end LiveRecords.References

import LiveRecords.Proofs.Live.Polling
import LiveRecords.Proofs.Query.Widening
import LiveRecords.Proofs.Query.Window

/-
  What a live query tells first.

  A live query reads the entities behind it in full and shapes them itself; a query is
  widened by the layer above the store and shaped by the store. Both have the same
  predicate, the same order and, after widening, the same paths (`Query.shaping_eq`), so
  the entities read, once they are shaped, are the results of the query with its window
  cleared (`Query.answer_widened`). A tracker that has read nothing yet tells each of
  them as created, in the order read, be it of a snapshot (`Tracker.snapshot_tells`) or
  of a poll (`Tracker.diff_tells`).
-/

namespace LiveRecords

/-! ## Paths of a widened query -/

/-- A reference leads to the type that it names. -/
def Catalog.Holds (c : Catalog) (ref : EntityRef) : Prop := (c.resolve ref).ref = ref

theorem ValueType.entity?_eq_some {type : ValueType} {ref : EntityRef}
    (h : type.entity? = some ref) : type = .entity ref := by
  cases type with
  | entity ref' =>
    cases h
    rfl
  | _ => cases h

namespace Expansion

variable {c : Catalog}

/-- A path that starts from a given type, an entity type being one of the catalogue. -/
structure StartsFrom (c : Catalog) (type : ValueType) (p : PropertyPath) : Prop where
  same : p.rootType.same type = true
  holds : ∀ ref, p.rootType = .entity ref → c.Holds ref

theorem closed_startsFrom (type : ValueType) : Closed c (StartsFrom c type) := by
  have hparent : ∀ {p q : PropertyPath}, StartsFrom c type p → p.parent? = some q →
      StartsFrom c type q := by
    intro p q h hq
    unfold PropertyPath.parent? at hq
    cases hlast : p.parents.getLast? with
    | none =>
      rw [hlast] at hq
      cases hq
    | some last =>
      rw [hlast] at hq
      cases hq
      exact ⟨h.same, h.holds⟩
  refine ⟨hparent, fun {p q} h hq => ?_, fun h _ _ => ⟨h.same, h.holds⟩⟩
  -- a property beside the last one of the path
  unfold inputs at hq
  cases hdeclaring : declaring? c p with
  | none =>
    rw [hdeclaring] at hq
    cases hq
  | some t =>
    rw [hdeclaring] at hq
    obtain ⟨name, _, hname⟩ := List.mem_filterMap.1 hq
    obtain ⟨r, _, hsibling⟩ := Option.bind_eq_some_iff.1 hname
    unfold sibling? at hsibling
    cases hp : p.parent? with
    | some parent =>
      rw [hp] at hsibling
      cases hsibling
      have hq := hparent h hp
      exact ⟨hq.same, hq.holds⟩
    | none =>
      rw [hp, hdeclaring] at hsibling
      cases hsibling
      unfold declaring? at hdeclaring
      rw [hp] at hdeclaring
      obtain ⟨ref, href, rfl⟩ := Option.map_eq_some_iff.1 hdeclaring
      have htype : p.rootType = .entity ref := ValueType.entity?_eq_some href
      have hsame : (c.resolve ref).asType = p.rootType := by
        rw [htype]
        exact congrArg ValueType.entity (h.holds ref htype)
      refine ⟨?_, fun ref' href' => h.holds ref' (hsame ▸ href')⟩
      show ((c.resolve ref).asType).same type = true
      rw [hsame]
      exact h.same

end Expansion

namespace Query

variable {c : Catalog} {q : Query} {run : Query.Compiled}

/-- The entity types that the results of a query and its paths start from are those of
the catalogue. -/
structure Named (c : Catalog) (q : Query) : Prop where
  result : ∀ ref, q.objectType = .entity ref → c.Holds ref
  paths : ∀ p ∈ q.properties, ∀ ref, p.rootType = .entity ref → c.Holds ref

/-- The entity type of the results is the one they are said to have. -/
theorem Named.objectType_eq (named : q.Named c) {t : EntityType} (h : q.resultType? c = some t) :
    q.objectType = t.asType := by
  unfold resultType? at h
  cases hmapping : q.mapping with
  | none =>
    rw [hmapping] at h
    cases h
    unfold objectType
    rw [hmapping]
  | some m =>
    rw [hmapping] at h
    obtain ⟨ref, href, rfl⟩ := Option.map_eq_some_iff.1 h
    have hentity : q.objectType = .entity ref := by
      unfold objectType
      rw [hmapping]
      exact ValueType.entity?_eq_some href
    rw [hentity]
    exact (congrArg ValueType.entity (named.result ref hentity)).symm

theorem Named.expand (named : q.Named c) (checked : q.Checked) :
    ∀ p ∈ Expansion.expand c q.properties (q.resultType? c),
      Expansion.StartsFrom c q.objectType p := by
  refine Expansion.forall_foldl
    (fun found p => (Expansion.closed_startsFrom q.objectType).add _ [] found p) nofun
    fun p hp => ?_
  rcases List.mem_append.1 hp with hp | hp
  · exact ⟨checked.rooted p hp, named.paths p hp⟩
  · cases hresult : q.resultType? c with
    | none =>
      rw [hresult] at hp
      cases hp
    | some t =>
      rw [hresult] at hp
      obtain ⟨r, _, rfl⟩ := List.mem_map.1 hp
      have htype := named.objectType_eq hresult
      refine ⟨?_, fun ref href => named.result ref (htype.trans href)⟩
      rw [htype]
      exact beq_self_eq_true t.name

/-- A query for whole entities is not widened. -/
theorem withMandatory_of_whole (c : Catalog) (h : q.properties = []) : q.withMandatory c = q := by
  unfold withMandatory
  rw [h]
  rfl

theorem entity_withMandatory (c : Catalog) (q : Query) : (q.withMandatory c).entity = q.entity := by
  by_cases hnone : q.properties = []
  · rw [withMandatory_of_whole c hnone]
  · rw [withMandatory_eq c hnone]

theorem checked_withMandatory (named : q.Named c) (checked : q.Checked) :
    (q.withMandatory c).Checked := by
  by_cases hnone : q.properties = []
  · rw [withMandatory_of_whole c hnone]
    exact checked
  · rw [withMandatory_eq c hnone]
    exact ⟨checked.arguments, checked.boolean, fun p hp => (named.expand checked p hp).same⟩

/-! ## The queries behind a live query -/

/-- A live query shapes what it reads by the widened query. -/
theorem shaping_eq (c : Catalog) (q : Query) :
    q.shaping c = (q.clearPaging.withMandatory c).compile := by
  unfold shaping
  by_cases hnone : q.properties = []
  · rw [withMandatory_of_whole c (q := q.clearPaging) hnone, if_pos (List.isEmpty_iff.2 hnone)]
    unfold clearPaging addProperties
    rw [hnone]
    rfl
  · unfold withMandatory
    have hsome : ¬q.clearPaging.properties.isEmpty = true := fun h => hnone (List.isEmpty_iff.1 h)
    rw [if_neg hsome, if_neg fun h => hnone (List.isEmpty_iff.1 h)]
    rfl

theorem compile_withMandatory (compiled : q.compile = .ok run) :
    (q.withMandatory c).compile =
      .ok { run with properties := (q.withMandatory c).properties } := by
  by_cases hnone : q.properties = []
  · rw [withMandatory_of_whole c hnone, compiled, ← properties_of_compile compiled]
  · rw [withMandatory_eq c hnone]
    exact compile_withProperties compiled _

/-- The compiled query, widened and without a window. -/
def Compiled.widened (run : Compiled) (paths : List PropertyPath) : Compiled :=
  { run with skip := 0, limit := none, properties := paths }

theorem Checked.raw (h : q.Checked) : q.raw.Checked := by
  obtain ⟨hpredicate, _, hsorting⟩ := arguments_iff.1 h.arguments
  exact ⟨arguments_iff.2 ⟨hpredicate, nofun, hsorting⟩, h.boolean, nofun⟩

theorem compile_widened (c : Catalog) (compiled : q.compile = .ok run) :
    (q.clearPaging.withMandatory c).compile =
      .ok (run.widened (q.clearPaging.withMandatory c).properties) :=
  compile_withMandatory (compile_within compiled none none)

/-- The entities that a live query reads, once it has shaped them, are the results of the
query with its window cleared, as they come through the layer that widens projections. -/
theorem answer_widened (s : Store) (named : q.Named c) (checked : q.Checked)
    (compiled : q.compile = .ok run) :
    s.answer (q.clearPaging.withMandatory c) =
      .ok ((s.query q.raw run.raw).map
        (run.widened (q.clearPaging.withMandatory c).properties).shape) := by
  have hclear : q.clearPaging.Named c := ⟨named.result, named.paths⟩
  have hentity : (q.clearPaging.withMandatory c).entity = q.entity :=
    entity_withMandatory c q.clearPaging
  have hwhole : (s.query q.raw run.raw) = run.raw.select (s.documents q.entity.name) := by
    have hshape : run.raw.shape = id := funext (Compiled.shape_eq rfl rfl)
    show (run.raw.select _).map run.raw.shape = _
    rw [hshape, List.map_id]
    rfl
  unfold Store.answer
  rw [(checked_withMandatory hclear (checked.within none none)).prepare_eq,
    compile_widened c compiled, hwhole]
  show Except.ok (((run.widened _).select (s.documents _)).map _) = _
  rw [hentity]
  rfl

end Query

/-! ## What a tracker tells first -/

namespace Tracker

variable {t : Tracker} {entities : List Value}

/-- Every entity of a list has a key, and they all match. -/
def Admits (t : Tracker) (entities : List Value) : Prop :=
  ∀ v ∈ entities, t.query.admits v = true ∧ (t.entity.keyTextOf? v).isSome = true

/-- The entities are taken as they come. -/
theorem keyed_values (admits : t.Admits entities) : (t.keyed entities).map (·.2) = entities := by
  unfold keyed
  rw [List.filter_eq_self.2 fun v hv => (admits v hv).1, List.map_filterMap]
  induction entities with
  | nil => rfl
  | cons v rest ih =>
    obtain ⟨key, hkey⟩ := Option.isSome_iff_exists.1 (admits v List.mem_cons_self).2
    have hfirst : ((t.entity.keyTextOf? v).map fun key => (key, v)).map (·.2) = some v := by
      rw [hkey]
      rfl
    rw [List.filterMap_cons, hfirst, ih fun w hw => admits w (List.mem_cons_of_mem _ hw)]

/-- A snapshot is told entity by entity. -/
theorem snapshot_tells (admits : t.Admits entities) (versions : Keyed Nat) :
    (t.snapshot ⟨entities, versions⟩).1 =
      (entities.map t.query.shape).map Notification.create := by
  have hkeyed := keyed_values admits
  show (t.keyed entities).map (fun entry => t.shaped (.create entry.2)) = _
  rw [← hkeyed, List.map_map, List.map_map, hkeyed]
  rfl

/-- The first poll is told entity by entity too. -/
theorem diff_tells (blank : t.Blank) (admits : t.Admits entities)
    (distinct : (entities.filterMap t.entity.keyTextOf?).Nodup) :
    (t.diff entities).1 = (entities.map t.query.shape).map Notification.create := by
  have hkeys := keyed_distinct distinct
  -- nothing was tracked before, so nothing has gone and all that is found arrives
  have hstates : t.states entities =
      (t.keyed entities).map fun entry => (entry.1, some entry.2) := by
    unfold states
    dsimp only
    rw [blank.matched, arrivals_eq hkeys, List.map_map]
    refine List.map_congr_left fun entry hin => ?_
    exact congrArg (Prod.mk entry.1) (Keyed.get?_putAll_of_mem hkeys hin [])
  have hvalues := keyed_values admits
  rw [diff_eq, hstates, transitions_found hkeys fun entry _ => by rw [blank.matched]; rfl]
  show ((t.keyed entities).map fun entry => .create entry.2).map t.shaped = _
  rw [← hvalues, List.map_map, List.map_map, List.map_map, hvalues]
  rfl

end Tracker

/-! ## What it reads first -/

namespace Query

variable {owners : Owners} {s : Store} {c : Catalog} {q : Query} {run : Query.Compiled}

/-- The tracker of a live query that has read nothing yet. -/
def tracker (c : Catalog) (q : Query) (run : Compiled) : Tracker :=
  { entity := q.entity, query := run.widened (q.clearPaging.withMandatory c).properties }

/-- What it reads are entities that match and have keys. -/
theorem admits_raw (wf : s.WellFormed owners) (owned : owners q.entity.name = q.entity) :
    (q.tracker c run).Admits (s.query q.raw run.raw) := by
  intro v hv
  have hwhole : run.raw.Whole := ⟨rfl, rfl, rfl, rfl⟩
  obtain ⟨⟨key, row, hrow, rfl⟩, hadmits⟩ := (Store.mem_snapshot (q := q.raw) wf hwhole).1 hv
  have hkeyed := (wf.table q.entity.name).keyed hrow
  rw [owned] at hkeyed
  refine ⟨hadmits, ?_⟩
  show (q.entity.keyTextOf? row.value).isSome = true
  rw [hkeyed]
  rfl

/-- A live query begins with the results of the query with its window cleared, all told as
created, whether it reads a snapshot or polls. -/
theorem begins (wf : s.WellFormed owners) (owned : owners q.entity.name = q.entity)
    (named : q.Named c) (checked : q.Checked) (compiled : q.compile = .ok run) :
    ∃ found, s.answer (q.clearPaging.withMandatory c) = .ok found ∧
      ((q.tracker c run).opened (s.snapshot q.raw run.raw)).1 =
        found.map (Except.ok ∘ Notification.create) ∧
      ((q.tracker c run).polled (.ok (s.query q.raw run.raw))).1 =
        found.map (Except.ok ∘ Notification.create) := by
  have hadmits : (q.tracker c run).Admits (s.query q.raw run.raw) := admits_raw wf owned
  have hwhole : run.raw.Whole := ⟨rfl, rfl, rfl, rfl⟩
  have hdistinct := Store.snapshot_distinct (q := q.raw) wf hwhole owned
  refine ⟨_, answer_widened s named checked compiled, ?_, ?_⟩
  · show ((q.tracker c run).snapshot ⟨s.query q.raw run.raw, _⟩).1.map Except.ok = _
    rw [Tracker.snapshot_tells hadmits, List.map_map]
    rfl
  · show ((q.tracker c run).diff (s.query q.raw run.raw)).1.map Except.ok = _
    rw [Tracker.diff_tells ⟨rfl, rfl⟩ hadmits hdistinct, List.map_map]
    rfl

end Query

end LiveRecords

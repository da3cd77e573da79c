import LiveRecords.Expr.Typed
import LiveRecords.Proofs.Document.Likeness
import LiveRecords.Proofs.Query.Window
import LiveRecords.Proofs.Store.Reading

/-
  Aggregations told by queries.

  The count is the number of results of the query. The least and the greatest value of
  an operand are found in one pass over the entities, that keeps the first of several
  values that sort as one (`Aggregate.extreme_concat`). Sorting keeps the first of them
  in front as well (`SortKey.head?_sort_concat`); so the value found is that of the
  first result of the query for the entities that have one, sorted by it
  (`Query.aggregates_agree`). That needs values that are sortable.
-/

namespace LiveRecords

/-! ## One pass -/

namespace Aggregate

/-- The values that one pass compares. -/
def present (values : List Value) : List Value := values.filter fun v => !v.isNull

theorem present_map (f : Value → Value) (entities : List Value) :
    present (entities.map f) = (entities.filter fun v => !(f v).isNull).map f := List.filter_map

theorem present_concat {v : Value} (h : v.isNull = false) (values : List Value) :
    present (values ++ [v]) = present values ++ [v] := by
  unfold present
  rw [List.filter_append, List.filter_singleton, h]
  rfl

theorem extreme_concat_null (wanted : Ordering) (values : List Value) :
    extreme wanted (values ++ [.null]) = extreme wanted values := by
  have hpresent : (values ++ [Value.null]).filter (fun v => !v.isNull) =
      values.filter fun v => !v.isNull := by
    rw [List.filter_append]
    exact List.append_nil _
  unfold extreme
  rw [hpresent]

/-- The first value that is there is taken. -/
theorem extreme_concat_first (wanted : Ordering) {values : List Value} {v : Value}
    (h : v.isNull = false) (none : present values = []) :
    extreme wanted (values ++ [v]) = v := by
  have hpresent := present_concat h values
  rw [none] at hpresent
  unfold present at hpresent
  unfold extreme
  rw [hpresent]
  rfl

/-- A further one is taken if it goes before the one found. -/
theorem extreme_concat (wanted : Ordering) {values : List Value} {v : Value}
    (h : v.isNull = false) (some : present values ≠ []) :
    extreme wanted (values ++ [v]) =
      if v.sortOrder (extreme wanted values) = wanted then v else extreme wanted values := by
  have hpresent := present_concat h values
  unfold present at hpresent some
  unfold extreme
  rw [hpresent]
  cases hvalues : values.filter fun v => !v.isNull with
  | nil => exact absurd hvalues some
  | cons first rest =>
    show (rest ++ [v]).foldl _ first = _
    rw [List.foldl_append]
    simp only [List.foldl_cons, List.foldl_nil, beq_iff_eq]

/-- What one pass looks for: smaller values first, or greater ones. -/
def direction (ascending : Bool) : Ordering := if ascending then .lt else .gt

theorem compare_eq_lt {f : Value → Value} {ascending : Bool} {a b : Value} :
    SortKey.compare [⟨f, ascending⟩] a b = .lt ↔
      (f a).sortOrder (f b) = direction ascending := by
  rw [SortKey.compare_cons, SortKey.compare_nil]
  unfold SortKey.order direction
  cases ascending <;> cases (f a).sortOrder (f b) <;> simp

/-- The value of the first of the entities that have one, sorted by it. -/
def first? (f : Value → Value) (ascending : Bool) (entities : List Value) : Option Value :=
  (SortKey.sort [⟨f, ascending⟩] (entities.filter fun v => !(f v).isNull)).head?.map f

/-- That value is there. -/
theorem first?_ne_null (f : Value → Value) (ascending : Bool) (entities : List Value) :
    first? f ascending entities ≠ some .null := by
  intro h
  obtain ⟨v, hfirst, hv⟩ := Option.map_eq_some_iff.1 h
  have hin := (SortKey.sort_perm _ _).subset (List.mem_of_mem_head? hfirst)
  have hnull := (List.mem_filter.1 hin).2
  rw [hv] at hnull
  cases hnull

/-- One pass finds the first value. -/
theorem extreme_eq_first {f : Value → Value} (ascending : Bool) {entities : List Value}
    (sortable : ∀ v ∈ entities, (f v).Sortable) :
    extreme (direction ascending) (entities.map f) =
      (first? f ascending entities).getD .null := by
  unfold first?
  induction entities using List.reverseRecOn with
  | nil => rfl
  | append_singleton entities v ih =>
    have ih := ih fun w hw => sortable w (List.mem_append_left _ hw)
    rw [List.map_append, List.map_singleton, List.filter_append]
    cases hnull : (f v).isNull with
    | true =>
      have hnone : [v].filter (fun v => !(f v).isNull) = [] := by
        rw [List.filter_singleton, hnull]
        rfl
      rw [hnone, List.append_nil, Value.eq_null_of_isNull hnull, extreme_concat_null, ih]
    | false =>
      have hone : [v].filter (fun v => !(f v).isNull) = [v] := by
        rw [List.filter_singleton, hnull]
        rfl
      rw [hone]
      have hmap := present_map f entities
      generalize hheld : entities.filter (fun v => !(f v).isNull) = held at ih hmap ⊢
      have hsortable : ∀ w ∈ held ++ [v], SortKey.Sortable [⟨f, ascending⟩] w := by
        intro w hw key hkey
        obtain rfl := List.mem_singleton.1 hkey
        refine sortable w ?_
        rw [List.mem_append] at hw ⊢
        exact hw.imp_left fun hin => List.mem_of_mem_filter (hheld ▸ hin)
      cases hfirst : (SortKey.sort [⟨f, ascending⟩] held).head? with
      | none =>
        have hnone : held = [] := by
          have hperm := SortKey.sort_perm [⟨f, ascending⟩] held
          rw [List.head?_eq_none_iff.1 hfirst] at hperm
          exact hperm.nil_eq.symm
        subst hnone
        rw [extreme_concat_first _ hnull hmap]
        rfl
      | some first =>
        have hsome : present (entities.map f) ≠ [] := by
          intro hnone
          rw [hmap, List.map_eq_nil_iff] at hnone
          rw [hnone] at hfirst
          cases hfirst
        rw [hfirst] at ih
        rw [extreme_concat _ hnull hsome, ih, SortKey.head?_sort_concat hsortable hfirst]
        show (if (f v).sortOrder (f first) = direction ascending then f v else f first) =
          f (if _ then v else first)
        rw [apply_ite f]
        exact if_congr compare_eq_lt.symm rfl rfl

end Aggregate

/-! ## Asking for aggregations -/

/-- What a store makes of an aggregation of the entities that a query selects. -/
def Store.reckon (s : Store) (q : Query) (a : Aggregate) : Outcome Value := do
  let run ← q.prepare
  let operand ← a.prepare
  return s.aggregate q run a operand

/-- An aggregation, alone in a quiet world, comes to what the store makes of it. -/
theorem Handler.alone_aggregate {w : World} (quiet : w.Quiet) (q : Query) (a : Aggregate) :
    (Handler.ofStore (.aggregate q a)).run.alone w = some (w.store.reckon q a, w) := by
  show (Backend.aggregate q a).run.alone w = _
  unfold Backend.aggregate Store.reckon
  cases hrun : q.prepare with
  | error e => rfl
  | ok run =>
    cases hoperand : a.prepare with
    | error e => rfl
    | ok operand =>
      rw [Work.alone_bind_ok (Work.alone_outcome rfl w),
        Work.alone_bind_ok (Work.alone_outcome rfl w),
        Work.alone_bind_ok (Backend.alone_prepare q.entity quiet)]
      rfl

namespace Query

/-- A query for whole entities in no order, from the first to the last. -/
structure Bare (q : Query) : Prop where
  sorting : q.sorting = []
  skip : q.skip = none
  limit : q.limit = none
  mapping : q.mapping = none
  properties : q.properties = []

/-- The query for the value of an operand that comes first, of those that are there. -/
def firstBy (q : Query) (e : Expr) (ascending : Bool) : Query :=
  { (q.filter (Typed.ofExpr e).isNotNull.node).sort e ascending with
    mapping := some e
    limit := some 1 }

/-- The compiled form of that query. -/
def Compiled.firstBy (run : Compiled) (f : Value → Value) (ascending : Bool) : Compiled :=
  { predicate := some fun v => .bool (run.admits v && !(f v).isNull)
    mapping := some f
    keys := [⟨f, ascending⟩]
    skip := 0
    limit := some 1
    properties := [] }

variable {q : Query} {run : Compiled} {e : Expr} {f : Value → Value}

/-! ### The query behind an aggregation -/

theorem compile_unary {kind : Kind} {op : Value → Value} (evaluable : kind.isAggregate = false)
    (known : Operation.unary? kind = some op) (c : Capability) (e : Expr) :
    (Expr.unary kind c e).compile = e.compile.map fun f v => op (f v) := by
  rw [Expr.compile, evaluable, known]
  cases e.compile <;> rfl

theorem compile_isNotNull (e : Expr) :
    (Typed.ofExpr e).isNotNull.node.compile =
      e.compile.map fun f v => .bool (!(f v).isNull) := by
  show (Expr.unary .not .boolean (.unary .isNull .boolean e)).compile = _
  rw [compile_unary rfl rfl, compile_unary rfl rfl]
  cases e.compile <;> rfl

/-- The entities that a query asks for and that have a value of an operand. -/
theorem compile_narrowed (compiled : q.compile = .ok run) (e : Expr) :
    (q.filter (Typed.ofExpr e).isNotNull.node).predicate.mapM Expr.compile =
      e.compile.map fun f => some fun v => .bool (run.admits v && !(f v).isNull) := by
  unfold compile at compiled
  obtain ⟨predicate, hpredicate, compiled⟩ := Outcome.bind_ok compiled
  obtain ⟨_, _, compiled⟩ := Outcome.bind_ok compiled
  obtain ⟨_, _, compiled⟩ := Outcome.bind_ok compiled
  cases compiled
  have hnode := compile_isNotNull e
  unfold filter
  cases hq : q.predicate with
  | none =>
    rw [hq] at hpredicate
    cases hpredicate
    show some <$> (Typed.ofExpr e).isNotNull.node.compile = _
    rw [hnode]
    cases e.compile <;> rfl
  | some p =>
    rw [hq] at hpredicate
    obtain ⟨g, hg, hsome⟩ := Outcome.bind_ok hpredicate
    cases hsome
    show some <$> (Expr.binary .and .boolean p (Typed.ofExpr e).isNotNull.node).compile = _
    rw [Expr.compile, hg, hnode]
    cases e.compile <;> rfl

theorem firstBy_eq (bare : q.Bare) (e : Expr) (ascending : Bool) :
    q.firstBy e ascending =
      { entity := q.entity
        predicate := (q.filter (Typed.ofExpr e).isNotNull.node).predicate
        mapping := some e
        sorting := [⟨e, ascending⟩]
        limit := some 1 } := by
  obtain ⟨entity, predicate, mapping, sorting, skip, limit, properties⟩ := q
  obtain ⟨rfl, rfl, rfl, rfl, rfl⟩ := bare
  cases predicate <;> rfl

/-- The query compiles if the operand does, and else fails as that does. -/
theorem compile_firstBy (compiled : q.compile = .ok run) (bare : q.Bare) (e : Expr)
    (ascending : Bool) :
    (q.firstBy e ascending).compile = e.compile.map fun f => run.firstBy f ascending := by
  rw [firstBy_eq bare]
  unfold compile
  dsimp only
  rw [compile_narrowed compiled]
  cases hcompile : e.compile with
  | error err => rfl
  | ok f =>
    have hmapping : (some e).mapM Expr.compile = .ok (some f) := by
      show some <$> e.compile = _
      rw [hcompile]
      rfl
    have hkeys : ([Sorting.mk e ascending].mapM fun s => SortKey.compile s.expr s.ascending) =
        .ok [⟨f, ascending⟩] := by
      rw [List.mapM_cons, SortKey.compile, hcompile]
      rfl
    rw [hmapping, hkeys]
    rfl

theorem checked_firstBy (checked : q.Checked) (bare : q.Bare) (about : e.StartsAbout q.entity.name)
    (ascending : Bool) : (q.firstBy e ascending).Checked := by
  have hnode : (Typed.ofExpr e).isNotNull.node.StartsAbout q.entity.name := about
  rw [firstBy_eq bare]
  refine ⟨arguments_iff.2 ⟨fun p hp => ?_, fun m hm => ?_, fun s hs => ?_⟩, fun p hp => ?_, nofun⟩
  · unfold filter at hp
    cases hq : q.predicate with
    | none =>
      rw [hq] at hp
      cases hp
      exact hnode
    | some old =>
      rw [hq] at hp
      cases hp
      exact ((arguments_iff.1 checked.arguments).1 old hq).binary hnode
  · cases hm
    exact about
  · obtain rfl := List.mem_singleton.1 hs
    exact about
  · unfold filter at hp
    cases hq : q.predicate with
    | none =>
      rw [hq] at hp
      cases hp
      rfl
    | some old =>
      rw [hq] at hp
      cases hp
      rfl

/-- A query for whole entities selects those that it admits. -/
theorem select_of_bare (compiled : q.compile = .ok run) (bare : q.Bare) (entities : List Value) :
    run.select entities = entities.filter run.admits := by
  unfold compile at compiled
  obtain ⟨predicate, _, compiled⟩ := Outcome.bind_ok compiled
  obtain ⟨_, _, compiled⟩ := Outcome.bind_ok compiled
  obtain ⟨keys, hkeys, compiled⟩ := Outcome.bind_ok compiled
  cases compiled
  rw [bare.sorting] at hkeys
  cases hkeys
  unfold Compiled.select
  rw [bare.skip, bare.limit]
  rfl

variable {s : Store}

/-- What such a query returns. -/
theorem answer_firstBy (checked : q.Checked) (compiled : q.compile = .ok run) (bare : q.Bare)
    (about : e.StartsAbout q.entity.name) (ascending : Bool) :
    s.answer (q.firstBy e ascending) = e.compile.map fun f =>
      (Aggregate.first? f ascending ((s.documents q.entity.name).filter run.admits)).toList := by
  have hentity : (q.firstBy e ascending).entity = q.entity := by rw [firstBy_eq bare]
  unfold Store.answer Store.query
  rw [(checked_firstBy checked bare about ascending).prepare_eq, compile_firstBy compiled bare,
    hentity]
  cases e.compile with
  | error err => rfl
  | ok f =>
    have hshape : (run.firstBy f ascending).shape = f := rfl
    have hfilter : (s.documents q.entity.name).filter (run.firstBy f ascending).admits =
        ((s.documents q.entity.name).filter run.admits).filter fun v => !(f v).isNull := by
      rw [List.filter_filter]
      exact List.filter_congr fun v _ => Bool.and_comm ..
    show Except.ok ((run.firstBy f ascending).execute _) = Except.ok _
    unfold Compiled.execute Compiled.select
    rw [Compiled.sorted_eq, hfilter, hshape]
    show Except.ok (((SortKey.sort [⟨f, ascending⟩] _).take 1).map f) =
      Except.ok ((SortKey.sort [⟨f, ascending⟩] _).head?.map f).toList
    rw [List.take_one, Option.toList_map]

/-- The least or the greatest value of an operand. -/
def extremum (e : Expr) (ascending : Bool) : Aggregate := if ascending then .min e else .max e

/-- What the store finds in one pass. -/
theorem reckon_extremum (checked : q.Checked) (compiled : q.compile = .ok run) (bare : q.Bare)
    (ascending : Bool) (sortable : ∀ f, e.compile = .ok f → ∀ v ∈ s.documents q.entity.name,
      run.admits v = true → (f v).Sortable) :
    s.reckon q (extremum e ascending) = e.compile.map fun f =>
      (Aggregate.first? f ascending
        ((s.documents q.entity.name).filter run.admits)).getD .null := by
  have hprepare : (extremum e ascending).prepare = e.compile.map some := by
    have hsome : (extremum e ascending).prepare = some <$> e.compile := by
      cases ascending <;> rfl
    rw [hsome]
    cases e.compile <;> rfl
  unfold Store.reckon
  rw [checked.prepare_eq, compiled, hprepare]
  cases hcompile : e.compile with
  | error err => rfl
  | ok f =>
    show Except.ok (s.aggregate q run (extremum e ascending) (some f)) =
      Except.ok ((Aggregate.first? f ascending _).getD .null)
    rw [← Aggregate.extreme_eq_first]
    · unfold Store.aggregate Aggregate.over
      rw [select_of_bare compiled bare]
      cases ascending <;> rfl
    · intro v hv
      obtain ⟨hin, hadmits⟩ := List.mem_filter.1 hv
      exact sortable f hcompile v hin hadmits

/-- The count is the number of results. -/
theorem reckon_count (s : Store) (q : Query) :
    s.reckon q .count = (s.answer q).map fun found => .int found.length := by
  unfold Store.reckon Store.answer
  cases q.prepare with
  | error e => rfl
  | ok run =>
    show Except.ok (Value.int ((run.select (s.documents q.entity.name)).map _).length) =
      Except.ok (Value.int ((run.select (s.documents q.entity.name)).map run.shape).length)
    rw [List.length_map, List.length_map]

/-- The count is the number of results of the query. Of the values that an operand has
over the entities that a query asks for, the least and the greatest are what the query
for the first of them returns, and null just if that returns nothing. -/
theorem aggregates_agree {w : World} (quiet : w.Quiet) (valid : q.validate = .ok ()) :
    (Handler.ofStore (.aggregate q .count)).run.alone w =
        some ((w.store.answer q).map fun found => .int found.length, w) ∧
      ∀ e ascending, q.Bare → e.StartsAbout q.entity.name →
        (∀ run f, q.compile = .ok run → e.compile = .ok f →
          ∀ v ∈ w.store.documents q.entity.name, run.admits v = true → (f v).Sortable) →
        (Handler.ofStore (.aggregate q (extremum e ascending))).run.alone w =
            some ((w.store.answer (q.firstBy e ascending)).map fun found => found.head?.getD .null,
              w) ∧
          ((Handler.ofStore (.aggregate q (extremum e ascending))).run.alone w =
              some (.ok .null, w) ↔
            w.store.answer (q.firstBy e ascending) = .ok []) := by
  obtain ⟨checked, run, compiled⟩ := validate_eq_ok.1 valid
  refine ⟨?_, fun e ascending bare about sortable => ?_⟩
  · rw [Handler.alone_aggregate quiet, reckon_count]
  · rw [Handler.alone_aggregate quiet,
      reckon_extremum checked compiled bare ascending fun f => sortable run f compiled,
      answer_firstBy checked compiled bare about]
    cases e.compile with
    | error err => exact ⟨rfl, fun h => (nomatch h), fun h => (nomatch h)⟩
    | ok f =>
      have hnull := Aggregate.first?_ne_null f ascending
        ((w.store.documents q.entity.name).filter run.admits)
      simp only [Except.map]
      generalize Aggregate.first? f ascending
        ((w.store.documents q.entity.name).filter run.admits) = first at hnull ⊢
      cases first with
      | none => exact ⟨rfl, fun _ => rfl, fun _ => rfl⟩
      | some v =>
        refine ⟨rfl, fun h => ?_, fun h => (nomatch h)⟩
        have hv : v = .null := Except.ok.inj (Prod.mk.inj (Option.some.inj h)).1
        exact absurd (congrArg some hv) hnull

end Query

namespace Shop

/-- The greatest price is the one that the query for the dearest product returns. -/
theorem shelf_dearest :
    (Handler.ofStore (.aggregate { entity := product } (.max (ofProduct "price" .int)))).run.alone
        shelf =
      some ((shelf.store.answer
        (({ entity := product } : Query).firstBy (ofProduct "price" .int) false)).map
          fun found => found.head?.getD .null, shelf) := by
  have about : (ofProduct "price" .int).StartsAbout "Product" := by
    intro ref href
    cases href
    rfl
  have sortable : ∀ run f, ({ entity := product } : Query).compile = .ok run →
      (ofProduct "price" .int).compile = .ok f →
        ∀ v ∈ shelf.store.documents "Product", run.admits v = true → (f v).Sortable := by
    intro run f _ compiled v hv hadmits
    clear hadmits
    cases compiled
    revert v
    decide +kernel
  exact ((Query.aggregates_agree (w := shelf) (q := { entity := product }) ⟨rfl, rfl⟩ rfl).2 _
    false ⟨rfl, rfl, rfl, rfl, rfl⟩ about sortable).1

example : shelf.store.reckon { entity := product } (.max (ofProduct "price" .int)) = .ok (.int 9) :=
  rfl

end Shop

end LiveRecords

import LiveRecords.Pipeline.Handler
import LiveRecords.Proofs.Pipeline.Backend
import LiveRecords.Proofs.Query.Projection
import LiveRecords.Sample.Shop

/-
  What widening a projection does to its results.

  The expansion keeps all requested paths and adds others, each once
  (`included_expand`, `distinct_expand`), all of the type that the requested ones start
  from (`closed_follows`). A widened query asks for exactly the expanded paths, and it
  is valid if the query was. But the expansion also adds paths below a requested one,
  and that one then only opens the way for them: results are widened exactly if this
  happens to no path that named something, as is the case if those paths end at plain
  properties (`Query.withMandatory_widens`). It happens to the path of a customer
  (`Shop.customer_narrowed`).
-/

namespace LiveRecords

/-! ## Paths that are the same -/

namespace PropertyPath

theorem names_of_sameSegments {ps qs : List Property} (h : sameSegments ps qs = true) :
    ps.map (·.name) = qs.map (·.name) := by
  induction ps generalizing qs with
  | nil =>
    cases qs with
    | nil => rfl
    | cons q qs => cases h
  | cons p ps ih =>
    cases qs with
    | nil => cases h
    | cons q qs =>
      obtain ⟨hfirst, hrest⟩ : p.same q = true ∧ sameSegments ps qs = true := by
        simpa [sameSegments] using h
      have hname : p.name = q.name := by
        simp only [Property.same, Bool.and_eq_true, beq_iff_eq] at hfirst
        exact hfirst.1.1.1.1.1.1
      rw [List.map_cons, List.map_cons, hname, ih hrest]

theorem names_of_same {p q : PropertyPath} (h : p.same q = true) : p.names = q.names := by
  unfold same at h
  exact names_of_sameSegments (Bool.and_eq_true_iff.1 h).2

end PropertyPath

/-! ## The expansion -/

namespace Expansion

variable {c : Catalog}

/-- No path stands twice among the paths. -/
def Distinct (paths : List PropertyPath) : Prop :=
  paths.Pairwise fun earlier later => later.same earlier = false

/-- The paths found and further ones after them, still each once. -/
structure Grows (found grown : List PropertyPath) : Prop where
  kept : found <+: grown
  distinct : Distinct found → Distinct grown

theorem Grows.refl (found : List PropertyPath) : Grows found found := ⟨List.prefix_refl found, id⟩

theorem Grows.trans {a b d : List PropertyPath} (h : Grows a b) (k : Grows b d) : Grows a d :=
  ⟨h.kept.trans k.kept, k.distinct ∘ h.distinct⟩

theorem Grows.included {found grown paths : List PropertyPath} (h : Grows found grown)
    (hin : Projection.Included paths found) : Projection.Included paths grown := by
  intro p hp
  obtain ⟨q, hq, hnames⟩ := hin p hp
  exact ⟨q, h.kept.subset hq, hnames⟩

theorem Grows.foldl {add : List PropertyPath → PropertyPath → List PropertyPath}
    (h : ∀ found p, Grows found (add found p)) (found paths : List PropertyPath) :
    Grows found (paths.foldl add found) := by
  induction paths generalizing found with
  | nil => exact .refl found
  | cons p rest ih => exact (h found p).trans (ih _)

/-- A path that is not there yet can be put after the others. -/
theorem grows_append (found : List PropertyPath) (p : PropertyPath) :
    Grows found (if isIn p found then found else found ++ [p]) := by
  split
  · exact .refl found
  · next hnot =>
    refine ⟨List.prefix_append found [p], fun h => ?_⟩
    refine List.pairwise_append.2 ⟨h, List.pairwise_singleton _ _, fun q hq p' hp' => ?_⟩
    obtain rfl := List.mem_singleton.1 hp'
    have hnone : ¬∃ q ∈ found, p'.same q = true := fun hex => hnot (List.any_eq_true.2 hex)
    exact Bool.eq_false_iff.2 fun hsame => hnone ⟨q, hq, hsame⟩

/-- After that it is there, maybe as another path that is the same. -/
theorem included_append (found : List PropertyPath) (p : PropertyPath) :
    Projection.Included [p] (if isIn p found then found else found ++ [p]) := by
  intro p' hp'
  obtain rfl := List.mem_singleton.1 hp'
  split
  · next hin =>
    obtain ⟨q, hq, hsame⟩ := List.any_eq_true.1 hin
    exact ⟨q, hq, (PropertyPath.names_of_same hsame).symm⟩
  · exact ⟨p', by simp, rfl⟩

/-- Adding a path keeps the paths found, and the path is there if there is fuel. -/
theorem grows_add (fuel : Nat) (entered : List String) (found : List PropertyPath)
    (p : PropertyPath) :
    Grows found (add c fuel entered found p) ∧
      (fuel ≠ 0 → Projection.Included [p] (add c fuel entered found p)) := by
  induction fuel generalizing entered found p with
  | zero => exact ⟨.refl found, fun h => absurd rfl h⟩
  | succ fuel ih =>
    unfold add
    split
    · next hin =>
      have hthere := included_append found p
      rw [if_pos hin] at hthere
      exact ⟨.refl found, fun _ => hthere⟩
    · -- first the parent, then the path, its inputs, and what its type requires
      have hparent : Grows found ((p.parent?.map (add c fuel entered found)).getD found) := by
        cases p.parent? with
        | none => exact .refl found
        | some parent => exact (ih entered found parent).1
      dsimp only
      generalize (p.parent?.map (add c fuel entered found)).getD found = opened at hparent ⊢
      have hinputs := Grows.foldl (fun found p => (ih entered found p).1)
        (if isIn p opened then opened else opened ++ [p]) (inputs c p)
      have hgrows := (hparent.trans (grows_append opened p)).trans hinputs
      have hthere := hinputs.included (included_append opened p)
      cases c.referenced? p.property with
      | none => exact ⟨hgrows, fun _ => hthere⟩
      | some t =>
        dsimp only
        split
        · exact ⟨hgrows, fun _ => hthere⟩
        · have hrequired := Grows.foldl (fun found p => (ih (t.name :: entered) found p).1)
            ((inputs c p).foldl (add c fuel entered)
              (if isIn p opened then opened else opened ++ [p]))
            (t.alwaysRequired.map p.child)
          exact ⟨hgrows.trans hrequired, fun _ => hrequired.included hthere⟩

theorem included_foldl {fuel : Nat} (hfuel : fuel ≠ 0) (entered : List String)
    (found paths : List PropertyPath) :
    Projection.Included paths (paths.foldl (add c fuel entered) found) := by
  induction paths generalizing found with
  | nil => exact nofun
  | cons p rest ih =>
    intro p' hp'
    rcases List.mem_cons.1 hp' with rfl | hin
    · have hrest := Grows.foldl (fun found p => (grows_add (c := c) fuel entered found p).1)
        (add c fuel entered found p') rest
      exact hrest.included ((grows_add fuel entered found p').2 hfuel) p' (by simp)
    · exact ih _ p' hin

theorem included_expand (c : Catalog) (requested : List PropertyPath)
    (result : Option EntityType) :
    Projection.Included requested (expand c requested result) := by
  intro p hp
  have hfuel : ∀ paths, fuelFor c paths ≠ 0 := fun paths => Nat.succ_ne_zero _
  exact included_foldl (hfuel _) [] [] _ p (List.mem_append_left _ hp)

theorem distinct_expand (c : Catalog) (requested : List PropertyPath)
    (result : Option EntityType) : Distinct (expand c requested result) :=
  (Grows.foldl (fun found p => (grows_add _ [] found p).1) [] _).distinct List.Pairwise.nil

/-! ### Paths of a type -/

/-- What holds of a path goes on to hold of its parent, of what it is computed from and
of what the type it leads to requires. -/
structure Closed (c : Catalog) (P : PropertyPath → Prop) : Prop where
  parent : ∀ {p q}, P p → p.parent? = some q → P q
  input : ∀ {p q}, P p → q ∈ inputs c p → P q
  child : ∀ {p t r}, P p → c.referenced? p.property = some t → r ∈ t.alwaysRequired →
    P (p.child r)

theorem forall_foldl {P : PropertyPath → Prop}
    {add : List PropertyPath → PropertyPath → List PropertyPath}
    (hadd : ∀ found p, (∀ q ∈ found, P q) → P p → ∀ q ∈ add found p, P q)
    {found paths : List PropertyPath} (hfound : ∀ q ∈ found, P q) (hpaths : ∀ q ∈ paths, P q) :
    ∀ q ∈ paths.foldl add found, P q := by
  induction paths generalizing found with
  | nil => exact hfound
  | cons p rest ih =>
    exact ih (hadd found p hfound (hpaths p List.mem_cons_self))
      fun q hq => hpaths q (List.mem_cons_of_mem p hq)

theorem Closed.add {P : PropertyPath → Prop} (h : Closed c P) (fuel : Nat)
    (entered : List String) (found : List PropertyPath) (p : PropertyPath)
    (hfound : ∀ q ∈ found, P q) (hp : P p) : ∀ q ∈ add c fuel entered found p, P q := by
  induction fuel generalizing entered found p with
  | zero => exact hfound
  | succ fuel ih =>
    unfold Expansion.add
    split
    · exact hfound
    · have hparent :
          ∀ q ∈ (p.parent?.map (Expansion.add c fuel entered found)).getD found, P q := by
        cases hq : p.parent? with
        | none => exact hfound
        | some q => exact ih entered found q hfound (h.parent hp hq)
      dsimp only
      generalize (p.parent?.map (Expansion.add c fuel entered found)).getD found = opened
        at hparent ⊢
      have hself : ∀ q ∈ (if isIn p opened then opened else opened ++ [p]), P q := by
        split
        · exact hparent
        · intro q hq
          rcases List.mem_append.1 hq with hq | hq
          · exact hparent q hq
          · rwa [List.mem_singleton.1 hq]
      have hinputs := forall_foldl (ih entered) hself fun q hq => h.input hp hq
      cases ht : c.referenced? p.property with
      | none => exact hinputs
      | some t =>
        dsimp only
        split
        · exact hinputs
        · refine forall_foldl (ih (t.name :: entered)) hinputs fun q hq => ?_
          obtain ⟨r, hr, rfl⟩ := List.mem_map.1 hq
          exact h.child hp ht hr

/-- Expanded paths have what the requested ones have. -/
theorem Closed.expand {P : PropertyPath → Prop} (h : Closed c P)
    {requested : List PropertyPath} {t : EntityType} (hrequested : ∀ p ∈ requested, P p)
    (hroot : ∀ r ∈ t.alwaysRequired, P (.root t r)) :
    ∀ p ∈ expand c requested (some t), P p := by
  refine forall_foldl (fun found p => h.add _ [] found p) nofun fun p hp => ?_
  rcases List.mem_append.1 hp with hp | hp
  · exact hrequested p hp
  · obtain ⟨r, hr, rfl⟩ := List.mem_map.1 hp
    exact hroot r hr

/-- Properties that lead from one entity type to the next, starting with a property of
the given one. -/
def Leads (c : Catalog) : Option EntityType → List Property → Prop
  | _, [] => True
  | none, _ :: _ => False
  | some t, p :: rest => p ∈ t.properties ∧ Leads c (c.referenced? p) rest

/-- A path that starts from an entity type and follows its properties. -/
structure Follows (c : Catalog) (t : EntityType) (p : PropertyPath) : Prop where
  rootType : p.rootType = t.asType
  leads : Leads c (some t) p.segments

/-- The entity type that properties lead to. -/
def reached (c : Catalog) : Option EntityType → List Property → Option EntityType
  | start, [] => start
  | _, p :: rest => reached c (c.referenced? p) rest

theorem reached_concat (start : Option EntityType) (ps : List Property) (p : Property) :
    reached c start (ps ++ [p]) = c.referenced? p := by
  induction ps generalizing start with
  | nil => rfl
  | cons q rest ih => exact ih (c.referenced? q)

theorem leads_append {start : Option EntityType} {ps qs : List Property} :
    Leads c start (ps ++ qs) ↔ Leads c start ps ∧ Leads c (reached c start ps) qs := by
  induction ps generalizing start with
  | nil => cases start <;> simp [Leads, reached]
  | cons p rest ih =>
    cases start with
    | none => simp [Leads]
    | some t =>
      show p ∈ t.properties ∧ Leads c (c.referenced? p) (rest ++ qs) ↔ _
      rw [ih, ← and_assoc]
      rfl

theorem follows_root {t : EntityType} {r : Property} (h : r ∈ t.properties) :
    Follows c t (.root t r) := ⟨rfl, h, trivial⟩

/-- From a path to what its last property leads to. -/
theorem Follows.child {t t' : EntityType} {p : PropertyPath} {r : Property}
    (h : Follows c t p) (hto : c.referenced? p.property = some t') (hr : r ∈ t'.properties) :
    Follows c t (p.child r) := by
  refine ⟨h.rootType, leads_append.2 ⟨h.leads, ?_⟩⟩
  have hreached : reached c (some t) (p.child r).parents = some t' :=
    (reached_concat _ p.parents p.property).trans hto
  rw [hreached]
  exact ⟨hr, trivial⟩

theorem Follows.parent {t : EntityType} {p q : PropertyPath} (h : Follows c t p)
    (hq : p.parent? = some q) : Follows c t q := by
  unfold PropertyPath.parent? at hq
  cases hlast : p.parents.getLast? with
  | none =>
    rw [hlast] at hq
    cases hq
  | some last =>
    rw [hlast] at hq
    cases hq
    obtain ⟨above, habove⟩ := List.getLast?_eq_some_iff.1 hlast
    refine ⟨h.rootType, ?_⟩
    show Leads c (some t) (p.parents.dropLast ++ [last])
    rw [habove, List.dropLast_concat, ← habove]
    exact (leads_append.1 h.leads).1

theorem closed_follows {t : EntityType} (placed : c.resolve t.ref = t) :
    Closed c (Follows c t) := by
  refine ⟨Follows.parent, fun {p q} h hq => ?_, fun h hto hr => ?_⟩
  · -- a property beside the last one of the path
    unfold inputs at hq
    cases hdeclaring : declaring? c p with
    | none =>
      rw [hdeclaring] at hq
      cases hq
    | some t' =>
      rw [hdeclaring] at hq
      obtain ⟨name, _, hname⟩ := List.mem_filterMap.1 hq
      obtain ⟨r, hr, hsibling⟩ := Option.bind_eq_some_iff.1 hname
      have hmem : r ∈ t'.properties := List.mem_of_find?_eq_some hr
      unfold sibling? at hsibling
      cases hparent : p.parent? with
      | some parent =>
        unfold declaring? at hdeclaring
        rw [hparent] at hdeclaring hsibling
        cases hsibling
        exact (h.parent hparent).child hdeclaring hmem
      | none =>
        rw [hparent, hdeclaring] at hsibling
        cases hsibling
        unfold declaring? at hdeclaring
        rw [hparent, h.rootType] at hdeclaring
        cases hdeclaring
        show Follows c t (.root (c.resolve t.ref) r)
        rw [placed] at hmem ⊢
        exact follows_root hmem
  · exact h.child hto (List.mem_of_mem_filter hr)

/-! ### Paths that end at plain properties -/

/-- The properties of an entity type have different names, none of them with a point. -/
structure WellNamed (c : Catalog) : Prop where
  distinct : ∀ ref, ((c.resolve ref).properties.map (·.name)).Nodup
  plain : ∀ ref, ∀ p ∈ (c.resolve ref).properties, '.' ∉ p.name.toList

/-- Properties that lead on from one type are told by their names. -/
theorem prefix_of_names (named : WellNamed c) {start : Option EntityType}
    (listed : ∀ t, start = some t → ∃ ref, c.resolve ref = t) {ps qs : List Property}
    (hp : Leads c start ps) (hq : Leads c start qs)
    (h : ps.map (·.name) <+: qs.map (·.name)) : ps <+: qs := by
  induction ps generalizing start qs with
  | nil => exact List.nil_prefix
  | cons p ps ih =>
    cases qs with
    | nil => simp at h
    | cons q qs =>
      cases start with
      | none => exact hp.elim
      | some t =>
        obtain ⟨ref, rfl⟩ := listed t rfl
        rw [List.map_cons, List.map_cons, List.cons_prefix_cons] at h
        have heq : p = q := List.inj_on_of_nodup_map (named.distinct ref) hp.1 hq.1 h.1
        subst heq
        refine List.cons_prefix_cons.2 ⟨rfl, ih (fun t ht => ?_) hp.2 hq.2 h.2⟩
        obtain ⟨ref, _, hresolve⟩ := Option.map_eq_some_iff.1 ht
        exact ⟨ref, hresolve⟩

theorem names_plain (named : WellNamed c) {start : Option EntityType}
    (listed : ∀ t, start = some t → ∃ ref, c.resolve ref = t) {ps : List Property}
    (h : Leads c start ps) : ∀ name ∈ ps.map (·.name), '.' ∉ name.toList := by
  induction ps generalizing start with
  | nil => exact nofun
  | cons p ps ih =>
    cases start with
    | none => exact h.elim
    | some t =>
      obtain ⟨ref, rfl⟩ := listed t rfl
      intro name hname
      rcases List.mem_cons.1 hname with rfl | hname
      · exact named.plain ref p h.1
      · refine ih (fun t ht => ?_) h.2 name hname
        obtain ⟨ref, _, hresolve⟩ := Option.map_eq_some_iff.1 ht
        exact ⟨ref, hresolve⟩

/-- A path that ends at a plain property is not continued by any other of its type. -/
theorem Follows.not_continued (named : WellNamed c) {t : EntityType}
    (placed : c.resolve t.ref = t) {paths : List PropertyPath} {p : PropertyPath}
    (hpaths : ∀ q ∈ paths, Follows c t q) (hp : Follows c t p)
    (hplain : c.referenced? p.property = none) : ¬Projection.Continued paths p := by
  have listed : ∀ t', some t = some t' → ∃ ref, c.resolve ref = t' := by
    intro t' ht
    cases ht
    exact ⟨t.ref, placed⟩
  intro hcontinued
  obtain ⟨q, hq, more, hmore, hnames⟩ := hcontinued.exists_longer
    (names_plain named listed hp.leads)
    fun q hq => names_plain named listed (hpaths q hq).leads
  obtain ⟨rest, hrest⟩ := prefix_of_names named listed hp.leads (hpaths q hq).leads
    ⟨more, hnames.symm⟩
  have hleads := (hpaths q hq).leads
  rw [← hrest] at hleads
  have hreached : reached c (some t) p.segments = none :=
    (reached_concat _ p.parents p.property).trans hplain
  have hbelow := (leads_append.1 hleads).2
  rw [hreached] at hbelow
  -- nothing leads on from a plain property
  cases rest with
  | nil =>
    rw [List.append_nil] at hrest
    have hsame : p.names ++ [] = p.names ++ more := by
      rw [List.append_nil, ← hnames]
      unfold PropertyPath.names
      rw [hrest]
    exact hmore (List.append_cancel_left hsame).symm
  | cons r rest => exact hbelow

end Expansion

/-! ## Widened queries -/

namespace Query

theorem addProperties_of_distinct {q : Query} {ps : List PropertyPath}
    (h : Expansion.Distinct (q.properties ++ ps)) :
    q.addProperties ps = { q with properties := q.properties ++ ps } := by
  induction ps generalizing q with
  | nil =>
    rw [List.append_nil]
    rfl
  | cons p rest ih =>
    have hnew : q.properties.any p.same = false := by
      rw [List.any_eq_false]
      intro earlier hin
      have hfirst := (List.pairwise_append.1 h).2.2 earlier hin p List.mem_cons_self
      rw [hfirst]
      exact Bool.false_ne_true
    have hstep : q.addProperty p = { q with properties := q.properties ++ [p] } := by
      unfold addProperty
      rw [hnew]
      rfl
    show (q.addProperty p).addProperties rest = _
    rw [hstep, ih (by simpa using h)]
    simp

/-- A widened query asks for the expanded paths, otherwise for the same. -/
theorem withMandatory_eq (c : Catalog) {q : Query} (hne : q.properties ≠ []) :
    q.withMandatory c =
      { q with properties := Expansion.expand c q.properties (q.resultType? c) } := by
  unfold withMandatory
  rw [if_neg (by simpa using hne)]
  rw [addProperties_of_distinct (by simpa using Expansion.distinct_expand c q.properties _)]
  rfl

/-- The paths play no part in compiling. -/
theorem compile_withProperties {q : Query} {run : Compiled} (h : q.compile = .ok run)
    (properties : List PropertyPath) :
    compile { q with properties := properties } = .ok { run with properties := properties } := by
  unfold compile at h ⊢
  obtain ⟨predicate, hpredicate, h⟩ := Outcome.bind_ok h
  obtain ⟨mapping, hmapping, h⟩ := Outcome.bind_ok h
  obtain ⟨keys, hkeys, h⟩ := Outcome.bind_ok h
  cases h
  rw [hpredicate, hmapping, hkeys]
  rfl

theorem properties_of_compile {q : Query} {run : Compiled} (h : q.compile = .ok run) :
    run.properties = q.properties := by
  unfold compile at h
  obtain ⟨_, _, h⟩ := Outcome.bind_ok h
  obtain ⟨_, _, h⟩ := Outcome.bind_ok h
  obtain ⟨_, _, h⟩ := Outcome.bind_ok h
  cases h
  rfl

/-- A valid query stays valid when it asks for other paths that start from the type of its
results. -/
theorem prepare_withProperties {q : Query} {run : Compiled} (h : q.prepare = .ok run)
    {properties : List PropertyPath}
    (hstart : ∀ p ∈ properties, p.rootType.same q.objectType = true) :
    prepare { q with properties := properties } = .ok { run with properties := properties } := by
  have hcompile := compile_withProperties (compile_of_prepare h) properties
  have hpaths : properties.forM (checkPath q.objectType) = .ok () := by
    clear hcompile
    induction properties with
    | nil => rfl
    | cons p rest ih =>
      have hfirst : checkPath q.objectType p = .ok () := if_pos (hstart p List.mem_cons_self)
      show (checkPath q.objectType p >>= fun _ => rest.forM (checkPath q.objectType)) = .ok ()
      rw [hfirst]
      exact ih fun p hp => hstart p (List.mem_cons_of_mem _ hp)
  unfold prepare validate at h
  obtain ⟨_, hvalid, _⟩ := Outcome.bind_ok h
  obtain ⟨_, hpredicate, hvalid⟩ := Outcome.bind_ok hvalid
  obtain ⟨_, hmapping, hvalid⟩ := Outcome.bind_ok hvalid
  obtain ⟨_, hsorting, hvalid⟩ := Outcome.bind_ok hvalid
  obtain ⟨_, htruth, _⟩ := Outcome.bind_ok hvalid
  -- the other checks do not look at the paths
  have hchecks : validate { q with properties := properties } = .ok () := by
    have hstep : validate { q with properties := properties } = (do
        q.predicate.forM (q.checkArgument "predicate")
        q.mapping.forM (q.checkArgument "mapping")
        q.sorting.forM fun s => q.checkArgument "sort key" s.expr
        q.predicate.forM checkPredicate
        properties.forM (checkPath q.objectType)
        discard (compile { q with properties := properties })) := rfl
    rw [hstep, hpredicate, hmapping, hsorting, htruth, hpaths, hcompile]
    rfl
  unfold prepare
  rw [hchecks, hcompile]
  rfl

/-- The entity type of the results, as the catalogue has it. -/
structure Yields (c : Catalog) (q : Query) (t : EntityType) : Prop where
  result : q.resultType? c = some t
  objectType : q.objectType = t.asType
  placed : c.resolve t.ref = t

open Projection in
/-- Widening a projection shows more of every document exactly if each path that names
something still does, and it does if all such paths end at plain properties. Then a valid
query stays valid and returns no less of any entity. -/
theorem withMandatory_widens (c : Catalog) {q : Query} (hne : q.properties ≠ []) :
    ((∀ document, (project document q.properties).Within
        (project document (q.withMandatory c).properties)) ↔
      Kept q.properties (q.withMandatory c).properties) ∧
    ∀ t, q.Yields c t → (∀ p ∈ q.properties, Expansion.Follows c t p) →
      (Expansion.WellNamed c →
        (∀ p ∈ q.properties, ¬Continued q.properties p → c.referenced? p.property = none) →
        Kept q.properties (q.withMandatory c).properties) ∧
      ∀ run, q.prepare = .ok run → ∃ wide, (q.withMandatory c).prepare = .ok wide ∧
        (Kept q.properties (q.withMandatory c).properties →
          ∀ s : Store, List.Forall₂ Value.Within (s.query q run)
            (s.query (q.withMandatory c) wide)) := by
  have hincluded : Included q.properties (Expansion.expand c q.properties (q.resultType? c)) :=
    Expansion.included_expand c _ _
  rw [withMandatory_eq c hne]
  refine ⟨project_within_project_iff hne hincluded, fun t yields follows => ?_⟩
  have hfollows : ∀ p ∈ Expansion.expand c q.properties (q.resultType? c),
      Expansion.Follows c t p := by
    rw [yields.result]
    exact (Expansion.closed_follows yields.placed).expand follows fun r hr =>
      Expansion.follows_root (List.mem_of_mem_filter hr)
  refine ⟨fun named hplain p hp hnames => ?_, fun run hrun => ?_⟩
  · exact (follows p hp).not_continued named yields.placed hfollows (hplain p hp hnames)
  · have hstart : ∀ p ∈ Expansion.expand c q.properties (q.resultType? c),
        p.rootType.same q.objectType = true := by
      intro p hp
      rw [(hfollows p hp).rootType, yields.objectType]
      exact beq_self_eq_true t.ref.name
    refine ⟨_, prepare_withProperties hrun hstart, fun hkept s => ?_⟩
    have hproperties := properties_of_compile (compile_of_prepare hrun)
    show List.Forall₂ Value.Within
      ((run.select (s.documents q.entity.name)).map run.shape)
      ((run.select (s.documents q.entity.name)).map
        { run with properties := Expansion.expand c q.properties (q.resultType? c) }.shape)
    rw [List.forall₂_map_left_iff, List.forall₂_map_right_iff, List.forall₂_same]
    intro entity _
    unfold Compiled.shape
    rw [hproperties]
    exact hkept.within hne hincluded _

end Query

/-! ## Orders -/

namespace Shop

open Projection

theorem wellNamed : Expansion.WellNamed catalog := by
  have hall : ∀ T ∈ catalog.types, (T.properties.map (·.name)).Nodup ∧
      ∀ p ∈ T.properties, '.' ∉ p.name.toList := by decide
  have hresolve : ∀ ref, catalog.resolve ref ∈ catalog.types ∨
      (catalog.resolve ref).properties = [] := by
    intro ref
    unfold Catalog.resolve
    cases htype : catalog.types[ref.place]? with
    | none => exact .inr rfl
    | some T => exact .inl (List.mem_of_getElem? htype)
  refine ⟨fun ref => ?_, fun ref => ?_⟩
  · rcases hresolve ref with hin | hnone
    · exact (hall _ hin).1
    · rw [hnone]
      exact List.nodup_nil
  · rcases hresolve ref with hin | hnone
    · exact (hall _ hin).2
    · rw [hnone]
      exact nofun

/-- The path to a property of orders. -/
def orderPath (property : Property) : PropertyPath := .root order property

/-- The reference of orders to their customers. -/
def orderCustomer : Property := { name := "customer", type := .entity customerRef }

/-- The status of an order and the e-mail address of its customer. -/
def contact : Query :=
  { entity := order
    properties :=
      [orderPath { name := "status", type := .string, searchable := true },
       (orderPath orderCustomer).child { name := "email", type := .string, index := some .unique }] }

theorem contact_widened :
    ∃ run wide, contact.prepare = .ok run ∧ (contact.withMandatory catalog).prepare = .ok wide ∧
      ∀ s : Store, List.Forall₂ Value.Within (s.query contact run)
        (s.query (contact.withMandatory catalog) wide) := by
  obtain ⟨_, hwide⟩ := Query.withMandatory_widens catalog (q := contact) (by decide)
  have follows : ∀ p ∈ contact.properties, Expansion.Follows catalog order p := by
    intro p hp
    rcases List.mem_cons.1 hp with rfl | hp
    · exact ⟨rfl, by decide, trivial⟩
    · rw [List.mem_singleton.1 hp]
      exact ⟨rfl, by decide, by decide, trivial⟩
  obtain ⟨hkept, hqueries⟩ := hwide order ⟨rfl, rfl, rfl⟩ follows
  obtain ⟨wide, hprepare, hresults⟩ := hqueries _ rfl
  exact ⟨_, wide, rfl, hprepare, hresults (hkept wellNamed (by decide))⟩

/-- Asked for the customers of orders, a query returns them with all that is known of
them; widened by their key and name, it returns nothing else of them. -/
theorem customer_narrowed :
    let document := Value.object [("customer", .object [("email", .text "ann@x"), ("id", .int 1)]),
      ("key", .text "o")]
    let requested := [orderPath orderCustomer]
    (project document requested).along ["customer", "email"] = some (.text "ann@x") ∧
      (project document (Expansion.expand catalog requested (some order))).along
        ["customer", "email"] = none :=
  ⟨rfl, rfl⟩

end Shop

end LiveRecords

import LiveRecords.Proofs.Query.Descent

/-
  What the expansion of a projection contains.

  Adding a path adds all that it needs, except what lies below a type that is being entered
  already. If no type requires itself, in one step or more (`Catalog.Founded`), a type is
  never met while it is entered (`Nested.fresh`), and each path that is new in the end has
  its parent, its inputs and what its type requires beside it (`gather_serves`); a path that
  was there when the addition began needs nothing of it, even if its own is still under way.
  So the expansion is closed, and as whatever is closed contains it, it is the least closed
  set of paths (`expand_isLeast`).
-/

namespace LiveRecords

open Relation (ReflTransGen)

namespace Expansion

variable {c : Catalog} {entered entered' : List String} {found found' grown : List PropertyPath}
  {p q : PropertyPath}

/-! ## Paths of a catalogue -/

/-- A path that follows the properties of some type of the catalogue. -/
def OnGraph (c : Catalog) (p : PropertyPath) : Prop := ∃ t ∈ c.types, Follows c t p

theorem closed_onGraph (placed : c.Placed) : Closed c (OnGraph c) where
  parent := fun ⟨t, ht, h⟩ hq => ⟨t, ht, h.parent hq⟩
  input := fun ⟨t, ht, h⟩ hq =>
    ⟨t, ht, (closed_follows (Catalog.resolve_ref placed ht)).input h hq⟩
  child := fun ⟨t, ht, h⟩ hto hr => ⟨t, ht, h.child hto (List.mem_of_mem_filter hr)⟩

theorem onGraph_roots {result : Option EntityType} (hresult : ∀ t ∈ result, t ∈ c.types) :
    ∀ p ∈ roots result, OnGraph c p := by
  cases result with
  | none => exact nofun
  | some t =>
    intro p hp
    obtain ⟨r, hr, rfl⟩ := List.mem_map.1 hp
    exact ⟨t, hresult t rfl, follows_root (List.mem_of_mem_filter hr)⟩

theorem declared_of_leads (linked : c.Linked) {start : Option EntityType}
    (hstart : ∀ t ∈ start, t ∈ c.types) {ps : List Property} (h : Leads c start ps) :
    ∀ r ∈ ps, ∃ d ∈ c.types, r ∈ d.properties := by
  induction ps generalizing start with
  | nil => exact nofun
  | cons first rest ih =>
    cases start with
    | none => exact h.elim
    | some t =>
      have ht : t ∈ c.types := hstart t rfl
      intro r hr
      rcases List.mem_cons.1 hr with rfl | hr
      · exact ⟨t, ht, h.1⟩
      · exact ih (fun u hu => (linked.listed_of_refersTo ht ⟨first, h.1, hu⟩).1) h.2 r hr

/-- Paths of the catalogue that are the same are equal. -/
theorem OnGraph.eq_of_identity (linked : c.Linked) (hp : OnGraph c p) (hq : OnGraph c q)
    (h : p.identity = q.identity) : p = q := by
  obtain ⟨t, ht, hp⟩ := hp
  obtain ⟨u, hu, hq⟩ := hq
  obtain ⟨hroot, hsegments⟩ := Prod.mk.inj h
  have hrootType : p.rootType = q.rootType := by
    rw [hp.rootType, hq.rootType] at hroot ⊢
    have hname : t.name = u.name := congrArg EntityRef.name (ValueType.entity.inj hroot)
    rw [linked.distinct t ht u hu hname]
  have heq : p.segments = q.segments :=
    linked.eq_of_map_withoutPlaces (declared_of_leads linked (by simpa using ht) hp.leads)
      (declared_of_leads linked (by simpa using hu) hq.leads) hsegments
  obtain ⟨hparents, hproperty⟩ := List.append_inj' heq rfl
  obtain ⟨rootType, parents, property⟩ := p
  cases hrootType
  cases hparents
  cases hproperty
  rfl

theorem mem_of_isIn (linked : c.Linked) (hfound : ∀ q ∈ found, OnGraph c q) (hp : OnGraph c p)
    (h : isIn p found = true) : p ∈ found := by
  obtain ⟨q, hq, hidentity⟩ := List.mem_map.1 (isIn_iff.1 h)
  rwa [hp.eq_of_identity linked (hfound q hq) hidentity.symm]

theorem onGraph_given {requested : List PropertyPath} {result : Option EntityType}
    (hrequested : ∀ p ∈ requested, OnGraph c p) (hresult : ∀ t ∈ result, t ∈ c.types) :
    ∀ p ∈ requested ++ roots result, OnGraph c p := fun p hp =>
  (List.mem_append.1 hp).elim (hrequested p) (onGraph_roots hresult p)

/-! ## Types on the way -/

theorem mem_inputs {parent : PropertyPath} {t : EntityType} (hparent : p.parent? = some parent)
    (hleads : c.referenced? parent.property = some t) :
    q ∈ inputs c p ↔
      ∃ name ∈ p.property.dependsOn, ∃ r, t.property? name = some r ∧ parent.child r = q := by
  unfold inputs
  rw [declaring?_of_parent hparent, hleads]
  simp only [List.mem_filterMap, Option.bind_eq_some_iff, sibling?_of_parent hparent,
    Option.some.injEq]

/-- A path below the types entered: its parent is found, its last property is required of
the type that the parent leads to, and all types entered lead to that one by requiring. -/
structure Below (c : Catalog) (entered : List String) (found : List PropertyPath)
    (p above : PropertyPath) (t : EntityType) : Prop where
  parent : p.parent? = some above
  there : isIn above found = true
  leads : c.referenced? above.property = some t
  required : t.Required p.property
  entered : ∀ name ∈ entered, ∃ x ∈ c.types, x.name = name ∧ ReflTransGen c.Requires x t

/-- No type is entered, or the path lies below those that are. -/
def Nested (c : Catalog) (entered : List String) (found : List PropertyPath)
    (p : PropertyPath) : Prop :=
  entered = [] ∨ ∃ parent t, Below c entered found p parent t

/-- Further calls are nested too, unless they find their path there. -/
theorem Nested.calls (h : Nested c entered found p)
    (hcalls : Calls c entered found p entered' found' q) :
    isIn q found' = true ∨ Nested c entered' found' q := by
  cases hcalls with
  | up hparent =>
    rcases h with hnone | ⟨parent, t, below⟩
    · exact .inr (.inl hnone)
    · rw [below.parent] at hparent
      cases hparent
      exact .inl below.there
  | aside input grown there =>
    rcases h with hnone | ⟨parent, t, below⟩
    · exact .inr (.inl hnone)
    · obtain ⟨name, hname, r, hr, rfl⟩ := (mem_inputs below.parent below.leads).1 input
      exact .inr (.inr ⟨parent, t, PropertyPath.parent?_child parent r, grown.isIn below.there,
        below.leads, below.required.input hname hr, below.entered⟩)
  | @down found' u r leads fresh required grown there =>
    have hu : u ∈ c.types := Catalog.mem_of_resolve leads (List.mem_of_mem_filter required)
    refine .inr (.inr ⟨p, u, PropertyPath.parent?_child p r, there, leads, .always required, ?_⟩)
    intro name hname
    rcases List.mem_cons.1 hname with rfl | hname
    · exact ⟨u, hu, rfl, .refl⟩
    · rcases h with rfl | ⟨parent, t, below⟩
      · cases hname
      · obtain ⟨x, hx, hxname, hreaches⟩ := below.entered name hname
        exact ⟨x, hx, hxname, hreaches.tail ⟨p.property, below.required, leads⟩⟩

/-- A type that requires anything is not being entered when a path leads to it. -/
theorem Nested.fresh (linked : c.Linked) (founded : c.Founded) (h : Nested c entered found p)
    {t : EntityType} {r : Property} (hleads : c.referenced? p.property = some t)
    (hr : r ∈ t.alwaysRequired) : t.name ∉ entered := by
  have ht : t ∈ c.types := Catalog.mem_of_resolve hleads (List.mem_of_mem_filter hr)
  rcases h with rfl | ⟨parent, u, below⟩
  · exact List.not_mem_nil
  · intro hentered
    obtain ⟨x, hx, hname, hreaches⟩ := below.entered t.name hentered
    obtain rfl := linked.distinct x hx t ht hname
    exact founded x hx (.tail' hreaches ⟨p.property, below.required, hleads⟩)

/-! ## Paths that are served -/

/-- All that a path needs is among the paths found. -/
structure Served (c : Catalog) (found : List PropertyPath) (p : PropertyPath) : Prop where
  parent : ∀ q, p.parent? = some q → isIn q found = true
  input : ∀ q ∈ inputs c p, isIn q found = true
  child : ∀ t r, c.referenced? p.property = some t → r ∈ t.alwaysRequired →
    isIn (p.child r) found = true

theorem Served.grows (h : Served c found p) (grows : Grows found found') : Served c found' p where
  parent q hq := grows.isIn (h.parent q hq)
  input q hq := grows.isIn (h.input q hq)
  child t r ht hr := grows.isIn (h.child t r ht hr)

/-- Further calls find their paths there. -/
theorem Served.isIn_of_calls (h : Served c found p)
    (hcalls : Calls c entered found p entered' found' q) : isIn q found = true := by
  cases hcalls with
  | up parent => exact h.parent q parent
  | aside input => exact h.input q input
  | down leads _ required => exact h.child _ _ leads required

/-- Paths are added that are all served in the end. -/
structure Serves (c : Catalog) (found grown : List PropertyPath) : Prop where
  grows : Grows found grown
  served : ∀ p ∈ grown, p ∈ found ∨ Served c grown p

theorem Serves.refl (found : List PropertyPath) : Serves c found found :=
  ⟨.refl found, fun _ hp => .inl hp⟩

theorem Serves.trans {later : List PropertyPath} (h : Serves c found grown)
    (k : Serves c grown later) : Serves c found later := by
  refine ⟨h.grows.trans k.grows, fun p hp => ?_⟩
  rcases k.served p hp with hgrown | hserved
  · exact (h.served p hgrown).imp_right fun hserved => hserved.grows k.grows
  · exact .inr hserved

/-- A path is served once it is finished, and so is what was added for it. -/
theorem finish_serves (placed : c.Placed) {opened : List PropertyPath}
    (hopened : Grows found opened) (hparent : ∀ q, p.parent? = some q → isIn q opened = true)
    (fresh : ∀ t r, c.referenced? p.property = some t → r ∈ t.alwaysRequired → t.name ∉ entered)
    (hcalls : ∀ entered' found' q, Calls c entered found p entered' found' q →
      Serves c found' (gather c entered' found' q)) :
    Serves c (put p opened) (finishWith c (gather c) entered opened p) ∧
      Served c (finishWith c (gather c) entered opened p) p := by
  have hserves : Serves c (put p opened) (finishWith c (gather c) entered opened p) :=
    finishWith_keeps grows_gather hopened
      (fun entered' found' q hcall h => h.trans (hcalls entered' found' q hcall)) (.refl _)
  exact ⟨hserves,
    fun q hq => ((grows_put p opened).trans hserves.grows).isIn (hparent q hq),
    fun q hq => isIn_finishWith placed (input_mem_errands hq),
    fun t r ht hr => isIn_finishWith placed (child_mem_errands ht (fresh t r ht hr) hr)⟩

/-- Every path that is new after a visit is served if that is so after the further calls. -/
theorem visit_serves (linked : c.Linked) (founded : c.Founded) (h : Nested c entered found p)
    (hcalls : ∀ entered' found' q, Calls c entered found p entered' found' q →
      Serves c found' (gather c entered' found' q)) :
    Serves c found (visitWith c (gather c) entered found p) := by
  unfold visitWith
  have hopened : Serves c found (openWith (gather c) entered found p) :=
    openWith_keeps (.refl found) fun q hq => hcalls entered found q (.up hq)
  have hparent : ∀ q, p.parent? = some q → isIn q (openWith (gather c) entered found p) = true :=
    fun q hq => isIn_openWith linked.placed entered found hq
  generalize openWith (gather c) entered found p = opened at *
  obtain ⟨hfinish, hserved⟩ := finish_serves linked.placed hopened.grows hparent
    (fun t r => h.fresh linked founded) hcalls
  have hgrows := (grows_put p opened).trans hfinish.grows
  refine ⟨hopened.grows.trans hgrows, fun x hx => ?_⟩
  -- the path itself is served at the end, the others when they are added
  rcases hfinish.served x hx with hput | hx
  · rcases mem_put hput with hopen | rfl
    · exact (hopened.served x hopen).imp_right fun hx => hx.grows hgrows
    · exact .inr hserved
  · exact .inr hx

/-- If no type requires itself, every path that an addition leaves new is served. -/
theorem gather_serves (linked : c.Linked) (founded : c.Founded) (entered : List String)
    (found : List PropertyPath) (p : PropertyPath) (h : Nested c entered found p) :
    Serves c found (gather c entered found p) := by
  refine gather_induction linked.placed
    (motive := fun entered found p => Nested c entered found p →
      Serves c found (gather c entered found p)) ?_ ?_ entered found p h
  · intro entered found p hin _
    rw [gather_of_isIn hin]
    exact .refl found
  · intro entered found p hnew ih nested
    rw [gather_of_new linked.placed hnew]
    refine visit_serves linked founded nested fun entered' found' q hcall => ?_
    rcases nested.calls hcall with hin | hnested
    · rw [gather_of_isIn hin]
      exact .refl found'
    · exact ih entered' found' q hcall hnested

/-- All that expanded paths need is among them. -/
theorem expand_serves (linked : c.Linked) (founded : c.Founded) (requested : List PropertyPath)
    (result : Option EntityType) :
    ∀ p ∈ expand c requested result, Served c (expand c requested result) p := by
  have hserves : Serves c [] (expand c requested result) := by
    rw [expand_eq linked.placed]
    exact foldl_keeps (I := Serves c []) (grows_gather [])
      (fun found q _ _ h => h.trans (gather_serves linked founded [] found q (.inl rfl)))
      (.refl [])
  intro p hp
  exact (hserves.served p hp).resolve_left List.not_mem_nil

/-! ## Parents first -/

/-- Every path comes after its parent. -/
def ParentsFirst (paths : List PropertyPath) : Prop :=
  ∀ before p q, before ++ [p] <+: paths → p.parent? = some q → isIn q before = true

theorem parentsFirst_nil : ParentsFirst [] := by
  intro before p q h
  simp at h

theorem ParentsFirst.concat (h : ParentsFirst found)
    (hparent : ∀ q, p.parent? = some q → isIn q found = true) : ParentsFirst (found ++ [p]) := by
  intro before p' q hbegins hq
  rcases List.prefix_concat_iff.1 hbegins with heq | hbegins
  · obtain ⟨rfl, hlast⟩ := List.append_inj' heq rfl
    cases hlast
    exact hparent q hq
  · exact h before p' q hbegins hq

theorem ParentsFirst.put (h : ParentsFirst found)
    (hparent : ∀ q, p.parent? = some q → isIn q found = true) :
    ParentsFirst (Expansion.put p found) := by
  unfold Expansion.put
  split
  · exact h
  · exact h.concat hparent

theorem ParentsFirst.gather (placed : c.Placed) (entered : List String)
    (found : List PropertyPath) (p : PropertyPath) (h : ParentsFirst found) :
    ParentsFirst (gather c entered found p) := by
  refine gather_induction placed
    (motive := fun entered found p => ParentsFirst found →
      ParentsFirst (Expansion.gather c entered found p))
    ?_ ?_ entered found p h
  · intro entered found p hin h
    rwa [gather_of_isIn hin]
  · intro entered found p hnew ih h
    rw [gather_of_new placed hnew]
    have hopened : ParentsFirst (openWith (Expansion.gather c) entered found p) :=
      openWith_keeps h fun q hq => ih entered found q (.up hq) h
    exact finishWith_keeps grows_gather (grows_openWith grows_gather entered found p) ih
      (hopened.put fun q hq => isIn_openWith placed entered found hq)

theorem parentsFirst_expand (placed : c.Placed) (requested : List PropertyPath)
    (result : Option EntityType) : ParentsFirst (expand c requested result) := by
  rw [expand_eq placed]
  exact foldl_keeps (grows_gather []) (fun found q _ _ h => h.gather placed [] found q)
    parentsFirst_nil

/-! ## The least closed set -/

/-- The paths are the least set that is closed and contains the given ones. -/
structure LeastClosed (c : Catalog) (given paths : List PropertyPath) : Prop where
  included : ∀ p ∈ given, p ∈ paths
  closed : Closed c (· ∈ paths)
  least : ∀ P : PropertyPath → Prop, Closed c P → (∀ p ∈ given, P p) → ∀ p ∈ paths, P p

/-- If no type requires itself, the expansion is the least closed set with the requested
paths and those that the result type requires. -/
theorem expand_leastClosed (linked : c.Linked) (founded : c.Founded)
    {requested : List PropertyPath} {result : Option EntityType}
    (hgiven : ∀ p ∈ requested ++ roots result, OnGraph c p) :
    LeastClosed c (requested ++ roots result) (expand c requested result) := by
  have hclosed := closed_onGraph linked.placed
  have hgraph := hclosed.forall_expand linked.placed hgiven
  have hserved := expand_serves linked founded requested result
  refine ⟨fun p hp => ?_,
    ⟨fun {p q} hp hq => ?_, fun {p q} hp hq => ?_, fun {p t r} hp ht hr => ?_⟩,
    fun P hP => hP.forall_expand linked.placed⟩
  · exact mem_of_isIn linked hgraph (hgiven p hp) (isIn_expand linked.placed hp)
  · exact mem_of_isIn linked hgraph (hclosed.parent (hgraph p hp) hq) ((hserved p hp).parent q hq)
  · exact mem_of_isIn linked hgraph (hclosed.input (hgraph p hp) hq) ((hserved p hp).input q hq)
  · exact mem_of_isIn linked hgraph (hclosed.child (hgraph p hp) ht hr)
      ((hserved p hp).child t r ht hr)

/-- Where no type reaches itself, the expansion is the least closed set with the requested
paths and those that the result type requires. It contains no path twice, every path comes
after its parent, and the paths start from the result type if the requested ones do. -/
theorem expand_isLeast (linked : c.Linked) (acyclic : c.Acyclic)
    {requested : List PropertyPath} (hrequested : ∀ p ∈ requested, OnGraph c p)
    {result : Option EntityType} (hresult : ∀ t ∈ result, t ∈ c.types) :
    LeastClosed c (requested ++ roots result) (expand c requested result) ∧
      Distinct (expand c requested result) ∧
      (∀ before p q, before ++ [p] <+: expand c requested result → p.parent? = some q →
        q ∈ before) ∧
      ∀ t ∈ result, (∀ p ∈ requested, p.rootType = t.asType) →
        ∀ p ∈ expand c requested result, p.rootType = t.asType := by
  have hclosed := closed_onGraph linked.placed
  have hgiven := onGraph_given hrequested hresult
  have hgraph := hclosed.forall_expand linked.placed hgiven
  refine ⟨expand_leastClosed linked acyclic.founded hgiven, distinct_expand c requested result,
    fun before p q hbegins hq => ?_, fun t ht hroot p hp => ?_⟩
  · have hmem : ∀ x ∈ before ++ [p], OnGraph c x := fun x hx => hgraph x (hbegins.subset hx)
    exact mem_of_isIn linked (fun x hx => hmem x (List.mem_append_left _ hx))
      (hclosed.parent (hmem p (by simp)) hq)
      (parentsFirst_expand linked.placed requested result before p q hbegins hq)
  · obtain rfl : result = some t := ht
    have ht : t ∈ c.types := hresult t rfl
    have hfollows : ∀ p ∈ requested, Follows c t p := by
      intro p hp
      obtain ⟨u, hu, follows⟩ := hrequested p hp
      have htype : u.asType = t.asType := follows.rootType.symm.trans (hroot p hp)
      have hname : u.name = t.name := congrArg EntityRef.name (ValueType.entity.inj htype)
      rwa [← linked.distinct u hu t ht hname]
    exact ((closed_follows (Catalog.resolve_ref linked.placed ht)).expand hfollows
      (fun r hr => follows_root (List.mem_of_mem_filter hr)) p hp).rootType

end Expansion

/-! ## Invoices -/

namespace Shop

open Expansion

/-- The gross amount of an invoice. -/
def gross : Property := { name := "gross", type := .float, dependsOn := ["net", "rate"] }

/-- The order that an invoice is for. -/
def invoiced : Property := { name := "order", type := .entity ⟨"Order", 4⟩, mandatory := true }

/-- Invoices; their net and gross amounts are computed from each other. -/
def invoice : EntityType :=
  ⟨"Invoice", 5, [{ name := "number", type := .int, isKey := true },
    { name := "net", type := .float, dependsOn := ["gross", "rate"] },
    { name := "rate", type := .float }, gross, invoiced]⟩

/-- The catalogue of a shop that writes invoices. -/
def ledger : Catalog := ⟨catalog.types ++ [invoice]⟩

theorem linked_ledger : ledger.Linked where
  distinct := by decide
  placed := by unfold Catalog.Placed; decide
  listed := by
    have hlisted : ∀ d ∈ ledger.types, ∀ p ∈ d.properties, ∀ ref ∈ p.type.mentioned?,
        ∃ x ∈ ledger.types, x.ref = ref := by decide
    exact hlisted

theorem acyclic_ledger : ledger.Acyclic := linked_ledger.acyclic (by decide)

/-- The gross amount of an invoice, and the city where the customer lives. -/
def billed : List PropertyPath :=
  let customer := (PropertyPath.root invoice invoiced).child orderCustomer
  let address := customer.child { name := "address", type := .entity addressRef }
  [.root invoice gross, address.child { name := "city", type := .string }]

theorem onGraph_billed : ∀ p ∈ billed, OnGraph ledger p := by
  intro p hp
  refine ⟨invoice, by decide, ?_⟩
  rcases List.mem_cons.1 hp with rfl | hp
  · exact ⟨rfl, by decide, trivial⟩
  · rw [List.mem_singleton.1 hp]
    exact ⟨rfl, by decide, by decide, by decide, by decide, trivial⟩

theorem billed_isLeast :
    LeastClosed ledger (billed ++ roots (some invoice)) (expand ledger billed (some invoice)) ∧
      (expand ledger billed (some invoice)).map PropertyPath.names =
        [["gross"], ["net"], ["rate"], ["order"], ["order", "key"], ["order", "customer"],
         ["order", "customer", "id"], ["order", "customer", "name"],
         ["order", "customer", "address"], ["order", "customer", "address", "city"],
         ["number"]] :=
  ⟨(expand_isLeast linked_ledger acyclic_ledger onGraph_billed (by decide)).1, rfl⟩

end Shop

end LiveRecords

import Mathlib.Logic.Relation
import LiveRecords.Entity.Catalog

/-
  The graph of entity types.

  A type refers to the types of its properties' values. References tell a type by its name
  and find it by its place: in a linked catalogue, where names differ and every type stands
  at its place, properties that agree in all but places are the same
  (`Catalog.Linked.eq_of_withoutPlaces`).

  A type requires those that its key, its mandatory properties and what these are computed
  from refer to. A type that does not reach itself does not require itself
  (`Catalog.Acyclic.founded`).
-/

namespace LiveRecords

open Relation (ReflTransGen TransGen)

/-! ## Sameness without places -/

namespace ValueType

/-- The type without the places that entity types have in a catalogue. -/
def withoutPlaces : ValueType → ValueType
  | .list item => .list item.withoutPlaces
  | .entity ref => .entity ⟨ref.name, 0⟩
  | type => type

theorem same_iff {a b : ValueType} : a.same b = true ↔ a.withoutPlaces = b.withoutPlaces := by
  induction a generalizing b with
  | list a ih => cases b <;> simp [same, withoutPlaces, ih]
  | _ => cases b <;> simp [same, withoutPlaces]

/-- The entity type that is mentioned, be it as the type of a list's items. -/
def mentioned? : ValueType → Option EntityRef
  | .list item => item.mentioned?
  | .entity ref => some ref
  | _ => none

theorem mentioned?_of_entity? {type : ValueType} {ref : EntityRef} (h : type.entity? = some ref) :
    type.mentioned? = some ref := by
  cases type <;> first | exact h | cases h

/-- Where names tell references, types that differ in places only are the same. -/
theorem eq_of_withoutPlaces {a b : ValueType}
    (told : ∀ x y, a.mentioned? = some x → b.mentioned? = some y → x.name = y.name → x = y)
    (h : a.withoutPlaces = b.withoutPlaces) : a = b := by
  induction a generalizing b with
  | list a ih =>
    cases b with
    | list b =>
      simp only [withoutPlaces, list.injEq] at h
      rw [ih (b := b) told h]
    | _ => cases h
  | entity x =>
    cases b with
    | entity y =>
      simp only [withoutPlaces, entity.injEq, EntityRef.mk.injEq, and_true] at h
      rw [told x y rfl rfl h]
    | _ => cases h
  | _ => cases b <;> first | rfl | cases h

end ValueType

/-- The property without the place of its entity type. -/
def Property.withoutPlaces (p : Property) : Property := { p with type := p.type.withoutPlaces }

theorem Property.same_iff {p q : Property} :
    p.same q = true ↔ p.withoutPlaces = q.withoutPlaces := by
  cases p
  cases q
  simp [Property.same, Property.withoutPlaces, ValueType.same_iff, and_assoc]

/-! ## What a type requires -/

/-- A property that is always required of a type, or that such a property is computed
from. -/
inductive EntityType.Required (t : EntityType) : Property → Prop where
  | always {r : Property} (listed : r ∈ t.alwaysRequired) : t.Required r
  | input {p r : Property} {name : String} (required : t.Required p)
      (depends : name ∈ p.dependsOn) (named : t.property? name = some r) : t.Required r

theorem EntityType.Required.mem {t : EntityType} {r : Property} (h : t.Required r) :
    r ∈ t.properties := by
  cases h with
  | always listed => exact (List.mem_filter.1 listed).1
  | input _ _ named => exact List.mem_of_find?_eq_some named

namespace Catalog

variable {c : Catalog} {d x : EntityType}

/-! ## Types that refer to each other -/

/-- A type refers to another: it has a property whose values are of that type. -/
def RefersTo (c : Catalog) (d x : EntityType) : Prop := ∃ p ∈ d.properties, c.referenced? p = some x

/-- A type is another, or refers to one that reaches it. -/
abbrev Reaches (c : Catalog) : EntityType → EntityType → Prop := ReflTransGen c.RefersTo

/-- The types of a catalogue have different names and refer to types of the catalogue. -/
structure WellFormed (c : Catalog) : Prop where
  distinct : ∀ d ∈ c.types, ∀ x ∈ c.types, d.name = x.name → d = x
  closed : ∀ d ∈ c.types, ∀ x, c.RefersTo d x → x ∈ c.types

/-! ## Places -/

/-- Every entity type stands at its place. -/
def Placed (c : Catalog) : Prop := ∀ t ∈ c.types, c.types[t.place]? = some t

theorem resolve_ref (placed : c.Placed) {t : EntityType} (h : t ∈ c.types) :
    c.resolve t.ref = t := by
  unfold resolve
  show (c.types[t.place]?).getD _ = t
  rw [placed t h]
  rfl

/-- A type that has any property is one of the catalogue. -/
theorem mem_of_resolve {type? : Option EntityRef} {t : EntityType} {r : Property}
    (h : type?.map c.resolve = some t) (hr : r ∈ t.properties) : t ∈ c.types := by
  obtain ⟨ref, -, rfl⟩ := Option.map_eq_some_iff.1 h
  unfold resolve at hr ⊢
  cases htype : c.types[ref.place]? with
  | none =>
    rw [htype] at hr
    cases hr
  | some t => exact List.mem_of_getElem? htype

/-- The types have different names, each stands at its place, and properties mention types
of the catalogue. -/
structure Linked (c : Catalog) : Prop where
  distinct : ∀ d ∈ c.types, ∀ x ∈ c.types, d.name = x.name → d = x
  placed : c.Placed
  listed : ∀ d ∈ c.types, ∀ p ∈ d.properties, ∀ ref, p.type.mentioned? = some ref →
    ∃ x ∈ c.types, x.ref = ref

namespace Linked

variable {p q : Property}

theorem listed_of_refersTo (linked : c.Linked) (hd : d ∈ c.types) (h : c.RefersTo d x) :
    x ∈ c.types ∧ ∃ p ∈ d.properties, p.type.entity? = some x.ref := by
  obtain ⟨p, hp, href⟩ := h
  obtain ⟨ref, hentity, rfl⟩ := Option.map_eq_some_iff.1 href
  obtain ⟨x, hx, rfl⟩ := linked.listed d hd p hp ref (ValueType.mentioned?_of_entity? hentity)
  rw [resolve_ref linked.placed hx]
  exact ⟨hx, p, hp, hentity⟩

/-- Properties of the catalogue that agree in all but places are the same. -/
theorem eq_of_withoutPlaces (linked : c.Linked) (hp : ∃ d ∈ c.types, p ∈ d.properties)
    (hq : ∃ d ∈ c.types, q ∈ d.properties) (h : p.withoutPlaces = q.withoutPlaces) : p = q := by
  obtain ⟨d, hd, hp⟩ := hp
  obtain ⟨d', hd', hq⟩ := hq
  have htype : p.type = q.type := by
    refine ValueType.eq_of_withoutPlaces (fun x y hx hy hname => ?_) (congrArg Property.type h)
    obtain ⟨t, ht, rfl⟩ := linked.listed d hd p hp x hx
    obtain ⟨u, hu, rfl⟩ := linked.listed d' hd' q hq y hy
    rw [linked.distinct t ht u hu hname]
  cases p
  cases q
  simp_all [Property.withoutPlaces]

theorem eq_of_map_withoutPlaces (linked : c.Linked) {ps qs : List Property}
    (hp : ∀ p ∈ ps, ∃ d ∈ c.types, p ∈ d.properties)
    (hq : ∀ q ∈ qs, ∃ d ∈ c.types, q ∈ d.properties)
    (h : ps.map Property.withoutPlaces = qs.map Property.withoutPlaces) : ps = qs := by
  induction ps generalizing qs with
  | nil => exact (List.map_eq_nil_iff.1 h.symm).symm
  | cons p ps ih =>
    cases qs with
    | nil => cases h
    | cons q qs =>
      obtain ⟨hfirst, hrest⟩ := List.cons.inj h
      rw [linked.eq_of_withoutPlaces (hp p List.mem_cons_self) (hq q List.mem_cons_self) hfirst,
        ih (fun p hmem => hp p (List.mem_cons_of_mem _ hmem))
          (fun q hmem => hq q (List.mem_cons_of_mem _ hmem)) hrest]

end Linked

/-! ## Types without cycles -/

/-- A type requires another: what is required of it refers to the other. -/
def Requires (c : Catalog) (t u : EntityType) : Prop :=
  ∃ r, t.Required r ∧ c.referenced? r = some u

theorem Requires.refersTo {t u : EntityType} (h : c.Requires t u) : c.RefersTo t u := by
  obtain ⟨r, hr, href⟩ := h
  exact ⟨r, hr.mem, href⟩

/-- No type requires itself, in one step or more. -/
def Founded (c : Catalog) : Prop := ∀ t ∈ c.types, ¬TransGen c.Requires t t

/-- No type reaches itself through its properties. -/
def Acyclic (c : Catalog) : Prop := ∀ t ∈ c.types, ¬TransGen c.RefersTo t t

theorem Acyclic.founded (h : c.Acyclic) : c.Founded :=
  fun t ht hcycle => h t ht (hcycle.lift id fun _ _ => Requires.refersTo)

/-- No type reaches itself if all refer to types at lower places only. -/
theorem Linked.acyclic (linked : c.Linked)
    (lower : ∀ d ∈ c.types, ∀ p ∈ d.properties, ∀ ref ∈ p.type.entity?, ref.place < d.place) :
    c.Acyclic := by
  have hstep : ∀ {d x}, d ∈ c.types → c.RefersTo d x → x ∈ c.types ∧ x.place < d.place := by
    intro d x hd h
    obtain ⟨hx, p, hp, hentity⟩ := linked.listed_of_refersTo hd h
    exact ⟨hx, lower d hd p hp x.ref hentity⟩
  have hreach : ∀ {d x}, TransGen c.RefersTo d x → d ∈ c.types →
      x ∈ c.types ∧ x.place < d.place := by
    intro d x h hd
    induction h with
    | single h => exact hstep hd h
    | tail _ h ih => exact ⟨(hstep ih.1 h).1, Nat.lt_trans (hstep ih.1 h).2 ih.2⟩
  exact fun t ht hcycle => Nat.lt_irrefl _ (hreach hcycle ht).2

end Catalog

end LiveRecords

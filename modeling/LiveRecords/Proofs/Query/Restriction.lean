import LiveRecords.Proofs.Query.Projection
import LiveRecords.Sample.Shop

/-
  A projection is the restriction of a document to the paths that no other one continues.

  `CutTo` says what is left of a value if only some names are asked for, one level after
  another and without regard to the order in which they are. That leaves one result
  (`CutTo.unique`), which is not cut down further by the same names (`CutTo.again`), and
  copying one path after another arrives at it (`cutTo_project`). So a projection shows what
  stands at the end of each path or where it is stopped, and no other field; it depends
  neither on the order nor on the repetition of paths, and does nothing to its own result
  (`project_restricts`).
-/

namespace LiveRecords.Projection

open Value

/-! ## Values cut down to some names -/

/-- What is left of a value if only some lists of names are asked for: all of it at the end
of one, all of what is no object, and of an object the fields that a list starts with, each
cut down to the rest of these lists. -/
inductive CutTo : (List String → Prop) → Value → Value → Prop where
  | whole {asked : List String → Prop} {v : Value} (here : asked []) : CutTo asked v v
  | plain {asked : List String → Prop} {v : Value} (plain : v.isObject = false) : CutTo asked v v
  | fields {asked : List String → Prop} {source shown : Fields} (further : ¬asked [])
      (ascending : Keyed.Ascending shown)
      (there : ∀ name, (shown.get? name).isSome ↔
        (source.get? name).isSome ∧ ∃ rest, asked (name :: rest))
      (entry : ∀ name v w, source.get? name = some v → shown.get? name = some w →
        CutTo (fun rest => asked (name :: rest)) v w) :
      CutTo asked (.object source) (.object shown)

section

variable {asked other : List String → Prop} {source shown v w : Value}

theorem CutTo.congr (h : CutTo asked source shown) (heq : ∀ names, asked names ↔ other names) :
    CutTo other source shown := by
  have hsame : asked = other := funext fun names => propext (heq names)
  exact hsame ▸ h

theorem CutTo.eq_of_asked (h : CutTo asked v w) (here : asked []) : w = v := by
  cases h with
  | whole => rfl
  | plain => rfl
  | fields further => exact absurd here further

theorem CutTo.eq_of_plain (h : CutTo asked v w) (plain : v.isObject = false) : w = v := by
  cases h with
  | whole => rfl
  | plain => rfl
  | fields => cases plain

/-- What is left of an object, unless all of it is asked for. -/
theorem CutTo.inversion {source shown : Fields} (h : CutTo asked (.object source) (.object shown))
    (further : ¬asked []) :
    Keyed.Ascending shown ∧
      (∀ name, (shown.get? name).isSome ↔
        (source.get? name).isSome ∧ ∃ rest, asked (name :: rest)) ∧
      ∀ name v w, source.get? name = some v → shown.get? name = some w →
        CutTo (fun rest => asked (name :: rest)) v w := by
  cases h with
  | whole here => exact absurd here further
  | plain hplain => cases hplain
  | fields _ ascending there entry => exact ⟨ascending, there, entry⟩

/-- Nothing else is left. -/
theorem CutTo.unique (h : CutTo asked source v) (k : CutTo asked source w) : v = w := by
  induction h generalizing w with
  | whole here => exact (k.eq_of_asked here).symm
  | plain hplain => exact (k.eq_of_plain hplain).symm
  | @fields _ source shown further ascending there entry ih =>
    cases k with
    | whole here => exact absurd here further
    | plain hplain => cases hplain
    | fields _ ascending' there' entry' =>
      refine congrArg Value.object (Keyed.ext ascending ascending' fun name => ?_)
      have hsame := (there name).trans (there' name).symm
      cases hv : shown.get? name with
      | none =>
        rw [hv, Option.isSome_none] at hsame
        exact (Option.not_isSome_iff_eq_none.1 fun hw => nomatch hsame.2 hw).symm
      | some v =>
        obtain ⟨w, hw⟩ := Option.isSome_iff_exists.1 (hsame.1 (Option.isSome_of_eq_some hv))
        obtain ⟨u, hu⟩ := Option.isSome_iff_exists.1
          ((there name).1 (Option.isSome_of_eq_some hv)).1
        rw [hw, ih name u v hu hv (entry' name u w hu hw)]

/-- What is left is not cut down further. -/
theorem CutTo.again (h : CutTo asked source shown) : CutTo asked shown shown := by
  induction h with
  | whole here => exact .whole here
  | plain hplain => exact .plain hplain
  | fields further ascending there entry ih =>
    refine .fields further ascending (fun name => ?_) fun name v w hv hw => ?_
    · exact ⟨fun hsome => ⟨hsome, ((there name).1 hsome).2⟩, And.left⟩
    · obtain ⟨u, hu⟩ := Option.isSome_iff_exists.1
        ((there name).1 (Option.isSome_of_eq_some hv)).1
      obtain rfl : v = w := Option.some.inj (hv.symm.trans hw)
      exact ih name u v hu hv

/-- Names that are asked for lead to the same place in what is left: there stands what
stood there, or what is left of it. -/
theorem CutTo.along {above below : List String} (h : CutTo asked source shown)
    (hasked : asked (above ++ below)) (hv : along above source = some v) :
    ∃ w, along above shown = some w ∧
      (w = v ∨ CutTo (fun rest => asked (above ++ rest)) v w) := by
  induction above generalizing asked source shown with
  | nil =>
    cases hv
    exact ⟨shown, rfl, .inr h⟩
  | cons name rest ih =>
    cases h with
    | whole => exact ⟨v, hv, .inl rfl⟩
    | plain hplain =>
      rw [along_of_not_object hplain] at hv
      cases hv
    | fields further ascending there entry =>
      rw [along_cons, Option.bind_eq_some_iff] at hv
      obtain ⟨u, hu, hv⟩ := hv
      obtain ⟨u', hu'⟩ := Option.isSome_iff_exists.1
        ((there name).2 ⟨Option.isSome_of_eq_some hu, _, hasked⟩)
      obtain ⟨w, hw, hwv⟩ := ih (entry name u u' hu hu') hasked hv
      refine ⟨w, ?_, hwv⟩
      rw [along_cons, hu']
      exact hw

end

/-! ## Copying paths -/

theorem ascending_copyPath {target : Fields} (h : Keyed.Ascending target) (path : List String)
    (source : Value) : Keyed.Ascending (copyPath target path source) := by
  unfold copyPath
  split
  · exact h
  · split
    · exact h
    · split
      · exact h.put ..
      · split
        · exact h.put ..
        · exact h.put ..
        · exact h
        · exact h.put ..
        · exact h

/-- Nothing is left of an object if nothing is asked for but that there is one. -/
theorem cutTo_blank {asked : List String → Prop} (source : Fields) (h : ∀ names, ¬asked names) :
    CutTo asked (.object source) (.object []) := by
  refine .fields (h []) Keyed.ascending_nil (fun name => ?_) nofun
  simp [Keyed.get?_nil, h]

/-- The entry that copying a path leaves, if copying the rest of the path is right. -/
theorem cutTo_copied {rest : List String} {value : Value} {there : Option Value}
    {asked : List String → Prop}
    (ih : rest ≠ [] → ∀ target source : Fields, ∀ asked : List String → Prop,
      CutTo asked (.object source) (.object target) →
      (∀ names, asked names → OnOneWay rest names → names = rest) →
        CutTo (fun names => asked names ∨ names = rest) (.object source)
          (.object (copyPath target rest (.object source))))
    (apart : ∀ names, asked names → OnOneWay rest names → names = rest)
    (hnone : there = none → ∀ names, ¬asked names)
    (hsome : ∀ old, there = some old → CutTo asked value old) :
    CutTo (fun names => asked names ∨ names = rest) value (copied rest value there) := by
  cases rest with
  | nil =>
    rw [copied_nil]
    exact .whole (.inr rfl)
  | cons next more =>
    have hfurther : ¬asked [] := fun h => nomatch apart [] h (.inr List.nil_prefix)
    by_cases hobject : value.isObject = true
    · obtain ⟨inner, rfl⟩ := exists_eq_object hobject
      cases there with
      | none => exact ih nofun [] inner asked (cutTo_blank inner (hnone rfl)) apart
      | some old =>
        have hold := hsome old rfl
        cases hold with
        | whole here => exact absurd here hfurther
        | plain hplain => cases hplain
        | @fields _ _ there further ascending hthere hentry =>
          exact ih nofun there inner asked (.fields further ascending hthere hentry) apart
    · rw [Bool.not_eq_true] at hobject
      rw [copied_of_not_object hobject fun old hold => (hsome old hold).eq_of_plain hobject]
      exact .plain hobject

section

variable {asked : List String → Prop} {source target : Fields} {name : String}
  {rest : List String}

/-- To ask for what is missing changes nothing. -/
theorem CutTo.of_missing (h : CutTo asked (.object source) (.object target))
    (hmissing : source.get? name = none) :
    CutTo (fun names => asked names ∨ names = name :: rest) (.object source) (.object target) := by
  have helsewhere : ∀ {other more}, (source.get? other).isSome →
      (asked (other :: more) ↔ asked (other :: more) ∨ other :: more = name :: rest) := by
    intro other more hother
    refine ⟨.inl, fun h => h.resolve_right fun heq => ?_⟩
    obtain ⟨rfl, -⟩ := List.cons.inj heq
    rw [hmissing] at hother
    cases hother
  cases h with
  | whole here => exact .whole (.inl here)
  | plain hplain => cases hplain
  | fields further ascending there entry =>
    refine .fields (fun h => h.elim further nofun) ascending (fun other => ?_)
      fun other v w hv hw => ?_
    · rw [there other]
      exact and_congr_right fun hother => exists_congr fun more => helsewhere hother
    · exact (entry other v w hv hw).congr fun more => helsewhere (Option.isSome_of_eq_some hv)

/-- To ask for more under one name changes the entry of that name. -/
theorem CutTo.of_entry {grown : Fields} {value copied : Value}
    (h : CutTo asked (.object source) (.object target)) (further : ¬asked [])
    (hvalue : source.get? name = some value) (hgrown : Keyed.Ascending grown)
    (hget : ∀ other, grown.get? other = if other = name then some copied else target.get? other)
    (hcopied : CutTo (fun names => asked (name :: names) ∨ names = rest) value copied) :
    CutTo (fun names => asked names ∨ names = name :: rest) (.object source) (.object grown) := by
  obtain ⟨-, there, entry⟩ := h.inversion further
  refine .fields (fun h => h.elim further nofun) hgrown (fun other => ?_)
    fun other v w hv hw => ?_
  · rw [hget other]
    split
    · next heq =>
      subst heq
      simp [hvalue]
    · next hother =>
      rw [there other]
      simp [hother]
  · rw [hget other] at hw
    split at hw
    · next heq =>
      subst heq
      obtain rfl : value = v := Option.some.inj (hvalue.symm.trans hv)
      cases hw
      exact hcopied.congr fun more => by simp
    · next hother => exact (entry other v w hv hw).congr fun more => by simp [hother]

end

/-- Copying a path that is apart from those copied before adds it to them. -/
theorem cutTo_copyPath {path : List String} (hne : path ≠ []) {target source : Fields}
    {asked : List String → Prop} (h : CutTo asked (.object source) (.object target))
    (apart : ∀ names, asked names → OnOneWay path names → names = path) :
    CutTo (fun names => asked names ∨ names = path) (.object source)
      (.object (copyPath target path (.object source))) := by
  induction path generalizing target source asked with
  | nil => exact absurd rfl hne
  | cons name rest ih =>
    have hfurther : ¬asked [] := fun hasked => nomatch apart [] hasked (.inr List.nil_prefix)
    cases hvalue : source.get? name with
    | none =>
      rw [copyPath_of_missing rest hvalue]
      exact h.of_missing hvalue
    | some value =>
      obtain ⟨ascending, there, entry⟩ := h.inversion hfurther
      have hcopied : CutTo (fun names => asked (name :: names) ∨ names = rest) value
          (copied rest value (target.get? name)) := by
        refine cutTo_copied (fun hrest target source asked h apart => ih hrest h apart)
          (fun names hasked hway => ?_) (fun hnone names hasked => ?_) fun old hold =>
          entry name value old hvalue hold
        · have heq := apart _ hasked ((onOneWay_cons name rest names).2 hway)
          exact (List.cons.inj heq).2
        · have hsome := (there name).2 ⟨Option.isSome_of_eq_some hvalue, names, hasked⟩
          rw [hnone] at hsome
          cases hsome
      exact h.of_entry hfurther hvalue (ascending_copyPath ascending _ _)
        (get?_copyPath_cons rest hvalue) hcopied

/-! ## Projecting -/

/-- One of the paths that none of them continues. -/
def Leaf (paths : List PropertyPath) (p : PropertyPath) : Prop :=
  p ∈ paths ∧ ∀ q ∈ paths, ∀ more, q.names = p.names ++ more → more = []

/-- No property on the paths has a name with a point. -/
def Pointless (paths : List PropertyPath) : Prop :=
  ∀ p ∈ paths, ∀ name ∈ p.names, '.' ∉ name.toList

instance (paths : List PropertyPath) : Decidable (Pointless paths) :=
  inferInstanceAs (Decidable (∀ p ∈ paths, ∀ name ∈ p.names, '.' ∉ name.toList))

variable {paths others : List PropertyPath} {p q : PropertyPath}

theorem Leaf.names_eq (hp : Leaf paths p) (hq : Leaf paths q) (h : OnOneWay p.names q.names) :
    q.names = p.names := by
  rcases h with ⟨more, hmore⟩ | ⟨more, hmore⟩
  · rw [← hmore, hp.2 q hq.1 more hmore.symm, List.append_nil]
  · rw [← hmore, hq.2 p hp.1 more hmore.symm, List.append_nil]

theorem leaf_iff (plain : Pointless paths) (hp : p ∈ paths) :
    Leaf paths p ↔ ¬Continued paths p := by
  constructor
  · intro hleaf hcontinued
    obtain ⟨q, hq, more, hmore, hnames⟩ := hcontinued.exists_longer (plain p hp) plain
    exact hmore (hleaf.2 q hq more hnames)
  · refine fun h => ⟨hp, fun q hq more hnames => ?_⟩
    by_contra hmore
    exact h (continued_of_longer hq hmore hnames)

/-- Copying one path after another cuts the document down to those that are not continued. -/
theorem cutTo_foldl (plain : Pointless paths) (source : Fields) {rest : List PropertyPath}
    (hrest : ∀ p ∈ rest, p ∈ paths) {found : Fields} {asked : List String → Prop}
    (hasked : ∀ names, asked names → ∃ p, Leaf paths p ∧ p.names = names)
    (h : CutTo asked (.object source) (.object found)) :
    CutTo (fun names => asked names ∨ ∃ p ∈ rest, Leaf paths p ∧ p.names = names)
      (.object source)
      (.object (rest.foldl
        (fun found path =>
          if isExtended (paths.map (·.text)) path.text then found
          else copyPath found (path.segments.map (·.name)) (.object source)) found)) := by
  induction rest generalizing found asked with
  | nil => exact h.congr fun names => by simp
  | cons p rest ih =>
    have hp := hrest p List.mem_cons_self
    have hmore := fun q hq => hrest q (List.mem_cons_of_mem p hq)
    rw [List.foldl_cons]
    split
    · next hcontinued =>
      have hnot : ¬Leaf paths p := fun hleaf => (leaf_iff plain hp).1 hleaf hcontinued
      exact (ih hmore hasked h).congr fun names => by simp [hnot]
    · next hcontinued =>
      have hleaf : Leaf paths p := (leaf_iff plain hp).2 hcontinued
      have hcopied := cutTo_copyPath p.names_ne_nil h fun names hnames hway => by
        obtain ⟨q, hq, rfl⟩ := hasked names hnames
        exact hleaf.names_eq hq hway
      refine (ih hmore (fun names hnames => ?_) hcopied).congr fun names => ?_
      · rcases hnames with hnames | rfl
        · exact hasked names hnames
        · exact ⟨p, hleaf, rfl⟩
      · simp [hleaf, or_assoc, eq_comm]

/-- A projection is the document cut down to the paths that are not continued. -/
theorem cutTo_project (hne : paths ≠ []) (plain : Pointless paths) (source : Fields) :
    CutTo (fun names => ∃ p, Leaf paths p ∧ p.names = names) (.object source)
      (project (.object source) paths) := by
  have hproject : ¬(paths.isEmpty || !(Value.object source).isObject) = true := by
    simpa [Value.isObject] using hne
  unfold project
  rw [if_neg hproject]
  refine (cutTo_foldl plain source (fun _ => id) (fun _ => False.elim)
    (cutTo_blank source fun _ => id)).congr fun names => ?_
  constructor
  · rintro (hnone | ⟨p, -, hleaf, hnames⟩)
    · exact hnone.elim
    · exact ⟨p, hleaf, hnames⟩
  · rintro ⟨p, hleaf, hnames⟩
    exact .inr ⟨p, hleaf.1, hleaf, hnames⟩

theorem exists_project_eq (hne : paths ≠ []) (source : Fields) :
    ∃ shown, project (.object source) paths = .object shown := by
  have hproject : ¬(paths.isEmpty || !(Value.object source).isObject) = true := by
    simpa [Value.isObject] using hne
  unfold project
  rw [if_neg hproject]
  exact ⟨_, rfl⟩

/-- What is shown of a document is what it holds along the paths that none of them
continues. -/
structure Restricts (paths : List PropertyPath) (document shown : Value) : Prop where
  /-- What stands at the end of a path is shown as it is. -/
  found : ∀ p, Leaf paths p → ∀ v, along p.names document = some v → along p.names shown = some v
  /-- What is no object and stands on the way of a path is shown as it is. -/
  stopped : ∀ p, Leaf paths p → ∀ above below, p.names = above ++ below → ∀ v,
    along above document = some v → v.isObject = false → along above shown = some v
  /-- Where a field is missing on the way, the objects passed are shown, and not that field. -/
  missing : ∀ p, Leaf paths p → ∀ above name below, p.names = above ++ name :: below →
    ∀ fields : Fields, along above document = some (.object fields) → fields.get? name = none →
      ∃ passed : Fields, along above shown = some (.object passed) ∧ passed.get? name = none
  /-- Nothing is shown that is not on the way of a path, at its end or below. -/
  only : ∀ names, names ≠ [] → (along names shown).isSome →
    (along names document).isSome ∧ ∃ p, Leaf paths p ∧ OnOneWay p.names names

theorem restricts_project (hne : paths ≠ []) (plain : Pointless paths) (source : Fields) :
    Restricts paths (.object source) (project (.object source) paths) := by
  have hcut := cutTo_project hne plain source
  refine ⟨fun p hp v hv => ?_, fun p hp above below hnames v hv hplain => ?_,
    fun p hp above name below hnames fields hfields hmissing => ?_, fun names hne' hsome => ?_⟩
  · have hasked : ∃ q, Leaf paths q ∧ q.names = p.names ++ [] := ⟨p, hp, by simp⟩
    obtain ⟨w, hw, rfl | hvw⟩ := hcut.along hasked hv
    · exact hw
    · rw [hw, hvw.eq_of_asked hasked]
  · obtain ⟨w, hw, rfl | hvw⟩ := hcut.along ⟨p, hp, hnames⟩ hv
    · exact hw
    · rw [hw, hvw.eq_of_plain hplain]
  · obtain ⟨w, hw, rfl | hvw⟩ := hcut.along ⟨p, hp, hnames⟩ hfields
    · exact ⟨fields, hw, hmissing⟩
    · cases hvw with
      | whole => exact ⟨fields, hw, hmissing⟩
      | plain hplain => cases hplain
      | @fields _ _ passed _ _ there _ =>
        refine ⟨passed, hw, Option.not_isSome_iff_eq_none.1 fun hthere => ?_⟩
        rw [there name, hmissing] at hthere
        cases hthere.1
  · obtain ⟨hthere, hnil | ⟨p, hp, hnot, hway⟩⟩ :=
      ((shows_project hne source).reached names).1 hsome
    · exact absurd hnil hne'
    · exact ⟨hthere, p, (leaf_iff plain hp).2 hnot, hway⟩

theorem leaf_congr {names : List String}
    (h : ∀ names, names ∈ others.map PropertyPath.names ↔ names ∈ paths.map PropertyPath.names) :
    (∃ p, Leaf others p ∧ p.names = names) → ∃ p, Leaf paths p ∧ p.names = names := by
  rintro ⟨p, ⟨hp, hlast⟩, rfl⟩
  obtain ⟨q, hq, hnames⟩ := List.mem_map.1 ((h p.names).1 (List.mem_map_of_mem hp))
  refine ⟨q, ⟨hq, fun r hr more hmore => ?_⟩, hnames⟩
  obtain ⟨r', hr', hnames'⟩ := List.mem_map.1 ((h r.names).2 (List.mem_map_of_mem hr))
  exact hlast r' hr' more (hnames'.trans (hmore.trans (hnames ▸ rfl)))

/-- A projection shows of an object exactly what it holds along the paths that none of them
continues. It depends on nothing but which names are asked for, and projecting again does
nothing. -/
theorem project_restricts (hne : paths ≠ []) (plain : Pointless paths) (source : Fields) :
    Restricts paths (.object source) (project (.object source) paths) ∧
    (∀ others : List PropertyPath,
      (∀ names, names ∈ others.map PropertyPath.names ↔ names ∈ paths.map PropertyPath.names) →
        project (.object source) others = project (.object source) paths) ∧
    project (project (.object source) paths) paths = project (.object source) paths := by
  have hcut := cutTo_project hne plain source
  refine ⟨restricts_project hne plain source, fun others hsame => ?_, ?_⟩
  · have hne' : others ≠ [] := by
      rintro rfl
      obtain ⟨p, hp⟩ := List.exists_mem_of_ne_nil paths hne
      cases (hsame p.names).2 (List.mem_map_of_mem hp)
    have plain' : Pointless others := by
      intro p hp
      obtain ⟨q, hq, hnames⟩ := List.mem_map.1 ((hsame p.names).1 (List.mem_map_of_mem hp))
      exact hnames ▸ plain q hq
    exact ((cutTo_project hne' plain' source).congr fun names =>
      ⟨leaf_congr hsame, leaf_congr fun names => (hsame names).symm⟩).unique hcut
  · obtain ⟨shown, hshown⟩ := exists_project_eq hne source
    rw [hshown] at hcut ⊢
    exact (cutTo_project hne plain shown).unique hcut.again

end LiveRecords.Projection

/-! ## A bill -/

namespace LiveRecords.Shop

open Projection

/-- An order with its customer, whose address is not known. -/
def bill : Fields :=
  [("customer", .object [("email", .text "ann@x"), ("id", .int 1), ("name", .text "Ann")]),
   ("key", .text "o"), ("total", .null)]

/-- Paths through properties of orders, some of them continued or asked for twice. -/
def billPaths : List PropertyPath :=
  let customer := PropertyPath.root order { name := "customer", type := .entity customerRef }
  let address := customer.child { name := "address", type := .entity addressRef }
  let total := PropertyPath.root order { name := "total", type := .any }
  [customer.child { name := "id", type := .int }, customer,
   address.child { name := "city", type := .string }, total.child { name := "tax", type := .int },
   customer.child { name := "id", type := .int }]

theorem bill_restricted :
    Restricts billPaths (.object bill)
        (.object [("customer", .object [("id", .int 1)]), ("total", .null)]) ∧
      project (.object bill) billPaths.reverse = project (.object bill) billPaths ∧
      project (project (.object bill) billPaths) billPaths = project (.object bill) billPaths := by
  obtain ⟨hrestricts, hcongr, hagain⟩ :=
    project_restricts (show billPaths ≠ [] by decide) (by decide) bill
  refine ⟨hrestricts, hcongr _ fun names => ?_, hagain⟩
  rw [List.map_reverse, List.mem_reverse]

end LiveRecords.Shop

import Mathlib.Data.List.Dedup
import LiveRecords.Proofs.Query.Descent

/-
  Runs of an expansion, and how deep its paths get.

  A run is a finite tree of calls: a path that is there is left as it is; any other one is
  visited, and what is done for its parent, and then for all that it leads to, are runs again
  (`Run`). No fuel bounds a run from outside, so there is one only if the calls come to an
  end. Whatever cycles the types have, every expansion has a run and only one result, and it is
  the one that is computed with fuel (`run_iff`).

  On the way a path gets deeper only where a type is entered, and no type is entered while it is
  being entered (`Rising`). So a path of an expansion is deeper than those that were asked for by
  at most one level for each name of a type (`expand_ends_within`). Employees who are required
  with their managers, and managers and deputies that are computed from each other, reach that
  depth (`Staff.superior_within`).
-/

namespace LiveRecords

/-- The names of the entity types, each once. -/
def Catalog.typeNames (c : Catalog) : List String := (c.types.map (·.name)).dedup

namespace Expansion

variable {c : Catalog} {es : List (List String × PropertyPath)} {entered entered' : List String}
  {found found' grown grown' : List PropertyPath} {p q : PropertyPath} {base : Nat}

/-! ## Runs -/

/-- A run that adds paths, one after another, to the paths found. Each comes with the names of
the types that must not be entered on its way. -/
inductive Run (c : Catalog) :
    List (List String × PropertyPath) → List PropertyPath → List PropertyPath → Prop where
  | done {found : List PropertyPath} : Run c [] found found
  | there {entered : List String} {p : PropertyPath} {es : List (List String × PropertyPath)}
      {found grown : List PropertyPath} (known : isIn p found = true) (next : Run c es found grown) :
      Run c ((entered, p) :: es) found grown
  | visit {entered : List String} {p : PropertyPath} {es : List (List String × PropertyPath)}
      {found opened finished grown : List PropertyPath} (new : ¬isIn p found = true)
      (parent : Run c (p.parent?.toList.map (entered, ·)) found opened)
      (finish : Run c (errands c entered p) (put p opened) finished)
      (next : Run c es finished grown) :
      Run c ((entered, p) :: es) found grown

namespace Run

theorem deterministic (h : Run c es found grown) (h' : Run c es found grown') :
    grown = grown' := by
  induction h generalizing grown' with
  | done =>
    cases h'
    rfl
  | there known _ ihnext =>
    cases h' with
    | there _ next => exact ihnext next
    | visit new => exact absurd known new
  | visit new _ _ _ ihparent ihfinish ihnext =>
    cases h' with
    | there known => exact absurd known new
    | visit _ parent finish next =>
      obtain rfl := ihparent parent
      obtain rfl := ihfinish finish
      exact ihnext next

theorem cons {e : List String × PropertyPath} (first : Run c [e] found found')
    (rest : Run c es found' grown) : Run c (e :: es) found grown := by
  cases first with
  | there known next =>
    cases next
    exact .there known rest
  | visit new parent finish next =>
    cases next
    exact .visit new parent finish rest

/-- Runs for single paths make up a run for all of them. -/
theorem foldl (h : ∀ found' e, e ∈ es → Grows found found' →
      Run c [e] found' (gather c e.1 found' e.2)) :
    Run c es found (es.foldl (fun found e => gather c e.1 found e.2) found) := by
  induction es generalizing found with
  | nil => exact .done
  | cons e rest ih =>
    have hfirst := h found e List.mem_cons_self (.refl found)
    refine hfirst.cons (ih fun found' e' he hgrown => ?_)
    exact h found' e' (List.mem_cons_of_mem e he) ((grows_gather e.1 found e.2).trans hgrown)

end Run

/-- Every addition has a run. -/
theorem run_gather (placed : c.Placed) (entered : List String) (found : List PropertyPath)
    (p : PropertyPath) : Run c [(entered, p)] found (gather c entered found p) := by
  refine gather_induction placed
    (motive := fun entered found p => Run c [(entered, p)] found (gather c entered found p))
    ?_ ?_ entered found p
  · intro entered found p hin
    rw [gather_of_isIn hin]
    exact .there hin .done
  · intro entered found p hnew ih
    rw [gather_of_new placed hnew]
    have hparent : Run c (p.parent?.toList.map (entered, ·)) found
        (openWith (gather c) entered found p) := by
      unfold openWith
      cases hq : p.parent? with
      | none => exact .done
      | some q => exact ih entered found q (.up hq)
    unfold visitWith
    have hopened := grows_openWith (grows_gather (c := c)) entered found p
    generalize openWith (gather c) entered found p = opened at hparent hopened
    have hput : Grows found (put p opened) := hopened.trans (grows_put p opened)
    refine .visit hnew hparent (.foldl fun found' e he hgrown => ?_) .done
    exact ih e.1 found' e.2
      (calls_of_errand he (hput.trans hgrown) (hgrown.isIn (isIn_put p opened)))

/-- An expansion has a run, and it comes to what is computed with fuel and to nothing else. -/
theorem run_iff (placed : c.Placed) (requested : List PropertyPath) (result : Option EntityType)
    (paths : List PropertyPath) :
    Run c ((requested ++ roots result).map ([], ·)) [] paths ↔
      paths = expand c requested result := by
  have hrun : Run c ((requested ++ roots result).map ([], ·)) [] (expand c requested result) := by
    rw [expand_eq placed]
    have hfoldl : Run c ((requested ++ roots result).map ([], ·)) []
        (((requested ++ roots result).map ([], ·)).foldl
          (fun found e => gather c e.1 found e.2) []) :=
      .foldl fun found' e _ _ => run_gather placed e.1 found' e.2
    rwa [List.foldl_map] at hfoldl
  exact ⟨fun h => h.deterministic hrun, fun h => h ▸ hrun⟩

/-! ## Depth -/

/-- The types entered are different ones of the catalogue, and the path is below the depth that
was asked for by at most one level for each of them. -/
structure Rising (c : Catalog) (base : Nat) (entered : List String) (p : PropertyPath) :
    Prop where
  apart : entered.Nodup
  listed : entered ⊆ c.typeNames
  depth : p.depth ≤ base + entered.length

theorem Rising.start (h : p.depth ≤ base) : Rising c base [] p where
  apart := List.nodup_nil
  listed := List.nil_subset _
  depth := h

theorem Rising.depth_le (h : Rising c base entered p) :
    p.depth ≤ base + c.typeNames.length := by
  have hlength : entered.length ≤ c.typeNames.length :=
    (List.subperm_of_subset h.apart h.listed).length_le
  have hdepth := h.depth
  omega

/-- A further call gets deeper only with a type that was not entered before. -/
theorem Rising.calls (h : Rising c base entered p)
    (hcalls : Calls c entered found p entered' found' q) : Rising c base entered' q := by
  have hdepth := h.depth
  cases hcalls with
  | up parent =>
    refine ⟨h.apart, h.listed, ?_⟩
    rw [PropertyPath.eq_child_of_parent? parent, PropertyPath.depth_child] at hdepth
    omega
  | aside input grown there =>
    refine ⟨h.apart, h.listed, ?_⟩
    rwa [depth_of_sibling (mem_siblings_of_input input)]
  | @down found' t r leads fresh required grown there =>
    have ht : t ∈ c.types := Catalog.mem_of_resolve leads (List.mem_of_mem_filter required)
    have hname : t.name ∈ c.typeNames := List.mem_dedup.2 (List.mem_map_of_mem ht)
    refine ⟨h.apart.cons fresh, List.cons_subset.2 ⟨hname, h.listed⟩, ?_⟩
    rw [PropertyPath.depth_child, List.length_cons]
    omega

/-- Paths that are deeper than what was asked for by at most one level for each name. -/
def Within (c : Catalog) (base : Nat) (paths : List PropertyPath) : Prop :=
  ∀ p ∈ paths, p.depth ≤ base + c.typeNames.length

theorem Within.gather (placed : c.Placed) (h : Rising c base entered p)
    (hfound : Within c base found) : Within c base (gather c entered found p) := by
  refine gather_induction placed
    (motive := fun entered found p => Rising c base entered p → Within c base found →
      Within c base (Expansion.gather c entered found p)) ?_ ?_ entered found p h hfound
  · intro entered found p hin _ hfound
    rwa [gather_of_isIn hin]
  · intro entered found p hnew ih h hfound
    rw [gather_of_new placed hnew]
    have hopened : Within c base (openWith (Expansion.gather c) entered found p) :=
      openWith_keeps hfound fun q hq =>
        have hcalls : Calls c entered found p entered found q := .up hq
        ih entered found q hcalls (h.calls hcalls) hfound
    refine finishWith_keeps grows_gather (grows_openWith grows_gather entered found p)
      (fun entered' found' q hcalls => ih entered' found' q hcalls (h.calls hcalls)) ?_
    intro q hq
    rcases mem_put hq with hq | rfl
    · exact hopened q hq
    · exact h.depth_le

theorem depth_of_roots {result : Option EntityType} (h : p ∈ roots result) : p.depth = 1 := by
  cases result with
  | none => cases h
  | some t =>
    obtain ⟨r, -, rfl⟩ := List.mem_map.1 h
    rfl

theorem within_expand (placed : c.Placed) (requested : List PropertyPath)
    (result : Option EntityType) :
    Within c (max 1 (depth requested)) (expand c requested result) := by
  rw [expand_eq placed]
  refine foldl_keeps (grows_gather []) (fun found p hp _ hfound => ?_) nofun
  refine hfound.gather placed (.start ?_)
  rcases List.mem_append.1 hp with hp | hp
  · exact (depth_le hp).trans (Nat.le_max_right ..)
  · exact (depth_of_roots hp).le.trans (Nat.le_max_left ..)

/-- However cyclic the types are, an expansion comes to an end, with one result. No path of it is
deeper than the deepest one asked for, or than a single property, by more than the number of
different names of types. -/
theorem expand_ends_within (placed : c.Placed) (requested : List PropertyPath)
    (result : Option EntityType) :
    (∀ paths, Run c ((requested ++ roots result).map ([], ·)) [] paths ↔
      paths = expand c requested result) ∧
    ∀ p ∈ expand c requested result,
      p.depth ≤ max 1 (depth requested) + c.typeNames.length :=
  ⟨run_iff placed requested result, within_expand placed requested result⟩

end Expansion

/-! ## Managers and deputies -/

namespace Staff

open Expansion

/-- The manager of an employee, who is the deputy of the deputy. -/
def manager : Property :=
  { name := "manager", type := .entity ⟨"Employee", 0⟩, mandatory := true,
    dependsOn := ["deputy"] }

/-- The deputy of the manager. -/
def deputy : Property :=
  { name := "deputy", type := .entity ⟨"Employee", 0⟩, dependsOn := ["manager"] }

/-- Employees, who all have a manager and a deputy. -/
def employee : EntityType :=
  ⟨"Employee", 0, [{ name := "id", type := .int, isKey := true }, manager, deputy]⟩

/-- The catalogue of employees alone. -/
def office : Catalog := ⟨[employee]⟩

/-- The manager of an employee's manager. -/
def superior : PropertyPath := (PropertyPath.root employee manager).child manager

theorem placed_office : office.Placed := by
  unfold Catalog.Placed
  decide

/-- The superior is two levels deep, and there is one name of a type: the expansion comes to an
end, and its deepest paths have the three levels that it may reach. -/
theorem superior_within :
    office.Placed ∧
      Run office (([superior] ++ roots (some employee)).map ([], ·)) []
        (expand office [superior] (some employee)) ∧
      (∀ p ∈ expand office [superior] (some employee), p.depth ≤ 2 + 1) ∧
      depth (expand office [superior] (some employee)) = 3 := by
  obtain ⟨hruns, hdepth⟩ := expand_ends_within placed_office [superior] (some employee)
  exact ⟨placed_office, (hruns _).2 rfl, hdepth, rfl⟩

end Staff

end LiveRecords

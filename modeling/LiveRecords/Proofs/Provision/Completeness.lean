import LiveRecords.Proofs.Provision.Walk

/-
  Which tables are there once a type was made sure of.

  If no call has failed since all was last forgotten, they are those of all types that the
  type reaches. A failed call leaves the tables that were declared before it failed. The
  type that it failed at, and all types on the way to it, are missing then; but a type that
  refers to one of them and was made on its behalf stays made, and to make sure of that type
  again looks no further (`Shop.head_missing`). So a type may be missing behind one that it
  reaches itself, if a failed call was to make it and no other call has made it since.
  Everything else is there (`provided`).
-/

namespace LiveRecords

open Job (Goes)
open Relation (ReflTransGen TransGen)

/-- A job after its next steps, as long as it need not wait. -/
def Job.ahead {σ α : Type} : Nat → Job σ α → σ → Job σ α × σ
  | steps + 1, .step change next, s => ahead steps (next s) (change s)
  | _, j, s => (j, s)

theorem Job.goes_ahead {σ α : Type} {rely : σ → σ → Prop} (steps : Nat) (j : Job σ α) (s : σ) :
    Goes rely j s (j.ahead steps s).1 (j.ahead steps s).2 := by
  induction steps generalizing j s with
  | zero => exact .refl
  | succ steps ih =>
    cases j with
    | step change next => exact (ih (next s) (change s)).head (.inl .step)
    | _ => exact .refl

namespace Provision

variable {c : Catalog} {type d x : EntityType} {w : World}
  {calls : List (EntityType × Outcome Unit)}

/-- Calls to make sure of types, one after another and each with its outcome, since all was
last forgotten. Meanwhile others leave cells and tables alone, but may have any declaration
refused. -/
inductive Runs (c : Catalog) : List (EntityType × Outcome Unit) → World → Prop where
  | fresh {w : World} (cells : w.cellOf = []) (tables : w.schema.tables = []) : Runs c [] w
  | meanwhile {calls : List (EntityType × Outcome Unit)} {w w' : World} (run : Runs c calls w)
      (apart : w.Apart w') : Runs c calls w'
  | ensured {calls : List (EntityType × Outcome Unit)} {w w' : World} {type : EntityType}
      {result : Outcome Unit} (run : Runs c calls w) (listed : type ∈ c.types)
      (goes : Goes World.Apart (ensure c type).run w (.done result) w') :
      Runs c (calls ++ [(type, result)]) w'
  | cleared {calls : List (EntityType × Outcome Unit)} {w w' : World} {result : Outcome Unit}
      (run : Runs c calls w)
      (goes : Goes World.Apart (clear .cached).run w (.done result) w') : Runs c [] w'

/-- A call has failed that was for a type that reaches this one. -/
def Lost (c : Catalog) (calls : List (EntityType × Outcome Unit)) (x : EntityType) : Prop :=
  ∃ call ∈ calls, (∃ e, call.2 = .error e) ∧ c.Reaches call.1 x

theorem Standing.fresh (hcells : w.cellOf = []) (lost : EntityType → Prop) :
    Standing c lost [] w := by
  have hnone : ∀ table, w.cellOf.get? table = none := fun table => by rw [hcells]; rfl
  have hunknown : ∀ table, isKnown table w = true → False := by
    intro table hknown
    obtain ⟨cell, hcell, _⟩ := isKnown_iff.1 hknown
    rw [hnone] at hcell
    cases hcell
  constructor
  case ascending => exact hcells ▸ Keyed.ascending_nil
  case bounded =>
    intro table cell hcell
    rw [hnone] at hcell
    cases hcell
  case own =>
    intro table table' cell hcell
    rw [hnone] at hcell
    cases hcell
  case begun =>
    intro table hin
    rw [Keyed.contains, hnone] at hin
    cases hin
  case created => exact fun hknown => (hunknown _ hknown).elim
  case sound => exact fun d _ hknown => (hunknown _ hknown).elim

/-- Between calls no type is on the way, so that each call finds a type made or without a
cell, and there is fuel for all of them. -/
theorem Standing.ended {result : Outcome Unit} {lost : EntityType → Prop} {w' : World}
    (h : Standing c lost [] w) (wf : c.WellFormed) (listed : type ∈ c.types)
    (goes : Goes World.Apart (ensure c type).run w (.done result) w') :
    Ensured c lost [] type w result w' := by
  have hfuel : (unbegun c w).length < c.types.length + 2 :=
    calc (unbegun c w).length ≤ c.types.length := List.length_filter_le _ _
      _ < c.types.length + 2 := by omega
  have hmade : w.cellOf.contains type.name = true → isKnown type.name w = true := by
    intro hin
    rcases h.begun hin with hknown | ⟨d, hd, _⟩
    · exact hknown
    · cases hd
  exact ((ensures_ensureWithin wf listed (fun d hd => by cases hd) h hfuel hmade).goes goes).result

/-- After any calls, what a call has failed to make is lost, and what a call has made is
known. -/
theorem Runs.standing (wf : c.WellFormed) (run : Runs c calls w) :
    Standing c (Lost c calls) [] w ∧
      ∀ type, (type, .ok ()) ∈ calls → isKnown type.name w = true := by
  induction run with
  | fresh cells _ => exact ⟨.fresh cells _, fun _ hin => by cases hin⟩
  | meanwhile _ apart ih =>
    refine ⟨ih.1.apart apart, fun type hin => ?_⟩
    exact (isKnown_congr apart.cellOf apart.cells type.name).trans (ih.2 type hin)
  | @ensured calls w w' type result _ listed goes ih =>
    obtain ⟨hstanding, hknown⟩ := ih
    have hend := hstanding.ended wf listed goes
    have hkept : ∀ {other}, (other, .ok ()) ∈ calls → Added w w' → isKnown other.name w' = true :=
      fun hin hadded => hstanding.known_of_added hadded (hknown _ hin)
    have hlost : ∀ x, Lost c calls x → Lost c (calls ++ [(type, result)]) x :=
      fun x ⟨call, hin, hfailed⟩ => ⟨call, List.mem_append_left _ hin, hfailed⟩
    cases result with
    | ok _ =>
      obtain ⟨hadded, hstanding', htype⟩ := hend
      refine ⟨hstanding'.mono hlost, fun other hin => ?_⟩
      rcases List.mem_append.1 hin with hin | hin
      · exact hkept hin hadded
      · cases List.mem_singleton.1 hin
        exact htype
    | error e =>
      obtain ⟨hadded, hstanding'⟩ := hend
      refine ⟨hstanding'.mono fun x hx => ?_, fun other hin => ?_⟩
      · rcases hx with hx | hreaches
        · exact hlost x hx
        · exact ⟨(type, .error e), by simp, ⟨e, rfl⟩, hreaches⟩
      · rcases List.mem_append.1 hin with hin | hin
        · exact hkept hin hadded
        · cases List.mem_singleton.1 hin
  | @cleared calls w w' result _ goes _ =>
    have hcleared : Job.Ensures oneByOne (fun _ w' => w'.cellOf = []) (clear .cached).run w :=
      fun _ _ => ⟨trivial, fun _ hw' => hw'.cellOf⟩
    exact ⟨.fresh (hcleared.goes goes).result _, fun _ hin => by cases hin⟩

theorem Runs.listed (run : Runs c calls w) : ∀ call ∈ calls, call.1 ∈ c.types := by
  induction run with
  | fresh _ _ => exact fun _ hin => by cases hin
  | meanwhile _ _ ih => exact ih
  | ensured _ listed _ ih =>
    intro call hin
    rcases List.mem_append.1 hin with hin | hin
    · exact ih call hin
    · cases List.mem_singleton.1 hin
      exact listed
  | cleared _ _ _ => exact fun _ hin => by cases hin

/-! ## Ways on which nothing is missing -/

/-- A type refers to another that is not missing once the type is made: if the other one
reaches the type and was lost, it was made sure of itself. -/
def Certain (c : Catalog) (calls : List (EntityType × Outcome Unit)) (d x : EntityType) : Prop :=
  c.RefersTo d x ∧ (c.Reaches x d → Lost c calls x → (x, .ok ()) ∈ calls)

theorem Runs.known_of_certain (wf : c.WellFormed) (run : Runs c calls w) (hd : d ∈ c.types)
    (hknown : isKnown d.name w = true) (certain : ReflTransGen (Certain c calls) d x) :
    x ∈ c.types ∧ isKnown x.name w = true := by
  obtain ⟨hstanding, hcalled⟩ := run.standing wf
  induction certain with
  | refl => exact ⟨hd, hknown⟩
  | @tail y x _ hstep ih =>
    obtain ⟨hy, hyknown⟩ := ih
    obtain ⟨href, hcertain⟩ := hstep
    refine ⟨wf.closed y hy x href, ?_⟩
    rcases hstanding.sound y hy hyknown x href with hx | ⟨hreaches, hin | hlost⟩
    · exact hx
    · cases hin
    · exact hcalled x (hcertain hreaches hlost)

/-- If no call has failed every way is certain. -/
theorem certain_of_unfailing (h : ∀ call ∈ calls, call.2 = .ok ()) (hreaches : c.Reaches d x) :
    ReflTransGen (Certain c calls) d x := by
  refine ReflTransGen.mono (fun y z href => ⟨href, fun _ hlost => ?_⟩) _ _ hreaches
  obtain ⟨call, hin, ⟨e, herror⟩, _⟩ := hlost
  rw [h call hin] at herror
  cases herror

/-- If no type on the way refers back to itself the way is certain. -/
theorem certain_of_acyclic (h : ∀ y, c.Reaches d y → ¬TransGen c.RefersTo y y)
    (hreaches : c.Reaches d x) : ReflTransGen (Certain c calls) d x := by
  induction hreaches with
  | refl => exact .refl
  | @tail y x hy href ih =>
    refine ih.tail ⟨href, fun hback _ => ?_⟩
    exact absurd (TransGen.head' href hback) (h y hy)

/-- Once a call for a type has come back without failure, the tables of all types on certain
ways from it are there, until all is forgotten: of all types it reaches if no call has
failed since all was last forgotten, or if none of them refers back to itself. -/
theorem provided (wf : c.WellFormed) (run : Runs c calls w) (called : (type, .ok ()) ∈ calls) :
    (∀ x, ReflTransGen (Certain c calls) type x → w.schema.tables.contains x.name = true) ∧
    ((∀ call ∈ calls, call.2 = .ok ()) → ∀ x, c.Reaches type x →
      w.schema.tables.contains x.name = true) ∧
    ((∀ x, c.Reaches type x → ¬TransGen c.RefersTo x x) → ∀ x, c.Reaches type x →
      w.schema.tables.contains x.name = true) := by
  obtain ⟨hstanding, hcalled⟩ := run.standing wf
  have hcertain : ∀ x, ReflTransGen (Certain c calls) type x →
      w.schema.tables.contains x.name = true := by
    intro x certain
    have htype : type ∈ c.types := run.listed _ called
    exact hstanding.created (run.known_of_certain wf htype (hcalled type called) certain).2
  exact ⟨hcertain, fun h x hreaches => hcertain x (certain_of_unfailing h hreaches),
    fun h x hreaches => hcertain x (certain_of_acyclic h hreaches)⟩

end Provision

namespace Shop

/-- Employees; each works in a department. -/
def employee : EntityType :=
  ⟨"Employee", 0, [{ name := "id", type := .string, isKey := true },
    { name := "department", type := .entity ⟨"Department", 1⟩ }]⟩

/-- Departments; each has an employee as its head. -/
def department : EntityType :=
  ⟨"Department", 1, [{ name := "id", type := .string, isKey := true },
    { name := "head", type := .entity ⟨"Employee", 0⟩ }]⟩

def office : Catalog := ⟨[employee, department]⟩

theorem refersTo_office {d x : EntityType} (hd : d ∈ office.types) :
    office.RefersTo d x ↔ d = employee ∧ x = department ∨ d = department ∧ x = employee := by
  simp only [office, List.mem_cons, List.not_mem_nil, or_false] at hd
  rcases hd with rfl | rfl
  · simp [Catalog.RefersTo, Catalog.referenced?, Catalog.resolve, ValueType.entity?, office,
      employee, department, eq_comm]
  · simp [Catalog.RefersTo, Catalog.referenced?, Catalog.resolve, ValueType.entity?, office,
      employee, department, eq_comm]

theorem office_wellFormed : office.WellFormed where
  distinct := by decide
  closed d hd x href := by
    rcases (refersTo_office hd).1 href with ⟨-, rfl⟩ | ⟨-, rfl⟩
    · exact .tail _ (.head _)
    · exact .head _

/-- Nothing is declared. -/
def unfurnished : World := { catalog := office, schemaUse := .cached }

/-- Employees are made sure of up to where the table of departments is declared. -/
def midway : Job World (Outcome Unit) × World :=
  (Provision.ensure office employee).run.ahead 13 unfurnished

/-- From then on declarations are refused. -/
def refusing : World := { midway.2 with schema := { midway.2.schema with refusals := 1 } }

/-- The refusal of the table of employees. -/
def refused : Failure := .unavailable "schema backend rejected Employee"

/-- The call for employees fails, that for departments finds them made, and the next one for
employees does not fail. -/
theorem runs_office : ∃ w w',
    Provision.Runs office [(employee, .error refused), (department, .ok ())] w ∧
    w.schema.tables.contains employee.name = false ∧
    Provision.Runs office
      [(employee, .error refused), (department, .ok ()), (employee, .ok ())] w' := by
  have hends : ∃ w₁ w₂ w₃, midway.1.alone refusing = some (.error refused, w₁) ∧
      (Provision.ensure office department).run.alone w₁ = some (.ok (), w₂) ∧
      w₂.schema.tables.contains employee.name = false ∧
      (Provision.ensure office employee).run.alone w₂ = some (.ok (), w₃) :=
    ⟨_, _, _, rfl, rfl, rfl, rfl⟩
  obtain ⟨w₁, w₂, w₃, hfirst, hsecond, hmissing, hthird⟩ := hends
  have hmidway : Goes World.Apart (Provision.ensure office employee).run unfurnished
      midway.1 midway.2 := Job.goes_ahead 13 _ unfurnished
  have hrefusing : Goes World.Apart (Provision.ensure office employee).run unfurnished
      midway.1 refusing := hmidway.tail (.inr ⟨rfl, rfl, rfl, rfl⟩)
  have hrun : Provision.Runs office [(employee, .error refused)] w₁ :=
    .ensured (.fresh rfl rfl) (.head _) (hrefusing.trans (Job.goes_of_alone hfirst))
  have hrun₂ := hrun.ensured (.tail _ (.head _)) (Job.goes_of_alone hsecond)
  exact ⟨w₂, w₃, hrun₂, hmissing, hrun₂.ensured (.head _) (Job.goes_of_alone hthird)⟩

theorem department_reaches_employee : office.Reaches department employee :=
  .single ((refersTo_office (.tail _ (.head _))).2 (.inr ⟨rfl, rfl⟩))

/-- Departments were made sure of, and their heads have no table. -/
theorem head_missing : ∃ w,
    Provision.Runs office [(employee, .error refused), (department, .ok ())] w ∧
    office.Reaches department employee ∧ w.schema.tables.contains employee.name = false := by
  obtain ⟨w, _, hrun, hmissing, _⟩ := runs_office
  exact ⟨w, hrun, department_reaches_employee, hmissing⟩

theorem runs_departments : ∃ w, Provision.Runs office [(department, .ok ())] w := by
  have hends : ∃ w, (Provision.ensure office department).run.alone unfurnished =
      some (.ok (), w) := ⟨_, rfl⟩
  obtain ⟨w, hends⟩ := hends
  exact ⟨w, Provision.Runs.ensured (.fresh rfl rfl) (.tail _ (.head _))
    (Job.goes_of_alone hends)⟩

/-- Once employees were made sure of again nothing is missing, and likewise if no call fails
at all. -/
theorem head_provided : office.WellFormed ∧ office.Reaches department employee ∧
    (∃ w, Provision.Runs office
        [(employee, .error refused), (department, .ok ()), (employee, .ok ())] w ∧
      w.schema.tables.contains employee.name = true) ∧
    ∃ w, Provision.Runs office [(department, .ok ())] w ∧
      w.schema.tables.contains employee.name = true := by
  obtain ⟨_, w, _, _, hrun⟩ := runs_office
  obtain ⟨w', hrun'⟩ := runs_departments
  have href : office.RefersTo department employee :=
    (refersTo_office (.tail _ (.head _))).2 (.inr ⟨rfl, rfl⟩)
  have certain : Provision.Certain office
      [(employee, .error refused), (department, .ok ()), (employee, .ok ())]
      department employee := ⟨href, fun _ _ => by simp⟩
  have hprovided := (Provision.provided office_wellFormed hrun (by simp)).1 employee
    (.single certain)
  have hunfailing := (Provision.provided office_wellFormed hrun' List.mem_cons_self).2.1
    (by simp) employee department_reaches_employee
  exact ⟨office_wellFormed, department_reaches_employee, ⟨w, hrun, hprovided⟩, w', hrun',
    hunfailing⟩

end Shop

end LiveRecords

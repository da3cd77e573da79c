import LiveRecords.Proofs.Entries
import LiveRecords.Proofs.Pipeline.Backend
import LiveRecords.Sample.Shop
import LiveRecords.Schema.Basic

/-
  What declaring entity types does to the columns of a database.

  A call to declare a type counts, waits, and then declares the type in one step
  (`Schema.each_declare_runs`), so any number of calls at once come to a sequence of such
  steps, with calls counted and declarations refused in between (`Schema.Runs`). A call that
  fails changes no column and executes nothing; a call that succeeds leaves the columns of
  its type at the types that were declared and all others as they were (`Schema.Declares`).
  In between nothing is lost: to widen is transitive, so a column may have changed its type
  many times and can still take what was stored in it at first (`Schema.Runs.widened`).
-/

namespace LiveRecords

/-! ## Types that widen -/

namespace ValueType

theorem same_refl (a : ValueType) : a.same a = true := by
  induction a with
  | list item ih => exact ih
  | entity ref => exact beq_self_eq_true ref.name
  | _ => rfl

theorem same_symm {a b : ValueType} (h : a.same b = true) : b.same a = true := by
  induction a generalizing b with
  | list item ih =>
    cases b with
    | list item' => exact ih h
    | _ => cases h
  | entity ref =>
    cases b with
    | entity ref' => exact beq_iff_eq.2 (beq_iff_eq.1 h).symm
    | _ => cases h
  | _ =>
    cases b with
    | list item' => cases h
    | entity ref' => cases h
    | _ => first | rfl | cases h

theorem same_trans {a b d : ValueType} (h : a.same b = true) (h' : b.same d = true) :
    a.same d = true := by
  induction a generalizing b d with
  | list item ih =>
    cases b with
    | list item' =>
      cases d with
      | list item'' => exact ih h h'
      | _ => cases h'
    | _ => cases h
  | entity ref =>
    cases b with
    | entity ref' =>
      cases d with
      | entity ref'' => exact beq_iff_eq.2 ((beq_iff_eq.1 h).trans (beq_iff_eq.1 h'))
      | _ => cases h'
    | _ => cases h
  | _ => cases b <;> first | exact h' | cases h

theorem same_any_iff {a : ValueType} : a.same .any = true ↔ a = .any := by
  cases a <;> simp [same]

theorem same_int_iff {a : ValueType} : a.same .int = true ↔ a = .int := by
  cases a <;> simp [same]

theorem same_float_iff {a : ValueType} : a.same .float = true ↔ a = .float := by
  cases a <;> simp [same]

theorem canWidenTo_iff {a b : ValueType} :
    a.canWidenTo b = true ↔ a.same b = true ∨ b = .any ∨ (a = .int ∧ b = .float) := by
  simp [canWidenTo, same_any_iff, same_int_iff, same_float_iff, or_assoc]

theorem canWidenTo_refl (a : ValueType) : a.canWidenTo a = true :=
  canWidenTo_iff.2 (.inl a.same_refl)

/-- What can take some values can also take them in between. -/
theorem canWidenTo_trans {a b d : ValueType} (h : a.canWidenTo b = true)
    (h' : b.canWidenTo d = true) : a.canWidenTo d = true := by
  rw [canWidenTo_iff] at h h' ⊢
  rcases h with hsame | rfl | ⟨rfl, rfl⟩
  · rcases h' with hsame' | rfl | ⟨rfl, rfl⟩
    · exact .inl (same_trans hsame hsame')
    · exact .inr (.inl rfl)
    · exact .inr (.inr ⟨same_int_iff.1 hsame, rfl⟩)
  · rcases h' with hsame' | rfl | ⟨hint, _⟩
    · exact .inr (.inl (same_any_iff.1 (same_symm hsame')))
    · exact .inr (.inl rfl)
    · cases hint
  · rcases h' with hsame' | rfl | ⟨hint, _⟩
    · exact .inr (.inr ⟨rfl, same_float_iff.1 (same_symm hsame')⟩)
    · exact .inr (.inl rfl)
    · cases hint

theorem canWidenTo_of_same {a b d : ValueType} (h : a.canWidenTo b = true)
    (hsame : d.same b = true) : a.canWidenTo d = true :=
  canWidenTo_trans h (canWidenTo_iff.2 (.inl (same_symm hsame)))

end ValueType

/-- No two properties of the type have one name. -/
def EntityType.NamesOnce (t : EntityType) : Prop := (t.properties.map (·.name)).Nodup

instance (t : EntityType) : Decidable t.NamesOnce := inferInstanceAs (Decidable (List.Nodup _))

namespace Schema

variable {c : Catalog} {type : EntityType} {s t u : Schema}

/-! ## Declaring properties -/

section Columns

variable {table name : String} {p : Property} {done : Columns × List String}

theorem get?_declareProperty_self (c : Catalog) (table : String) (done : Columns × List String)
    (p : Property) :
    ∃ a, (declareProperty c table done p).1.get? p.name = some a ∧ a.same p.type = true := by
  unfold declareProperty
  dsimp only
  split
  · next hsame => exact Option.any_eq_true _ _ |>.1 hsame
  · exact ⟨p.type, Keyed.get?_put_self _ _ _, p.type.same_refl⟩

theorem get?_declareProperty_of_ne (hne : name ≠ p.name) :
    (declareProperty c table done p).1.get? name = done.1.get? name := by
  unfold declareProperty
  dsimp only
  split
  · rfl
  · exact Keyed.get?_put_of_ne hne _ _

/-- The columns of the declared properties. -/
theorem get?_declared_of_not_mem {properties : List Property}
    (hname : name ∉ properties.map (·.name)) :
    (properties.foldl (declareProperty c table) done).1.get? name = done.1.get? name := by
  induction properties generalizing done with
  | nil => rfl
  | cons q rest ih =>
    rw [List.map_cons, List.mem_cons, not_or] at hname
    rw [List.foldl_cons, ih hname.2]
    exact get?_declareProperty_of_ne hname.1

theorem get?_declared {properties : List Property} (once : (properties.map (·.name)).Nodup)
    (hp : p ∈ properties) :
    ∃ a, (properties.foldl (declareProperty c table) done).1.get? p.name = some a ∧
      a.same p.type = true := by
  induction properties generalizing done with
  | nil => cases hp
  | cons q rest ih =>
    rw [List.map_cons, List.nodup_cons] at once
    rw [List.foldl_cons]
    rcases List.mem_cons.1 hp with rfl | hp
    · -- none of the properties after it has its name
      rw [get?_declared_of_not_mem once.1]
      exact get?_declareProperty_self c table done p
    · exact ih once.2 hp

/-- Properties whose columns have their types are not declared anew. -/
theorem declared_of_same {properties : List Property}
    (h : ∀ p ∈ properties, (done.1.get? p.name).any (·.same p.type) = true) :
    properties.foldl (declareProperty c table) done = done := by
  induction properties with
  | nil => rfl
  | cons q rest ih =>
    have hq : declareProperty c table done q = done := by
      obtain ⟨columns, statements⟩ := done
      exact if_pos (h q List.mem_cons_self)
    rw [List.foldl_cons, hq]
    exact ih fun p hp => h p (List.mem_cons_of_mem q hp)

theorem conflict?_eq_none_iff {columns : Columns} :
    conflict? columns type = none ↔ ∀ p ∈ type.properties, ∀ a, columns.get? p.name = some a →
      a.canWidenTo p.type = true := by
  unfold conflict?
  rw [List.findSome?_eq_none_iff]
  refine forall₂_congr fun p hp => ?_
  cases columns.get? p.name with
  | none => simp
  | some a => simp

end Columns

/-! ## Calls -/

/-- A type was declared: its table is there and its columns have the declared types, other
columns and tables are as they were, and some statements were executed. -/
structure Extended (type : EntityType) (s t : Schema) : Prop where
  declared : ∃ stored, t.tables.get? type.name = some stored
  own : ∀ p ∈ type.properties, ∃ a, t.column? type.name p.name = some a ∧ a.same p.type = true
  column : ∀ column, column ∉ type.properties.map (·.name) →
    t.column? type.name column = s.column? type.name column
  table : ∀ table, table ≠ type.name → t.tables.get? table = s.tables.get? table
  statements : s.statements.toList <+: t.statements.toList

/-- What a call to declare a type has done, by its outcome. -/
def Declares (type : EntityType) (s t : Schema) : Outcome Unit → Prop
  | .ok _ => Extended type s t
  | .error _ => t.tables = s.tables ∧ t.statements = s.statements

/-- Every column is there still, with a type that its former type can widen to. -/
def Widened (s t : Schema) : Prop :=
  ∀ table column a, s.column? table column = some a →
    ∃ b, t.column? table column = some b ∧ a.canWidenTo b = true

theorem Widened.refl (s : Schema) : Widened s s := fun _ _ a h => ⟨a, h, a.canWidenTo_refl⟩

theorem Widened.trans (h : Widened s t) (h' : Widened t u) : Widened s u := by
  intro table column a ha
  obtain ⟨b, hb, hab⟩ := h table column a ha
  obtain ⟨d, hd, hbd⟩ := h' table column b hb
  exact ⟨d, hd, ValueType.canWidenTo_trans hab hbd⟩

theorem Widened.of_tables (h : t.tables = s.tables) : Widened s t := by
  intro table column a ha
  refine ⟨a, ?_, a.canWidenTo_refl⟩
  unfold column? at ha ⊢
  rw [h]
  exact ha

/-- The columns of a table, none if it was never declared. -/
def columns (s : Schema) (table : String) : Columns := (s.tables.get? table).getD []

theorem column?_eq (s : Schema) (table column : String) :
    s.column? table column = (s.columns table).get? column := by
  unfold column? columns
  cases s.tables.get? table <;> rfl

/-- A type is declared, or a column stands in the way. -/
theorem declare_cases (c : Catalog) (type : EntityType) (s : Schema) :
    (∃ e, s.declare c type = .error e) ∨
    conflict? (s.columns type.name) type = none ∧ ∃ first last : List String,
      s.declare c type = .ok { s with
        tables := s.tables.put type.name
          (type.properties.foldl (declareProperty c type.name) (s.columns type.name, first)).1
        statements := s.statements ++ last.toArray } := by
  unfold declare columns
  dsimp only
  cases conflict? ((s.tables.get? type.name).getD []) type with
  | some found => exact .inl ⟨_, rfl⟩
  | none => exact .inr ⟨rfl, _, _, rfl⟩

/-- A call fails and changes nothing but the refusals to come, or it declares the type. -/
theorem createOrUpdate_cases (c : Catalog) (type : EntityType) (s : Schema) :
    (∃ e n, s.createOrUpdate c type = (.error e, { s with refusals := n })) ∨
    ∃ t, s.declare c type = .ok t ∧ s.createOrUpdate c type = (.ok (), t) := by
  unfold createOrUpdate
  by_cases hrefused : 0 < s.refusals
  · rw [if_pos hrefused]
    exact .inl ⟨_, _, rfl⟩
  · rw [if_neg hrefused]
    cases s.declare c type with
    | ok t => exact .inr ⟨t, rfl, rfl⟩
    | error e => exact .inl ⟨e, s.refusals, rfl⟩

theorem createOrUpdate_of_refused (h : 0 < s.refusals) :
    (s.createOrUpdate c type).2 = { s with refusals := s.refusals - 1 } := by
  unfold createOrUpdate
  rw [if_pos h]

theorem createOrUpdate_of_free (hfree : s.refusals = 0) (h : s.declare c type = .ok t) :
    s.createOrUpdate c type = (.ok (), t) := by
  unfold createOrUpdate
  rw [if_neg (by omega), h]

theorem extended_of_declare (once : type.NamesOnce) (h : s.declare c type = .ok t) :
    Extended type s t := by
  obtain ⟨e, he⟩ | ⟨_, first, last, ht⟩ := declare_cases c type s
  · rw [he] at h
    cases h
  rw [ht] at h
  cases h
  constructor
  · exact ⟨_, Keyed.get?_put_self _ _ _⟩
  · intro p hp
    rw [column?_eq, columns, Keyed.get?_put_self]
    exact get?_declared once hp
  · intro column hcolumn
    rw [column?_eq, column?_eq, columns, Keyed.get?_put_self]
    exact get?_declared_of_not_mem hcolumn
  · intro table htable
    exact Keyed.get?_put_of_ne htable _ _
  · exact ⟨last, by simp⟩

theorem declares_createOrUpdate (c : Catalog) (s : Schema) (once : type.NamesOnce) :
    Declares type s (s.createOrUpdate c type).2 (s.createOrUpdate c type).1 := by
  obtain ⟨e, n, h⟩ | ⟨t, ht, h⟩ := createOrUpdate_cases c type s
  · rw [h]
    exact ⟨rfl, rfl⟩
  · rw [h]
    exact extended_of_declare once ht

/-- Each column that the type declares could change to its type, so that all columns
still take what they took. -/
theorem widened_of_declare (once : type.NamesOnce) (h : s.declare c type = .ok t) :
    Widened s t := by
  have extended : Extended type s t := extended_of_declare once h
  intro table column a ha
  by_cases htable : table = type.name
  · subst htable
    by_cases hcolumn : column ∈ type.properties.map (·.name)
    · obtain ⟨p, hp, rfl⟩ := List.mem_map.1 hcolumn
      obtain ⟨b, hb, hsame⟩ := extended.own p hp
      refine ⟨b, hb, ?_⟩
      obtain ⟨e, he⟩ | ⟨hconflict, _⟩ := declare_cases c type s
      · rw [he] at h
        cases h
      · rw [column?_eq] at ha
        exact ValueType.canWidenTo_of_same (conflict?_eq_none_iff.1 hconflict p hp a ha) hsame
    · exact ⟨a, (extended.column column hcolumn).trans ha, a.canWidenTo_refl⟩
  · refine ⟨a, ?_, a.canWidenTo_refl⟩
    unfold column? at ha ⊢
    rw [extended.table table htable]
    exact ha

/-- A type whose columns all have its types is declared with no statement. -/
theorem declare_of_same {stored : Columns} (hstored : s.tables.get? type.name = some stored)
    (h : ∀ p ∈ type.properties, ∃ a, stored.get? p.name = some a ∧ a.same p.type = true) :
    ∃ t, s.declare c type = .ok t ∧ t.statements = s.statements := by
  have hconflict : conflict? stored type = none := by
    refine conflict?_eq_none_iff.2 fun p hp a ha => ?_
    obtain ⟨b, hb, hsame⟩ := h p hp
    rw [hb] at ha
    cases ha
    exact ValueType.canWidenTo_iff.2 (.inl hsame)
  have hcolumns : declareColumns c type (some stored) = (stored, []) := by
    unfold declareColumns
    dsimp only [Option.getD_some, Option.isNone_some]
    rw [declared_of_same fun p hp => ?_]
    · rfl
    · obtain ⟨b, hb, hsame⟩ := h p hp
      rw [hb]
      exact hsame
  refine ⟨{ s with tables := s.tables.put type.name stored }, ?_, rfl⟩
  unfold declare
  rw [hstored]
  dsimp only [Option.getD_some]
  rw [hconflict, hcolumns]
  simp

/-- A type that was declared can be declared again, with no statement, as long as the
columns of its table are as they were. -/
theorem Extended.declare_again (h : Extended type s t)
    (hkept : u.tables.get? type.name = t.tables.get? type.name) :
    ∃ v, u.declare c type = .ok v ∧ v.statements = u.statements := by
  obtain ⟨stored, hstored⟩ := h.declared
  refine declare_of_same (hkept.trans hstored) fun p hp => ?_
  obtain ⟨a, ha, hsame⟩ := h.own p hp
  refine ⟨a, ?_, hsame⟩
  unfold column? at ha
  rw [hstored] at ha
  exact ha

/-! ## Runs -/

/-- Calls to declare types, each with its outcome, lead from one schema to another. In
between calls are counted and declarations to come are set to be refused. -/
inductive Runs (c : Catalog) (s : Schema) : List (EntityType × Outcome Unit) → Schema → Prop where
  | start : Runs c s [] s
  | counted {calls : List (EntityType × Outcome Unit)} {t : Schema} (run : Runs c s calls t) :
      Runs c s calls t.count
  | refusing {calls : List (EntityType × Outcome Unit)} {t : Schema} (n : Nat)
      (run : Runs c s calls t) : Runs c s calls { t with refusals := n }
  | called {calls : List (EntityType × Outcome Unit)} {t : Schema} (type : EntityType)
      (once : type.NamesOnce) (run : Runs c s calls t) :
      Runs c s (calls ++ [(type, (t.createOrUpdate c type).1)]) (t.createOrUpdate c type).2

namespace Runs

variable {calls : List (EntityType × Outcome Unit)}

/-- However often a column was declared, it can take what it took at first. -/
theorem widened (run : Runs c s calls t) : Widened s t := by
  induction run with
  | start => exact .refl s
  | counted _ ih => exact ih.trans (.of_tables rfl)
  | refusing n _ ih => exact ih.trans (.of_tables rfl)
  | @called calls t type once _ ih =>
    refine ih.trans ?_
    obtain ⟨e, n, h⟩ | ⟨t', ht', h⟩ := createOrUpdate_cases c type t
    · rw [h]
      exact .of_tables rfl
    · rw [h]
      exact widened_of_declare once ht'

/-- The columns of a table are as they were as long as no call declares it. -/
theorem get?_tables {table : String} (run : Runs c s calls t)
    (h : ∀ call ∈ calls, call.1.name = table → call.2 ≠ .ok ()) :
    t.tables.get? table = s.tables.get? table := by
  induction run with
  | start => rfl
  | counted _ ih => exact ih h
  | refusing n _ ih => exact ih h
  | @called calls t type once _ ih =>
    rw [← ih fun call hcall => h call (List.mem_append_left _ hcall)]
    have hlast := h (type, (t.createOrUpdate c type).1) (by simp)
    have hdeclares := declares_createOrUpdate c t once
    cases houtcome : (t.createOrUpdate c type).1 with
    | error e =>
      rw [houtcome] at hdeclares
      rw [hdeclares.1]
    | ok _ =>
      rw [houtcome] at hdeclares
      exact hdeclares.table table fun htable => hlast htable.symm houtcome

end Runs

/-- Every step of a call is a run, so that calls that take turns make a run as well. -/
theorem each_declare_runs (once : type.NamesOnce) :
    Job.Each (fun w w' : World => ∃ calls, Runs w.catalog w.schema calls w'.schema)
      (Provision.declare type).run := by
  refine Work.each_bind (Work.each_act fun w => ⟨[], .counted .start⟩) fun latency => ?_
  refine Work.each_bind (Work.each_pause (fun w => ⟨[], .start⟩) latency) fun _ => ?_
  exact fun w => ⟨⟨_, .called type once .start⟩, trivial⟩

/-- Recorded columns only widen: over a run the type of each column goes only to types it
can widen to. Of the calls in it, one that fails changes no column and executes no
statement; one that succeeds leaves the columns of its type with their declared types and
all others as they were; and to declare a type again, after no other call has declared its
table, executes no statement and is not refused for the sake of a column. -/
theorem runs_widen {calls : List (EntityType × Outcome Unit)} (run : Runs c s calls t) :
    Widened s t ∧ ∀ type : EntityType, type.NamesOnce →
      Declares type t (t.createOrUpdate c type).2 (t.createOrUpdate c type).1 ∧
      ((t.createOrUpdate c type).1 = .ok () → ∀ later u,
        Runs c (t.createOrUpdate c type).2 later u →
        (∀ call ∈ later, call.1.name = type.name → call.2 ≠ .ok ()) →
        (u.createOrUpdate c type).2.statements = u.statements ∧
        (u.refusals = 0 → (u.createOrUpdate c type).1 = .ok ())) := by
  refine ⟨run.widened, fun type once => ⟨declares_createOrUpdate c t once, ?_⟩⟩
  intro hok later u hlater hother
  have extended := declares_createOrUpdate c t once
  rw [hok] at extended
  obtain ⟨v, hv, hstatements⟩ := extended.declare_again (c := c) (hlater.get?_tables hother)
  by_cases hfree : u.refusals = 0
  · rw [createOrUpdate_of_free hfree hv]
    exact ⟨hstatements, fun _ => rfl⟩
  · rw [createOrUpdate_of_refused (by omega)]
    exact ⟨rfl, fun hzero => absurd hzero hfree⟩

end Schema

namespace Shop

/-- Vendors whose numbers may be fractions and whose names may be anything. -/
def supplier : EntityType :=
  ⟨"Vendor", 1, [{ name := "id", type := .float, isKey := true }, { name := "name", type := .any }]⟩

/-- Vendors whose names are numbers. -/
def branch : EntityType :=
  ⟨"Vendor", 1, [{ name := "city", type := .string }, { name := "name", type := .int }]⟩

/-- Nothing but vendors declared. -/
def vendors : Schema := (({} : Schema).createOrUpdate catalog vendor).2

/-- Vendors redeclared as suppliers, and branches refused. -/
def suppliers : Schema :=
  ((vendors.createOrUpdate catalog supplier).2.createOrUpdate catalog branch).2

/-- The table of vendors takes suppliers but not branches, not even their cities, and to
declare suppliers once more executes nothing. -/
theorem vendors_widen :
    let again := suppliers.createOrUpdate catalog supplier
    Schema.Runs catalog vendors
      [(supplier, .ok ()), (branch, .error (.schemaConflict "Vendor" "name" "any" "int"))]
      suppliers ∧
    Schema.Widened vendors suppliers ∧ suppliers.column? "Vendor" "id" = some .float ∧
    suppliers.column? "Vendor" "city" = none ∧
    supplier.NamesOnce ∧ again.1 = .ok () ∧ Schema.Declares supplier suppliers again.2 again.1 ∧
    Schema.Runs catalog again.2 [] again.2.count ∧
    (again.2.count.createOrUpdate catalog supplier).2.statements = again.2.statements := by
  intro again
  have once : supplier.NamesOnce := by decide
  have run : Schema.Runs catalog vendors
      [(supplier, .ok ()), (branch, .error (.schemaConflict "Vendor" "name" "any" "int"))]
      suppliers := .called branch (by decide) (.called supplier once .start)
  have hagain : again.1 = .ok () := rfl
  have later : Schema.Runs catalog again.2 [] again.2.count := .counted .start
  obtain ⟨widened, hcalls⟩ := Schema.runs_widen run
  obtain ⟨hdeclares, hrepeated⟩ := hcalls supplier once
  obtain ⟨hstatements, _⟩ := hrepeated hagain [] again.2.count later (by simp)
  exact ⟨run, widened, rfl, rfl, once, hagain, hdeclares, later, hstatements⟩

end Shop

end LiveRecords

import LiveRecords.Proofs.Entity.Graph
import LiveRecords.Proofs.Pipeline.Backend
import LiveRecords.Proofs.Schema.Widening

/-
  Where the work on the tables stands while types are made sure of.

  Making sure of a type makes sure of the types it refers to before, and so on: the types
  on the way, each of which refers to the next, have cells that are not made yet
  (`Standing`). A type on the way is not waited for, so that a type that refers to it is
  made without it. If the type on the way is made in the end, nothing is missing
  (`Standing.made`); if not, it is lost to the type that refers to it, which stays made
  (`Standing.forgotten`). Only types that the lost type reaches can miss it: they were made
  on its behalf.
-/

namespace LiveRecords

open Job (Each Ensures Terms)
open Relation (ReflTransGen)

/-! ## The types that a type refers to -/

namespace Catalog

variable {c : Catalog} {d x : EntityType}

/-- A type is added unless one of its name is there. -/
def addOnce (found : List EntityType) (next : EntityType) : List EntityType :=
  if found.any (·.name == next.name) then found else found ++ [next]

theorem mem_addOnce {found : List EntityType} {next : EntityType} (h : x ∈ addOnce found next) :
    x ∈ found ∨ x = next := by
  unfold addOnce at h
  split at h
  · exact .inl h
  · simpa using h

/-- What was found stays, and the name that is added is there. -/
theorem named_addOnce {found : List EntityType} {next : EntityType}
    (h : (∃ y ∈ found, y.name = x.name) ∨ x = next) :
    ∃ y ∈ addOnce found next, y.name = x.name := by
  unfold addOnce
  split
  · next hany =>
    rcases h with h | rfl
    · exact h
    · simpa using hany
  · rcases h with ⟨y, hy, hname⟩ | rfl
    · exact ⟨y, List.mem_append_left _ hy, hname⟩
    · exact ⟨x, by simp, rfl⟩

theorem mem_foldl_addOnce {types found : List EntityType} (h : x ∈ types.foldl addOnce found) :
    x ∈ found ∨ x ∈ types := by
  induction types generalizing found with
  | nil => exact .inl h
  | cons next rest ih =>
    rcases ih h with hfound | hrest
    · rcases mem_addOnce hfound with hfound | rfl
      · exact .inl hfound
      · exact .inr List.mem_cons_self
    · exact .inr (List.mem_cons_of_mem next hrest)

theorem named_foldl_addOnce {types found : List EntityType}
    (h : (∃ y ∈ found, y.name = x.name) ∨ x ∈ types) :
    ∃ y ∈ types.foldl addOnce found, y.name = x.name := by
  induction types generalizing found with
  | nil => simpa using h
  | cons next rest ih =>
    rw [List.foldl_cons]
    rcases h with hfound | hin
    · exact ih (.inl (named_addOnce (.inl hfound)))
    · rcases List.mem_cons.1 hin with rfl | hrest
      · exact ih (.inl (named_addOnce (.inr rfl)))
      · exact ih (.inr hrest)

theorem refersTo_of_mem (h : x ∈ c.referencedTypes d) : c.RefersTo d x := by
  rcases mem_foldl_addOnce h with hnil | hin
  · cases hnil
  · exact List.mem_filterMap.1 hin

/-- Of the types that a type refers to none is left out. -/
theorem WellFormed.mem_referencedTypes (wf : c.WellFormed) (hd : d ∈ c.types)
    (h : c.RefersTo d x) : x ∈ c.referencedTypes d := by
  have hnamed : ∃ y ∈ c.referencedTypes d, y.name = x.name :=
    named_foldl_addOnce (.inr (List.mem_filterMap.2 h))
  obtain ⟨y, hy, hname⟩ := hnamed
  have hyin : y ∈ c.types := wf.closed d hd y (refersTo_of_mem hy)
  rwa [← wf.distinct y hyin x (wf.closed d hd x h) hname]

end Catalog

/-! ## Cells -/

/-- The others leave the cells and the tables as they are. They may set declarations to be
refused, at any time. -/
structure World.Apart (w w' : World) : Prop where
  cellOf : w'.cellOf = w.cellOf
  cells : w'.cells = w.cells
  tables : w'.schema.tables = w.schema.tables

theorem World.Apart.refl (w : World) : w.Apart w := ⟨rfl, rfl, rfl⟩

theorem World.Apart.trans {w w' w'' : World} (h : w.Apart w') (h' : w'.Apart w'') :
    w.Apart w'' :=
  ⟨h'.cellOf.trans h.cellOf, h'.cells.trans h.cells, h'.tables.trans h.tables⟩

namespace Provision

variable {c : Catalog} {type d x : EntityType} {stack : List EntityType}
  {lost : EntityType → Prop} {w w' w'' : World} {table : String} {cell : Nat}

/-- The terms of one call after another: nobody else provides tables meanwhile. -/
def oneByOne : Terms World where
  rely := World.Apart
  guarantee _ _ := True
  rely_refl := .refl
  rely_trans := .trans

theorem isMade_congr (h : w'.cells = w.cells) (cell : Nat) : isMade cell w' = isMade cell w := by
  unfold isMade
  rw [h]

theorem isKnown_congr (hcellOf : w'.cellOf = w.cellOf) (hcells : w'.cells = w.cells)
    (table : String) : isKnown table w' = isKnown table w := by
  unfold isKnown
  rw [hcellOf]
  simp only [isMade_congr hcells]

theorem isKnown_iff : isKnown table w = true ↔
    ∃ cell, w.cellOf.get? table = some cell ∧ isMade cell w = true := by
  unfold isKnown
  exact Option.any_eq_true _ _

/-- Cells were added, and those that were there are as they were. -/
structure Added (w w' : World) : Prop where
  cellOf : ∀ {table cell}, w.cellOf.get? table = some cell → w'.cellOf.get? table = some cell
  cells : ∀ cell < w.cells.length, w'.cells[cell]? = w.cells[cell]?
  length : w.cells.length ≤ w'.cells.length

theorem Added.refl (w : World) : Added w w := ⟨id, fun _ _ => rfl, Nat.le_refl _⟩

theorem Added.trans (h : Added w w') (h' : Added w' w'') : Added w w'' where
  cellOf hget := h'.cellOf (h.cellOf hget)
  cells cell hcell := (h'.cells cell (Nat.lt_of_lt_of_le hcell h.length)).trans (h.cells cell hcell)
  length := Nat.le_trans h.length h'.length

theorem Added.of_eq (hcellOf : w'.cellOf = w.cellOf) (hcells : w'.cells = w.cells) :
    Added w w' where
  cellOf hget := hcellOf ▸ hget
  cells cell _ := by rw [hcells]
  length := Nat.le_of_eq (by rw [hcells])

theorem Added.apart (h : Added w w') (hw : w'.Apart w'') : Added w w'' :=
  h.trans (.of_eq hw.cellOf hw.cells)

theorem Added.isMade_eq (h : Added w w') (hcell : cell < w.cells.length) :
    isMade cell w' = isMade cell w := by
  unfold isMade
  rw [h.cells cell hcell]

theorem Added.contains (h : Added w w') (hin : w.cellOf.contains table = true) :
    w'.cellOf.contains table = true := by
  obtain ⟨cell, hcell⟩ := Option.isSome_iff_exists.1 hin
  unfold Keyed.contains
  rw [h.cellOf hcell]
  rfl

/-! ## Types on the way -/

/-- The types on the way to a type are listed and reach it. -/
def OnTheWay (c : Catalog) (stack : List EntityType) (type : EntityType) : Prop :=
  ∀ d ∈ stack, d ∈ c.types ∧ c.Reaches d type

theorem OnTheWay.next (h : OnTheWay c stack type) (htype : type ∈ c.types)
    (href : c.RefersTo type x) : OnTheWay c (type :: stack) x := by
  intro d hd
  rcases List.mem_cons.1 hd with rfl | hd
  · exact ⟨htype, .single href⟩
  · exact ⟨(h d hd).1, (h d hd).2.tail href⟩

/-- Where the work on some types stands. Each table has a cell of its own. The cells that are
not made are those of the types on the way, and the others have their tables. A made type
has all types it refers to made, but for those that reach it and are on the way or lost. -/
structure Standing (c : Catalog) (lost : EntityType → Prop) (stack : List EntityType)
    (w : World) : Prop where
  ascending : w.cellOf.Ascending
  bounded : ∀ {table cell}, w.cellOf.get? table = some cell → cell < w.cells.length
  own : ∀ {table table' cell}, w.cellOf.get? table = some cell →
    w.cellOf.get? table' = some cell → table = table'
  begun : ∀ {table}, w.cellOf.contains table = true →
    isKnown table w = true ∨ ∃ d ∈ stack, d.name = table
  created : ∀ {table}, isKnown table w = true → w.schema.tables.contains table = true
  sound : ∀ d ∈ c.types, isKnown d.name w = true → ∀ x, c.RefersTo d x →
    isKnown x.name w = true ∨ c.Reaches x d ∧ (x ∈ stack ∨ lost x)

/-- More tables do no harm. -/
theorem Standing.of_tables (h : Standing c lost stack w) (hcellOf : w'.cellOf = w.cellOf)
    (hcells : w'.cells = w.cells)
    (htables : ∀ table, w.schema.tables.contains table = true →
      w'.schema.tables.contains table = true) : Standing c lost stack w' where
  ascending := hcellOf ▸ h.ascending
  bounded := by
    rw [hcellOf, hcells]
    exact h.bounded
  own := by
    rw [hcellOf]
    exact h.own
  begun := by
    simp only [hcellOf, isKnown_congr hcellOf hcells]
    exact h.begun
  created hknown := htables _ (h.created (isKnown_congr hcellOf hcells _ ▸ hknown))
  sound := by
    simp only [isKnown_congr hcellOf hcells]
    exact h.sound

theorem Standing.apart (h : Standing c lost stack w) (hw : w.Apart w') :
    Standing c lost stack w' :=
  h.of_tables hw.cellOf hw.cells fun _ hin => hw.tables ▸ hin

theorem Standing.mono {lost' : EntityType → Prop} (h : Standing c lost stack w)
    (hlost : ∀ x, lost x → lost' x) : Standing c lost' stack w where
  ascending := h.ascending
  bounded := h.bounded
  own := h.own
  begun := h.begun
  created := h.created
  sound d hd hknown x href :=
    (h.sound d hd hknown x href).imp_right fun ⟨hreaches, hx⟩ => ⟨hreaches, hx.imp_right (hlost x)⟩

theorem Standing.known_of_added (h : Standing c lost stack w) (hadded : Added w w')
    (hknown : isKnown table w = true) : isKnown table w' = true := by
  obtain ⟨cell, hcell, hmade⟩ := isKnown_iff.1 hknown
  refine isKnown_iff.2 ⟨cell, hadded.cellOf hcell, ?_⟩
  rw [hadded.isMade_eq (h.bounded hcell), hmade]

/-! ## Beginning -/

/-- A cell that is not made was added for the table of a type. -/
structure Opened (type : EntityType) (w w' : World) : Prop where
  cellOf : w'.cellOf = w.cellOf.put type.name w.cells.length
  cells : ∃ gate, w'.cells = w.cells ++ [⟨false, gate⟩]
  tables : w'.schema.tables = w.schema.tables

namespace Opened

theorem apart (h : Opened type w w') (hw : w'.Apart w'') : Opened type w w'' where
  cellOf := hw.cellOf.trans h.cellOf
  cells := hw.cells ▸ h.cells
  tables := hw.tables.trans h.tables

theorem get?_self (h : Opened type w w') :
    w'.cellOf.get? type.name = some w.cells.length := by
  rw [h.cellOf]
  exact Keyed.get?_put_self _ _ _

theorem get?_of_ne (h : Opened type w w') (hne : table ≠ type.name) :
    w'.cellOf.get? table = w.cellOf.get? table := by
  rw [h.cellOf]
  exact Keyed.get?_put_of_ne hne _ _

theorem isMade_new (h : Opened type w w') : isMade w.cells.length w' = false := by
  obtain ⟨gate, hcells⟩ := h.cells
  unfold isMade
  simp [hcells]

theorem added (h : Opened type w w') (hnew : w.cellOf.get? type.name = none) : Added w w' where
  cellOf {table cell} hget := by
    have hne : table ≠ type.name := by
      rintro rfl
      rw [hnew] at hget
      cases hget
    rw [h.get?_of_ne hne, hget]
  cells cell hcell := by
    obtain ⟨gate, hcells⟩ := h.cells
    rw [hcells, List.getElem?_append_left hcell]
  length := by
    obtain ⟨gate, hcells⟩ := h.cells
    simp [hcells]

/-- Of no table it is known more or less than before. -/
theorem isKnown_eq (h : Opened type w w') (standing : Standing c lost stack w)
    (hnew : w.cellOf.get? type.name = none) (table : String) :
    isKnown table w' = isKnown table w := by
  unfold isKnown
  by_cases htable : table = type.name
  · subst htable
    rw [h.get?_self, hnew]
    exact h.isMade_new
  · rw [h.get?_of_ne htable]
    cases hget : w.cellOf.get? table with
    | none => rfl
    | some cell => exact (h.added hnew).isMade_eq (standing.bounded hget)

end Opened

/-- A type whose cell is added is on the way. -/
theorem Standing.opened (h : Standing c lost stack w) (hnew : w.cellOf.get? type.name = none)
    (opened : Opened type w w') : Standing c lost (type :: stack) w' where
  ascending := opened.cellOf ▸ h.ascending.put _ _
  bounded {table cell} hget := by
    have hlonger := (opened.added hnew).length
    by_cases htable : table = type.name
    · rw [htable, opened.get?_self] at hget
      cases hget
      obtain ⟨gate, hcells⟩ := opened.cells
      simp [hcells]
    · rw [opened.get?_of_ne htable] at hget
      exact Nat.lt_of_lt_of_le (h.bounded hget) hlonger
  own {table table' cell} hget hget' := by
    by_cases htable : table = type.name
    · by_cases htable' : table' = type.name
      · rw [htable, htable']
      · -- the new cell is no other table's
        rw [htable, opened.get?_self] at hget
        rw [opened.get?_of_ne htable'] at hget'
        cases hget
        exact absurd (h.bounded hget') (Nat.lt_irrefl _)
    · rw [opened.get?_of_ne htable] at hget
      by_cases htable' : table' = type.name
      · rw [htable', opened.get?_self] at hget'
        cases hget'
        exact absurd (h.bounded hget) (Nat.lt_irrefl _)
      · rw [opened.get?_of_ne htable'] at hget'
        exact h.own hget hget'
  begun {table} hin := by
    by_cases htable : table = type.name
    · exact .inr ⟨type, List.mem_cons_self, htable.symm⟩
    · unfold Keyed.contains at hin
      rw [opened.get?_of_ne htable] at hin
      rw [opened.isKnown_eq h hnew]
      refine (h.begun hin).imp_right ?_
      rintro ⟨d, hd, hname⟩
      exact ⟨d, List.mem_cons_of_mem type hd, hname⟩
  created hknown := by
    rw [opened.isKnown_eq h hnew] at hknown
    rw [opened.tables]
    exact h.created hknown
  sound d hd hknown x href := by
    rw [opened.isKnown_eq h hnew] at hknown ⊢
    refine (h.sound d hd hknown x href).imp_right ?_
    rintro ⟨hreaches, hx⟩
    exact ⟨hreaches, hx.imp_left (List.mem_cons_of_mem type)⟩

/-! ## Ending -/

theorem isMade_markMade (hcell : cell < w.cells.length) (other : Nat) :
    isMade other (markMade cell w) = true ↔ other = cell ∨ isMade other w = true := by
  unfold isMade markMade World.onCell
  rw [List.getElem?_modify]
  by_cases heq : cell = other
  · subst heq
    simp [List.getElem?_eq_getElem hcell]
  · simp [heq, Ne.symm heq]

/-- Whatever happens at its gate, a cell is made or not as before. -/
theorem isMade_onGate (f : Gate → Gate) (other : Nat) :
    isMade other (w.onCell cell fun c => { c with gate := f c.gate }) = isMade other w := by
  unfold isMade World.onCell
  rw [List.getElem?_modify]
  cases w.cells[other]? with
  | none => rfl
  | some found => by_cases heq : cell = other <;> simp [heq]

theorem isMade_release (other : Nat) : isMade other (release cell w) = isMade other w :=
  isMade_onGate Gate.release other

/-- What a later cell comes to is of no concern to those that were there. -/
theorem Added.onCell (h : Added w w') (hcell : w.cells.length ≤ cell) (f : Cell → Cell) :
    Added w (w'.onCell cell f) where
  cellOf := h.cellOf
  cells other hother := by
    have hne : cell ≠ other := by omega
    unfold World.onCell
    rw [List.getElem?_modify, h.cells other hother]
    simp [hne]
  length := by
    unfold World.onCell
    rw [List.length_modify]
    exact h.length

theorem Standing.isKnown_markMade (h : Standing c lost stack w)
    (hcell : w.cellOf.get? type.name = some cell) (table : String) :
    isKnown table (markMade cell w) = true ↔ table = type.name ∨ isKnown table w = true := by
  have hbound : cell < w.cells.length := h.bounded hcell
  rw [isKnown_iff, isKnown_iff]
  constructor
  · rintro ⟨other, hother, hmade⟩
    rcases (isMade_markMade hbound other).1 hmade with rfl | hmade
    · exact .inl (h.own hother hcell)
    · exact .inr ⟨other, hother, hmade⟩
  · rintro (rfl | ⟨other, hother, hmade⟩)
    · exact ⟨cell, hcell, (isMade_markMade hbound cell).2 (.inl rfl)⟩
    · exact ⟨other, hother, (isMade_markMade hbound other).2 (.inr hmade)⟩

/-- The table is there, and all types that its type refers to are made or on the way: the
type is made. -/
theorem Standing.made (h : Standing c lost (type :: stack) w) (wf : c.WellFormed)
    (htype : type ∈ c.types) (hcell : w.cellOf.get? type.name = some cell)
    (htable : w.schema.tables.contains type.name = true)
    (hstack : OnTheWay c stack type)
    (hrefs : ∀ x, c.RefersTo type x → w.cellOf.contains x.name = true) :
    Standing c lost stack (markMade cell w) ∧ isKnown type.name (markMade cell w) = true := by
  have hknown := h.isKnown_markMade hcell
  refine ⟨?_, (hknown _).2 (.inl rfl)⟩
  constructor
  case ascending => exact h.ascending
  case bounded =>
    intro table other hget
    unfold markMade World.onCell
    rw [List.length_modify]
    exact h.bounded hget
  case own => exact h.own
  case begun =>
    intro table hin
    rw [hknown]
    rcases h.begun hin with hmade | ⟨d, hd, hname⟩
    · exact .inl (.inr hmade)
    · rcases List.mem_cons.1 hd with rfl | hd
      · exact .inl (.inl hname.symm)
      · exact .inr ⟨d, hd, hname⟩
  case created =>
    intro table hmade
    rcases (hknown table).1 hmade with rfl | hmade
    · exact htable
    · exact h.created hmade
  case sound =>
    intro d hd hmade x href
    rw [hknown]
    have hx : x ∈ c.types := wf.closed d hd x href
    rcases (hknown d.name).1 hmade with hname | hmade
    · -- what the type itself refers to is made or on the way
      obtain rfl : d = type := wf.distinct d hd type htype hname
      rcases h.begun (hrefs x href) with hmade | ⟨y, hy, hname⟩
      · exact .inl (.inr hmade)
      · rcases List.mem_cons.1 hy with heq | hy
        · exact .inl (.inl (heq ▸ hname.symm))
        · obtain ⟨hyin, hreaches⟩ := hstack y hy
          obtain rfl : y = x := wf.distinct y hyin x hx hname
          exact .inr ⟨hreaches, .inl hy⟩
    · rcases h.sound d hd hmade x href with hmade | ⟨hreaches, hx⟩
      · exact .inl (.inr hmade)
      · rw [List.mem_cons, or_assoc] at hx
        rcases hx with rfl | hx
        · exact .inl (.inl rfl)
        · exact .inr ⟨hreaches, hx⟩

theorem forget_of_unmade (hcell : w.cellOf.get? type.name = some cell)
    (hmade : isMade cell w = false) :
    forget type.name cell (release cell w) =
      { release cell w with cellOf := w.cellOf.erase type.name } := by
  have hforgets : (release cell w).cellOf.get? type.name = some cell ∧
      (!isMade cell (release cell w)) = true := by
    rw [isMade_release, hmade]
    exact ⟨hcell, rfl⟩
  unfold forget
  rw [if_pos hforgets]
  rfl

theorem Standing.get?_erased (h : Standing c lost stack w) {other : Nat}
    (hget : (w.cellOf.erase type.name).get? table = some other) :
    table ≠ type.name ∧ w.cellOf.get? table = some other := by
  by_cases htable : table = type.name
  · rw [htable, Keyed.get?_erase_self type.name h.ascending] at hget
    cases hget
  · rw [Keyed.get?_erase_of_ne htable] at hget
    exact ⟨htable, hget⟩

/-- A type whose cell was not made was not known before its cell is forgotten either. -/
theorem Standing.isKnown_erased (h : Standing c lost stack w)
    (hcell : w.cellOf.get? type.name = some cell) (hmade : isMade cell w = false)
    (table : String) :
    isKnown table { release cell w with cellOf := w.cellOf.erase type.name } =
      isKnown table w := by
  unfold isKnown
  by_cases htable : table = type.name
  · subst htable
    rw [Keyed.get?_erase_self type.name h.ascending, hcell]
    exact hmade.symm
  · rw [Keyed.get?_erase_of_ne htable]
    cases w.cellOf.get? table with
    | none => rfl
    | some other => exact isMade_release other

/-- The type is not made: it is lost, and its cell forgotten. -/
theorem Standing.forgotten (h : Standing c lost (type :: stack) w)
    (hcell : w.cellOf.get? type.name = some cell) (hmade : isMade cell w = false) :
    Standing c (fun x => lost x ∨ x = type) stack (forget type.name cell (release cell w)) := by
  rw [forget_of_unmade hcell hmade]
  have hknown := h.isKnown_erased hcell hmade
  constructor
  case ascending => exact h.ascending.erase type.name
  case bounded =>
    intro table other hother
    unfold release World.onCell
    rw [List.length_modify]
    exact h.bounded (h.get?_erased hother).2
  case own =>
    intro table table' other hother hother'
    exact h.own (h.get?_erased hother).2 (h.get?_erased hother').2
  case begun =>
    intro table hin
    obtain ⟨other, hother⟩ := Option.isSome_iff_exists.1 hin
    obtain ⟨htable, hother⟩ := h.get?_erased hother
    rw [hknown]
    refine (h.begun (Option.isSome_iff_exists.2 ⟨other, hother⟩)).imp_right ?_
    rintro ⟨d, hd, rfl⟩
    exact ⟨d, (List.mem_cons.1 hd).resolve_left fun heq => htable (heq ▸ rfl), rfl⟩
  case created =>
    intro table hmade
    rw [hknown] at hmade
    exact h.created hmade
  case sound =>
    intro d hd hmade x href
    rw [hknown] at hmade ⊢
    refine (h.sound d hd hmade x href).imp_right ?_
    rintro ⟨hreaches, hx | hlost⟩
    · rcases List.mem_cons.1 hx with rfl | hx
      · exact ⟨hreaches, .inr (.inr rfl)⟩
      · exact ⟨hreaches, .inl hx⟩
    · exact ⟨hreaches, .inr (.inl hlost)⟩

theorem Added.forgotten (h : Added w w') (hnew : w.cellOf.get? type.name = none)
    (hlater : w.cells.length ≤ cell) (hcell : w'.cellOf.get? type.name = some cell)
    (hmade : isMade cell w' = false) : Added w (forget type.name cell (release cell w')) := by
  rw [forget_of_unmade hcell hmade]
  have hrelease : Added w (release cell w') := h.onCell hlater _
  refine ⟨fun {table other} hget => ?_, hrelease.cells, hrelease.length⟩
  have hne : table ≠ type.name := by
    rintro rfl
    rw [hnew] at hget
    cases hget
  show (w'.cellOf.erase type.name).get? table = some other
  rw [Keyed.get?_erase_of_ne hne]
  exact h.cellOf hget

end Provision

end LiveRecords

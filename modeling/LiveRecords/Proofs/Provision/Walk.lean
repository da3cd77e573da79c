import LiveRecords.Proofs.Provision.Cells
import Mathlib.Data.List.Basic

/-
  What a call that makes sure of a type has done when it ends (`Ended`).

  The call adds a cell for the type, goes on to the types that it refers to and have none,
  declares the type and makes the cell. Between its steps others may do anything but touch
  cells and tables. Where it stands is known after each of these parts, and from one part to
  the next (`ensures_make`, `ensures_prepare`); the whole call follows by induction on the
  fuel, of which there is enough as long as it exceeds the number of types without a cell
  (`ensures_ensureWithin`).
-/

namespace LiveRecords

open Job (Each Ensures Terms)

/-- Declaring a type takes no table away, and its own table is there if it does not fail. -/
theorem Schema.contains_createOrUpdate (c : Catalog) (type : EntityType) (s : Schema) :
    (∀ table, s.tables.contains table = true →
      (s.createOrUpdate c type).2.tables.contains table = true) ∧
    ((s.createOrUpdate c type).1 = .ok () →
      (s.createOrUpdate c type).2.tables.contains type.name = true) := by
  obtain ⟨e, n, h⟩ | ⟨t, ht, h⟩ := s.createOrUpdate_cases c type
  · rw [h]
    refine ⟨fun table hin => hin, fun hok => ?_⟩
    cases hok
  · rw [h]
    obtain ⟨e, he⟩ | ⟨_, first, last, hdeclared⟩ := s.declare_cases c type
    · rw [he] at ht
      cases ht
    rw [hdeclared] at ht
    cases ht
    unfold Keyed.contains
    refine ⟨fun table hin => ?_, fun _ => ?_⟩
    · by_cases htable : table = type.name
      · rw [htable, Keyed.get?_put_self]
        rfl
      · rwa [Keyed.get?_put_of_ne htable]
    · rw [Keyed.get?_put_self]
      rfl

namespace Provision

variable {c : Catalog} {type d x : EntityType} {stack : List EntityType}
  {lost : EntityType → Prop} {w w' w'' : World} {table : String} {cell : Nat}

/-! ## Types without a cell -/

/-- The types that have no cell. -/
def unbegun (c : Catalog) (w : World) : List EntityType :=
  c.types.filter fun d => !w.cellOf.contains d.name

theorem unbegun_sublist (h : Added w w') : (unbegun c w').Sublist (unbegun c w) := by
  refine List.monotone_filter_right _ fun d hd => ?_
  cases hin : w.cellOf.contains d.name with
  | false => rfl
  | true =>
    rw [h.contains hin] at hd
    cases hd

theorem length_unbegun_lt (htype : type ∈ c.types) (hnew : w.cellOf.get? type.name = none)
    (opened : Opened type w w') : (unbegun c w').length < (unbegun c w).length := by
  have hsub : (unbegun c w').Sublist (unbegun c w) := unbegun_sublist (opened.added hnew)
  have hin : type ∈ unbegun c w := List.mem_filter.2 ⟨htype, by simp [Keyed.contains, hnew]⟩
  have hout : type ∉ unbegun c w' := fun hin' => by
    have hcontains := (List.mem_filter.1 hin').2
    simp [Keyed.contains, opened.get?_self] at hcontains
  refine Nat.lt_of_le_of_ne hsub.length_le fun hlength => hout ?_
  rw [hsub.eq_of_length hlength]
  exact hin

/-! ## Work that does not fail -/

/-- Within the terms, work does not fail and ends as it should. -/
def Succeeds {α : Type} (post : α → World → Prop) (work : Work α) (w : World) : Prop :=
  Ensures oneByOne (fun result w' => ∃ a, result = .ok a ∧ post a w') work.run w

namespace Succeeds

variable {α β : Type} {post : α → World → Prop} {x : Work α}

theorem bind {f : α → Work β} {post' : Outcome β → World → Prop} (h : Succeeds post x w)
    (hf : ∀ a w', post a w' → Ensures oneByOne post' (f a).run w') :
    Ensures oneByOne post' (x >>= f).run w := by
  refine Work.ensures_bind h ?_ ?_
  · rintro a w' ⟨_, heq, hpost⟩
    cases heq
    exact hf _ w' hpost
  · rintro e w' ⟨_, heq, _⟩
    cases heq

theorem act (f : World → α × World) (w : World) :
    Succeeds (fun a w' => ∃ now, w.Apart now ∧ (f now).2.Apart w' ∧ a = (f now).1)
      (Work.ofJob (.act f)) w :=
  fun now hnow => ⟨trivial, fun _ hw' => ⟨_, rfl, now, hnow, hw', rfl⟩⟩

theorem read (f : World → α) (w : World) :
    Succeeds (fun a w' => ∃ now, w.Apart now ∧ now.Apart w' ∧ a = f now) (Work.ofJob (.read f)) w :=
  fun now hnow => ⟨trivial, fun _ hw' => ⟨_, rfl, now, hnow, hw', rfl⟩⟩

theorem mono {post' : α → World → Prop} (h : Succeeds post x w)
    (hpost : ∀ a w', post a w' → post' a w') : Succeeds post' x w :=
  Ensures.mono h fun _ w' ⟨a, heq, hend⟩ => ⟨a, heq, hpost a w' hend⟩

end Succeeds

/-! ## Declaring -/

/-- How the declaration of a type ends. -/
structure Declared (type : EntityType) (w : World) (result : Outcome Unit) (w' : World) : Prop where
  cellOf : w'.cellOf = w.cellOf
  cells : w'.cells = w.cells
  kept : ∀ table, w.schema.tables.contains table = true → w'.schema.tables.contains table = true
  created : result = .ok () → w'.schema.tables.contains type.name = true

theorem Declared.of_error (h : w.Apart w') (e : Failure) : Declared type w (.error e) w' where
  cellOf := h.cellOf
  cells := h.cells
  kept _ hin := h.tables ▸ hin
  created hok := by cases hok

theorem ensures_each {α : Type} {x : Work α} (h : Each World.Apart x.run) (w : World) :
    Ensures oneByOne (fun _ w' => w.Apart w') x.run w :=
  h.ensures w fun _ _ hapart => ⟨hapart, trivial⟩

theorem ensures_declare (type : EntityType) (w : World) :
    Ensures oneByOne (Declared type w) (declare type).run w := by
  refine Work.ensures_bind (ensures_each (Work.each_act fun w => ⟨rfl, rfl, rfl⟩) w)
    (fun latency w₁ hw₁ => ?_) fun e w₁ hw₁ w' hw' => .of_error (hw₁.trans hw') e
  refine Work.ensures_bind (ensures_each (Work.each_pause .refl latency) w₁)
    (fun _ w₂ hw₂ => ?_) fun e w₂ hw₂ w' hw' => .of_error ((hw₁.trans hw₂).trans hw') e
  -- all before this was apart from the tables
  intro now hnow
  have hsince : w.Apart now := (hw₁.trans hw₂).trans hnow
  obtain ⟨hkept, hcreated⟩ := now.schema.contains_createOrUpdate now.catalog type
  refine ⟨trivial, fun w' hw' => ?_⟩
  constructor
  · exact hw'.cellOf.trans hsince.cellOf
  · exact hw'.cells.trans hsince.cells
  · intro table hin
    rw [hw'.tables]
    exact hkept table (hsince.tables ▸ hin)
  · intro hok
    rw [hw'.tables]
    exact hcreated hok

/-! ## Making a cell -/

theorem Opened.onGate (h : Opened type w w') (f : Gate → Gate) :
    Opened type w (w'.onCell w.cells.length fun cell => { cell with gate := f cell.gate }) where
  cellOf := h.cellOf
  cells := by
    obtain ⟨gate, hcells⟩ := h.cells
    refine ⟨f gate, ?_⟩
    unfold World.onCell
    rw [hcells]
    simp [List.modify_eq_set_getElem?]
  tables := h.tables

/-- The table has a cell, or an unmade cell is added for it. -/
theorem succeeds_cellFor (type : EntityType) (w : World) :
    Succeeds (fun cell w' => w.cellOf.get? type.name = some cell ∧ w.Apart w' ∨
      w.cellOf.get? type.name = none ∧ cell = w.cells.length ∧ Opened type w w')
      (cellFor type.name) w := by
  refine (Succeeds.act _ w).mono ?_
  rintro cell w' ⟨now, hnow, hw', rfl⟩
  cases hget : now.cellOf.get? type.name with
  | some cell =>
    simp only [hget] at hw' ⊢
    exact .inl ⟨hnow.cellOf ▸ hget, hnow.trans hw'⟩
  | none =>
    simp only [hget] at hw' ⊢
    have opened : Opened type w { now with
        cellOf := now.cellOf.put type.name now.cells.length, cells := now.cells ++ [{}] } := by
      constructor
      · rw [hnow.cellOf, hnow.cells]
      · exact ⟨_, by rw [hnow.cells]⟩
      · exact hnow.tables
    exact .inr ⟨hnow.cellOf ▸ hget, by rw [hnow.cells], opened.apart hw'⟩

/-- Whoever wants to make a cell that was added only changes its gate. -/
theorem succeeds_enter (h : Opened type w w') :
    Succeeds (fun _ w'' => Opened type w w'') (enter w.cells.length) w' := by
  refine (Succeeds.act _ w').mono ?_
  rintro _ w'' ⟨now, hnow, hw'', -⟩
  have hopened : Opened type w now := h.apart hnow
  obtain ⟨gate, hcells⟩ := hopened.cells
  have hcell : now.cells[w.cells.length]? = some ⟨false, gate⟩ := by simp [hcells]
  simp only [hcell] at hw''
  exact (hopened.onGate fun gate => gate.enter.2).apart hw''

theorem succeeds_await (h : Opened type w w') (ticket : Nat) :
    Succeeds (fun _ w'' => Opened type w w'') (await w.cells.length ticket) w' := by
  have hwait : ∀ ready leave, Succeeds (fun _ v => Opened type w v)
      (Work.ofJob (.waitFor ready none leave)) w' :=
    fun _ _ now hnow _ v hv => ⟨(), rfl, (h.apart hnow).apart hv⟩
  refine (hwait _ _).bind fun _ v hv => ?_
  intro now hnow
  refine ⟨trivial, fun v' hv' => ⟨(), rfl, ?_⟩⟩
  exact ((hv.apart hnow).onGate fun gate => gate.claim ticket).apart hv'

/-! ## Ending well and badly -/

/-- How work for a type ends. If it fails, what the type reaches is lost. -/
def Ended (c : Catalog) (lost : EntityType → Prop) (stack : List EntityType) (type : EntityType)
    (goal : World → Prop) (w : World) : Outcome Unit → World → Prop
  | .ok _, w' => Added w w' ∧ Standing c lost stack w' ∧ goal w'
  | .error _, w' => Added w w' ∧ Standing c (fun x => lost x ∨ c.Reaches type x) stack w'

/-- How making sure of a type ends. -/
abbrev Ensured (c : Catalog) (lost : EntityType → Prop) (stack : List EntityType)
    (type : EntityType) (w : World) : Outcome Unit → World → Prop :=
  Ended c lost stack type (fun w' => isKnown type.name w' = true) w

/-- What is to be done before the cell of a type is made is done: its table is there, and the
types that it refers to have cells. -/
def Prepared (c : Catalog) (type : EntityType) (w : World) : Prop :=
  w.schema.tables.contains type.name = true ∧
    ∀ x, c.RefersTo type x → w.cellOf.contains x.name = true

/-- The cell of a type is made by work that does what is to be done before. -/
theorem ensures_make {work : Work Unit} (wf : c.WellFormed) (htype : type ∈ c.types)
    (hstack : OnTheWay c stack type) (hnew : w.cellOf.get? type.name = none)
    (opened : Opened type w w')
    (hwork : Ensures oneByOne (Ended c lost (type :: stack) type (Prepared c type) w')
      work.run w') :
    Ensures oneByOne (Ensured c lost stack type w)
      (make type.name w.cells.length work).run w' := by
  have hlength : w.cells.length < w'.cells.length := by
    obtain ⟨gate, hcells⟩ := opened.cells
    simp [hcells]
  refine Ensures.bind (hwork.onDrop fun _ => trivial) fun result w₁ hend => ?_
  cases result with
  | ok _ =>
    intro now hnow
    refine ⟨trivial, fun w₂ hw₂ => ?_⟩
    obtain ⟨hadded, hstanding, htable, hrefs⟩ := hend
    have hsince : Added w' now := hadded.apart hnow
    obtain ⟨hmade, hknown⟩ := (hstanding.apart hnow).made wf htype (hsince.cellOf opened.get?_self)
      (hnow.tables ▸ htable) hstack fun x href => hnow.cellOf ▸ hrefs x href
    have hall : Added w (markMade w.cells.length now) :=
      ((opened.added hnew).trans hsince).onCell (Nat.le_refl _) _
    refine ⟨hall.apart hw₂, hmade.apart hw₂, ?_⟩
    exact (isKnown_congr hw₂.cellOf hw₂.cells type.name).trans hknown
  | error e =>
    intro now hnow
    refine ⟨trivial, fun w₂ hw₂ => ?_⟩
    obtain ⟨hadded, hstanding⟩ := hend
    have hsince : Added w' now := hadded.apart hnow
    have hcell := hsince.cellOf opened.get?_self
    have hunmade : isMade w.cells.length now = false := by
      rw [hsince.isMade_eq hlength, opened.isMade_new]
    have hall := ((opened.added hnew).trans hsince).forgotten hnew (Nat.le_refl _) hcell hunmade
    have hlost := ((hstanding.apart hnow).forgotten hcell hunmade).apart hw₂
    refine ⟨hall.apart hw₂, hlost.mono ?_⟩
    rintro x (hx | rfl)
    · exact hx
    · exact .inr .refl

/-! ## Walking on -/

theorem contains_of_isKnown (h : isKnown table w = true) : w.cellOf.contains table = true := by
  obtain ⟨cell, hcell, _⟩ := isKnown_iff.1 h
  exact Option.isSome_iff_exists.2 ⟨cell, hcell⟩

/-- Within the fuel, each type without a cell that a type refers to is made sure of. -/
def EnsuresNext (c : Catalog) (lost : EntityType → Prop) (stack : List EntityType)
    (type : EntityType) (fuel : Nat) (ensure : EntityType → Work Unit) : Prop :=
  ∀ x w, c.RefersTo type x → Standing c lost stack w → (unbegun c w).length < fuel →
    w.cellOf.get? x.name = none → Ensures oneByOne (Ensured c lost stack x w) (ensure x).run w

/-- Types without a cell are made sure of one after another. -/
theorem ensures_ensureUnknown {ensure : EntityType → Work Unit} {fuel : Nat}
    (hensure : EnsuresNext c lost stack type fuel ensure)
    (types : List EntityType) (hrefs : ∀ x ∈ types, c.RefersTo type x)
    (standing : Standing c lost stack w) (hfuel : (unbegun c w).length < fuel) :
    Ensures oneByOne
      (Ended c lost stack type (fun w' => ∀ x ∈ types, w'.cellOf.contains x.name = true) w)
      (ensureUnknown ensure types).run w := by
  induction types generalizing w with
  | nil =>
    intro w' hw'
    exact ⟨(Added.refl w).apart hw', standing.apart hw', fun x hx => by cases hx⟩
  | cons first rest ih =>
    have hfirst : c.RefersTo type first := hrefs first List.mem_cons_self
    have hrest : ∀ x ∈ rest, c.RefersTo type x := fun x hx =>
      hrefs x (List.mem_cons_of_mem first hx)
    -- what is left to do once the first type has a cell
    have hgo : ∀ w₁, Added w w₁ → Standing c lost stack w₁ →
        w₁.cellOf.contains first.name = true →
        Ensures oneByOne (Ended c lost stack type
          (fun w' => ∀ x ∈ first :: rest, w'.cellOf.contains x.name = true) w)
          (ensureUnknown ensure rest).run w₁ := by
      intro w₁ hadded hstanding hcell
      have hfuel₁ : (unbegun c w₁).length < fuel :=
        calc (unbegun c w₁).length ≤ (unbegun c w).length := (unbegun_sublist hadded).length_le
          _ < fuel := hfuel
      refine (ih hrest hstanding hfuel₁).mono fun result w₂ hend => ?_
      cases result with
      | error e => exact ⟨hadded.trans hend.1, hend.2⟩
      | ok _ =>
        obtain ⟨hadded', hstanding', hcells⟩ := hend
        refine ⟨hadded.trans hadded', hstanding', fun x hx => ?_⟩
        rcases List.mem_cons.1 hx with rfl | hx
        · exact hadded'.contains hcell
        · exact hcells x hx
    refine (Succeeds.read _ w).bind ?_
    rintro known w₁ ⟨now, hnow, hw₁, hknown⟩
    have hapart : w.Apart w₁ := hnow.trans hw₁
    have hadded : Added w w₁ := (Added.refl w).apart hapart
    rw [← hw₁.cellOf] at hknown
    cases known with
    | true => exact hgo w₁ hadded (standing.apart hapart) hknown.symm
    | false =>
      have hnew : w₁.cellOf.get? first.name = none := by simpa [Keyed.contains] using hknown.symm
      have hfuel₁ : (unbegun c w₁).length < fuel :=
        calc (unbegun c w₁).length ≤ (unbegun c w).length := (unbegun_sublist hadded).length_le
          _ < fuel := hfuel
      refine Work.ensures_bind
        (hensure first w₁ hfirst (standing.apart hapart) hfuel₁ hnew) ?_ ?_
      · rintro _ w₂ ⟨hadded', hstanding, hmade⟩
        exact hgo w₂ (hadded.trans hadded') hstanding (contains_of_isKnown hmade)
      · rintro e w₂ ⟨hadded', hstanding⟩ w₃ hw₃
        refine ⟨(hadded.trans hadded').apart hw₃, ?_⟩
        refine (hstanding.apart hw₃).mono fun x hx => hx.imp_right fun hreaches => ?_
        exact hreaches.head hfirst

/-- The types that a type refers to have cells and the type is declared. -/
theorem ensures_prepare {ensure : EntityType → Work Unit} {fuel : Nat} (wf : c.WellFormed)
    (htype : type ∈ c.types)
    (hensure : EnsuresNext c lost stack type fuel ensure)
    (standing : Standing c lost stack w) (hfuel : (unbegun c w).length < fuel) :
    Ensures oneByOne (Ended c lost stack type (Prepared c type) w)
      (do ensureUnknown ensure (c.referencedTypes type); declare type : Work Unit).run w := by
  have hunknown := ensures_ensureUnknown hensure (c.referencedTypes type)
    (fun x hx => Catalog.refersTo_of_mem hx) standing hfuel
  refine Work.ensures_bind hunknown ?_ ?_
  · rintro _ w₁ ⟨hadded, hstanding, hcells⟩
    refine (ensures_declare type w₁).mono fun result w₂ hdeclared => ?_
    have hadded' : Added w w₂ := hadded.trans (.of_eq hdeclared.cellOf hdeclared.cells)
    have hstanding' := hstanding.of_tables hdeclared.cellOf hdeclared.cells hdeclared.kept
    cases result with
    | error e => exact ⟨hadded', hstanding'.mono fun x hx => .inl hx⟩
    | ok _ =>
      refine ⟨hadded', hstanding', hdeclared.created rfl, fun x href => ?_⟩
      rw [hdeclared.cellOf]
      exact hcells x (wf.mem_referencedTypes htype href)
  · rintro e w₁ ⟨hadded, hstanding⟩ w₂ hw₂
    exact ⟨hadded.apart hw₂, hstanding.apart hw₂⟩

/-- Whoever has opened the cell of a type, and holds the place at its gate, makes the cell
unless somebody else has. -/
theorem ensures_inside {ensure : EntityType → Work Unit} {fuel : Nat} (w' : World)
    (wf : c.WellFormed) (htype : type ∈ c.types) (hstack : OnTheWay c stack type)
    (hensure : EnsuresNext c lost (type :: stack) type fuel ensure)
    (standing : Standing c lost stack w) (hfuel : (unbegun c w).length ≤ fuel)
    (hnew : w.cellOf.get? type.name = none) (opened : Opened type w w') :
    Ensures oneByOne (Ensured c lost stack type w)
      (do
        if ← Work.ofJob (.read (isMade w.cells.length)) then return
        make type.name w.cells.length do
          ensureUnknown ensure (c.referencedTypes type)
          declare type : Work Unit).run w' := by
  refine (Succeeds.read _ w').bind ?_
  rintro made w₁ ⟨now, hnow, hw₁, rfl⟩
  rw [(opened.apart hnow).isMade_new]
  have opened₁ : Opened type w w₁ := (opened.apart hnow).apart hw₁
  have hfuel₁ : (unbegun c w₁).length < fuel :=
    calc (unbegun c w₁).length < (unbegun c w).length := length_unbegun_lt htype hnew opened₁
      _ ≤ fuel := hfuel
  refine ensures_make wf htype hstack hnew opened₁ ?_
  exact ensures_prepare wf htype hensure (standing.opened hnew opened₁) hfuel₁

/-- To make sure of a type that has no cell, or a made one, does not go deeper than there
are types without a cell. -/
theorem ensures_ensureWithin (wf : c.WellFormed) {fuel : Nat} (htype : type ∈ c.types)
    (hstack : OnTheWay c stack type) (standing : Standing c lost stack w)
    (hfuel : (unbegun c w).length < fuel)
    (hmade : w.cellOf.contains type.name = true → isKnown type.name w = true) :
    Ensures oneByOne (Ensured c lost stack type w)
      (ensureWithin c fuel type).run w := by
  induction fuel generalizing type stack w with
  | zero => omega
  | succ fuel ih =>
    have hnext : EnsuresNext c lost (type :: stack) type fuel (ensureWithin c fuel) := by
      intro x w₂ href hstanding hfuel hnew
      refine ih (wf.closed type htype x href) (hstack.next htype href) hstanding hfuel fun hin => ?_
      rw [Keyed.contains, hnew] at hin
      cases hin
    have hinside w' := ensures_inside w' wf htype hstack hnext standing (Nat.le_of_lt_succ hfuel)
    refine (succeeds_cellFor type w).bind fun cell w₁ hcases => ?_
    refine (Succeeds.read _ w₁).bind ?_
    rintro made w₂ ⟨now, hnow, hw₂, rfl⟩
    rcases hcases with ⟨hget, hw₁⟩ | ⟨hnew, rfl, opened⟩
    · -- a cell that was there is made
      have hsince : w.Apart now := hw₁.trans hnow
      have hknown : isKnown type.name w = true :=
        hmade (Option.isSome_iff_exists.2 ⟨cell, hget⟩)
      obtain ⟨other, hother, hisMade⟩ := isKnown_iff.1 hknown
      rw [hget] at hother
      cases hother
      rw [isMade_congr hsince.cells, hisMade]
      intro w₃ hw₃
      have hall : w.Apart w₃ := (hsince.trans hw₂).trans hw₃
      exact ⟨(Added.refl w).apart hall, standing.apart hall,
        (isKnown_congr hall.cellOf hall.cells type.name).trans hknown⟩
    · rw [(opened.apart hnow).isMade_new]
      refine (succeeds_enter ((opened.apart hnow).apart hw₂)).bind fun ticket? w₃ opened₃ => ?_
      cases ticket? with
      | none => exact hinside w₃ hnew opened₃
      | some ticket => exact (succeeds_await opened₃ ticket).bind fun _ w₄ => hinside w₄ hnew

end Provision

end LiveRecords

import LiveRecords.Proofs.Pipeline.Steadiness

/-
  What a store comes to when it is used by one caller.

  While nobody makes the declaration of a table (`World.AtRest`), what the store answers to a
  request and what becomes of it depend on its essence alone, whatever time it takes
  (`Handler.steady_ofStore`). That holds for types that refer to others, too: the tables of
  these are declared while the first declaration is being made, but each of them has a cell of
  its own (`Provision.steady_ensureWithin`).
-/

namespace LiveRecords

open Job (Steady)

/-- Nobody is at a gate. -/
structure Gate.Free (g : Gate) : Prop where
  held : g.held = 0
  waiting : g.waiting = []
  called : g.called = []
  room : 0 < g.limit

namespace Gate.Free

variable {g : Gate}

theorem ofLimit (limit : Nat) : (Gate.ofLimit limit).Free :=
  ⟨rfl, rfl, rfl, Nat.lt_of_lt_of_le Nat.one_pos (Nat.le_max_right limit 1)⟩

theorem enter (free : g.Free) : g.enter = (none, { g with held := 1 }) := by
  have hroom := free.room
  unfold Gate.enter
  rw [free.held, if_pos hroom]

/-- Whoever has entered a free gate leaves it as it was. -/
theorem release (free : g.Free) : ({ g with held := 1 } : Gate).release = g := by
  obtain ⟨hheld, hwaiting, -, -⟩ := free
  obtain ⟨limit, held, waiting, called, issued⟩ := g
  subst hheld hwaiting
  rfl

/-- A free gate that is left without having been entered stays free. -/
theorem release_self (free : g.Free) : g.release.Free := by
  obtain ⟨hheld, hwaiting, hcalled, hroom⟩ := free
  unfold Gate.release
  rw [hwaiting]
  exact ⟨congrArg (· - 1) hheld, rfl, hcalled, hroom⟩

end Gate.Free

namespace World

/-- Nobody makes the declaration of a table. -/
def AtRest (w : World) : Prop :=
  ∀ (i : Nat) (c : Cell), w.cells[i]? = some c → c.made = false → c.gate.Free

/-- Of the declarations that are not made yet, only those behind some cells are being made. -/
def Making (cells : List Nat) (w : World) : Prop :=
  ∀ (i : Nat) (c : Cell), w.cells[i]? = some c → c.made = false →
    c.gate.Free ∨ i ∈ cells ∧ ∃ g : Gate, g.Free ∧ c.gate = { g with held := 1 }

/-- Nobody makes the declaration behind a cell. -/
def Idle (cell : Nat) (w : World) : Prop :=
  ∀ c : Cell, w.cells[cell]? = some c → c.made = false → c.gate.Free

variable {w w' : World} {cell : Nat} {cells : List Nat}

theorem AtRest.of_cells (h : w.AtRest) (same : w'.cells = w.cells) : w'.AtRest := by
  unfold AtRest
  rw [same]
  exact h

theorem Idles.atRest (h : w.Idles w') (rest : w.AtRest) : w'.AtRest :=
  rest.of_cells (congrArg cells h.essence : w'.essence.cells = w.essence.cells)

theorem Making.of_cells (h : w.Making cells) (same : w'.cells = w.cells) : w'.Making cells := by
  unfold Making
  rw [same]
  exact h

theorem making_nil : w.Making [] ↔ w.AtRest := by
  refine ⟨fun h i c hi hmade => (h i c hi hmade).resolve_right fun hmember => ?_,
    fun h i c hi hmade => .inl (h i c hi hmade)⟩
  cases hmember.1

theorem Making.idle (h : w.Making cells) (outside : cell ∉ cells) : w.Idle cell :=
  fun c hc hmade => (h cell c hc hmade).resolve_right fun hmember => outside hmember.1

/-- The cells after one of them was changed. -/
theorem cell_of_onCell {f : Cell → Cell} {i : Nat} {c : Cell}
    (h : (w.onCell cell f).cells[i]? = some c) :
    ∃ c', w.cells[i]? = some c' ∧ c = if i = cell then f c' else c' := by
  have hmodify : (w.onCell cell f).cells[i]? =
      (w.cells[i]?).map fun c => if cell = i then f c else c := List.getElem?_modify ..
  rw [hmodify, Option.map_eq_some_iff] at h
  obtain ⟨c', hc', rfl⟩ := h
  refine ⟨c', hc', ?_⟩
  by_cases heq : i = cell
  · rw [if_pos heq.symm, if_pos heq]
  · rw [if_neg fun h => heq h.symm, if_neg heq]

/-- A cell that is not made, and that nobody makes, may be made. -/
theorem Making.entered (h : w.Making cells) {c : Cell} (here : w.cells[cell]? = some c)
    (unmade : c.made = false) (idle : w.Idle cell) :
    c.gate.enter.1 = none ∧
      (w.onCell cell fun c => { c with gate := c.gate.enter.2 }).Making (cell :: cells) := by
  have hfree := idle c here unmade
  refine ⟨congrArg Prod.fst hfree.enter, fun i c' hi hmade => ?_⟩
  obtain ⟨c₀, hc₀, rfl⟩ := cell_of_onCell hi
  by_cases heq : i = cell
  · subst heq
    obtain rfl : c = c₀ := Option.some.inj (here.symm.trans hc₀)
    rw [if_pos rfl]
    exact .inr ⟨List.mem_cons_self, c.gate, hfree, congrArg Prod.snd hfree.enter⟩
  · rw [if_neg heq] at hmade ⊢
    exact (h i c₀ hc₀ hmade).imp_right fun hmember => ⟨List.mem_cons_of_mem _ hmember.1, hmember.2⟩

/-- Once a cell is made, nobody makes it any more. -/
theorem Making.made (h : w.Making (cell :: cells)) :
    (w.onCell cell fun c => { c with made := true }).Making cells := by
  intro i c hi hmade
  obtain ⟨c₀, hc₀, rfl⟩ := cell_of_onCell hi
  by_cases heq : i = cell
  · rw [if_pos heq] at hmade
    cases hmade
  · rw [if_neg heq] at hmade ⊢
    exact (h i c₀ hc₀ hmade).imp_right fun hmember =>
      ⟨List.mem_of_ne_of_mem heq hmember.1, hmember.2⟩

/-- Once the making of a cell is given up, nobody makes it any more. -/
theorem Making.released (h : w.Making (cell :: cells)) :
    (Provision.release cell w).Making cells := by
  intro i c hi hmade
  obtain ⟨c₀, hc₀, rfl⟩ := cell_of_onCell hi
  by_cases heq : i = cell
  · rw [if_pos heq] at hmade ⊢
    left
    show c₀.gate.release.Free
    obtain hfree | ⟨-, g, hfree, hgate⟩ := h i c₀ hc₀ hmade
    · exact hfree.release_self
    · rw [hgate, hfree.release]
      exact hfree
  · rw [if_neg heq] at hmade ⊢
    exact (h i c₀ hc₀ hmade).imp_right fun hmember =>
      ⟨List.mem_of_ne_of_mem heq hmember.1, hmember.2⟩

end World

namespace Provision

open World (AtRest Making)
open Work (Keeping)

variable {P : World → Prop} {type : EntityType} {cell : Nat}

/-- A declaration touches no cell. -/
theorem keeping_declare (hP : ∀ v v' : World, v'.cells = v.cells → P v → P v')
    (type : EntityType) : Keeping P (declare type) := by
  refine Keeping.bind (Keeping.act ?_ ?_ ?_) fun latency => (Keeping.pause latency).bind fun _ => ?_
  · exact fun w => ⟨rfl, rfl⟩
  · exact fun w => rfl
  · exact fun v hv => hP v _ rfl hv
  · exact Steady.act (fun w => ⟨rfl, rfl⟩) (fun w => rfl) fun v hv => hP v _ rfl hv

/-- The cell of a table that is not being made is new or idle. -/
theorem steady_cellFor (table : String) (cells : List Nat) :
    Steady (fun v => v.Making cells ∧ ∀ cell, v.cellOf.get? table = some cell → cell ∉ cells)
      (fun result v => v.Making cells ∧ ∀ cell, result = .ok cell → v.Idle cell)
      (cellFor table).run := by
  refine Work.steady_ofJob (.act (fun w => ?_) (fun w => ?_) fun v hv => ?_)
  · cases w.cellOf.get? table <;> exact ⟨rfl, rfl⟩
  · dsimp only [World.essence]
    cases w.cellOf.get? table <;> rfl
  · obtain ⟨hmaking, houtside⟩ := hv
    cases hcell : v.cellOf.get? table with
    | some cell =>
      refine ⟨hmaking, fun cell' hcell' => ?_⟩
      cases hcell'
      exact hmaking.idle (houtside cell hcell)
    | none =>
      have hnew (i : Nat) (c : Cell) (hi : (v.cells ++ [({} : Cell)])[i]? = some c)
          (hle : v.cells.length ≤ i) : c.gate.Free := by
        have hlast := (List.getElem?_append_right hle).symm.trans hi
        obtain rfl := List.mem_singleton.1 (List.mem_of_getElem? hlast)
        exact .ofLimit 1
      refine ⟨fun i c hi hmade => ?_, fun cell hcell' c hi hmade => ?_⟩
      · rcases Nat.lt_or_ge i v.cells.length with hold | hle
        · exact hmaking i c ((List.getElem?_append_left hold).symm.trans hi) hmade
        · exact .inl (hnew i c hi hle)
      · cases hcell'
        exact hnew _ c hi (Nat.le_refl _)

/-- Whether a cell is made does not depend on its gate. -/
theorem isMade_onCell (cell : Nat) (f : Gate → Gate) (w : World) :
    isMade cell (w.onCell cell fun c => { c with gate := f c.gate }) = isMade cell w := by
  show ((w.cells.modify cell _)[cell]?).any _ = (w.cells[cell]?).any _
  rw [List.getElem?_modify_eq]
  cases w.cells[cell]? <;> rfl

/-- A cell that is not made, and that nobody makes, is entered at once. -/
theorem steady_enter (cell : Nat) (cells : List Nat) :
    Steady (fun v => v.Making cells ∧ v.Idle cell ∧ isMade cell v = false)
      (fun result v => result = .ok none ∧ v.Making (cell :: cells) ∧ isMade cell v = false)
      (enter cell).run := by
  refine Work.steady_ofJob (.act (fun w => ?_) (fun w => ?_) fun v hv => ?_)
  · cases w.cells[cell]? <;> exact ⟨rfl, rfl⟩
  · dsimp only [World.essence]
    cases w.cells[cell]? <;> rfl
  · obtain ⟨hmaking, hidle, hunmade⟩ := hv
    cases hcell : v.cells[cell]? with
    | none =>
      refine ⟨rfl, fun i c hi hmade => ?_, hunmade⟩
      exact (hmaking i c hi hmade).imp_right fun hmember =>
        ⟨List.mem_cons_of_mem _ hmember.1, hmember.2⟩
    | some c =>
      have hc : c.made = false := by
        unfold isMade at hunmade
        rw [hcell] at hunmade
        exact hunmade
      obtain ⟨hfree, hentered⟩ := hmaking.entered hcell hc hidle
      have hstill := isMade_onCell cell (fun g => g.enter.2) v
      exact ⟨congrArg Except.ok hfree, hentered, hstill.trans hunmade⟩

theorem keeping_forget (table : String) (cell : Nat) (w : World) :
    w.Unmoved (forget table cell w) ∧ (forget table cell w).cells = w.cells ∧
      (forget table cell w).essence = (forget table cell w.essence).essence := by
  by_cases h : w.cellOf.get? table = some cell ∧ !isMade cell w
  · have hessence : w.essence.cellOf.get? table = some cell ∧ !isMade cell w.essence := h
    unfold forget
    rw [if_pos h, if_pos hessence]
    exact ⟨⟨rfl, rfl⟩, rfl, rfl⟩
  · have hessence : ¬(w.essence.cellOf.get? table = some cell ∧ !isMade cell w.essence) := h
    unfold forget
    rw [if_neg h, if_neg hessence]
    exact ⟨⟨rfl, rfl⟩, rfl, rfl⟩

/-- The making of a cell comes to one thing, and then nobody makes it any more. -/
theorem steady_make {table : String} {cell : Nat} {cells : List Nat} {work : Work Unit}
    (h : Keeping (Making (cell :: cells)) work) :
    Steady (Making (cell :: cells)) (fun _ => Making cells) (make table cell work).run := by
  refine Steady.bind (Steady.onDrop h (release cell)) fun result => ?_
  cases result with
  | ok _ =>
    refine Steady.bind (Steady.modify (Q := Making cells) ?_ ?_ ?_) fun _ => .done fun _ hv => hv
    · exact fun w => ⟨rfl, rfl⟩
    · exact fun w => rfl
    · exact fun v hv => hv.made
  | error e =>
    refine Steady.bind (Steady.modify (Q := Making cells) ?_ ?_ ?_) fun _ => .done fun _ hv => hv
    · intro w
      obtain ⟨⟨hgates, hpipes⟩, -, -⟩ := keeping_forget table cell (release cell w)
      exact ⟨hgates, hpipes⟩
    · exact fun w => (keeping_forget table cell (release cell w)).2.2
    · intro v hv
      exact hv.released.of_cells (keeping_forget table cell (release cell v)).2.1

theorem steady_isMade (P : World → Prop) (cell : Nat) :
    Steady P (fun result v => P v ∧ result = .ok (isMade cell v))
      (Work.ofJob (.read (isMade cell))).run :=
  Work.steady_ofJob ((Steady.read fun _ => rfl).mono (fun _ hv => hv) fun _ _ h =>
    ⟨h.1, congrArg Except.ok h.2⟩)

/-- The tables of types that are not known yet are declared while others are being made: their
cells are new. -/
theorem keeping_ensureUnknown {ensure : EntityType → Work Unit} {cells : List Nat}
    (h : ∀ type, Steady
      (fun v => v.Making cells ∧ ∀ cell, v.cellOf.get? type.name = some cell → cell ∉ cells)
      (fun _ v => v.Making cells) (ensure type).run) (types : List EntityType) :
    Keeping (Making cells) (ensureUnknown ensure types) := by
  induction types with
  | nil => exact .pure ()
  | cons type rest ih =>
    have hread : Steady (Making cells)
        (fun result v => v.Making cells ∧ result = .ok (v.cellOf.contains type.name))
        (Work.ofJob (.read fun w => w.cellOf.contains type.name)).run :=
      Work.steady_ofJob ((Steady.read fun _ => rfl).mono (fun _ hv => hv) fun _ _ hv =>
        ⟨hv.1, congrArg Except.ok hv.2⟩)
    unfold ensureUnknown
    refine Work.steady_bind hread (fun known => ?_) fun _ _ hv => hv.1
    cases known with
    | true => exact ih.mono (fun _ hv => hv.1) fun _ _ hv => hv
    | false =>
      refine Work.steady_bind ((h type).mono (fun v hv => ⟨hv.1, fun cell hcell => ?_⟩)
        fun _ _ hv => hv) (fun _ => ih) fun _ _ hv => hv
      have hnone : (v.cellOf.get? type.name).isSome = false := (Except.ok.inj hv.2).symm
      rw [hcell] at hnone
      cases hnone

/-- While other declarations are being made, a table is declared, after those of the types that
its type refers to, if its own declaration is not among them. -/
theorem steady_ensureWithin (c : Catalog) (fuel : Nat) (type : EntityType) (cells : List Nat) :
    Steady (fun v => v.Making cells ∧ ∀ cell, v.cellOf.get? type.name = some cell → cell ∉ cells)
      (fun _ v => v.Making cells) (ensureWithin c fuel type).run := by
  induction fuel generalizing type cells with
  | zero => exact .done fun _ hv => hv.1
  | succ fuel ih =>
    unfold ensureWithin
    refine Work.steady_bind (steady_cellFor type.name cells) (fun cell => ?_) fun _ _ hv => hv.1
    refine Work.steady_bind (steady_isMade _ cell) (fun made => ?_) fun _ _ hv => hv.1.1
    cases made with
    | true => exact .done fun _ hv => hv.1.1
    | false =>
      refine Steady.mono (P := fun v => v.Making cells ∧ v.Idle cell ∧ isMade cell v = false) ?_
        (fun v hv => ⟨hv.1.1, hv.1.2 cell rfl, (Except.ok.inj hv.2).symm⟩) fun _ _ hv => hv
      refine Work.steady_bind (steady_enter cell cells) (fun ticket? => ?_) fun _ _ hv => by
        cases hv.1
      cases ticket? with
      | some ticket => exact .never fun _ hv => by cases hv.1
      | none =>
        refine Work.steady_bind (steady_isMade _ cell) (fun made => ?_) fun _ _ hv => by cases hv.2
        cases made with
        | true =>
          refine .never fun v hv => ?_
          have hmade : true = isMade cell v := Except.ok.inj hv.2
          rw [hv.1.2.2] at hmade
          cases hmade
        | false =>
          have hmake : Keeping (Making (cell :: cells)) (do
              ensureUnknown (ensureWithin c fuel) (c.referencedTypes type)
              declare type) :=
            (keeping_ensureUnknown (fun type => ih type (cell :: cells)) _).bind fun _ =>
              keeping_declare (fun v v' same h => h.of_cells same) type
          exact (steady_make hmake).mono (fun v hv => hv.1.2.1) fun _ _ hv => hv

/-- Declaring a table, and those of the types that its type refers to, comes to one thing. -/
theorem keeping_ensure (c : Catalog) (type : EntityType) : Keeping AtRest (ensure c type) :=
  (steady_ensureWithin c _ type []).mono
    (fun _ hv => ⟨World.making_nil.2 hv, fun _ _ => List.not_mem_nil⟩)
    fun _ _ hv => World.making_nil.1 hv

theorem keeping_provide (schemaUse : SchemaUse) (type : EntityType) :
    Keeping AtRest (provide schemaUse type) := by
  cases schemaUse with
  | unused => exact .pure _
  | direct => exact keeping_declare (fun v v' same h => h.of_cells same) type
  | cached => exact (Keeping.read fun w => rfl).bind fun c => keeping_ensure c type

theorem keeping_clear (schemaUse : SchemaUse) : Keeping AtRest (clear schemaUse) := by
  cases schemaUse with
  | unused => exact .pure _
  | direct => exact .modify (fun w => ⟨rfl, rfl⟩) (fun w => rfl) fun v hv => hv
  | cached => exact .modify (fun w => ⟨rfl, rfl⟩) (fun w => rfl) fun v hv => hv

end Provision

/-! ## Requests -/

/-- None of an entity type's properties has entities for values. -/
def EntityType.Plain (type : EntityType) : Prop := ∀ p ∈ type.properties, p.type.entity? = none

namespace EntityType.Plain

variable {type : EntityType}

theorem referenced?_eq_none (plain : type.Plain) (c : Catalog) :
    ∀ p ∈ type.properties, c.referenced? p = none := by
  intro p hp
  unfold Catalog.referenced?
  rw [plain p hp]
  rfl

end EntityType.Plain

/-- A request about entity types that refer to no others, for whole entities, and not for a
live query. -/
def Request.Plain : Request → Prop
  | .insert type _ | .update type _ _ | .upsert type _ | .delete type _ | .find type _ =>
    type.Plain
  | .query q | .snapshot q | .aggregate q _ => q.entity.Plain ∧ q.properties = []
  | .live _ => False
  | .dropAll => True

/-- A query of the store is answered with a list of rows. -/
def Request.Listed : (r : Request) → Outcome r.Answer → Prop
  | .query _, .ok rows => ∃ list, rows = .listed list
  | _, _ => True

namespace Backend

open World (AtRest)
open Work (Keeping)

theorem keeping_prepare (type : EntityType) : Keeping AtRest (prepare type) := by
  refine (Keeping.read fun w => rfl).bind fun latency => (Keeping.pause latency).bind fun _ => ?_
  refine (Keeping.read fun w => rfl).bind fun schemaUse => ?_
  exact (Provision.keeping_provide schemaUse type).inContext _

theorem keeping_write (type : EntityType) (entity : Value) (change : Store → Outcome Store) :
    Keeping AtRest (write type entity change) := by
  have hkey : Keeping AtRest (discard (type.requireKey entity : Outcome Value) : Work Unit) := by
    cases type.requireKey entity <;> exact .done fun _ hv => hv
  refine hkey.bind fun _ => (keeping_prepare type).bind fun _ => ?_
  refine Keeping.attempt (fun _ hv => hv) (fun w a w' h => ?_) (fun w => ?_) fun v a v' hv h => ?_
  · obtain ⟨s, -, hs⟩ := Outcome.bind_ok h
    cases hs
    exact ⟨rfl, rfl⟩
  · show (change w.store >>= _).map _ = (change w.store >>= _).map _
    cases change w.store <;> rfl
  · obtain ⟨s, -, hs⟩ := Outcome.bind_ok h
    cases hs
    exact hv

theorem keeping_delete (type : EntityType) (key : Value) : Keeping AtRest (delete type key) :=
  (keeping_prepare type).bind fun _ =>
    .act (fun _ => ⟨rfl, rfl⟩) (fun _ => rfl) fun _ hv => hv

theorem keeping_snapshot (q : Query) : Keeping AtRest (snapshot q) :=
  (Keeping.outcome q.prepare).bind fun _ => (keeping_prepare q.entity).bind fun _ =>
    .read fun _ => rfl

theorem keeping_aggregate (q : Query) (a : Aggregate) : Keeping AtRest (aggregate q a) :=
  (Keeping.outcome q.prepare).bind fun _ => (Keeping.outcome a.prepare).bind fun _ =>
    (keeping_prepare q.entity).bind fun _ => .read fun _ => rfl

theorem keeping_dropAll : Keeping AtRest dropAll := by
  refine Keeping.bind (Keeping.modify ?_ ?_ ?_) fun _ =>
    Keeping.bind (Keeping.read fun _ => rfl) Provision.keeping_clear
  · exact fun w => ⟨rfl, rfl⟩
  · exact fun w => rfl
  · exact fun v hv => hv

/-- A query is answered with a list of rows. -/
theorem steady_query (q : Query) :
    Steady AtRest (fun result v => v.AtRest ∧ (Request.query q).Listed result) (query q).run := by
  refine Work.steady_bind (Keeping.outcome q.prepare) (fun run => ?_) fun e v hv => ⟨hv, trivial⟩
  refine Work.steady_bind (keeping_prepare q.entity) (fun _ => ?_) fun e v hv => ⟨hv, trivial⟩
  refine Work.steady_bind (Keeping.read fun _ => rfl) (fun rows => ?_) fun e v hv => ⟨hv, trivial⟩
  exact .done fun v hv => ⟨hv, rows, rfl⟩

end Backend

namespace Rows

open World (AtRest)
open Work (Keeping)

/-- What is listed is taken at once. -/
theorem keeping_next (rows : List Value) : Keeping AtRest (next (.listed rows)) := by
  refine Keeping.bind (Work.steady_ofJob (.turn (fun _ => rfl) fun _ hv => hv)) fun _ => ?_
  cases rows with
  | nil => exact .act (fun _ => ⟨rfl, rfl⟩) (fun _ => rfl) fun _ hv => hv
  | cons row rest => exact .act (fun _ => ⟨rfl, rfl⟩) (fun _ => rfl) fun _ hv => hv

theorem keeping_first (rows : List Value) : Keeping AtRest (first (.listed rows)) := by
  refine (keeping_next rows).bind fun _ => Keeping.bind (Keeping.modify ?_ ?_ ?_) fun _ => .pure _
  · exact fun w => ⟨rfl, rfl⟩
  · exact fun w => rfl
  · exact fun v hv => hv

end Rows

namespace Handler

open World (AtRest)
open Work (Keeping)

theorem keeping_find (type : EntityType) (key : Value) :
    Keeping AtRest (ofStore (.find type key)) := by
  have hwork : ofStore (.find type key) = liftM (Query.byKey type key) >>= fun q =>
      Backend.query q >>= Rows.first := rfl
  rw [hwork]
  cases hkey : Query.byKey type key with
  | error e => exact .outcome (.error e)
  | ok q =>
    show Steady AtRest (fun _ => AtRest) (Backend.query q >>= Rows.first).run
    refine Work.steady_bind (Backend.steady_query q) (fun rows => ?_) ?_
    · cases rows with
      | listed rows => exact (Rows.keeping_first rows).mono (fun _ hv => hv.1) fun _ _ hv => hv
      | piped pipe => exact .never fun _ ⟨_, _, hlisted⟩ => by cases hlisted
    · exact fun e v hv => hv.1

/-- What the store answers to a request about entities that refer to no others, and what
becomes of it, depends on its essence alone. -/
theorem steady_ofStore (r : Request) (plain : r.Plain) :
    Steady AtRest (fun result v => v.AtRest ∧ r.Listed result) (ofStore r).run := by
  have hkeeping (h : Keeping AtRest (ofStore r)) (listed : ∀ result, r.Listed result) :
      Steady AtRest (fun result v => v.AtRest ∧ r.Listed result) (ofStore r).run :=
    h.mono (fun _ hv => hv) fun result _ hv => ⟨hv, listed result⟩
  cases r with
  | insert type entity =>
    exact hkeeping (Backend.keeping_write type entity fun s => s.insert type entity)
      fun _ => trivial
  | update type entity expected =>
    exact hkeeping (Backend.keeping_write type entity fun s => s.update type entity expected)
      fun _ => trivial
  | upsert type entity =>
    exact hkeeping (Backend.keeping_write type entity fun s => s.upsert type entity)
      fun _ => trivial
  | delete type key => exact hkeeping (Backend.keeping_delete type key) fun _ => trivial
  | find type key => exact hkeeping (keeping_find type key) fun _ => trivial
  | query q => exact Backend.steady_query q
  | snapshot q => exact hkeeping (Backend.keeping_snapshot q) fun _ => trivial
  | live q => exact plain.elim
  | aggregate q a => exact hkeeping (Backend.keeping_aggregate q a) fun _ => trivial
  | dropAll => exact hkeeping Backend.keeping_dropAll fun _ => trivial

end Handler

end LiveRecords

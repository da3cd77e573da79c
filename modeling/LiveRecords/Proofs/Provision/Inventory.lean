import Mathlib.Data.Finset.Card
import Mathlib.Data.Finset.Option
import LiveRecords.Proofs.Provision.Cells
import LiveRecords.Proofs.Provision.Record
import LiveRecords.Proofs.Provision.Staffing

/-
  The cells, the calls that use them, and the tables created.

  A cell that is forgotten while it is in use is astray: those who use it may still make
  it, and so create its table, while the table gets a new cell from whoever asks next.
  Each cell creates its table once, so a table is created at most once more often than a
  cell of it went astray (`Kept.created_le`), and a cell goes astray only where it is
  handed on. All steps of a call keep this (`Kept`).
-/

namespace LiveRecords.Provision

variable {all others : Multiset Token} {k : Token} {l l' : Logbook} {table : String}
  {cell ticket : Nat} {c : Cell} {stage : Stage}

/-! ## What the record says -/

/-- The cells of a table that are made, or whose maker has created the table. -/
def done (all : Multiset Token) (l : Logbook) (table : String) : Finset Nat :=
  (Finset.range l.opened.length).filter fun cell =>
    l.opened[cell]? = some table ∧ (isMade cell l.world = true ∨ ⟨table, cell, .sealed⟩ ∈ all)

/-- The cells of a table that were forgotten and are still used, or made. -/
def stray (l : Logbook) (table : String) : Finset Nat :=
  (Finset.range l.opened.length).filter fun cell =>
    l.opened[cell]? = some table ∧ l.world.cellOf.get? table ≠ some cell ∧
      (isMade cell l.world = true ∨ cell ∈ l.inUse)

theorem lt_of_opened (h : l.opened[cell]? = some table) : cell < l.opened.length :=
  (List.getElem?_eq_some_iff.1 h).1

theorem mem_done : cell ∈ done all l table ↔
    l.opened[cell]? = some table ∧ (isMade cell l.world = true ∨ ⟨table, cell, .sealed⟩ ∈ all) := by
  unfold done
  rw [Finset.mem_filter, Finset.mem_range]
  exact and_iff_right_of_imp fun h => lt_of_opened h.1

theorem mem_stray : cell ∈ stray l table ↔
    l.opened[cell]? = some table ∧ l.world.cellOf.get? table ≠ some cell ∧
      (isMade cell l.world = true ∨ cell ∈ l.inUse) := by
  unfold stray
  rw [Finset.mem_filter, Finset.mem_range]
  exact and_iff_right_of_imp fun h => lt_of_opened h.1

theorem lt_of_isMade {w : World} (h : isMade cell w = true) : cell < w.cells.length := by
  obtain ⟨c, hget, -⟩ := (Option.any_eq_true _ _).1 h
  exact (List.getElem?_eq_some_iff.1 hget).1

theorem isMade_extend (l : Logbook) (table : String) (other : Nat) :
    isMade other (l.extend table).world = isMade other l.world := by
  unfold isMade
  show ((l.world.cells ++ [({} : Cell)])[other]?).any _ = _
  rcases Nat.lt_trichotomy other l.world.cells.length with hlt | rfl | hgt
  · rw [List.getElem?_append_left hlt]
  · rw [List.getElem?_concat_length, List.getElem?_eq_none (Nat.le_refl _)]
    rfl
  · rw [List.getElem?_eq_none (by simp; omega), List.getElem?_eq_none (by omega)]

/-! ## Giving a cell up -/

/-- The cell of a table is handed on when a call is done with it: others use it still. -/
abbrev HandsOn (l : Logbook) (table : String) (cell : Nat) : Prop :=
  l.world.cellOf.get? table = some cell ∧ cell ∈ (l.leave cell).inUse

theorem cells_giveUp (l : Logbook) (table : String) (cell : Nat) :
    (l.giveUp table cell).world.cells = (release cell l.world).cells := by
  show (forget table cell (release cell l.world)).cells = _
  unfold forget
  split <;> rfl

theorem isMade_giveUp (l : Logbook) (table : String) (cell other : Nat) :
    isMade other (l.giveUp table cell).world = isMade other l.world :=
  (isMade_congr (cells_giveUp l table cell) other).trans (isMade_release other)

theorem cellOf_giveUp (unmade : isMade cell l.world = false) (table : String) :
    (l.giveUp table cell).world.cellOf =
      if l.world.cellOf.get? table = some cell then l.world.cellOf.erase table
      else l.world.cellOf := by
  show (forget table cell (release cell l.world)).cellOf = _
  unfold forget
  rw [isMade_release, unmade]
  by_cases hmapped : l.world.cellOf.get? table = some cell
  · rw [if_pos ⟨hmapped, rfl⟩, if_pos hmapped]
    rfl
  · rw [if_neg fun h => hmapped h.1, if_neg hmapped]
    rfl

/-- Only the table whose cell is given up loses its cell. -/
theorem get?_cellOf_giveUp (unmade : isMade cell l.world = false)
    (ascending : l.world.cellOf.Ascending) (table name : String) :
    (l.giveUp table cell).world.cellOf.get? name =
      if name = table ∧ l.world.cellOf.get? table = some cell then none
      else l.world.cellOf.get? name := by
  rw [cellOf_giveUp unmade]
  by_cases hmapped : l.world.cellOf.get? table = some cell
  · simp only [hmapped, if_true, and_true, Keyed.get?_erase ascending]
  · simp only [hmapped, if_false, and_false]

/-- A cell that goes astray when it is given up is handed on. -/
theorem stray_giveUp (unmade : isMade cell l.world = false)
    (ascending : l.world.cellOf.Ascending) {name : String} {other : Nat}
    (h : other ∈ stray (l.giveUp table cell) name) :
    other ∈ stray l name ∨ other = cell ∧ name = table ∧ HandsOn l table cell := by
  obtain ⟨hopened, hnot, hused⟩ := mem_stray.1 h
  rw [isMade_giveUp] at hused
  rw [get?_cellOf_giveUp unmade ascending] at hnot
  by_cases hmapped : l.world.cellOf.get? name = some other
  · split at hnot
    · next hgone =>
      obtain ⟨rfl, hcell⟩ := hgone
      obtain rfl : cell = other := Option.some.inj (hcell.symm.trans hmapped)
      refine .inr ⟨rfl, rfl, hcell, hused.resolve_left ?_⟩
      rw [unmade]
      exact Bool.false_ne_true
    · exact absurd hmapped hnot
  · exact .inl (mem_stray.2 ⟨hopened, hmapped, hused.imp_right List.mem_of_mem_erase⟩)

/-- So at most one cell goes astray, and only of that table. -/
theorem card_stray_giveUp (unmade : isMade cell l.world = false)
    (ascending : l.world.cellOf.Ascending) (table name : String) :
    (stray (l.giveUp table cell) name).card ≤
      (stray l name).card + if name = table ∧ HandsOn l table cell then 1 else 0 := by
  split
  · calc (stray (l.giveUp table cell) name).card
        ≤ (insert cell (stray l name)).card := Finset.card_le_card fun other hother =>
          Finset.mem_insert.2 ((stray_giveUp unmade ascending hother).symm.imp_left And.left)
      _ ≤ (stray l name).card + 1 := Finset.card_insert_le ..
  · next hhanded =>
    exact Finset.card_le_card fun other hother =>
      (stray_giveUp unmade ascending hother).resolve_right fun h => hhanded h.2

theorem count_handedOn_giveUp (l : Logbook) (table : String) (cell : Nat) (name : String) :
    (l.giveUp table cell).handedOn.count name =
      l.handedOn.count name + if name = table ∧ HandsOn l table cell then 1 else 0 := by
  show (if HandsOn l table cell then l.handedOn ++ [table] else l.handedOn).count name = _
  by_cases hhanded : HandsOn l table cell
  · rw [if_pos hhanded, List.count_append, List.count_singleton]
    simp only [and_iff_left hhanded, beq_iff_eq, eq_comm (a := name) (b := table)]
  · rw [if_neg hhanded, if_neg fun h => hhanded h.2]
    rfl

/-! ## What is kept -/

/-- What holds of the world, the record and the calls at any time. -/
structure Kept (all : Multiset Token) (l : Logbook) : Prop where
  length : l.opened.length = l.world.cells.length
  ascending : l.world.cellOf.Ascending
  mapped : ∀ {table cell}, l.world.cellOf.get? table = some cell → l.opened[cell]? = some table
  named : ∀ k ∈ all, l.opened[k.cell]? = some k.table
  inUse : ∀ cell, l.inUse.count cell = all.countP fun k => k.cell = cell
  staffed : ∀ cell c, l.world.cells[cell]? = some c → Staffed all cell c
  created : ∀ table, l.created.count table = (done all l table).card
  handedOn : ∀ table, (stray l table).card ≤ l.handedOn.count table

namespace Kept

theorem fresh {w : World} (cellOf : w.cellOf = []) (cells : w.cells = []) :
    Kept 0 { world := w } where
  length := by rw [cells]; rfl
  ascending := by rw [cellOf]; exact Keyed.ascending_nil
  mapped h := by rw [cellOf] at h; cases h
  named k hk := by cases hk
  inUse _ := rfl
  staffed cell c h := by rw [cells] at h; cases h
  created _ := rfl
  handedOn _ := Nat.le_refl _

theorem mem_inUse (h : Kept all l) : cell ∈ l.inUse ↔ ∃ k ∈ all, k.cell = cell := by
  rw [← List.count_pos_iff, h.inUse, Multiset.countP_pos]

/-- A table was created at most once more often than a cell of it was handed on. -/
theorem created_le (h : Kept all l) (table : String) :
    l.created.count table ≤ 1 + l.handedOn.count table := by
  have hsub : done all l table ⊆
      stray l table ∪ (l.world.cellOf.get? table).toFinset := by
    intro cell hcell
    obtain ⟨hopened, hmade⟩ := mem_done.1 hcell
    rw [Finset.mem_union, Option.mem_toFinset]
    by_cases hmapped : l.world.cellOf.get? table = some cell
    · exact .inr hmapped
    · refine .inl (mem_stray.2 ⟨hopened, hmapped, hmade.imp_right fun hsealed => ?_⟩)
      exact h.mem_inUse.2 ⟨_, hsealed, rfl⟩
  have hone : (l.world.cellOf.get? table).toFinset.card ≤ 1 := by
    cases l.world.cellOf.get? table <;> simp
  calc l.created.count table = (done all l table).card := h.created table
    _ ≤ (stray l table ∪ (l.world.cellOf.get? table).toFinset).card := Finset.card_le_card hsub
    _ ≤ (stray l table).card + (l.world.cellOf.get? table).toFinset.card := Finset.card_union_le ..
    _ ≤ 1 + l.handedOn.count table := by
      have := h.handedOn table
      omega

theorem bounded (h : Kept (⟨table, cell, stage⟩ ::ₘ others) l) : cell < l.world.cells.length := by
  rw [← h.length]
  exact lt_of_opened (h.named _ (Multiset.mem_cons_self ..))

/-- The cell that a call uses. -/
theorem staffed_cell (h : Kept (⟨table, cell, stage⟩ ::ₘ others) l) :
    ∃ c, l.world.cells[cell]? = some c ∧ Staffed (⟨table, cell, stage⟩ ::ₘ others) cell c := by
  have hget := List.getElem?_eq_getElem h.bounded
  exact ⟨_, hget, h.staffed cell _ hget⟩

theorem count_erase (h : Kept (⟨table, cell, stage⟩ ::ₘ others) l) (other : Nat) :
    (l.inUse.erase cell).count other = others.countP fun k => k.cell = other := by
  have hcount := h.inUse other
  rw [Multiset.countP_cons] at hcount
  rw [List.count_erase]
  simp only [beq_iff_eq]
  split <;> simp_all

/-- Nothing else matters than the cells and the record of them. -/
theorem congr (h : Kept all l) {w : World} (cellOf : w.cellOf = l.world.cellOf)
    (cells : w.cells = l.world.cells) : Kept all { l with world := w } := by
  have hmade := isMade_congr cells
  have hdone (table : String) : done all { l with world := w } table = done all l table := by
    ext cell
    simp only [mem_done, hmade]
  have hstray (table : String) : stray { l with world := w } table = stray l table := by
    ext cell
    simp only [mem_stray, hmade, cellOf]
  refine ⟨cells ▸ h.length, cellOf ▸ h.ascending, fun hget => h.mapped (cellOf ▸ hget), h.named,
    h.inUse, fun cell c hc => h.staffed cell c (cells ▸ hc), fun table => ?_, fun table => ?_⟩
  · rw [hdone]
    exact h.created table
  · rw [hstray]
    exact h.handedOn table

/-- A call at work on a cell has not seen it made. -/
theorem unmade (h : Kept (⟨table, cell, stage⟩ ::ₘ others) l) (work : stage.isWork = true) :
    isMade cell l.world = false := by
  obtain ⟨c, hget, hstaffed⟩ := h.staffed_cell
  unfold isMade
  rw [hget]
  exact (hstaffed.of_work work).1

/-- The cell that a call uses changes, and the call gets further with it, or is done; the calls
at other cells are where they were. -/
theorem staffed_modify (h : Kept (⟨table, cell, stage⟩ ::ₘ others) l) {next : Multiset Token}
    {f : Cell → Cell}
    (here : ∀ c, l.world.cells[cell]? = some c →
      Staffed (⟨table, cell, stage⟩ ::ₘ others) cell c → Staffed next cell (f c))
    (elsewhere : ∀ other c, cell ≠ other → Staffed others other c → Staffed next other c)
    {other : Nat} (found : (l.world.cells.modify cell f)[other]? = some c) :
    Staffed next other c := by
  rw [List.getElem?_modify] at found
  obtain ⟨c₀, hc₀, rfl⟩ := Option.map_eq_some_iff.1 found
  have hstaffed := h.staffed other c₀ hc₀
  by_cases heq : cell = other
  · subst heq
    rw [if_pos rfl]
    exact here c₀ hc₀ hstaffed
  · rw [if_neg heq]
    exact elsewhere other c₀ heq ((Staffed.cons_iff_of_ne heq).1 hstaffed)

/-! ## Steps at the gate -/

/-- A call gets further with a cell whose gate changes, and nothing else happens. -/
theorem restage (h : Kept (⟨table, cell, stage⟩ ::ₘ others) l) {stage' : Stage} {f : Gate → Gate}
    (unsealed : stage ≠ .sealed) (unsealed' : stage' ≠ .sealed)
    (staffed : ∀ c, l.world.cells[cell]? = some c →
      Staffed (⟨table, cell, stage⟩ ::ₘ others) cell c →
      Staffed (⟨table, cell, stage'⟩ ::ₘ others) cell { c with gate := f c.gate }) :
    Kept (⟨table, cell, stage'⟩ ::ₘ others)
      { l with world := l.world.onCell cell fun c => { c with gate := f c.gate } } := by
  have hsealed (name : String) (other : Nat) :
      ⟨name, other, .sealed⟩ ∈ ⟨table, cell, stage'⟩ ::ₘ others ↔
        ⟨name, other, .sealed⟩ ∈ ⟨table, cell, stage⟩ ::ₘ others := by
    simp [unsealed.symm, unsealed'.symm]
  refine ⟨h.length.trans (List.length_modify ..).symm, h.ascending, h.mapped, ?_, fun other => ?_,
    fun other c hc => ?_, fun name => ?_, fun name => ?_⟩
  · have hnamed := Multiset.forall_mem_cons.1 h.named
    exact Multiset.forall_mem_cons.2 ⟨hnamed.1, hnamed.2⟩
  · rw [h.inUse, Multiset.countP_cons, Multiset.countP_cons]
  · exact h.staffed_modify staffed (fun _ _ heq => (Staffed.cons_iff_of_ne heq).2) hc
  · rw [h.created]
    congr 1
    ext other
    simp only [mem_done, isMade_onGate, hsealed]
  · refine Nat.le_trans (Finset.card_le_card fun other hother => ?_) (h.handedOn name)
    obtain ⟨hopened, hnot, hused⟩ := mem_stray.1 hother
    rw [isMade_onGate] at hused
    exact mem_stray.2 ⟨hopened, hnot, hused⟩

/-- A call gets further with a cell, and nothing else happens. -/
theorem proceed (h : Kept (⟨table, cell, stage⟩ ::ₘ others) l) {stage' : Stage}
    (unsealed : stage ≠ .sealed) (unsealed' : stage' ≠ .sealed)
    (staffed : ∀ c, l.world.cells[cell]? = some c →
      Staffed (⟨table, cell, stage⟩ ::ₘ others) cell c →
      Staffed (⟨table, cell, stage'⟩ ::ₘ others) cell c) :
    Kept (⟨table, cell, stage'⟩ ::ₘ others) l := by
  have hkept := h.restage (f := id) unsealed unsealed' staffed
  have hsame : l.world.onCell cell (fun c => { c with gate := id c.gate }) = l.world := by
    show { l.world with cells := l.world.cells.modify cell id } = l.world
    rw [List.modify_id]
  rwa [hsame] at hkept

/-! ## Coming and going -/

/-- A call has looked up the cell of a table. -/
theorem use (h : Kept all l) (mapped : l.world.cellOf.get? table = some cell) :
    Kept (⟨table, cell, .found⟩ ::ₘ all) (l.use cell) := by
  refine ⟨h.length, h.ascending, h.mapped, ?_, fun other => ?_, fun other c hc => ?_,
    fun name => ?_, fun name => ?_⟩
  · exact Multiset.forall_mem_cons.2 ⟨h.mapped mapped, h.named⟩
  · show (cell :: l.inUse).count other = _
    rw [List.count_cons, Multiset.countP_cons, h.inUse]
    simp only [beq_iff_eq]
  · by_cases heq : cell = other
    · subst heq
      exact (h.staffed cell c hc).find
    · exact (Staffed.cons_iff_of_ne heq).2 (h.staffed other c hc)
  · show l.created.count name = _
    rw [h.created]
    congr 1
    ext other
    simp [mem_done, Logbook.use]
  · -- the cell is that of its table, so it is not astray
    refine Nat.le_trans (Finset.card_le_card fun other hother => ?_) (h.handedOn name)
    obtain ⟨hopened, hnot, hused⟩ := mem_stray.1 hother
    refine mem_stray.2 ⟨hopened, hnot, hused.imp_right fun hin => ?_⟩
    rcases List.mem_cons.1 hin with rfl | hin
    · have hname := hopened.symm.trans (h.mapped mapped)
      cases hname
      exact absurd mapped hnot
    · exact hin

theorem getElem?_extend (h : Kept all l) (table : String) (other : Nat) (name : String) :
    (l.extend table).opened[other]? = some name ↔
      l.opened[other]? = some name ∨ other = l.world.cells.length ∧ name = table := by
  show (l.opened ++ [table])[other]? = some name ↔ _
  rw [← h.length]
  rcases Nat.lt_trichotomy other l.opened.length with hlt | rfl | hgt
  · rw [List.getElem?_append_left hlt]
    simp [Nat.ne_of_lt hlt]
  · simp [eq_comm]
  · rw [List.getElem?_eq_none (by simp; omega), List.getElem?_eq_none (by omega)]
    simp [Nat.ne_of_gt hgt]

/-- A cell is opened for a table that has none. -/
theorem extend (h : Kept all l) (absent : l.world.cellOf.get? table = none) :
    Kept all (l.extend table) := by
  have hopened {other : Nat} {name : String} := h.getElem?_extend table other name
  have hbelow {k : Token} (hk : k ∈ all) : k.cell < l.world.cells.length :=
    h.length ▸ lt_of_opened (h.named k hk)
  have hcellOf (name : String) : (l.extend table).world.cellOf.get? name =
      if name = table then some l.world.cells.length else l.world.cellOf.get? name :=
    Keyed.get?_put ..
  refine ⟨?_, h.ascending.put .., fun {name other} hget => hopened.2 ?_,
    fun k hk => hopened.2 (.inl (h.named k hk)), h.inUse, fun other c hc => ?_, fun name => ?_,
    fun name => ?_⟩
  · simp [Logbook.extend, h.length]
  · rw [hcellOf] at hget
    split at hget
    · next heq =>
      cases hget
      exact .inr ⟨rfl, heq⟩
    · exact .inl (h.mapped hget)
  · have hc : (l.world.cells ++ [({} : Cell)])[other]? = some c := hc
    by_cases heq : other = l.world.cells.length
    · subst heq
      rw [List.getElem?_concat_length] at hc
      cases hc
      exact .fresh fun k hk => Nat.ne_of_lt (hbelow hk)
    · have hlt := (List.getElem?_eq_some_iff.1 hc).1
      rw [List.length_append, List.length_singleton] at hlt
      rw [List.getElem?_append_left (by omega)] at hc
      exact h.staffed other c hc
  · show l.created.count name = _
    rw [h.created]
    congr 1
    ext other
    rw [mem_done, mem_done, isMade_extend, hopened]
    constructor
    · exact fun hdone => ⟨.inl hdone.1, hdone.2⟩
    · rintro ⟨hold | ⟨rfl, rfl⟩, hdone⟩
      · exact ⟨hold, hdone⟩
      · rcases hdone with hdone | hsealed
        · exact absurd (lt_of_isMade hdone) (Nat.lt_irrefl _)
        · exact absurd (hbelow hsealed) (Nat.lt_irrefl _)
  · refine Nat.le_trans (Finset.card_le_card fun other hother => ?_) (h.handedOn name)
    obtain ⟨hat, hnot, hused⟩ := mem_stray.1 hother
    rw [isMade_extend] at hused
    rw [hcellOf] at hnot
    rcases hopened.1 hat with hold | ⟨rfl, rfl⟩
    · refine mem_stray.2 ⟨hold, ?_, hused⟩
      split at hnot
      · next heq =>
        rw [heq, absent]
        exact (Option.some_ne_none _).symm
      · exact hnot
    · rw [if_pos rfl] at hnot
      exact absurd rfl hnot

/-- A call that is not at work on a cell is done with it. -/
theorem leave (h : Kept (⟨table, cell, stage⟩ ::ₘ others) l) (idle : stage.isWork = false) :
    Kept others (l.leave cell) := by
  refine ⟨h.length, h.ascending, h.mapped, (Multiset.forall_mem_cons.1 h.named).2, fun other => ?_,
    fun other c hc => ?_, fun name => ?_, fun name => ?_⟩
  · exact h.count_erase other
  · by_cases heq : cell = other
    · subst heq
      exact (h.staffed cell c hc).leave idle
    · exact (Staffed.cons_iff_of_ne heq).1 (h.staffed other c hc)
  · show l.created.count name = _
    rw [h.created]
    congr 1
    ext other
    have hne : Stage.sealed ≠ stage := by
      rintro rfl
      cases idle
    simp [mem_done, Logbook.leave, hne]
  · refine Nat.le_trans (Finset.card_le_card fun other hother => ?_) (h.handedOn name)
    obtain ⟨hat, hnot, hused⟩ := mem_stray.1 hother
    exact mem_stray.2 ⟨hat, hnot, hused.imp_right List.mem_of_mem_erase⟩

/-! ## Making a cell -/

/-- The table of a call at work is created, which it was not for the same cell. -/
theorem succeed (h : Kept (⟨table, cell, .making⟩ ::ₘ others) l) :
    Kept (⟨table, cell, .sealed⟩ ::ₘ others) { l with created := l.created ++ [table] } := by
  have hcell : l.opened[cell]? = some table := h.named _ (Multiset.mem_cons_self ..)
  have hfirst : cell ∉ done (⟨table, cell, .making⟩ ::ₘ others) l table := by
    intro hdone
    obtain ⟨-, hmade | hsealed⟩ := mem_done.1 hdone
    · rw [h.unmade rfl] at hmade
      cases hmade
    · have hin : ⟨table, cell, .sealed⟩ ∈ others := by simpa using hsealed
      obtain ⟨c, -, hstaffed⟩ := h.staffed_cell
      obtain ⟨-, -, -, hnone⟩ := hstaffed.of_work rfl
      exact Multiset.countP_eq_zero.1 hnone _ hin ⟨rfl, rfl⟩
  refine ⟨h.length, h.ascending, h.mapped, ?_, fun other => ?_, fun other c hc => ?_,
    fun name => ?_, h.handedOn⟩
  · have hnamed := Multiset.forall_mem_cons.1 h.named
    exact Multiset.forall_mem_cons.2 ⟨hnamed.1, hnamed.2⟩
  · rw [h.inUse, Multiset.countP_cons, Multiset.countP_cons]
  · by_cases heq : cell = other
    · subst heq
      exact (h.staffed cell c hc).create
    · exact (Staffed.cons_iff_of_ne heq).2 ((Staffed.cons_iff_of_ne heq).1 (h.staffed other c hc))
  · show (l.created ++ [table]).count name = _
    rw [List.count_append, h.created]
    by_cases hname : table = name
    · subst hname
      rw [List.count_singleton_self, ← Finset.card_insert_of_notMem hfirst]
      congr 1
      ext other
      rw [Finset.mem_insert, mem_done, mem_done]
      by_cases heq : other = cell
      · subst heq
        simp [hcell]
      · simp [heq]
    · rw [List.count_singleton, if_neg (by simpa using hname), Nat.add_zero]
      congr 1
      ext other
      simp [mem_done, Ne.symm hname]

theorem create {type : EntityType} (h : Kept (⟨type.name, cell, .making⟩ ::ₘ others) l) :
    Kept (⟨type.name, cell, if (l.create type).1.isOk then .sealed else .making⟩ ::ₘ others)
      (l.create type).2 := by
  unfold Logbook.create
  dsimp only
  have hschema := h.congr
    (w := { l.world with schema := (l.world.schema.createOrUpdate l.world.catalog type).2 }) rfl rfl
  cases hok : (l.world.schema.createOrUpdate l.world.catalog type).1.isOk with
  | true => exact hschema.succeed
  | false => exact hschema

/-- A call that has created its table marks the cell as made. -/
theorem settle (h : Kept (⟨table, cell, .sealed⟩ ::ₘ others) l) : Kept others (l.settle cell) := by
  have hmade (other : Nat) : isMade other (l.settle cell).world = true ↔
      other = cell ∨ isMade other l.world = true := isMade_markMade h.bounded other
  have hcell : l.opened[cell]? = some table := h.named _ (Multiset.mem_cons_self ..)
  refine ⟨h.length.trans (List.length_modify ..).symm, h.ascending, h.mapped,
    (Multiset.forall_mem_cons.1 h.named).2, h.count_erase, fun other c hc => ?_, fun name => ?_,
    fun name => ?_⟩
  · exact h.staffed_modify (fun _ _ => Staffed.settle) (fun _ _ _ => id) hc
  · show l.created.count name = _
    rw [h.created]
    congr 1
    ext other
    rw [mem_done, mem_done, hmade, Multiset.mem_cons, Token.mk.injEq]
    refine and_congr_right fun hopened => ?_
    have hname (heq : other = cell) : name = table := by
      subst heq
      exact Option.some.inj (hopened.symm.trans hcell)
    constructor
    · rintro (hmade | ⟨-, rfl, -⟩ | hin)
      · exact .inl (.inr hmade)
      · exact .inl (.inl rfl)
      · exact .inr hin
    · rintro ((heq | hmade) | hin)
      · exact .inr (.inl ⟨hname heq, heq, rfl⟩)
      · exact .inl hmade
      · exact .inr (.inr hin)
  · -- the cell was in use, so it is not astray now if it was not before
    refine Nat.le_trans (Finset.card_le_card fun other hother => ?_) (h.handedOn name)
    obtain ⟨hat, hnot, hused⟩ := mem_stray.1 hother
    rw [hmade] at hused
    refine mem_stray.2 ⟨hat, hnot, ?_⟩
    rcases hused with (rfl | hmade) | hin
    · exact .inr (h.mem_inUse.2 ⟨_, Multiset.mem_cons_self .., rfl⟩)
    · exact .inl hmade
    · exact .inr (List.mem_of_mem_erase hin)

/-- A call that could not create its table gives its cell up. -/
theorem giveUp (h : Kept (⟨table, cell, .making⟩ ::ₘ others) l) :
    Kept others (l.giveUp table cell) := by
  have hunmade : isMade cell l.world = false := h.unmade rfl
  have hcells := cells_giveUp l table cell
  refine ⟨?_, ?_, fun {name other} hother => h.mapped ?_, (Multiset.forall_mem_cons.1 h.named).2,
    h.count_erase, fun other c hc => ?_, fun name => ?_, fun name => ?_⟩
  · rw [hcells]
    exact h.length.trans (List.length_modify ..).symm
  · rw [cellOf_giveUp hunmade]
    split
    · exact h.ascending.erase table
    · exact h.ascending
  · rw [get?_cellOf_giveUp hunmade h.ascending] at hother
    split at hother
    · cases hother
    · exact hother
  · rw [hcells] at hc
    exact h.staffed_modify (fun _ _ => Staffed.giveUp) (fun _ _ _ => id) hc
  · show l.created.count name = _
    rw [h.created]
    congr 1
    ext other
    rw [mem_done, mem_done, isMade_giveUp]
    simp [Logbook.giveUp, Logbook.leave]
  · rw [count_handedOn_giveUp]
    exact Nat.le_trans (card_stray_giveUp hunmade h.ascending table name)
      (Nat.add_le_add_right (h.handedOn name) _)

end Kept

end LiveRecords.Provision

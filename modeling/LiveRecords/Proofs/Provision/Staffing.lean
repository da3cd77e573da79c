import Mathlib.Data.Multiset.Count
import LiveRecords.Pipeline.World

/-
  Calls at a cell.

  A call that uses a cell looks it up, waits for it if another one is making it, and makes
  it itself if that one fails (`Stage`). The gate of the cell has one place, and it is
  taken by the call at work, or by one that was called to go on, or for good once the cell
  is made (`Staffed`). So at any time at most one call is at work on a cell, and none on a
  made one (`Staffed.of_work`), whatever the order in which calls come, go on and fail.
-/

namespace LiveRecords.Provision

/-- How far a call has got with a cell that it uses: it has looked it up, queues for it,
was called, has seen that it is made, is making it, or has created its table. -/
inductive Stage where
  | found
  | queueing (ticket : Nat)
  | called (ticket : Nat)
  | settled
  | making
  | sealed
  deriving DecidableEq

namespace Stage

/-- The ticket with which a call waits for a cell. -/
def ticket? : Stage → Option Nat
  | .queueing ticket | .called ticket => some ticket
  | _ => none

/-- A call is at work on a cell. -/
def isWork : Stage → Bool
  | .making | .sealed => true
  | _ => false

/-- What a cell knows of a call that has got so far. -/
def Known (c : Cell) : Stage → Prop
  | .queueing ticket => ticket < c.gate.issued
  | .called ticket => ticket < c.gate.issued ∧ ticket ∈ c.gate.called
  | .settled => c.made = true
  | _ => True

end Stage

/-- A call uses the cell of a table. -/
structure Token where
  table : String
  cell : Nat
  stage : Stage
  deriving DecidableEq

/-- How many calls are at work on a cell. -/
def makers (cell : Nat) (all : Multiset Token) : Nat :=
  all.countP fun k => k.cell = cell ∧ k.stage.isWork = true

/-- How many calls wait for a cell with a ticket. -/
def holders (cell ticket : Nat) (all : Multiset Token) : Nat :=
  all.countP fun k => k.cell = cell ∧ k.stage.ticket? = some ticket

variable {all others : Multiset Token} {k : Token} {table : String} {cell ticket : Nat} {c : Cell}
  {stage : Stage}

theorem makers_cons : makers cell (k ::ₘ others) =
    makers cell others + if k.cell = cell ∧ k.stage.isWork = true then 1 else 0 :=
  Multiset.countP_cons ..

theorem holders_cons : holders cell ticket (k ::ₘ others) =
    holders cell ticket others + if k.cell = cell ∧ k.stage.ticket? = some ticket then 1 else 0 :=
  Multiset.countP_cons ..

/-- What the gate of a cell has to do with the calls that use it: its one place is taken by
the call at work on the cell, or by one that was called, or for good once it is made. -/
structure Staffed (all : Multiset Token) (cell : Nat) (c : Cell) : Prop where
  limit : c.gate.limit = 1
  held : makers cell all + c.gate.called.length + c.made.toNat = c.gate.held
  single : c.gate.held ≤ 1
  known : ∀ k ∈ all, k.cell = cell → k.stage.Known c
  distinct : ∀ ticket, holders cell ticket all ≤ 1

namespace Staffed

/-- Nobody uses a new cell. -/
theorem fresh (h : ∀ k ∈ all, k.cell ≠ cell) : Staffed all cell {} := by
  have hnone {p : Token → Prop} [DecidablePred p] (hp : ∀ k, p k → k.cell = cell) :
      all.countP p = 0 :=
    Multiset.countP_eq_zero.2 fun k hk hpk => h k hk (hp k hpk)
  refine ⟨rfl, ?_, Nat.zero_le 1, fun k hk hcell => absurd hcell (h k hk), fun t => ?_⟩
  · unfold makers
    rw [hnone fun k hk => hk.1]
    rfl
  · unfold holders
    rw [hnone fun k hk => hk.1]
    exact Nat.zero_le 1

/-- Calls that use other cells do not matter. -/
theorem cons_iff_of_ne (hne : k.cell ≠ cell) :
    Staffed (k ::ₘ others) cell c ↔ Staffed others cell c := by
  have hmakers : makers cell (k ::ₘ others) = makers cell others := by
    rw [makers_cons, if_neg fun h => hne h.1, Nat.add_zero]
  have hholders (ticket : Nat) :
      holders cell ticket (k ::ₘ others) = holders cell ticket others := by
    rw [holders_cons, if_neg fun h => hne h.1, Nat.add_zero]
  constructor
  · intro h
    refine ⟨h.limit, hmakers ▸ h.held, h.single, fun m hm => ?_, fun t => hholders t ▸ h.distinct t⟩
    exact h.known m (Multiset.mem_cons_of_mem hm)
  · intro h
    refine ⟨h.limit, hmakers.symm ▸ h.held, h.single, ?_, fun t => (hholders t).symm ▸ h.distinct t⟩
    exact Multiset.forall_mem_cons.2 ⟨fun heq => absurd heq hne, h.known⟩

theorem head (h : Staffed (⟨table, cell, stage⟩ ::ₘ others) cell c) : stage.Known c :=
  h.known _ (Multiset.mem_cons_self ..) rfl

theorem tail (h : Staffed (k ::ₘ others) cell c) : ∀ k ∈ others, k.cell = cell → k.stage.Known c :=
  fun k hk => h.known k (Multiset.mem_cons_of_mem hk)

/-- At a cell that a call is at work on nothing else happens. -/
theorem of_work (h : Staffed (⟨table, cell, stage⟩ ::ₘ others) cell c)
    (work : stage.isWork = true) :
    c.made = false ∧ c.gate.held = 1 ∧ c.gate.called = [] ∧ makers cell others = 0 := by
  have hheld := h.held
  have hsingle := h.single
  rw [makers_cons, if_pos ⟨rfl, work⟩] at hheld
  refine ⟨?_, by omega, List.length_eq_zero_iff.1 (by omega), by omega⟩
  cases hmade : c.made with
  | false => rfl
  | true =>
    rw [hmade, Bool.toNat_true] at hheld
    omega

/-- A call that is not at work goes. -/
theorem leave (h : Staffed (⟨table, cell, stage⟩ ::ₘ others) cell c) (idle : stage.isWork = false) :
    Staffed others cell c := by
  have hheld := h.held
  rw [makers_cons, idle, if_neg (by simp), Nat.add_zero] at hheld
  refine ⟨h.limit, hheld, h.single, h.tail, fun t => ?_⟩
  have hdistinct := h.distinct t
  rw [holders_cons] at hdistinct
  omega

/-- A call comes. -/
theorem find (h : Staffed others cell c) : Staffed (⟨table, cell, .found⟩ ::ₘ others) cell c := by
  refine ⟨h.limit, ?_, h.single, ?_, fun t => ?_⟩
  · rw [makers_cons, if_neg (by simp [Stage.isWork]), Nat.add_zero]
    exact h.held
  · exact Multiset.forall_mem_cons.2 ⟨fun _ => trivial, h.known⟩
  · rw [holders_cons, if_neg (by simp [Stage.ticket?]), Nat.add_zero]
    exact h.distinct t

/-- What is known of calls stays known if the cell knows no less. -/
theorem known_mono {c' : Cell} {stage : Stage} (h : stage.Known c)
    (issued : c.gate.issued ≤ c'.gate.issued)
    (called : ∀ ticket, stage = .called ticket → ticket ∈ c.gate.called →
      ticket ∈ c'.gate.called)
    (made : c.made = true → c'.made = true) : stage.Known c' := by
  cases stage with
  | queueing ticket => exact Nat.lt_of_lt_of_le h issued
  | called ticket => exact ⟨Nat.lt_of_lt_of_le h.1 issued, called ticket rfl h.2⟩
  | settled => exact made h
  | found => trivial
  | making => trivial
  | sealed => trivial

theorem enter_free (h : Staffed (⟨table, cell, .found⟩ ::ₘ others) cell c)
    (free : c.gate.enter.1 = none) :
    Staffed (⟨table, cell, .making⟩ ::ₘ others) cell { c with gate := c.gate.enter.2 } := by
  have hothers := h.leave rfl
  unfold Gate.enter at free ⊢
  split at free
  · next hlt =>
    have hheld := hothers.held
    have hlimit := hothers.limit
    rw [if_pos hlt]
    refine ⟨hlimit, ?_, by dsimp only; omega, ?_, fun t => ?_⟩
    · rw [makers_cons, if_pos ⟨rfl, rfl⟩]
      dsimp only
      omega
    · exact Multiset.forall_mem_cons.2 ⟨fun _ => trivial, fun k hk hcell =>
        known_mono (hothers.known k hk hcell) (Nat.le_refl _) (fun _ _ h => h) id⟩
    · rw [holders_cons, if_neg (by simp [Stage.ticket?]), Nat.add_zero]
      exact hothers.distinct t
  · cases free

theorem enter_full (h : Staffed (⟨table, cell, .found⟩ ::ₘ others) cell c)
    (full : c.gate.enter.1 = some ticket) :
    Staffed (⟨table, cell, .queueing ticket⟩ ::ₘ others) cell
      { c with gate := c.gate.enter.2 } := by
  have hothers := h.leave rfl
  unfold Gate.enter at full ⊢
  split at full
  · cases full
  · next hge =>
    obtain rfl : c.gate.issued = ticket := Option.some.inj full
    rw [if_neg hge]
    refine ⟨hothers.limit, ?_, hothers.single, ?_, fun t => ?_⟩
    · rw [makers_cons, if_neg (by simp [Stage.isWork]), Nat.add_zero]
      exact hothers.held
    · exact Multiset.forall_mem_cons.2 ⟨fun _ => Nat.lt_succ_self _, fun k hk hcell =>
        known_mono (hothers.known k hk hcell) (Nat.le_succ _) (fun _ _ h => h) id⟩
    · rw [holders_cons]
      split
      · next heq =>
        -- nobody holds a ticket that was not issued yet
        obtain rfl : c.gate.issued = t := Option.some.inj heq.2
        suffices holders cell c.gate.issued others = 0 by omega
        refine Multiset.countP_eq_zero.2 fun k hk hwaits => ?_
        have hknown := hothers.known k hk hwaits.1
        have hticket := hwaits.2
        unfold Stage.ticket? at hticket
        unfold Stage.Known at hknown
        split at hticket <;> simp_all
      · exact hothers.distinct t

/-- A call that queues may go on once the cell is made, or once it was called. -/
theorem await (h : Staffed (⟨table, cell, .queueing ticket⟩ ::ₘ others) cell c) {stage : Stage}
    (idle : stage.isWork = false) (keeps : ∀ t, stage.ticket? = some t → t = ticket)
    (known : stage.Known c) : Staffed (⟨table, cell, stage⟩ ::ₘ others) cell c := by
  have hothers := h.leave rfl
  refine ⟨h.limit, ?_, h.single, Multiset.forall_mem_cons.2 ⟨fun _ => known, h.tail⟩, fun t => ?_⟩
  · rw [makers_cons, idle, if_neg (by simp), Nat.add_zero]
    exact hothers.held
  · rw [holders_cons]
    split
    · next heq =>
      obtain rfl := keeps t heq.2
      have hdistinct := h.distinct t
      rwa [holders_cons, if_pos ⟨rfl, rfl⟩] at hdistinct
    · exact hothers.distinct t

theorem claim_called (h : Staffed (⟨table, cell, .called ticket⟩ ::ₘ others) cell c) :
    Staffed (⟨table, cell, .making⟩ ::ₘ others) cell
      { c with gate := c.gate.claim ticket } := by
  have hothers := h.leave rfl
  have hheld := hothers.held
  obtain ⟨hissued, hcalled⟩ : ticket < c.gate.issued ∧ ticket ∈ c.gate.called := h.head
  have hlength := List.length_erase_of_mem hcalled
  have hpos := List.length_pos_of_mem hcalled
  refine ⟨hothers.limit, ?_, hothers.single, ?_, fun t => ?_⟩
  · rw [makers_cons, if_pos ⟨rfl, rfl⟩]
    show makers cell others + 1 + (c.gate.called.erase ticket).length + c.made.toNat = c.gate.held
    omega
  · refine Multiset.forall_mem_cons.2 ⟨fun _ => trivial, fun k hk hcell => ?_⟩
    refine known_mono (hothers.known k hk hcell) (Nat.le_refl _) (fun t ht hin => ?_) id
    have hne : t ≠ ticket := by
      rintro rfl
      have hdistinct := h.distinct t
      have hpos : 0 < holders cell t others :=
        Multiset.countP_pos.2 ⟨k, hk, hcell, by rw [ht]; rfl⟩
      rw [holders_cons, if_pos ⟨rfl, rfl⟩] at hdistinct
      omega
    exact (List.mem_erase_of_ne hne).2 hin
  · rw [holders_cons, if_neg (by simp [Stage.ticket?]), Nat.add_zero]
    exact hothers.distinct t

theorem claim_settled (h : Staffed (⟨table, cell, .settled⟩ ::ₘ others) cell c) :
    c.gate.claim ticket = c.gate := by
  have hmade : c.made = true := h.head
  have hheld := h.held
  have hsingle := h.single
  rw [hmade, Bool.toNat_true] at hheld
  have hcalled : c.gate.called = [] := List.length_eq_zero_iff.1 (by omega)
  unfold Gate.claim
  rw [hcalled, List.erase_nil, ← hcalled]

theorem create (h : Staffed (⟨table, cell, .making⟩ ::ₘ others) cell c) :
    Staffed (⟨table, cell, .sealed⟩ ::ₘ others) cell c := by
  have hheld := h.held
  rw [makers_cons, if_pos ⟨rfl, rfl⟩] at hheld
  refine ⟨h.limit, ?_, h.single, Multiset.forall_mem_cons.2 ⟨fun _ => trivial, h.tail⟩, fun t => ?_⟩
  · rw [makers_cons, if_pos ⟨rfl, rfl⟩]
    exact hheld
  · have hdistinct := h.distinct t
    rw [holders_cons, if_neg (by simp [Stage.ticket?])] at hdistinct ⊢
    exact hdistinct

theorem settle (h : Staffed (⟨table, cell, .sealed⟩ ::ₘ others) cell c) :
    Staffed others cell { c with made := true } := by
  obtain ⟨hmade, hone, hcalled, hnone⟩ := h.of_work rfl
  refine ⟨h.limit, ?_, h.single, fun k hk hcell => ?_, fun t => ?_⟩
  · simp [hnone, hcalled, hone]
  · exact known_mono (h.tail k hk hcell) (Nat.le_refl _) (fun _ _ h => h) fun _ => rfl
  · have hdistinct := h.distinct t
    rw [holders_cons] at hdistinct
    omega

theorem giveUp (h : Staffed (⟨table, cell, .making⟩ ::ₘ others) cell c) :
    Staffed others cell { c with gate := c.gate.release } := by
  obtain ⟨hmade, hone, hcalled, hnone⟩ := h.of_work rfl
  have hdistinct (t : Nat) : holders cell t others ≤ 1 := by
    have hdistinct := h.distinct t
    rw [holders_cons] at hdistinct
    omega
  unfold Gate.release
  cases hwaiting : c.gate.waiting with
  | nil =>
    refine ⟨h.limit, ?_, by dsimp only; omega, fun k hk hcell => ?_, hdistinct⟩
    · simp [hnone, hcalled, hone, hmade]
    · exact known_mono (h.tail k hk hcell) (Nat.le_refl _) (fun _ _ h => h) id
  | cons ticket rest =>
    refine ⟨h.limit, ?_, h.single, fun k hk hcell => ?_, hdistinct⟩
    · simp [hnone, hcalled, hone, hmade]
    · exact known_mono (h.tail k hk hcell) (Nat.le_refl _)
        (fun _ _ h => List.mem_append_left _ h) id

end Staffed

end LiveRecords.Provision

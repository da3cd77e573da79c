/-
  Gates: how many operations may be admitted at once.

  An operation is admitted while fewer than the limit are; others queue and are
  admitted in the order in which they came, as those before them end. `held` counts
  the admitted operations, those included that were called from the queue and have
  not gone on yet.
-/

namespace LiveRecords

/-- A gate: its limit, the number of admitted operations, the tickets of those that
queue, the tickets that were called, and the number of tickets given out. -/
structure Gate where
  limit : Nat
  held : Nat := 0
  waiting : List Nat := []
  called : List Nat := []
  issued : Nat := 0
  deriving DecidableEq, Repr, Inhabited

namespace Gate

/-- A gate that admits `limit` operations at once, and at least one. -/
def ofLimit (limit : Nat) : Gate := { limit := max limit 1 }

/-- Asks to be admitted: at once, or later with the ticket returned. -/
def enter (g : Gate) : Option Nat × Gate :=
  if g.held < g.limit then (none, { g with held := g.held + 1 })
  else (some g.issued, { g with waiting := g.waiting ++ [g.issued], issued := g.issued + 1 })

/-- Ends an admitted operation: its place goes to the first in the queue. -/
def release (g : Gate) : Gate :=
  match g.waiting with
  | [] => { g with held := g.held - 1 }
  | ticket :: rest => { g with waiting := rest, called := g.called ++ [ticket] }

/-- Whether a ticket was called. -/
def isCalled (g : Gate) (ticket : Nat) : Bool := g.called.contains ticket

/-- Goes on with a ticket that was called. -/
def claim (g : Gate) (ticket : Nat) : Gate := { g with called := g.called.erase ticket }

/-- Gives a ticket back, and with it the place that it may have been called for. -/
def leave (g : Gate) (ticket : Nat) : Gate :=
  if g.isCalled ticket then (g.claim ticket).release
  else { g with waiting := g.waiting.erase ticket }

end Gate

end LiveRecords

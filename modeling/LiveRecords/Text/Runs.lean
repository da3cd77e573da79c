/-
  Tables of the character standard, held as runs.

  A table gives every code point a label. It is written as runs from code point
  zero upwards, each a decimal count followed by the label of that many code
  points. A label is a capital letter and the lowercase letters behind it.
-/

namespace LiveRecords

/-- The entries of a table: where each run starts, ascending, with its label. -/
abbrev Runs (α : Type) := Array (Nat × α)

namespace Runs

/-- What reading a table has gathered: where the current run starts, its count so
far, its label so far with the last letter first, and the runs before it. -/
structure Reading where
  start : Nat
  count : Nat
  label : List Char
  done : Array (Nat × String)

/-- Closes the current run, if it has a label. -/
def Reading.close (r : Reading) : Reading :=
  if r.label.isEmpty then r
  else ⟨r.start + r.count, 0, [], r.done.push (r.start, String.ofList r.label.reverse)⟩

/-- Reads one more character of a table: a digit behind a label begins a new run. -/
def Reading.step (r : Reading) (c : Char) : Reading :=
  if c.isDigit then
    let r := r.close
    { r with count := r.count * 10 + (c.toNat - '0'.toNat) }
  else { r with label := c :: r.label }

/-- The entries of a written table. -/
def read (text : String) : Runs String :=
  (text.toList.foldl Reading.step ⟨0, 0, [], #[]⟩).close.done

/-- The label of the last run that starts at or before `key`, looked for among the
places from `low` up to `high`; `fuel` bounds the halvings. -/
def search {α : Type} (runs : Runs α) (key : Nat) : Nat → Nat → Nat → Option α
  | 0, low, _ => runs[low]?.map (·.2)
  | fuel + 1, low, high =>
    if high ≤ low + 1 then runs[low]?.map (·.2)
    else
      let middle := (low + high) / 2
      match runs[middle]? with
      | some (start, _) =>
        if start ≤ key then search runs key fuel middle high
        else search runs key fuel low middle
      | none => none

/-- The label of a character. -/
def find? {α : Type} (runs : Runs α) (c : Char) : Option α :=
  search runs c.toNat runs.size 0 runs.size

end Runs

end LiveRecords

import LiveRecords.Document.Value
import LiveRecords.Failure

/-
  Reading records out of documents.

  Fields that a record does not know are ignored. A missing field and a null one
  are both none where the field may be absent; integers do not come from floating
  numbers.
-/

namespace LiveRecords.Decode

/-- An integer without sign of 64 bits. -/
def unsigned64 : Value → Outcome Nat
  | .int n => if 0 ≤ n ∧ n < 18446744073709551616 then .ok n.toNat else .error .serialization
  | _ => .error .serialization

/-- A text. -/
def text : Value → Outcome String
  | .text s => .ok s
  | _ => .error .serialization

/-- A truth value. -/
def bool : Value → Outcome Bool
  | .bool b => .ok b
  | _ => .error .serialization

/-- A value or, where it is missing or null, none. -/
def optional {α : Type} (decode : Value → Outcome α) : Option Value → Outcome (Option α)
  | none | some .null => .ok none
  | some v => (decode v).map some

/-- A value that must be there. -/
def required {α : Type} (decode : Value → Outcome α) : Option Value → Outcome α
  | none => .error .serialization
  | some v => decode v

/-- The fields of a record: of an object those it has, of a list its items in the
declared order of names, no more than there are names. -/
def record (names : List String) : Value → Outcome (String → Option Value)
  | .object fields => .ok fun name => Keyed.get? name fields
  | .list items =>
    if items.length ≤ names.length then .ok fun name => (names.zip items).lookup name
    else .error .serialization
  | _ => .error .serialization

end LiveRecords.Decode

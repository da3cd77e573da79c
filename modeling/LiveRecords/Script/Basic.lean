import LiveRecords.Document.Value
import LiveRecords.Failure

/-
  Scripts: catalogues, expressions, queries and sessions written as documents.

  Reading a script can come to grief in two ways: the document is not of the agreed
  form, or an operation fails that is needed to put the result together.
-/

namespace LiveRecords.Script

/-- Why a script cannot be read. -/
inductive Refusal where
  | form (what : String)
  | failure (f : Failure)

/-- The outcome of reading a script. -/
abbrev Reading := Except Refusal

/-- The document is not of the agreed form. -/
def bad {α : Type} (what : String) : Reading α := .error (.form what)

/-- The outcome of an operation that the script needs. -/
def lift {α : Type} : Outcome α → Reading α
  | .ok a => .ok a
  | .error f => .error (.failure f)

/-- A field, if the document has it. -/
def field? (v : Value) (name : String) : Option Value := v.fields?.bind (Keyed.get? name)

/-- A field that must be there. -/
def field (v : Value) (name : String) : Reading Value :=
  match field? v name with
  | some w => .ok w
  | none => bad s!"missing {name}"

/-- A text. -/
def asText : Value → Reading String
  | .text s => .ok s
  | _ => bad "text expected"

/-- A number without sign. -/
def asNat : Value → Reading Nat
  | .int n => .ok n.toNat
  | _ => bad "number expected"

/-- A truth value. -/
def asBool : Value → Reading Bool
  | .bool b => .ok b
  | _ => bad "truth value expected"

/-- A list. -/
def asList : Value → Reading (List Value)
  | .list vs => .ok vs
  | _ => bad "list expected"

/-- The items of a field, none if it is missing. -/
def listField (v : Value) (name : String) : Reading (List Value) :=
  match field? v name with
  | some w => asList w
  | none => .ok []

/-- The truth value of a field, or a default. -/
def boolField (v : Value) (name : String) (default : Bool) : Reading Bool :=
  match field? v name with
  | some w => asBool w
  | none => .ok default

/-- The number of a field; none if it is missing or null. -/
def natField? (v : Value) (name : String) : Reading (Option Nat) :=
  match field? v name with
  | some .null | none => .ok none
  | some w => some <$> asNat w

end LiveRecords.Script

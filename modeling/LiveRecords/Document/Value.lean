import LiveRecords.Document.Keyed
import LiveRecords.Number.Numeral

/-
  Documents: the values that entities are stored and exchanged as.

  Integers and binary64 numbers are different kinds of number. The fields of an
  object stand in the order of their names, each name once, so two objects with the
  same fields are one value.
-/

namespace LiveRecords

/-- A document. -/
inductive Value where
  | null
  | bool (b : Bool)
  | int (n : Int)
  | float (x : Binary64)
  | text (s : String)
  | list (items : List Value)
  | object (fields : List (String × Value))

/-- The fields of an object. -/
abbrev Fields := Keyed Value

instance : Inhabited Value := ⟨.null⟩

namespace Value

/-- An object with the given fields; of a repeated name the last counts. -/
def ofFields (pairs : List (String × Value)) : Value := .object (Keyed.ofList pairs)

/-- The fields of an object. -/
def fields? : Value → Option Fields
  | .object fields => some fields
  | _ => none

/-- The field of an object; null for a missing field and for any other value. -/
def get (name : String) : Value → Value
  | .object fields => (Keyed.get? name fields).getD .null
  | _ => .null

/-- The value with a field set; what is no object becomes one first. -/
def set (v : Value) (name : String) (value : Value) : Value :=
  match v with
  | .object fields => .object (Keyed.put name value fields)
  | _ => .object [(name, value)]

/-- Whether the value is null. -/
def isNull : Value → Bool
  | .null => true
  | _ => false

/-- Whether the value is an object. -/
def isObject : Value → Bool
  | .object _ => true
  | _ => false

/-- Whether the value is exactly true. -/
def isTrue : Value → Bool
  | .bool b => b
  | _ => false

/-- The value of a number that may have failed to be finite: then null. -/
def ofBinary? : Option Binary64 → Value
  | some x => .float x
  | none => .null

/-- The integer of 64 bits with sign that the value is, if it is one. -/
def signed64? : Value → Option Int
  | .int n => LiveRecords.signed64? n
  | _ => none

/-- The value as a binary64 number, if it is a number. -/
def toBinary? : Value → Option Binary64
  | .int n => some (.ofInt n)
  | .float x => some x
  | _ => none

mutual

/-- Whether two values are the same document. Integers and floating numbers differ
even where they have one value; the two zeros of floating numbers do not. -/
def same : Value → Value → Bool
  | .null, .null => true
  | .bool a, .bool b => a == b
  | .int a, .int b => a == b
  | .float a, .float b => a.same b
  | .text a, .text b => a == b
  | .list a, .list b => sameItems a b
  | .object a, .object b => sameFields a b
  | _, _ => false

/-- The same items in the same order. -/
def sameItems : List Value → List Value → Bool
  | [], [] => true
  | a :: as, b :: bs => same a b && sameItems as bs
  | _, _ => false

/-- The same fields. -/
def sameFields : List (String × Value) → List (String × Value) → Bool
  | [], [] => true
  | (m, a) :: as, (n, b) :: bs => m == n && same a b && sameFields as bs
  | _, _ => false

end

mutual

/-- How deep lists and objects nest in a value. -/
def depth : Value → Nat
  | .list items => itemsDepth items + 1
  | .object fields => fieldsDepth fields + 1
  | _ => 0

/-- The greatest depth of some items. -/
def itemsDepth : List Value → Nat
  | [] => 0
  | v :: rest => max (depth v) (itemsDepth rest)

/-- The greatest depth of the values of some fields. -/
def fieldsDepth : List (String × Value) → Nat
  | [] => 0
  | (_, v) :: rest => max (depth v) (fieldsDepth rest)

end

end Value

end LiveRecords

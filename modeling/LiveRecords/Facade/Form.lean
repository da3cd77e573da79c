import LiveRecords.Document.Decode

/-
  Forms: what a typed caller expects of a document.

  Reading a document by a form gives the document that the form writes: every field
  that the form declares and no other, null where an optional one is missing, and
  floating numbers where the form asks for them. A document that does not fit is
  refused.
-/

namespace LiveRecords

/-- The form of a document. -/
inductive Form where
  | any
  | unit
  | bool
  | int
  | float
  | text
  | list (item : Form)
  | optional (form : Form)
  | record (fields : List (String × Form))

namespace Form

/-- Whether a field of the form may be missing. -/
def isOptional : Form → Bool
  | .optional _ => true
  | _ => false

/-- The names of some fields. -/
def names (fields : List (String × Form)) : List String := fields.map (·.1)

mutual

/-- Reads a document. -/
def read : Form → Value → Outcome Value
  | .any, v => .ok v
  | .unit, .null => .ok .null
  | .bool, .bool b => .ok (.bool b)
  | .int, .int n => if (signed64? n).isSome then .ok (.int n) else .error .serialization
  | .float, .int n => .ok (.float (.ofInt n))
  | .float, .float x => .ok (.float x)
  | .text, .text s => .ok (.text s)
  | .list item, .list vs => return .list (← vs.mapM (read item))
  | .optional form, v => if v.isNull then .ok .null else read form v
  | .record fields, v => do
    let field ← Decode.record (names fields) v
    return .ofFields (← readFields fields field)
  | _, _ => .error .serialization

/-- Reads the fields of a record. -/
def readFields : List (String × Form) → (String → Option Value) → Outcome (List (String × Value))
  | [], _ => .ok []
  | (name, form) :: rest, field => do
    let value ←
      match field name with
      | some v => read form v
      | none => if form.isOptional then .ok .null else .error .serialization
    return (name, value) :: (← readFields rest field)

end

end Form

end LiveRecords

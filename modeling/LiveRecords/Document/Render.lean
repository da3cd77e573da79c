import LiveRecords.Document.Value
import LiveRecords.Number.Shortest
import LiveRecords.Text.Quoted

/-
  The compact text of documents: no spaces, the fields of objects in order,
  numbers with the fewest digits that read back. It is the form in which
  documents are sent, and the text of every value that is no string.
-/

namespace LiveRecords.Value

mutual

/-- The characters of a value in compact form: no spaces, fields in order. -/
def renderChars : Value → List Char
  | .null => "null".toList
  | .bool b => (if b then "true" else "false").toList
  | .int n => (toString n).toList
  | .float x => x.render.toList
  | .text s => (Quoted.document s).toList
  | .list items => '[' :: (renderItems true items ++ [']'])
  | .object fields => '\x7b' :: (renderFields true fields ++ ['\x7d'])

/-- The items with commas between them; `first` says that none came before. -/
def renderItems (first : Bool) : List Value → List Char
  | [] => []
  | v :: rest => (if first then [] else [',']) ++ renderChars v ++ renderItems false rest

/-- The fields with commas between them. -/
def renderFields (first : Bool) : List (String × Value) → List Char
  | [] => []
  | (name, v) :: rest =>
    (if first then [] else [',']) ++ (Quoted.document name).toList ++ ':' :: renderChars v ++
      renderFields false rest

end

/-- The compact text of a value. -/
def render (v : Value) : String := String.ofList v.renderChars

/-- The text that a value stands for: of a string the string itself, of any other
value but null its compact form. -/
def text? : Value → Option String
  | .null => none
  | .text s => some s
  | v => some v.render

end LiveRecords.Value

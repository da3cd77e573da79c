import LiveRecords.Expr.Arithmetic
import LiveRecords.Expr.Kind
import LiveRecords.Pattern.Parser
import LiveRecords.Text.Case

/-
  What the operations of expressions do with the values of their operands.

  A missing operand is null. Tests of text never hold of a missing subject, and a
  missing pattern matches every subject that is there.
-/

namespace LiveRecords.Operation

/-- Whether one list of characters stands inside another. -/
def occurs (part : List Char) : List Char → Bool
  | [] => part.isEmpty
  | c :: rest => part.isPrefixOf (c :: rest) || occurs part rest

/-- A function of text applied to the text of a value; null stays null. -/
def mapText (f : String → String) (v : Value) : Value :=
  match v.text? with
  | some s => .text (f s)
  | none => .null

/-- A test of two texts, on the texts of two values. -/
def testText (test : List Char → List Char → Bool) (subject pattern : Value) : Bool :=
  match subject.text?, pattern.text? with
  | none, _ => false
  | some _, none => true
  | some s, some p => test s.toList p.toList

/-- The text of a value, empty for null. -/
def textOrEmpty (v : Value) : String := v.text?.getD ""

/-- A value as a truth value. -/
def asBoolean : Value → Value
  | .null => .null
  | .bool b => .bool b
  | .int n => .bool (n != 0)
  | .float x => .bool (x.magnitude != 0)
  | .text s => .bool (s.toList.map Char.toLower == "true".toList)
  | .list items => .bool (!items.isEmpty)
  | .object _ => .bool true

/-- A value as a number: text is read as an integer, else as a binary64 number. -/
def asNumeric : Value → Value
  | .int n => .int n
  | .float x => .float x
  | .bool b => .int b.toNat
  | .text s =>
    let cs := (Text.trim s).toList
    match Numeral.readSigned64 cs with
    | some n => .int n
    | none =>
      match Numeral.readFree cs with
      | some x => .ofBinary? x
      | none => .null
  | _ => .null

/-- Whether a value is missing, an empty text or an empty list. -/
def isEmpty : Value → Bool
  | .null => true
  | .text s => s.isEmpty
  | .list items => items.isEmpty
  | _ => false

/-- The number of characters of a text or of items of a list; other values count
the characters of their text. -/
def length : Value → Nat
  | .null => 0
  | .text s => s.length
  | .list items => items.length
  | v => v.render.length

/-- The number of items of a list; any other value that is there counts one. -/
def count : Value → Nat
  | .null => 0
  | .list items => items.length
  | _ => 1

/-- Whether a list contains a value like the pattern, or a text its text. -/
def contains (subject pattern : Value) : Bool :=
  match subject with
  | .list items =>
    if pattern.isNull then testText (fun s p => occurs p s) subject pattern
    else items.any fun item => item.alike pattern
  | _ => testText (fun s p => occurs p s) subject pattern

/-- Whether the whole text of the subject matches the pattern that the other value
is as text. Two missing values match; a text that is no pattern matches nothing. -/
def matchesPattern (subject pattern : Value) : Bool :=
  match subject.text?, pattern.text? with
  | none, none => true
  | some s, some source => (Pattern.readFull? source).any fun p => p.occursIn s
  | _, _ => false

/-- Whether the whole text of a subject that is there matches a pattern that was read
before; a text that is no pattern matches nothing. -/
def matchesRead (pattern : Option Pattern) (subject : Value) : Bool :=
  match pattern, subject.text? with
  | some p, some s => p.occursIn s
  | _, _ => false

/-- Whether the text of the subject contains that of the pattern; a missing pattern
counts as empty. -/
def searchText (subject pattern : Value) : Bool :=
  match subject.text? with
  | some s => occurs (textOrEmpty pattern).toList s.toList
  | none => false

/-- Whether a value that is there is like one of the items of a list. -/
def valueIn (subject items : Value) : Bool :=
  match subject, items with
  | .null, _ => false
  | v, .list items => items.any fun item => v.alike item
  | _, _ => false

/-- The function of a unary kind that can be evaluated. -/
def unary? : Kind → Option (Value → Value)
  | .asString => some (mapText id)
  | .asComparable => some id
  | .asBoolean => some asBoolean
  | .asNumeric => some asNumeric
  | .negate => some Value.negate
  | .not => some fun v => .bool (!v.isTrue)
  | .isNull => some fun v => .bool v.isNull
  | .isEmpty => some fun v => .bool (isEmpty v)
  | .length => some fun v => .int (length v)
  | .toLower => some (mapText Text.lower)
  | .toUpper => some (mapText Text.upper)
  | .trim => some (mapText Text.trim)
  | .count => some fun v => .int (count v)
  | _ => none

/-- The function of a binary kind. -/
def binary? : Kind → Option (Value → Value → Value)
  | .and => some fun a b => .bool (a.isTrue && b.isTrue)
  | .or => some fun a b => .bool (a.isTrue || b.isTrue)
  | .add => some Arithmetic.add.apply
  | .sub => some Arithmetic.sub.apply
  | .mul => some Arithmetic.mul.apply
  | .div => some Arithmetic.div.apply
  | .equals => some fun a b => .bool (a.alike b)
  | .greaterThan => some fun a b => .bool (a.compare? b == some .gt)
  | .lessThan => some fun a b => .bool (a.compare? b == some .lt)
  | .contains => some fun a b => .bool (contains a b)
  | .startsWith => some fun a b => .bool (testText (fun s p => p.isPrefixOf s) a b)
  | .endsWith => some fun a b => .bool (testText (fun s p => p.isSuffixOf s) a b)
  | .matches => some fun a b => .bool (matchesPattern a b)
  | .concat => some fun a b => .text (textOrEmpty a ++ textOrEmpty b)
  | .searchText => some fun a b => .bool (searchText a b)
  | .valueIn => some fun a b => .bool (valueIn a b)
  | _ => none

end LiveRecords.Operation

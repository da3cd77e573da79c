import LiveRecords.Document.Value

/-
  Reading documents from text.

  `Written` is a document as it stands in a text: fields in their order, repeated
  names included, and numbers digit by digit. `Written.read?` accepts exactly one
  document with nothing but blanks around it. `Written.toValue?` is the value it
  denotes: of a repeated name the last field counts, and a number without point
  and exponent is an integer where a document can hold that integer.
-/

namespace LiveRecords

/-- A document as written. -/
inductive Written where
  | null
  | bool (b : Bool)
  | number (n : Numeral)
  | text (s : String)
  | list (items : List Written)
  | object (fields : List (String × Written))

instance : Inhabited Written := ⟨.null⟩

/-- The value of a numeral: none if it is beyond the finite numbers. -/
def Numeral.toValue? (n : Numeral) : Option Value :=
  if n.plain && !(n.negative && n.toInt == 0) && decide (InDocument n.toInt) then some (.int n.toInt)
  else n.toBinary?.map .float

namespace Written

mutual

/-- The value that a written document denotes. -/
def toValue? : Written → Option Value
  | .null => some .null
  | .bool b => some (.bool b)
  | .number n => n.toValue?
  | .text s => some (.text s)
  | .list items => (valuesOf items).map .list
  | .object fields => (fieldsOf fields).map fun pairs => Value.ofFields pairs

/-- The values of the items. -/
def valuesOf : List Written → Option (List Value)
  | [] => some []
  | w :: rest => do
    let v ← toValue? w
    let vs ← valuesOf rest
    some (v :: vs)

/-- The named values of the fields, in their order. -/
def fieldsOf : List (String × Written) → Option (List (String × Value))
  | [] => some []
  | (name, w) :: rest => do
    let v ← toValue? w
    let vs ← fieldsOf rest
    some ((name, v) :: vs)

end

/-! ## Scanning -/

/-- The blanks between the parts of a document. -/
def isSpace (c : Char) : Bool := c == ' ' || c == '\n' || c == '\t' || c == '\r'

/-- The text from its first character that is no blank. -/
def skipSpace (cs : List Char) : List Char := cs.dropWhile isSpace

/-- The value of a hexadecimal digit. -/
def hexDigit? (c : Char) : Option Nat :=
  if c.isDigit then some (c.toNat - '0'.toNat)
  else if 'a' ≤ c ∧ c ≤ 'f' then some (c.toNat - 'a'.toNat + 10)
  else if 'A' ≤ c ∧ c ≤ 'F' then some (c.toNat - 'A'.toNat + 10)
  else none

/-- The value of four hexadecimal digits. -/
def hex4? (a b c d : Char) : Option Nat := do
  let a ← hexDigit? a
  let b ← hexDigit? b
  let c ← hexDigit? c
  let d ← hexDigit? d
  some (((a * 16 + b) * 16 + c) * 16 + d)

/-- The character that a one-letter escape stands for. -/
def escaped? : Char → Option Char
  | '"' => some '"'
  | '\\' => some '\\'
  | '/' => some '/'
  | 'b' => some '\x08'
  | 'f' => some '\x0c'
  | 'n' => some '\n'
  | 'r' => some '\r'
  | 't' => some '\t'
  | _ => none

/-- The rest of a string up to its closing quote, after what was read so far, last
character first. A character beyond the first plane is written as two escapes. -/
def scanString (done : List Char) : List Char → Option (String × List Char)
  | [] => none
  | '"' :: rest => some (String.ofList done.reverse, rest)
  | '\\' :: 'u' :: a :: b :: c :: d :: rest =>
    match hex4? a b c d with
    | none => none
    | some high =>
      if 0xD800 ≤ high ∧ high < 0xDC00 then
        match rest with
        | '\\' :: 'u' :: e :: f :: g :: h :: rest =>
          match hex4? e f g h with
          | none => none
          | some low =>
            if 0xDC00 ≤ low ∧ low < 0xE000 then
              let code := 0x10000 + (high - 0xD800) * 0x400 + (low - 0xDC00)
              scanString (Char.ofNat code :: done) rest
            else none
        | _ => none
      else if 0xDC00 ≤ high ∧ high < 0xE000 then none
      else scanString (Char.ofNat high :: done) rest
  | '\\' :: e :: rest =>
    match escaped? e with
    | some c => scanString (c :: done) rest
    | none => none
  | c :: rest => if c.toNat < 0x20 then none else scanString (c :: done) rest

/-- What follows a word, if the text starts with it. -/
def afterWord (word : String) (cs : List Char) : Option (List Char) :=
  if word.toList.isPrefixOf cs then some (cs.drop word.length) else none

mutual

/-- Reads a document off the front of a text. -/
def scan : Nat → List Char → Option (Written × List Char)
  | 0, _ => none
  | fuel + 1, cs =>
    match skipSpace cs with
    | '"' :: rest => (scanString [] rest).map fun (s, rest) => (.text s, rest)
    | '[' :: rest =>
      match skipSpace rest with
      | ']' :: rest => some (.list [], rest)
      | _ => (scanItems fuel rest).map fun (items, rest) => (.list items, rest)
    | '\x7b' :: rest =>
      match skipSpace rest with
      | '\x7d' :: rest => some (.object [], rest)
      | _ => (scanFields fuel rest).map fun (fields, rest) => (.object fields, rest)
    | cs =>
      match afterWord "null" cs, afterWord "true" cs, afterWord "false" cs with
      | some rest, _, _ => some (.null, rest)
      | _, some rest, _ => some (.bool true, rest)
      | _, _, some rest => some (.bool false, rest)
      | none, none, none => (Numeral.scan cs).map fun (n, rest) => (.number n, rest)

/-- Reads one or more items and the closing bracket. -/
def scanItems : Nat → List Char → Option (List Written × List Char)
  | 0, _ => none
  | fuel + 1, cs => do
    let (item, cs) ← scan fuel cs
    match skipSpace cs with
    | ',' :: rest =>
      let (items, rest) ← scanItems fuel rest
      some (item :: items, rest)
    | ']' :: rest => some ([item], rest)
    | _ => none

/-- Reads one or more fields and the closing brace. -/
def scanFields : Nat → List Char → Option (List (String × Written) × List Char)
  | 0, _ => none
  | fuel + 1, cs =>
    match skipSpace cs with
    | '"' :: rest => do
      let (name, rest) ← scanString [] rest
      match skipSpace rest with
      | ':' :: rest =>
        let (w, rest) ← scan fuel rest
        match skipSpace rest with
        | ',' :: rest =>
          let (fields, rest) ← scanFields fuel rest
          some ((name, w) :: fields, rest)
        | '\x7d' :: rest => some ([(name, w)], rest)
        | _ => none
      | _ => none
    | _ => none

end

/-- The document that a text consists of. Every step of the scan takes at least one
character, so the length of the text bounds the steps. -/
def read? (s : String) : Option Written :=
  match scan (s.length + 1) s.toList with
  | some (w, rest) => if (skipSpace rest).isEmpty then some w else none
  | none => none

end Written

/-- The value of the document that a text consists of. -/
def Value.read? (s : String) : Option Value := (Written.read? s).bind Written.toValue?

end LiveRecords

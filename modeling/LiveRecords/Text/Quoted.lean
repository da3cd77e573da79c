import LiveRecords.Text.Traits

/-
  Quoted text.

  `Quoted.document` is the form of strings inside documents: only quotes,
  backslashes and control characters are escaped. `Quoted.display` is the form
  in which expressions show their constants: there, every character that leaves
  no ink of its own is escaped as well.
-/

namespace LiveRecords.Quoted

/-- The lowercase hexadecimal digits of a number. -/
def hex (n : Nat) : List Char := Nat.toDigits 16 n

/-- One character of a string in a document. -/
def documentChar (c : Char) : List Char :=
  match c with
  | '"' => ['\\', '"']
  | '\\' => ['\\', '\\']
  | '\n' => ['\\', 'n']
  | '\r' => ['\\', 'r']
  | '\t' => ['\\', 't']
  | '\x08' => ['\\', 'b']
  | '\x0c' => ['\\', 'f']
  | c =>
    if c.toNat < 0x20 then
      let digits := hex c.toNat
      '\\' :: 'u' :: (List.replicate (4 - digits.length) '0' ++ digits)
    else [c]

/-- One character of a displayed constant. -/
def displayChar (c : Char) : List Char :=
  match c with
  | '"' => ['\\', '"']
  | '\\' => ['\\', '\\']
  | '\n' => ['\\', 'n']
  | '\r' => ['\\', 'r']
  | '\t' => ['\\', 't']
  | '\x00' => ['\\', '0']
  | c =>
    if Text.isExtender c || !Text.isPrintable c then
      '\\' :: 'u' :: '\x7b' :: (hex c.toNat ++ ['\x7d'])
    else [c]

/-- The text between quotes, each character in the form given. -/
def quote (form : Char → List Char) (s : String) : String :=
  String.ofList ('"' :: (s.toList.flatMap form ++ ['"']))

/-- A string as documents write it. -/
def document (s : String) : String := quote documentChar s

/-- A string as expressions display it. -/
def display (s : String) : String := quote displayChar s

end LiveRecords.Quoted

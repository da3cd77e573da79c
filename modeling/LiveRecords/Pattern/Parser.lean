import LiveRecords.Number.Numeral
import LiveRecords.Pattern.Basic

/-
  The text form of patterns.

  A pattern is read from left to right with a cursor that carries the flags in
  force; flags set inside a group end with the group. `Pattern.read?` refuses a
  text that is no pattern, and a pattern that is too heavy.
-/

namespace LiveRecords.Pattern

/-- The flags in force at a place of a pattern. -/
structure Flags where
  ignoreCase : Bool := false
  multiLine : Bool := false
  dotAll : Bool := false
  crlf : Bool := false
  unicode : Bool := true
  spaced : Bool := false

/-- What is left to read, the flags in force, and the names of groups so far. -/
structure Cursor where
  rest : List Char
  flags : Flags
  names : List String

/-- The text behind blanks and comments; `comment` says that one was begun. -/
def skipBlanks (comment : Bool) : List Char → List Char
  | [] => []
  | c :: rest =>
    if comment then skipBlanks (c != '\n') rest
    else if c == '#' then skipBlanks true rest
    else if Text.isBlank c then skipBlanks false rest
    else c :: rest

namespace Cursor

/-- The cursor behind blanks and comments, if the flags allow them. -/
def skip (cur : Cursor) : Cursor :=
  if cur.flags.spaced then { cur with rest := skipBlanks false cur.rest } else cur

/-- The cursor at another rest. -/
def moved (cur : Cursor) (rest : List Char) : Cursor := { cur with rest }

/-- The cursor behind one character and any blanks. -/
def bump (cur : Cursor) : Cursor := (cur.moved cur.rest.tail).skip

/-- The cursor behind a text, if it comes next. -/
def after? (cur : Cursor) (text : String) : Option Cursor :=
  if text.toList.isPrefixOf cur.rest then some (cur.moved (cur.rest.drop text.length)) else none

end Cursor

/-! ## Characters and sets -/

/-- A set read under flags that may ask for case to be ignored. -/
def foldUnder (flags : Flags) (set : CharSet) : CharSet :=
  if !flags.ignoreCase then set else if flags.unicode then set.folded else set.foldedAscii

/-- A set as a pattern. Without the flag for all of Unicode, sets are sets of bytes
and may only hold those that are characters of their own. -/
def setPattern? (flags : Flags) (set : CharSet) : Option Pattern :=
  if flags.unicode || set.isAscii then some (.one set) else none

/-- One character as a pattern. -/
def charPattern (flags : Flags) (c : Char) : Pattern := .one (foldUnder flags (.single c))

/-- Any character but the ends of lines, or with the flag any character. -/
def dotPattern? (flags : Flags) : Option Pattern :=
  if !flags.unicode then none
  else if flags.dotAll then some (.one ⟨fun _ => true, 8⟩)
  else if flags.crlf then some (.one ⟨fun c => c != '\n' && c != '\r', 8⟩)
  else some (.one ⟨(· != '\n'), 8⟩)

/-- What an escape stands for. -/
inductive Escape where
  | char (c : Char)
  | set (set : CharSet)
  | look (condition : Look)

/-- The characters that have a meaning in patterns. -/
def metaCharacters : List Char := "\\.+*?()|[]\x7b\x7d^$#&-~".toList

/-- Whether a character may be escaped to stand for itself. -/
def isEscapable (c : Char) : Bool :=
  metaCharacters.contains c || (c.toNat < 0x80 && !c.isAlphanum && c != '<' && c != '>')

/-- The value of a hexadecimal digit. -/
def hexValue? (c : Char) : Option Nat :=
  if c.isDigit then some (c.toNat - '0'.toNat)
  else if 'a' ≤ c ∧ c ≤ 'f' then some (c.toNat - 'a'.toNat + 10)
  else if 'A' ≤ c ∧ c ≤ 'F' then some (c.toNat - 'A'.toNat + 10)
  else none

/-- The character with a code, if there is one. -/
def charOf? (code : Nat) : Option Char := if code.isValidChar then some (Char.ofNat code) else none

/-- Reads exactly `n` hexadecimal digits behind the cursor's first character. -/
def hexDigits : Nat → Cursor → Nat → Option (Nat × Cursor)
  | 0, cur, value => some (value, cur)
  | n + 1, cur, value =>
    match cur.rest with
    | [] => none
    | c :: _ => do
      let d ← hexValue? c
      let next := if n = 0 then cur.moved cur.rest.tail else cur.bump
      hexDigits n next (value * 16 + d)

/-- Reads hexadecimal digits up to a closing brace; `any` says that there was one. -/
def hexBraced : Nat → Cursor → Bool → Nat → Option (Nat × Cursor)
  | 0, _, _, _ => none
  | fuel + 1, cur, any, value =>
    match cur.rest with
    | [] => none
    | '\x7d' :: rest => if any then some (value, cur.moved rest) else none
    | c :: _ => do
      let d ← hexValue? c
      hexBraced fuel cur.bump true (value * 16 + d)

/-- Reads the code of a character behind the letter that announces it. -/
def hexEscape? (letter : Char) (cur : Cursor) : Option (Char × Cursor) := do
  let (code, cur) ←
    match cur.rest with
    | '\x7b' :: _ => hexBraced cur.rest.length cur.bump false 0
    | _ => hexDigits (if letter == 'x' then 2 else if letter == 'u' then 4 else 8) cur 0
  let c ← charOf? code
  some (c, cur)

/-- Reads the name of a class up to its closing brace. -/
def classNameFrom : Nat → Cursor → List Char → Option (String × Cursor)
  | 0, _, _ => none
  | fuel + 1, cur, done =>
    match cur.rest with
    | [] => none
    | '\x7d' :: rest => some (String.ofList done.reverse, cur.moved rest)
    | c :: _ => classNameFrom fuel cur.bump (c :: done)

/-- Splits a text at the first place where a separator stands. -/
def splitAtFirst (separator : List Char) : List Char → Option (List Char × List Char)
  | [] => none
  | c :: rest =>
    if separator.isPrefixOf (c :: rest) then some ([], (c :: rest).drop separator.length)
    else (splitAtFirst separator rest).map fun (a, b) => (c :: a, b)

/-- The set that the name of a class stands for: a name alone, or a property with a
value behind `=`, `:` or, for the other characters, `!=`. -/
def classSet? (name : String) : Option CharSet :=
  let cs := name.toList
  match splitAtFirst ['!', '='] cs with
  | some (p, v) => (CharSet.valued? (String.ofList p) (String.ofList v)).map CharSet.compl
  | none =>
    match splitAtFirst [':'] cs with
    | some (p, v) => CharSet.valued? (String.ofList p) (String.ofList v)
    | none =>
      match splitAtFirst ['='] cs with
      | some (p, v) => CharSet.valued? (String.ofList p) (String.ofList v)
      | none => CharSet.named? name

/-- Reads a class by name behind its letter. -/
def namedClass? (negated : Bool) (cur : Cursor) : Option (Escape × Cursor) :=
  if !cur.flags.unicode then none
  else do
    let (set, cur) ←
      match cur.rest with
      | [] => none
      | '\x7b' :: _ => do
        let (name, cur) ← classNameFrom (cur.rest.length + 1) cur.bump []
        let set ← classSet? name
        some (set, cur)
      | '\\' :: _ => none
      | c :: rest => do
        let set ← CharSet.category? (CharSet.normalName (String.ofList [c]))
        some (set, cur.moved rest)
    let set := foldUnder cur.flags set
    some (.set (if negated then set.compl else set), cur)

/-- The condition that a word between braces behind `\b` names. -/
def boundaryNamed? (unicode : Bool) : String → Option Look
  | "start" => some (.wordStart unicode)
  | "end" => some (.wordEnd unicode)
  | "start-half" => some (.wordStartHalf unicode)
  | "end-half" => some (.wordEndHalf unicode)
  | _ => none

/-- Reads the letters of such a word. -/
def boundaryWord : Nat → Cursor → List Char → List Char × Cursor
  | 0, cur, done => (done.reverse, cur)
  | fuel + 1, cur, done =>
    match cur.rest with
    | c :: _ =>
      if c.isAlpha || c == '-' then boundaryWord fuel cur.bump (c :: done) else (done.reverse, cur)
    | [] => (done.reverse, cur)

/-- Reads what follows `\b`: a word between braces, or nothing. A brace before
anything but a letter belongs to a repetition. -/
def boundary? (cur : Cursor) : Option (Escape × Cursor) :=
  let plain : Escape × Cursor := (.look (.boundary cur.flags.unicode), cur)
  match cur.rest with
  | '\x7b' :: _ =>
    let inside := cur.bump
    match inside.rest with
    | [] => none
    | c :: _ =>
      if !(c.isAlpha || c == '-') then some plain
      else
        let (word, cur) := boundaryWord inside.rest.length inside []
        match cur.rest with
        | '\x7d' :: rest => do
          let look ← boundaryNamed? cur.flags.unicode (String.ofList word)
          some (.look look, cur.moved rest)
        | _ => none
  | _ => some plain

/-- Reads an escape behind its backslash. -/
def escape? (cur : Cursor) : Option (Escape × Cursor) :=
  match cur.rest with
  | [] => none
  | c :: rest =>
    let next := cur.moved rest
    let u := cur.flags.unicode
    match c with
    | 'x' | 'u' | 'U' =>
      (hexEscape? c cur.bump).bind fun (d, after) =>
        if !u && c == 'x' && 0x7F < d.toNat && d.toNat ≤ 0xFF && rest.head? != some '\x7b' then none
        else some (.char d, after)
    | 'p' => namedClass? false cur.bump
    | 'P' => namedClass? true cur.bump
    | 'd' => some (.set (.digit u), next)
    | 's' => some (.set (.blank u), next)
    | 'w' => some (.set (.word u), next)
    | 'D' => some (.set (CharSet.digit u).compl, next)
    | 'S' => some (.set (CharSet.blank u).compl, next)
    | 'W' => some (.set (CharSet.word u).compl, next)
    | 'a' => some (.char '\x07', next)
    | 'f' => some (.char '\x0c', next)
    | 't' => some (.char '\t', next)
    | 'n' => some (.char '\n', next)
    | 'r' => some (.char '\r', next)
    | 'v' => some (.char '\x0b', next)
    | 'A' => some (.look .textStart, next)
    | 'z' => some (.look .textEnd, next)
    | 'b' => boundary? next
    | 'B' => some (.look (.noBoundary u), next)
    | '<' => some (.look (.wordStart u), next)
    | '>' => some (.look (.wordEnd u), next)
    | c => if isEscapable c then some (.char c, next) else none

/-! ## Brackets -/

/-- The operations between the parts of a bracket. -/
inductive SetOp where
  | inter | diff | symmDiff

/-- The result of an operation; both sides are folded first. -/
def SetOp.apply (flags : Flags) (op : SetOp) (a b : CharSet) : CharSet :=
  let a := foldUnder flags a
  let b := foldUnder flags b
  match op with
  | .inter => a.inter b
  | .diff => a.diff b
  | .symmDiff => a.symmDiff b

/-- The part read last, combined with what stands before an operation. -/
def combine (flags : Flags) (left : Option (SetOp × CharSet)) (part : CharSet) : CharSet :=
  match left with
  | some (op, before) => op.apply flags before part
  | none => part

/-- Reads one character or class inside brackets. -/
def bracketItem? (cur : Cursor) : Option (Escape × Cursor) :=
  match cur.rest with
  | [] => none
  | '\\' :: rest => escape? (cur.moved rest)
  | c :: rest => some (.char c, cur.moved rest)

/-- The set of an item inside brackets; conditions are none. -/
def itemSet? (flags : Flags) : Escape → Option CharSet
  | .char c => if flags.unicode || c.toNat < 0x80 then some (.single c) else none
  | .set set => if flags.unicode || set.isAscii then some set else none
  | .look _ => none

/-- Reads an item or a range inside brackets. -/
def bracketRange? (cur : Cursor) : Option (CharSet × Cursor) := do
  let (first, cur) ← bracketItem? cur
  let cur := cur.skip
  match cur.rest with
  | [] => none
  | '-' :: _ =>
    let beyond := cur.bump
    match beyond.rest with
    | [] => none
    | ']' :: _ | '-' :: _ => (itemSet? cur.flags first).map fun set => (set, cur)
    | _ =>
      let (second, cur) ← bracketItem? beyond
      match first, second with
      | .char a, .char b =>
        if b < a || (!cur.flags.unicode && 0x7F < b.toNat) then none else some (.range a b, cur)
      | _, _ => none
  | _ => (itemSet? cur.flags first).map fun set => (set, cur)

/-- Reads a class such as `[:alpha:]`, if there is one behind its first bracket. -/
def asciiClass? (rest : List Char) : Option (CharSet × List Char) :=
  match rest with
  | ':' :: rest =>
    let (negated, rest) :=
      match rest with
      | '^' :: rest => (true, rest)
      | rest => (false, rest)
    let name := rest.takeWhile (· != ':')
    match rest.dropWhile (· != ':') with
    | ':' :: ']' :: rest =>
      (CharSet.ascii? (String.ofList name)).map fun set =>
        (if negated then set.compl else set, rest)
    | _ => none
  | _ => none

/-- Reads hyphens at the start of a bracket, which stand for themselves. -/
def leadingHyphens : Nat → Cursor → CharSet → CharSet × Cursor
  | 0, cur, set => (set, cur)
  | fuel + 1, cur, set =>
    match cur.rest with
    | '-' :: _ => leadingHyphens fuel cur.bump (set.union (.single '-'))
    | _ => (set, cur)

mutual

/-- Reads a bracket behind its opening character. -/
def bracket : Nat → Cursor → Option (CharSet × Cursor)
  | 0, _ => none
  | fuel + 1, cur =>
    let cur := cur.skip
    let (negated, cur) :=
      match cur.rest with
      | '^' :: _ => (true, cur.bump)
      | _ => (false, cur)
    let hyphen := cur.rest.head? == some '-'
    let (set, cur) := leadingHyphens cur.rest.length cur .empty
    let (set, cur) :=
      match cur.rest with
      | ']' :: _ => if hyphen then (set, cur) else (set.union (.single ']'), cur.bump)
      | _ => (set, cur)
    (bracketParts fuel cur none set).map fun (set, cur) =>
      let set := foldUnder cur.flags set
      (if negated then set.compl else set, cur)

/-- Reads the parts of a bracket up to its end: `left` is what stands before the
last operation, `part` what was read since. -/
def bracketParts : Nat → Cursor → Option (SetOp × CharSet) → CharSet → Option (CharSet × Cursor)
  | 0, _, _, _ => none
  | fuel + 1, cur, left, part =>
    let cur := cur.skip
    match cur.rest with
    | [] => none
    | ']' :: rest => some (combine cur.flags left part, cur.moved rest)
    | '&' :: '&' :: rest =>
      bracketParts fuel (cur.moved rest) (some (.inter, combine cur.flags left part)) .empty
    | '-' :: '-' :: rest =>
      bracketParts fuel (cur.moved rest) (some (.diff, combine cur.flags left part)) .empty
    | '~' :: '~' :: rest =>
      bracketParts fuel (cur.moved rest) (some (.symmDiff, combine cur.flags left part)) .empty
    | '[' :: rest =>
      match asciiClass? rest with
      | some (set, rest) =>
        if cur.flags.unicode || set.isAscii then
          bracketParts fuel (cur.moved rest) left (part.union set)
        else none
      | none => do
        let (set, cur) ← bracket fuel (cur.moved rest)
        bracketParts fuel cur left (part.union set)
    | _ => do
      let (set, cur) ← bracketRange? cur
      bracketParts fuel cur left (part.union set)

end

/-! ## Repetitions and groups -/

/-- Reads a decimal number with blanks around it. -/
def decimal? (cur : Cursor) : Option Nat × Cursor :=
  let rest := cur.rest.dropWhile Text.isBlank
  let digits := rest.takeWhile Char.isDigit
  let rest := (rest.dropWhile Char.isDigit).dropWhile Text.isBlank
  let value := Numeral.digitsValue digits
  (if digits.isEmpty || 4294967296 ≤ value then none else some value, cur.moved rest)

/-- The cursor behind a mark that only says which match is preferred. -/
def skipLazy (cur : Cursor) : Cursor :=
  match cur.rest with
  | '?' :: rest => cur.moved rest
  | _ => cur

/-- Reads the counts of a repetition behind its opening brace. -/
def counts? (cur : Cursor) : Option (Nat × Option Nat × Cursor) := do
  let (least, cur) := decimal? cur
  let least ← least
  let (most, cur) ←
    match cur.rest with
    | ',' :: _ =>
      let cur := cur.bump
      match cur.rest with
      | '\x7d' :: _ => some (none, cur)
      | _ =>
        match decimal? cur with
        | (some most, cur) => some (some most, cur)
        | (none, _) => none
    | _ => some (some least, cur)
  match cur.rest with
  | '\x7d' :: _ =>
    if most.any (· < least) then none else some (least, most, skipLazy cur.bump)
  | _ => none

/-- The flags with one letter set or cleared. -/
def setFlag? (flags : Flags) (value : Bool) : Char → Option Flags
  | 'i' => some { flags with ignoreCase := value }
  | 'm' => some { flags with multiLine := value }
  | 's' => some { flags with dotAll := value }
  | 'R' => some { flags with crlf := value }
  | 'u' => some { flags with unicode := value }
  | 'U' => some flags
  | 'x' => some { flags with spaced := value }
  | _ => none

/-- Reads flags up to the `:` or `)` behind them: `seen` are the letters so far,
`fresh` says that a hyphen was the last thing read. -/
def flagsFrom : List Char → Flags → List Char → Bool → Bool →
    Option (Flags × Bool × List Char)
  | [], _, _, _, _ => none
  | ':' :: rest, flags, _, _, fresh => if fresh then none else some (flags, true, rest)
  | ')' :: rest, flags, seen, _, fresh =>
    if fresh || seen.isEmpty then none else some (flags, false, rest)
  | '-' :: rest, flags, seen, clearing, _ =>
    if clearing then none else flagsFrom rest flags ('-' :: seen) true true
  | c :: rest, flags, seen, clearing, _ =>
    if seen.contains c then none
    else
      match setFlag? flags (!clearing) c with
      | some flags => flagsFrom rest flags (c :: seen) clearing false
      | none => none

/-- Whether the name of a group is allowed: a letter or underscore first, then also
digits, points and brackets. -/
def isGroupName : List Char → Bool
  | [] => false
  | c :: rest =>
    (c == '_' || Text.isAlphabetic c) && rest.all fun c =>
      c == '_' || c == '.' || c == '[' || c == ']' || Text.isAlphabetic c ||
        match Category.of c with
        | .nd | .nl | .no => true
        | _ => false

/-- How a group begins. -/
inductive GroupStart where
  | group (cur : Cursor)
  | flags (cur : Cursor)

/-- Reads the name of a group up to its closing angle. -/
def groupName? (cur : Cursor) : Option GroupStart :=
  let name := cur.rest.takeWhile (· != '>')
  match cur.rest.dropWhile (· != '>') with
  | _ :: rest =>
    let text := String.ofList name
    if isGroupName name && !cur.names.contains text then
      some (.group { cur with rest, names := text :: cur.names })
    else none
  | [] => none

/-- Reads what stands behind the opening parenthesis of a group. -/
def groupStart? (cur : Cursor) : Option GroupStart :=
  let cur := cur.skip
  if ["?=", "?!", "?<=", "?<!"].any fun mark => (cur.after? mark).isSome then none
  else
    match (cur.after? "?P<").orElse fun _ => cur.after? "?<" with
    | some cur => groupName? cur
    | none =>
      match cur.after? "?" with
      | none => some (.group cur)
      | some cur =>
        (flagsFrom cur.rest cur.flags [] false false).map fun (flags, opens, rest) =>
          let next : Cursor := { cur with rest, flags }
          if opens then .group next else .flags next

/-- A sequence from the parts read, the last part first. -/
def sequence (parts : List Pattern) : Pattern :=
  parts.foldl (fun tail part => match tail with
    | .empty => part
    | tail => .seq part tail) .empty

mutual

/-- Reads alternatives up to the end or a closing parenthesis. -/
def alternatives : Nat → Cursor → Option (Pattern × Cursor)
  | 0, _ => none
  | fuel + 1, cur => do
    let (left, cur) ← branch fuel cur [] false
    match cur.rest with
    | '|' :: rest =>
      let (right, cur) ← alternatives fuel (cur.moved rest)
      some (.alt left right, cur)
    | _ => some (left, cur)

/-- Reads one alternative: `done` are its parts so far, the last one first, and
`repeatable` says that the last one may be repeated. -/
def branch : Nat → Cursor → List Pattern → Bool → Option (Pattern × Cursor)
  | 0, _, _, _ => none
  | fuel + 1, cur, done, repeatable =>
    let cur := cur.skip
    let flags := cur.flags
    let repeated (least : Nat) (most : Option Nat) (cur : Cursor) : Option (Pattern × Cursor) :=
      match done with
      | last :: before =>
        if repeatable then branch fuel cur (.rep last least most :: before) true else none
      | [] => none
    match cur.rest with
    | [] | ')' :: _ | '|' :: _ => some (sequence done, cur)
    | '?' :: rest => repeated 0 (some 1) (skipLazy (cur.moved rest))
    | '*' :: rest => repeated 0 none (skipLazy (cur.moved rest))
    | '+' :: rest => repeated 1 none (skipLazy (cur.moved rest))
    | '\x7b' :: _ =>
      match counts? cur.bump with
      | some (least, most, cur) => repeated least most cur
      | none => none
    | '(' :: rest =>
      match groupStart? (cur.moved rest) with
      | none => none
      | some (.flags cur) => branch fuel cur done false
      | some (.group inner) => do
        let (body, inner) ← alternatives fuel inner
        match inner.rest with
        | ')' :: rest => branch fuel { inner with rest, flags } (body :: done) true
        | _ => none
    | '[' :: rest => do
      let (set, cur) ← bracket fuel (cur.moved rest)
      let p ← setPattern? flags set
      branch fuel cur (p :: done) true
    | '\\' :: rest => do
      let (escape, cur) ← escape? (cur.moved rest)
      match escape with
      | .char c => branch fuel cur (charPattern flags c :: done) true
      | .set set =>
        let p ← setPattern? flags set
        branch fuel cur (p :: done) true
      | .look condition => branch fuel cur (.look condition :: done) true
    | '.' :: rest => do
      let p ← dotPattern? flags
      branch fuel (cur.moved rest) (p :: done) true
    | '^' :: rest =>
      let condition := if flags.multiLine then .lineStart flags.crlf else .textStart
      branch fuel (cur.moved rest) (.look condition :: done) true
    | '$' :: rest =>
      let condition := if flags.multiLine then .lineEnd flags.crlf else .textEnd
      branch fuel (cur.moved rest) (.look condition :: done) true
    | c :: rest => branch fuel (cur.moved rest) (charPattern flags c :: done) true

end

/-- The pattern that a text is, if it is one. Every two steps of the reader take at
least one character. -/
def read? (s : String) : Option Pattern :=
  match alternatives (2 * s.length + 2) ⟨s.toList, {}, []⟩ with
  | some (p, cur) => if cur.rest.isEmpty && p.weight ≤ weightLimit then some p else none
  | none => none

/-- The pattern that asks for a match of the whole text: the source is put between
anchors before it is read. -/
def readFull? (source : String) : Option Pattern := read? ("^(?:" ++ source ++ ")$")

end LiveRecords.Pattern

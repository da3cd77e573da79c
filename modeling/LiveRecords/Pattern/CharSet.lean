import LiveRecords.Text.Case
import LiveRecords.Text.Script

/-
  Sets of characters that patterns name: by category, script, trait or range.

  A set carries a weight, the rough number of states that an automaton needs to
  recognise one of its characters; it only limits how large a pattern may grow.
-/

namespace LiveRecords

/-- A set of characters, with its weight. -/
structure CharSet where
  has : Char → Bool
  weight : Nat

namespace CharSet

/-- The set without characters. -/
def empty : CharSet := ⟨fun _ => false, 1⟩

/-- One character. -/
def single (c : Char) : CharSet := ⟨(· == c), 1⟩

/-- The characters from one to another. -/
def range (first last : Char) : CharSet :=
  ⟨fun c => first ≤ c && c ≤ last, if last.toNat < 0x80 then 1 else 4⟩

/-- The characters with a property that many scripts share. -/
def wide (has : Char → Bool) : CharSet := ⟨has, 600⟩

/-- The characters of either set. -/
def union (a b : CharSet) : CharSet := ⟨fun c => a.has c || b.has c, max a.weight b.weight⟩

/-- The characters of both sets. -/
def inter (a b : CharSet) : CharSet := ⟨fun c => a.has c && b.has c, max a.weight b.weight⟩

/-- The characters of the first set that are not in the second. -/
def diff (a b : CharSet) : CharSet := ⟨fun c => a.has c && !b.has c, max a.weight b.weight⟩

/-- The characters of exactly one of both sets. -/
def symmDiff (a b : CharSet) : CharSet := ⟨fun c => a.has c != b.has c, max a.weight b.weight⟩

/-- All other characters. -/
def compl (a : CharSet) : CharSet := ⟨fun c => !a.has c, max a.weight 8⟩

/-- The characters that differ from one of the set at most in case. -/
def folded (a : CharSet) : CharSet :=
  ⟨fun c => a.has c || (Text.caseVariants c).any a.has, a.weight + 1⟩

/-- The same for letters of the first 128 characters only. -/
def foldedAscii (a : CharSet) : CharSet :=
  ⟨fun c => a.has c || a.has c.toLower || a.has c.toUpper, a.weight + 1⟩

/-- Whether all bytes of the set are below 128, where a set of bytes is asked for. -/
def isAscii (a : CharSet) : Bool :=
  (List.range 128).all fun n => !a.has (Char.ofNat (128 + n))

/-! ## Classes with a letter -/

/-- Decimal digits. -/
def digit (unicode : Bool) : CharSet :=
  if unicode then wide (Category.of · == .nd) else range '0' '9'

/-- White space. -/
def blank (unicode : Bool) : CharSet :=
  if unicode then ⟨Text.isBlank, 8⟩
  else ⟨fun c => c == ' ' || (0x09 ≤ c.toNat && c.toNat ≤ 0x0D), 1⟩

/-- Characters of words. -/
def word (unicode : Bool) : CharSet :=
  if unicode then wide Text.isWord else ⟨fun c => c.isAlphanum || c == '_', 1⟩

/-! ## Classes with a name -/

/-- The classes of the first 128 characters that brackets can name. -/
def ascii? (name : String) : Option CharSet :=
  let within (test : Char → Bool) : Option CharSet := some ⟨fun c => c.toNat < 0x80 && test c, 1⟩
  match name with
  | "alnum" => within Char.isAlphanum
  | "alpha" => within Char.isAlpha
  | "ascii" => within fun _ => true
  | "blank" => within fun c => c == '\t' || c == ' '
  | "cntrl" => within fun c => c.toNat < 0x20 || c.toNat == 0x7F
  | "digit" => within Char.isDigit
  | "graph" => within fun c => 0x21 ≤ c.toNat && c.toNat ≤ 0x7E
  | "lower" => within Char.isLower
  | "print" => within fun c => 0x20 ≤ c.toNat && c.toNat ≤ 0x7E
  | "punct" => within fun c => 0x21 ≤ c.toNat && c.toNat ≤ 0x7E && !c.isAlphanum
  | "space" => within (blank false).has
  | "upper" => within Char.isUpper
  | "word" => within (word false).has
  | "xdigit" =>
    within fun c => c.isDigit || ('a' ≤ c && c ≤ 'f') || ('A' ≤ c && c ≤ 'F')
  | _ => none

/-- The characters of some categories. -/
def ofCategories (cs : List Category) : CharSet := wide fun c => cs.contains (Category.of c)

/-- Names are compared without case, blanks, hyphens and underscores, and without a
leading `is`; of `isc` the whole name counts. -/
def normalName (name : String) : String :=
  let cs := (name.toList.filter fun c => !(c == ' ' || c == '_' || c == '-')).map
    Char.toLower
  match cs with
  | 'i' :: 's' :: rest =>
    if rest == ['c'] then "isc" else String.ofList rest
  | cs => String.ofList cs

/-- General categories and groups of them by normal name. -/
def categories : List (List String × List Category) :=
  [(["l", "letter"], [.lu, .ll, .lt, .lm, .lo]),
   (["lc", "casedletter"], [.lu, .ll, .lt]),
   (["lu", "uppercaseletter"], [.lu]), (["ll", "lowercaseletter"], [.ll]),
   (["lt", "titlecaseletter"], [.lt]), (["lm", "modifierletter"], [.lm]),
   (["lo", "otherletter"], [.lo]),
   (["m", "mark", "combiningmark"], [.mn, .mc, .me]),
   (["mn", "nonspacingmark"], [.mn]), (["mc", "spacingmark"], [.mc]),
   (["me", "enclosingmark"], [.me]),
   (["n", "number"], [.nd, .nl, .no]),
   (["nd", "decimalnumber", "digit"], [.nd]), (["nl", "letternumber"], [.nl]),
   (["no", "othernumber"], [.no]),
   (["p", "punctuation", "punct"], [.pc, .pd, .ps, .pe, .pi, .pf, .po]),
   (["pc", "connectorpunctuation"], [.pc]), (["pd", "dashpunctuation"], [.pd]),
   (["ps", "openpunctuation"], [.ps]), (["pe", "closepunctuation"], [.pe]),
   (["pi", "initialpunctuation"], [.pi]), (["pf", "finalpunctuation"], [.pf]),
   (["po", "otherpunctuation"], [.po]),
   (["s", "symbol"], [.sm, .sc, .sk, .so]),
   (["sm", "mathsymbol"], [.sm]), (["sc", "currencysymbol"], [.sc]),
   (["sk", "modifiersymbol"], [.sk]), (["so", "othersymbol"], [.so]),
   (["z", "separator"], [.zs, .zl, .zp]),
   (["zs", "spaceseparator"], [.zs]), (["zl", "lineseparator"], [.zl]),
   (["zp", "paragraphseparator"], [.zp]),
   (["c", "other"], [.cc, .cf, .cs, .co, .cn]),
   (["cc", "control", "cntrl"], [.cc]), (["cf", "format"], [.cf]),
   (["cs", "surrogate"], [.cs]), (["co", "privateuse"], [.co]),
   (["cn", "unassigned"], [.cn])]

/-- The set of a general category by normal name. -/
def category? (name : String) : Option CharSet :=
  match name with
  | "any" => some ⟨fun _ => true, 8⟩
  | "assigned" => some (wide (Category.of · != .cn))
  | "ascii" => some ⟨(·.toNat < 0x80), 1⟩
  | _ => (categories.find? fun (names, _) => names.contains name).map fun (_, cs) => ofCategories cs

/-- The set of a script by normal name. -/
def script? (name : String) : Option CharSet :=
  let letters := if name == "qaai" then "zinh" else if name == "qaac" then "copt" else name
  (Script.named.find? fun (short, long) => normalName short == letters || normalName long == letters).map
    fun (short, _) => wide (Script.of · == short)

/-- The set of a trait by normal name. -/
def trait? (name : String) : Option CharSet :=
  match name with
  | "alphabetic" | "alpha" => some (wide Text.isAlphabetic)
  | "lowercase" | "lower" => some (wide Text.isLowercase)
  | "uppercase" | "upper" => some (wide Text.isUppercase)
  | "whitespace" | "wspace" | "space" => some ⟨Text.isBlank, 8⟩
  | "cased" => some (wide Text.isCased)
  | "caseignorable" | "ci" => some (wide Text.isCaseIgnorable)
  | "graphemeextend" | "grext" => some (wide Text.isExtender)
  | "joincontrol" | "joinc" => some ⟨fun c => c.toNat == 0x200C || c.toNat == 0x200D, 4⟩
  | "asciihexdigit" | "ahex" => ascii? "xdigit"
  | "regionalindicator" | "ri" => some ⟨fun c => 0x1F1E6 ≤ c.toNat && c.toNat ≤ 0x1F1FF, 4⟩
  | "noncharactercodepoint" | "nchar" =>
    some ⟨fun c => (0xFDD0 ≤ c.toNat && c.toNat ≤ 0xFDEF) || 0xFFFE ≤ c.toNat % 0x10000, 40⟩
  | _ => none

/-- The set of a name that stands alone. Three short names are those of categories
although traits have them too. -/
def named? (name : String) : Option CharSet :=
  let name := normalName name
  let trait := if name == "cf" || name == "sc" || name == "lc" then none else trait? name
  (trait.orElse fun _ => category? name).orElse fun _ => script? name

/-- The set of a property with a value. -/
def valued? (property value : String) : Option CharSet :=
  match normalName property with
  | "generalcategory" | "gc" => category? (normalName value)
  | "script" | "sc" | "scriptextensions" | "scx" => script? (normalName value)
  | _ => none

end CharSet

end LiveRecords

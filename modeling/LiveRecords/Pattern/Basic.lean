import LiveRecords.Pattern.CharSet

/-
  Patterns and the places in a text that a match of them can reach.

  `reach` takes the places where a match may begin to the places where it may
  end. Sets of places are enough to decide whether there is a match at all: which
  of several matches is preferred, and what groups capture, is never asked.
-/

namespace LiveRecords

/-- A condition on a place in a text. -/
inductive Look where
  | textStart
  | textEnd
  | lineStart (crlf : Bool)
  | lineEnd (crlf : Bool)
  | boundary (unicode : Bool)
  | noBoundary (unicode : Bool)
  | wordStart (unicode : Bool)
  | wordEnd (unicode : Bool)
  | wordStartHalf (unicode : Bool)
  | wordEndHalf (unicode : Bool)
  deriving DecidableEq, Repr

/-- A pattern. A repetition has a least and, unless it is open, a greatest count. -/
inductive Pattern where
  | empty
  | one (set : CharSet)
  | look (condition : Look)
  | seq (first second : Pattern)
  | alt (left right : Pattern)
  | rep (body : Pattern) (least : Nat) (most : Option Nat)

namespace Look

/-- Whether the condition holds at a place of a text. -/
def holds (text : Array Char) (place : Nat) (condition : Look) : Bool :=
  let before := if place = 0 then none else text[place - 1]?
  let after := text[place]?
  let isWord (unicode : Bool) (c : Option Char) : Bool := c.any (CharSet.word unicode).has
  match condition with
  | .textStart => place == 0
  | .textEnd => place == text.size
  | .lineStart false => before.isNone || before == some '\n'
  | .lineEnd false => after.isNone || after == some '\n'
  | .lineStart true =>
    before.isNone || before == some '\n' || (before == some '\r' && after != some '\n')
  | .lineEnd true =>
    after.isNone || after == some '\r' || (after == some '\n' && before != some '\r')
  | .boundary u => isWord u before != isWord u after
  | .noBoundary u => isWord u before == isWord u after
  | .wordStart u => !isWord u before && isWord u after
  | .wordEnd u => isWord u before && !isWord u after
  | .wordStartHalf u => !isWord u before
  | .wordEndHalf u => !isWord u after

end Look

namespace Pattern

/-- The places of both lists, each once. -/
def join (a b : List Nat) : List Nat := a ++ b.filter fun n => !a.contains n

/-- `step` applied a number of times, until no place is left. -/
def times (step : List Nat → List Nat) : Nat → List Nat → List Nat
  | 0, places => places
  | n + 1, places => if places.isEmpty then [] else times step n (step places)

/-- The places reached by at most a number of steps: `found` so far, `fresh` the
ones of them that were reached by the last step for the first time. -/
def spread (step : List Nat → List Nat) : Nat → List Nat → List Nat → List Nat
  | 0, found, _ => found
  | n + 1, found, fresh =>
    if fresh.isEmpty then found
    else
      let next := (step fresh).filter fun p => !found.contains p
      spread step n (found ++ next) next

/-- The places where a match ends that begins at one of the given places. -/
def reach (text : Array Char) : Pattern → List Nat → List Nat
  | .empty, places => places
  | .one set, places => places.filterMap fun p =>
      if (text[p]?).any set.has then some (p + 1) else none
  | .look condition, places => places.filter fun p => condition.holds text p
  | .seq first second, places => second.reach text (first.reach text places)
  | .alt left right, places => join (left.reach text places) (right.reach text places)
  | .rep body least most, places =>
    let start := times (body.reach text) least places
    match most with
    | none => spread (body.reach text) (text.size + 1) start start
    | some most => spread (body.reach text) (most - least) start start

/-- Whether a match begins anywhere in the text. -/
def occursIn (p : Pattern) (s : String) : Bool :=
  let text := s.toList.toArray
  !(p.reach text (List.range (text.size + 1))).isEmpty

/-- The rough number of states of an automaton for the pattern. -/
def weight : Pattern → Nat
  | .empty => 1
  | .one set => set.weight
  | .look _ => 1
  | .seq first second => first.weight + second.weight
  | .alt left right => left.weight + right.weight + 1
  | .rep body least none => body.weight * max least 1 + 1
  | .rep body least (some most) => body.weight * most + (most - least) + 1

/-- Patterns above this weight are refused. -/
def weightLimit : Nat := 300000

end Pattern

end LiveRecords

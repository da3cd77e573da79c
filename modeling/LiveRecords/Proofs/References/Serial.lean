import LiveRecords.Proofs.References.Commuting
import LiveRecords.Sample.Shop

/-
  Two writers at once.

  Two plans of calls share a store, and a schedule says whose turn it is (`Duo.after`).
  Nothing locks an entity between the call that looks for it and the one that writes it,
  so what the plans come to need not be what they come to one after the other: both may
  miss a reference and insert it, and one may put back what it has read before the other
  wrote (`Shop.writers_in_turns`).

  But calls that are not in conflict may change places. Where all conflicts are one way,
  the calls of one plan can be moved before all of the other's, one place after another,
  and then the plans come to what they come to in that order, and leave the same tables
  (`writers_serial`).
-/

namespace LiveRecords

variable {α : Type} {owners : Owners} {s s' : Store}

namespace Plan

/-- A plan comes to what is settled by the tables. -/
theorem alone_congr (p : Plan α) (h : s.SameTables s') :
    (p.alone s).1 = (p.alone s').1 ∧ (p.alone s).2.SameTables (p.alone s').2 ∧
      p.calls s = p.calls s' := by
  induction p generalizing s s' with
  | done a => exact ⟨rfl, h, rfl⟩
  | ask call next ih =>
    obtain ⟨hanswer, htables⟩ := call.run_congr h
    obtain ⟨hresult, hafter, hcalls⟩ := ih (call.run s').1 htables
    unfold alone calls
    rw [hanswer]
    exact ⟨hresult, hafter, congrArg _ hcalls⟩

/-- A call that is in conflict with none of a plan may as well be made after it. -/
theorem alone_after {p : Plan α} {call : StoreCall} (wf : s.WellFormed owners)
    (typed : p.Each fun call => owners call.type.name = call.type)
    (owned : owners call.type.name = call.type)
    (free : ∀ other ∈ p.calls (call.run s).2, ¬other.Conflict call) :
    (p.alone s).1 = (p.alone (call.run s).2).1 ∧
      (call.run (p.alone s).2).1 = (call.run s).1 ∧
      (call.run (p.alone s).2).2.SameTables (p.alone (call.run s).2).2 ∧
      p.calls s = p.calls (call.run s).2 := by
  induction p generalizing s with
  | done a => exact ⟨rfl, rfl, .refl _, rfl⟩
  | ask first next ih =>
    obtain ⟨hfirst, htyped⟩ := typed
    unfold calls at free
    have hcommute : StoreCall.Commute first call s :=
      StoreCall.commute wf hfirst owned (free first List.mem_cons_self)
    -- the rest of the plan goes on from a store with the same tables
    obtain ⟨hresult, hafter, hcalls⟩ :=
      (next (first.run s).1).alone_congr hcommute.tables
    have hfree : ∀ other ∈ (next (first.run s).1).calls (call.run (first.run s).2).2,
        ¬other.Conflict call := by
      intro other hin
      refine free other (List.mem_cons_of_mem _ ?_)
      rw [hcommute.first, hcalls]
      exact hin
    obtain ⟨hresult', hanswer, htables, hcalls'⟩ :=
      ih (first.run s).1 (StoreCall.run_wellFormed wf hfirst) (htyped _) hfree
    unfold alone calls
    rw [hcommute.first]
    refine ⟨hresult'.trans hresult.symm, hanswer.trans hcommute.second, ?_, ?_⟩
    · exact htables.trans hafter.symm
    · rw [hcalls', hcalls]

end Plan

/-! ## Schedules -/

/-- One of two. -/
inductive Side where
  | left
  | right
  deriving DecidableEq

/-- The other one. -/
def Side.other : Side → Side
  | .left => .right
  | .right => .left

theorem Side.other_ne (side : Side) : side.other ≠ side := by
  cases side <;> exact Side.noConfusion

/-- Two plans that share a store. -/
structure Duo (α : Type) where
  store : Store
  plans : Side → Plan α

namespace Duo

/-- A turn of one side: the next call of its plan, if there is one. -/
def turn (x : Duo α) (side : Side) : Duo α :=
  match x.plans side with
  | .done _ => x
  | .ask call next =>
    ⟨(call.run x.store).2, fun who => if who = side then next (call.run x.store).1 else x.plans who⟩

/-- The call that a side has next. -/
def next? (x : Duo α) (side : Side) : Option StoreCall :=
  match x.plans side with
  | .done _ => none
  | .ask call _ => some call

/-- What comes of some turns. -/
def after (x : Duo α) : List Side → Duo α
  | [] => x
  | side :: rest => (x.turn side).after rest

/-- The calls that are made in some turns, and who makes them. -/
def calls (x : Duo α) : List Side → List (Side × StoreCall)
  | [] => []
  | side :: rest =>
    match x.next? side with
    | some call => (side, call) :: (x.turn side).calls rest
    | none => (x.turn side).calls rest

/-- Some turns lead to the end of both plans. -/
def Ends (x : Duo α) (schedule : List Side) (results : Side → α) : Prop :=
  ∀ side, (x.after schedule).plans side = .done (results side)

/-- No call of the side that comes first is in conflict with an earlier one of the other
side. -/
def InOrder (first : Side) (calls : List (Side × StoreCall)) : Prop :=
  calls.Pairwise fun earlier later =>
    earlier.1 ≠ first → later.1 = first → ¬later.2.Conflict earlier.2

/-- One plan after the other comes to some results and leaves the tables of a store. -/
structure Serially (x : Duo α) (first : Side) (results : Side → α) (s' : Store) : Prop where
  before : ((x.plans first).alone x.store).1 = results first
  behind : ((x.plans first.other).alone ((x.plans first).alone x.store).2).1 = results first.other
  tables : ((x.plans first.other).alone ((x.plans first).alone x.store).2).2.SameTables s'

/-- All calls of both plans are about types that own their tables. -/
def Owned (owners : Owners) (x : Duo α) : Prop :=
  ∀ side, (x.plans side).Each fun call => owners call.type.name = call.type

variable {x : Duo α} {side first : Side}

theorem turn_done {a : α} (h : x.plans side = .done a) : x.turn side = x := by
  unfold turn
  rw [h]

theorem turn_ask {call : StoreCall} {next : Outcome call.Answer → Plan α}
    (h : x.plans side = .ask call next) :
    x.turn side = ⟨(call.run x.store).2,
      fun who => if who = side then next (call.run x.store).1 else x.plans who⟩ := by
  unfold turn
  rw [h]

theorem calls_done {a : α} (h : x.plans side = .done a) (rest : List Side) :
    x.calls (side :: rest) = x.calls rest := by
  show (match x.next? side with
    | some call => (side, call) :: (x.turn side).calls rest
    | none => (x.turn side).calls rest) = _
  unfold next?
  rw [h, turn_done h]

theorem calls_ask {call : StoreCall} {next : Outcome call.Answer → Plan α}
    (h : x.plans side = .ask call next) (rest : List Side) :
    x.calls (side :: rest) = (side, call) :: (x.turn side).calls rest := by
  show (match x.next? side with
    | some call => (side, call) :: (x.turn side).calls rest
    | none => (x.turn side).calls rest) = _
  unfold next?
  rw [h]

theorem Owned.turn (h : x.Owned owners) : (x.turn side).Owned owners := by
  cases hplan : x.plans side with
  | done a => rwa [turn_done hplan]
  | ask call next =>
    have hside := h side
    rw [hplan] at hside
    rw [turn_ask hplan]
    intro who
    dsimp only
    split
    · exact hside.2 _
    · exact h who

theorem plans_turn {call : StoreCall} {next : Outcome call.Answer → Plan α}
    (h : x.plans side = .ask call next) (who : Side) :
    (x.turn side).plans who = if who = side then next (call.run x.store).1 else x.plans who := by
  rw [turn_ask h]

theorem store_turn {call : StoreCall} {next : Outcome call.Answer → Plan α}
    (h : x.plans side = .ask call next) : (x.turn side).store = (call.run x.store).2 := by
  rw [turn_ask h]

/-! ## Serial runs -/

/-- The side that comes first goes on. -/
theorem Serially.turn_first {results : Side → α} {call : StoreCall}
    {next : Outcome call.Answer → Plan α} (hplan : x.plans first = .ask call next)
    (h : (x.turn first).Serially first results s') : x.Serially first results s' := by
  have hself : (x.turn first).plans first = next (call.run x.store).1 :=
    (plans_turn hplan first).trans (if_pos rfl)
  have hother : (x.turn first).plans first.other = x.plans first.other :=
    (plans_turn hplan first.other).trans (if_neg (Side.other_ne first))
  obtain ⟨hbefore, hbehind, htables⟩ := h
  rw [hself, store_turn hplan] at hbefore
  rw [hself, hother, store_turn hplan] at hbehind htables
  refine ⟨?_, ?_, ?_⟩
  · rw [hplan]
    exact hbefore
  · rw [hplan]
    exact hbehind
  · rw [hplan]
    exact htables

/-- The other side makes a call that may as well be made after all calls of the first. -/
theorem Serially.turn_other {results : Side → α} {call : StoreCall}
    {next : Outcome call.Answer → Plan α} (wf : x.store.WellFormed owners)
    (owned : x.Owned owners) (hplan : x.plans first.other = .ask call next)
    (free : ∀ made ∈ (x.plans first).calls (call.run x.store).2, ¬made.Conflict call)
    (h : (x.turn first.other).Serially first results s') :
    x.Serially first results s' ∧
      (x.plans first).calls x.store = (x.plans first).calls (call.run x.store).2 := by
  have hself : (x.turn first.other).plans first = x.plans first :=
    (plans_turn hplan first).trans (if_neg (Ne.symm (Side.other_ne first)))
  have hother : (x.turn first.other).plans first.other = next (call.run x.store).1 :=
    (plans_turn hplan first.other).trans (if_pos rfl)
  obtain ⟨hbefore, hbehind, htables⟩ := h
  rw [hself, store_turn hplan] at hbefore
  rw [hself, hother, store_turn hplan] at hbehind htables
  have htyped : owners call.type.name = call.type := (hplan ▸ owned first.other).1
  obtain ⟨hresult, hanswer, hsame, hcalls⟩ := Plan.alone_after wf (owned first) htyped free
  -- what is left of the other plan goes on from the same tables
  obtain ⟨hlast, hleft, _⟩ := (next (call.run x.store).1).alone_congr hsame
  refine ⟨⟨hresult.trans hbefore, ?_, ?_⟩, hcalls⟩
  · rw [hplan]
    show ((next (call.run _).1).alone (call.run _).2).1 = _
    rw [hanswer, hlast]
    exact hbehind
  · rw [hplan]
    show ((next (call.run _).1).alone (call.run _).2).2.SameTables _
    rw [hanswer]
    exact hleft.trans htables

/-- Where all conflicts are one way the plans come to what they come to in that order. -/
theorem serially_of_inOrder {results : Side → α} {schedule : List Side}
    (wf : x.store.WellFormed owners) (owned : x.Owned owners) (ends : x.Ends schedule results)
    (inOrder : InOrder first (x.calls schedule)) :
    x.Serially first results (x.after schedule).store ∧
      ∀ call ∈ (x.plans first).calls x.store, (first, call) ∈ x.calls schedule := by
  induction schedule generalizing x with
  | nil =>
    have hfirst : x.plans first = .done (results first) := ends first
    have hother : x.plans first.other = .done (results first.other) := ends first.other
    refine ⟨⟨?_, ?_, ?_⟩, ?_⟩
    · rw [hfirst]
      rfl
    · rw [hfirst, hother]
      rfl
    · rw [hfirst, hother]
      exact .refl _
    · rw [hfirst]
      exact nofun
  | cons side rest ih =>
    have hafter : x.after (side :: rest) = (x.turn side).after rest := rfl
    rw [hafter]
    cases hplan : x.plans side with
    | done a =>
      have hends : x.Ends rest results := by
        intro who
        have hwho := ends who
        rwa [hafter, turn_done hplan] at hwho
      rw [calls_done hplan] at inOrder ⊢
      rw [turn_done hplan]
      exact ih wf owned hends inOrder
    | ask call next =>
      have htyped : owners call.type.name = call.type := (hplan ▸ owned side).1
      have hwf : (x.turn side).store.WellFormed owners := by
        rw [store_turn hplan]
        exact StoreCall.run_wellFormed wf htyped
      rw [calls_ask hplan] at inOrder ⊢
      obtain ⟨hfree, hrest⟩ := List.pairwise_cons.1 inOrder
      obtain ⟨hserial, hcalls⟩ := ih hwf owned.turn ends hrest
      rw [plans_turn hplan, store_turn hplan] at hcalls
      by_cases hside : first = side
      · subst hside
        rw [if_pos rfl] at hcalls
        refine ⟨hserial.turn_first hplan, fun made hmade => ?_⟩
        rw [hplan] at hmade
        rcases List.mem_cons.1 hmade with rfl | hin
        · exact List.mem_cons_self
        · exact List.mem_cons_of_mem _ (hcalls made hin)
      · obtain rfl : first.other = side := by
          cases first <;> cases side <;> first | rfl | exact absurd rfl hside
        rw [if_neg hside] at hcalls
        obtain ⟨hmoved, hsame⟩ := hserial.turn_other wf owned hplan fun made hin =>
          hfree (first, made) (hcalls made hin) (Side.other_ne first) rfl
        refine ⟨hmoved, fun made hmade => ?_⟩
        rw [hsame] at hmade
        exact List.mem_cons_of_mem _ (hcalls made hmade)

end Duo

namespace References

/-! ## Writers -/

/-- A document to be written. -/
structure Writing where
  type : EntityType
  entity : Value
  mode : WriteMode

/-- The work of a writer on a document. -/
def Writing.work (x : Writing) : Job World (Outcome Value) :=
  (Handler.writeReferences .ofStore x.type x.entity x.mode).run

/-- Two writers over one store. -/
def writers (c : Catalog) (s : Store) (writings : Side → Writing) : Duo (Outcome Value) :=
  ⟨s, fun side => plan c (writings side).type (writings side).entity (writings side).mode⟩

/-- Two writers whose calls come in whatever order come to what they come to one after the
other, and leave the same tables, if no call of the one that is to be first is in conflict
with an earlier one of the other. -/
theorem writers_serial (owners : Owners) (writings : Side → Writing) (schedule : List Side)
    (results : Side → Outcome Value) (first : Side) (w : World) (quiet : w.Quiet)
    (wf : w.store.WellFormed owners) (owned : ∀ T ∈ w.catalog.types, owners T.name = T)
    (mem : ∀ side, (writings side).type ∈ w.catalog.types)
    (ends : (writers w.catalog w.store writings).Ends schedule results)
    (inOrder : Duo.InOrder first ((writers w.catalog w.store writings).calls schedule)) :
    ∃ w₁ w₂, (writings first).work.alone w = some (results first, w₁) ∧
      (writings first.other).work.alone w₁ = some (results first.other, w₂) ∧
      w₂.store.SameTables ((writers w.catalog w.store writings).after schedule).store := by
  have howned : (writers w.catalog w.store writings).Owned owners := fun side =>
    (plan_typed (mem side) _ _).mono fun call hcall => owned call.type hcall
  obtain ⟨hserial, _⟩ := Duo.serially_of_inOrder wf howned ends inOrder
  have halone := fun side (now : World) (hquiet : now.Quiet) (hcatalog : now.catalog = w.catalog) =>
    alone_write (mem side) (writings side).entity (writings side).mode hquiet hcatalog
  have hfirst := halone first w quiet rfl
  have hsecond := halone first.other
    { w with store := (((writers w.catalog w.store writings).plans first).alone w.store).2 }
    ⟨quiet.latency, quiet.unused⟩ rfl
  exact ⟨_, _, hfirst.trans (congrArg (fun result => some (result, _)) hserial.before),
    hsecond.trans (congrArg (fun result => some (result, _)) hserial.behind), hserial.tables⟩

end References

namespace Shop

open References

/-- Two products of a vendor who is not stored. -/
def newcomer : Side → Writing
  | .left => ⟨product, .object [("key", .text "a"),
      ("vendor", .object [("id", .int 7), ("name", .text "Acme")])], .insert⟩
  | .right => ⟨product, .object [("key", .text "b"),
      ("vendor", .object [("id", .int 7), ("name", .text "Acme")])], .insert⟩

/-- A shop that knows one customer. -/
def known : World := stocked customer (.object [("id", .int 1), ("name", .text "Old")])

/-- Two orders of the customer, one with a new name and one with an address for e-mail. -/
def revision : Side → Writing
  | .left => ⟨order, .object [("customer", .object [("id", .int 1), ("name", .text "New")]),
      ("key", .text "a")], .insert⟩
  | .right => ⟨order, .object [("customer", .object [("email", .text "x"), ("id", .int 1)]),
      ("key", .text "b")], .insert⟩

/-- By turns. -/
def inTurns : List Side := [.left, .right, .left, .right, .left, .right]

/-- It is not so that two writers, whatever their turns, come to what they come to one after
the other. Both miss the vendor and one of them fails, since the other has inserted it; and
the new name of the customer is overwritten by the name that was read before. -/
theorem writers_in_turns :
    (∃ results, (writers catalog {} newcomer).Ends inTurns results ∧ ∀ first,
      ¬(writers catalog {} newcomer).Serially first results
        ((writers catalog {} newcomer).after inTurns).store) ∧
    ∃ results, (writers catalog known.store revision).Ends inTurns results ∧ ∀ first,
      ¬(writers catalog known.store revision).Serially first results
        ((writers catalog known.store revision).after inTurns).store := by
  constructor
  · refine ⟨fun
      | .left => .ok (newcomer .left).entity
      | .right => .error (.inContext "resolving reference Product.vendor"
          (.duplicateKey "Vendor" "7")), ?_, ?_⟩
    · intro side
      cases side <;> rfl
    · intro first hserial
      -- in either order both succeed
      cases first with
      | left =>
        have hright : (.ok (newcomer .right).entity : Outcome Value) = .error _ := hserial.behind
        cases hright
      | right =>
        have hright : (.ok (newcomer .right).entity : Outcome Value) = .error _ := hserial.before
        cases hright
  · refine ⟨fun side => .ok (revision side).entity, ?_, ?_⟩
    · intro side
      cases side <;> rfl
    · intro first hserial
      have hrow := congrArg (fun t : Table => (t.rows.get? "1").map fun row => row.value.get "name")
        (hserial.tables "Customer")
      -- in either order the new name is kept
      cases first with
      | left =>
        have hname : some (Value.text "New") = some (.text "Old") := hrow
        exact absurd (Value.text.inj (Option.some.inj hname)) (by decide)
      | right =>
        have hname : some (Value.text "New") = some (.text "Old") := hrow
        exact absurd (Value.text.inj (Option.some.inj hname)) (by decide)

/-- The customer is renamed before the other order looks for him, so the two orders come to
what they come to one after the other, though each of them writes the customer. -/
theorem revised_serial :
    ∃ w₁ w₂, (revision .left).work.alone known = some (.ok (revision .left).entity, w₁) ∧
      (revision .right).work.alone w₁ = some (.ok (revision .right).entity, w₂) ∧
      w₂.store.SameTables ((writers catalog known.store revision).after
        [.left, .left, .right, .right, .left, .right]).store := by
  have hwf : known.store.WellFormed Shop.owners :=
    (Store.commits_afterAll (fun w hw => by cases List.mem_singleton.1 hw; rfl)
      (.empty Shop.owners)).wellFormed (.empty Shop.owners)
  have hmem : ∀ side, (revision side).type ∈ catalog.types := fun side => by
    cases side <;> decide
  have hends : (writers catalog known.store revision).Ends
      [.left, .left, .right, .right, .left, .right] fun side => .ok (revision side).entity := by
    intro side
    cases side <;> rfl
  -- after the customer was written the first order writes to another table
  have hapart : ((writers catalog known.store revision).calls
      [.left, .left, .right, .right, .left, .right]).Pairwise fun earlier later =>
        earlier.1 ≠ .left → later.1 = .left → later.2.type.name ≠ earlier.2.type.name := by
    decide +kernel
  exact writers_serial Shop.owners revision [.left, .left, .right, .right, .left, .right]
    (fun side => .ok (revision side).entity) .left known ⟨rfl, rfl⟩ hwf (by decide) hmem hends
    (hapart.imp fun h hearlier hlater => StoreCall.not_conflict_of_ne (h hearlier hlater))

end Shop

end LiveRecords

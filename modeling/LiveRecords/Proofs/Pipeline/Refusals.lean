import LiveRecords.Proofs.Pipeline.Backend
import LiveRecords.Sample.Shop

/-
  Writes that fail.

  A write comes to its table only after its document has been checked, the latency has
  passed and the table has been declared. None of that touches the store, whether it
  succeeds or not, and the change of the store itself is made whole or not at all. So a
  write that fails adds nothing to what others do meanwhile
  (`Handler.failed_write_changes_nothing`): the store, which is all rows with their
  versions, all tombstones and the journal of all events, stays as it was.
-/

namespace LiveRecords

open Job (Ensures Goes Terms)
open Relation (ReflTransGen)

/-- A request to write an entity or to delete one. -/
def Request.Writes : Request → Prop
  | .insert .. | .update .. | .upsert .. | .delete .. => True
  | _ => False

/-- Others change the store step by step as `others` says. What they do to the rest of the
world is free: they may let time pass, and have the next declarations refused. -/
def amid (others : Store → Store → Prop) : Terms World where
  rely w w' := ReflTransGen others w.store w'.store
  guarantee _ _ := True
  rely_refl _ := .refl
  rely_trans := ReflTransGen.trans

/-- Work that fails has added nothing to what others did to the store. -/
def Work.FailsClean {α : Type} (others : Store → Store → Prop) (work : Work α) (w : World) : Prop :=
  Ensures (amid others)
    (fun result w' => ∀ e, result = .error e → ReflTransGen others w.store w'.store) work.run w

namespace Backend

open Work (FailsClean)

variable {others : Store → Store → Prop} {w : World}

/-- Getting a table ready adds nothing, whether it fails or not. -/
theorem ensures_prepare_amid (type : EntityType) (w : World) :
    Ensures (amid others) (fun _ w' => ReflTransGen others w.store w'.store)
      (prepare type).run w := by
  refine (each_prepare type).ensures w fun w₁ w₂ hkeeps => ⟨?_, trivial⟩
  show ReflTransGen others w₁.store w₂.store
  rw [hkeeps.store]

/-- What follows after a table was got ready fails clean if it does so by itself. -/
theorem failsClean_after_prepare {α : Type} {rest : Work α} (type : EntityType)
    (h : ∀ w', FailsClean others rest w') :
    FailsClean others (do prepare type; rest) w := by
  refine Work.ensures_bind (ensures_prepare_amid type w) ?_ ?_
  · intro _ w₁ hw₁
    refine (h w₁).mono fun result w' hrest e he => ?_
    exact ReflTransGen.trans hw₁ (hrest e he)
  · intro e w₁ hw₁ w' hw' _ _
    exact ReflTransGen.trans hw₁ hw'

theorem failsClean_write (type : EntityType) (entity : Value) (change : Store → Outcome Store)
    (w : World) : FailsClean others (write type entity change) w := by
  unfold write
  cases type.requireKey entity with
  | error e => exact fun w' hw' _ _ => hw'
  | ok key =>
    exact failsClean_after_prepare type fun w' =>
      Work.ensures_attempt_failing (fun _ _ => trivial) _ w'

theorem failsClean_delete (type : EntityType) (key : Value) (w : World) :
    FailsClean others (delete type key) w := by
  refine failsClean_after_prepare type fun w' => ?_
  -- the deletion itself does not fail
  refine (Work.ensures_act fun _ _ => trivial).mono fun result w'' hend e he => ?_
  obtain ⟨_, _, _, hok⟩ := hend
  rw [hok] at he
  cases he

end Backend

theorem Handler.failsClean_ofStore {r : Request} (writes : r.Writes)
    (others : Store → Store → Prop) (w : World) : Work.FailsClean others (ofStore r) w := by
  cases r with
  | insert type entity =>
    exact Backend.failsClean_write type entity (fun s => s.insert type entity) w
  | update type entity expected =>
    exact Backend.failsClean_write type entity (fun s => s.update type entity expected) w
  | upsert type entity =>
    exact Backend.failsClean_write type entity (fun s => s.upsert type entity) w
  | delete type key => exact Backend.failsClean_delete type key w
  | _ => cases writes

namespace Shop

/-- A lamp under the key of all lamps. -/
def lamp : Value := .object [("key", .text "lamp"), ("name", .text "Lamp")]

/-- The lamp is stored, tables are declared with every request, and some declarations will
be refused. -/
def unready (refusals : Nat) : World where
  catalog := catalog
  store := ⟨[("Product", { rows := [("lamp", ⟨lamp, 1⟩)] })], #[.created "Product" lamp 1]⟩
  schemaUse := .direct
  schema := { refusals }

/-- How the insertion of the lamp fails if some declarations will be refused. -/
def LampFails (refusals : Nat) (e : Failure) (w' : World) : Prop :=
  Goes (fun w w' => w'.store = w.store) (Handler.ofStore (.insert product lamp)).run
    (unready refusals) (.done (.error e)) w'

theorem lampFails_of_alone {refusals : Nat} {e : Failure} {w' : World}
    (h : (Handler.ofStore (.insert product lamp)).run.alone (unready refusals) =
      some (.error e, w')) : LampFails refusals e w' := by
  unfold LampFails
  exact Job.goes_of_alone h

end Shop

end LiveRecords

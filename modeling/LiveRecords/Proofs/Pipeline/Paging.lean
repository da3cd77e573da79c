import LiveRecords.Proofs.Pipeline.Transparency
import LiveRecords.Proofs.Query.Window

/-
  Windows of query results in a pipeline.

  A query asks for a window of the rows that it is about. Which rows these are does not depend
  on the window, for a query for whole entities or for a projection, of any entity type: a
  handler shows windows of one list (`Handler.Windows`). The store does, and the layers of a
  pipeline keep it. With scheduling the rows of the window come through a pipe, so what a
  caller has in the end is a stream that gives them to a reader (`Config.pages_assemble`).
-/

namespace LiveRecords

open Relation (ReflTransGen)
open World (Serves)
open Job (Finishes)

namespace Query

/-- The rows in a window. -/
def window (skip limit : Option Nat) (rows : List Value) : List Value :=
  (rows.drop (skip.getD 0)).take (limit.getD rows.length)

variable {skip limit : Option Nat} {rows : List Value}

/-- The first row of a window that is not empty by its limit does not depend on the limit. -/
theorem head?_window (limited : limit ≠ some 0) :
    (window skip limit rows).head? = (rows.drop (skip.getD 0)).head? := by
  unfold window
  rw [List.head?_take]
  split
  · next hzero =>
    -- without a limit, nothing is left out unless there are no rows
    cases limit with
    | some n => exact absurd (congrArg some hzero) limited
    | none =>
      rw [List.eq_nil_of_length_eq_zero hzero, List.drop_nil]
      rfl
  · rfl

/-- What a query for a window comes to, compiled, is a window of all rows that match. -/
theorem Compiled.execute_within (run : Compiled) (skip limit : Option Nat)
    (values : List Value) : (run.within skip limit).execute values =
      window skip limit ((run.within none none).execute values) := by
  unfold execute window
  rw [select_within skip limit rfl, select_within none none rfl, Option.getD_none, Option.getD_none,
    List.drop_zero, List.take_length, List.length_map, ← List.map_drop, ← List.map_take]
  rfl

theorem validate_within (q : Query) (skip limit : Option Nat) :
    ({ q with skip, limit } : Query).validate = q.validate := by
  have hcompile : (discard ({ q with skip, limit } : Query).compile : Outcome Unit) =
      discard q.compile := by
    rw [compile_map_within]
    cases q.compile <;> rfl
  unfold validate
  rw [hcompile]
  rfl

/-- What is prepared of a query for one window is prepared of it for any other. -/
theorem prepare_within (q : Query) (skip limit : Option Nat) :
    ({ q with skip, limit } : Query).prepare = q.prepare.map (·.within skip limit) := by
  unfold prepare
  rw [validate_within, compile_map_within]
  cases q.validate <;> rfl

theorem addProperties_within (q : Query) (ps : List PropertyPath) (skip limit : Option Nat) :
    ({ q with skip, limit } : Query).addProperties ps =
      { q.addProperties ps with skip, limit } := by
  induction ps generalizing q with
  | nil => rfl
  | cons p ps ih =>
    have hp : ({ q with skip, limit } : Query).addProperty p =
        { q.addProperty p with skip, limit } := by
      unfold addProperty
      dsimp only
      split <;> rfl
    show (({ q with skip, limit } : Query).addProperty p).addProperties ps = _
    rw [hp]
    exact ih (q.addProperty p)

/-- What a projection must contain does not depend on the window. -/
theorem withMandatory_within (c : Catalog) (q : Query) (skip limit : Option Nat) :
    ({ q with skip, limit } : Query).withMandatory c = { q.withMandatory c with skip, limit } := by
  unfold withMandatory
  dsimp only
  split
  · rfl
  · exact addProperties_within { q with properties := [] } _ skip limit

end Query

/-! ## Handlers -/

namespace Handler

/-- What a query for a window is answered with where these rows match. -/
def shows (skip limit : Option Nat) (found : Outcome (List Value) × World) :
    Outcome Rows × World :=
  (found.1.map fun rows => .listed (Query.window skip limit rows), found.2)

/-- While one caller at a time uses it, a handler answers a query with a window of the rows that
match, or refuses it, whatever window that is. -/
def Windows (h : Handler) : Prop :=
  ∀ q : Query, ∃ found : World → Outcome (List Value) × World,
    ∀ skip limit (w : World), w.Drained → w.AtRest →
      (h (.query { q with skip, limit })).run.Finishes Serves
        ((Request.query { q with skip, limit }).Met (shows skip limit (found w.essence)) w) w

variable {next h : Handler}

/-- The store answers with a window of the rows that match, once their table is declared. -/
theorem windows_ofStore : Windows ofStore := by
  intro q
  obtain ⟨declared, hdeclared⟩ := Backend.keeping_prepare q.entity
  cases hprepare : q.prepare with
  | error e =>
    refine ⟨fun v => (.error e.rootCause, v), fun skip limit w drained rest => ?_⟩
    show (Backend.query { q with skip, limit }).run.Finishes _ _ w
    unfold Backend.query
    rw [Query.prepare_within, hprepare]
    intro w' hw'
    have hidles := drained.idles hw'
    exact ⟨hidles.toUnmoved, hidles.atRest rest, trivial, rfl, hidles.essence⟩
  | ok run =>
    let found (v : World) : Outcome (List Value) × World :=
      ((Outcome.rootCause (declared v).1).map fun _ =>
        (declared v).2.store.query q (run.within none none), (declared v).2)
    refine ⟨found, fun skip limit w drained rest => ?_⟩
    show (Backend.query { q with skip, limit }).run.Finishes _ _ w
    unfold Backend.query
    rw [Query.prepare_within, hprepare]
    show (Backend.prepare q.entity >>= fun _ => (do
      return .listed (← Work.ofJob (.read fun w =>
        w.store.query { q with skip, limit } (run.within skip limit))) : Work Rows)).run.Finishes
      _ _ w
    have hfound {result : Outcome Unit} {v : World} (h : (result, v) = declared w.essence) :
        found w.essence =
          (result.rootCause.map fun _ => v.store.query q (run.within none none), v) := by
      show ((Outcome.rootCause (declared w.essence).1).map _, _) = _
      rw [← h]
    refine Work.finishes_bind (hdeclared w drained rest) (fun _ w₁ hw₁ w₂ hw₂ w₃ hw₃ => ?_)
      fun e w₁ hw₁ w₂ hw₂ => ?_
    · obtain ⟨hunmoved, hrest, hdeclared⟩ := hw₁
      have hdrained := hunmoved.drained drained
      have hidles := hdrained.idles (hw₂.trans hw₃)
      have hstore : w₂.store = w₁.essence.store :=
        (congrArg World.store (hdrained.idles hw₂).essence : w₂.essence.store = _)
      rw [hfound hdeclared]
      refine ⟨hunmoved.trans hidles.toUnmoved, hidles.atRest hrest, ⟨_, rfl⟩, ?_, hidles.essence⟩
      show Except.ok (Rows.listed (w₂.store.query _ _)) = .ok (.listed _)
      rw [hstore]
      exact congrArg (fun rows => Except.ok (Rows.listed rows))
        (Query.Compiled.execute_within run skip limit _)
    · obtain ⟨hunmoved, hrest, hdeclared⟩ := hw₁
      have hidles := (hunmoved.drained drained).idles hw₂
      rw [hfound hdeclared]
      exact ⟨hunmoved.trans hidles.toUnmoved, hidles.atRest hrest, trivial, rfl, hidles.essence⟩

namespace Windows

/-- A layer that passes on queries changes nothing. -/
theorem passed (windows : next.Windows) (h : Handler)
    (passes : ∀ q, h (.query q) = next (.query q)) : h.Windows := by
  intro q
  obtain ⟨found, hfound⟩ := windows q
  refine ⟨found, fun skip limit w drained rest => ?_⟩
  rw [passes]
  exact hfound skip limit w drained rest

/-- A wider projection is shown through the same window. -/
theorem mandatory (windows : next.Windows) : (mandatory next).Windows := by
  intro q
  choose found hfound using windows
  refine ⟨fun v => found (q.withMandatory v.catalog) v, fun skip limit w drained rest w₁ hw₁ => ?_⟩
  have hidles := drained.idles hw₁
  have hcatalog : w₁.catalog = w.essence.catalog :=
    (congrArg World.catalog hidles.essence : w₁.essence.catalog = _)
  show (next (.query (({ q with skip, limit } : Query).withMandatory w₁.catalog))).run.Finishes
    _ _ w₁
  rw [Query.withMandatory_within, hcatalog]
  refine (hfound (q.withMandatory w.essence.catalog) skip limit w₁
    (hidles.toUnmoved.drained drained) (hidles.atRest rest)).mono fun result v hv => ?_
  rw [hidles.essence] at hv
  have hlisted : (Request.query { q with skip, limit }).Listed result := by
    cases result with
    | ok rows => exact hv.listed
    | error e => trivial
  exact ⟨hidles.toUnmoved.trans hv.unmoved, hv.atRest, hlisted, hv.answer, hv.essence⟩

end Windows

/-- Whatever quiet layers stand above the store, a query is answered with a window. -/
theorem windows_ofLayers {layers : List Layer} (quiet : ∀ layer ∈ layers, layer.Quiet) :
    (ofLayers layers).Windows := by
  induction layers with
  | nil => exact windows_ofStore
  | cons layer below ih =>
    have hbelow := ih fun l hl => quiet l (List.mem_cons_of_mem _ hl)
    have hlayer := quiet layer List.mem_cons_self
    unfold ofLayers
    cases layer with
    | live interval => exact hbelow.passed _ fun _ => rfl
    | mandatory => exact hbelow.mandatory
    | references => exact hbelow.passed _ fun _ => rfl
    | _ => exact hlayer.elim

/-! ## Streams -/

/-- What a query is answered with where a reader expects these rows, or a failure. -/
def Streams (expected : Outcome (List Value)) : Outcome Rows → World → Prop
  | .ok stream, w => ∃ rows, expected = .ok rows ∧
      ∃ rest ended, Rows.Reliable rest ended ∧ rest rows stream w
  | .error e, _ => expected = .error e.rootCause

/-- With these gates, a handler answers one caller at a time with a stream of the rows in a
window, or refuses the query whatever window it asks for. -/
def Pages (gates : List Gate) (h : Handler) : Prop :=
  ∀ q : Query, ∃ found : World → Outcome (List Value), ∀ skip limit (w : World),
    w.Drained → w.AtRest → w.gates = gates →
      (h (.query { q with skip, limit })).run.Finishes Serves
        (Streams ((found w.essence).map (Query.window skip limit))) w

theorem rows_of_shows {skip limit : Option Nat} {found : Outcome (List Value) × World}
    {rows : List Value} (h : Except.ok (Rows.listed rows) = (shows skip limit found).1) :
    found.1.map (Query.window skip limit) = .ok rows := by
  obtain ⟨result, v⟩ := found
  cases result with
  | ok all => exact congrArg Except.ok (Rows.listed.inj (Except.ok.inj h)).symm
  | error e => cases h

theorem failure_of_shows {skip limit : Option Nat} {found : Outcome (List Value) × World}
    {e : Failure} (h : Except.error e = (shows skip limit found).1) :
    found.1.map (Query.window skip limit) = .error e := by
  obtain ⟨result, v⟩ := found
  cases result with
  | ok all => cases h
  | error e' => exact congrArg Except.error (Except.error.inj h).symm

/-- The rows of a list are a stream. -/
theorem Windows.pages (windows : h.Windows) (gates : List Gate) : h.Pages gates := by
  intro q
  obtain ⟨found, hfound⟩ := windows q
  refine ⟨fun v => (found v).1, fun skip limit w drained rest _ => ?_⟩
  refine (hfound skip limit w drained rest).mono fun result v hv => ?_
  cases result with
  | ok stream =>
    obtain ⟨rows, rfl⟩ := hv.listed
    exact ⟨rows, rows_of_shows hv.answer, _, _,
      Rows.reliable_listed v (hv.unmoved.drained drained), rfl, .refl v⟩
  | error e => exact failure_of_shows hv.answer

/-- Behind a gate that is free, the rows come through a pipe. -/
theorem Windows.pages_scheduling (windows : next.Windows) {gates : List Gate} {gate : Nat}
    (free : ∀ g, gates[gate]? = some g → g.Free) (timeout : Option Nat) (buffer : Nat) :
    Pages gates (Scheduling.handle gate timeout buffer next) := by
  intro q
  obtain ⟨found, hfound⟩ := windows q
  refine ⟨fun v => (found v).1, fun skip limit w drained rest hgates => ?_⟩
  rw [← hgates] at free
  have hbelow (w₁ : World) (hw₁ : (w.entered gate).Idles w₁) :
      (next (.query { q with skip, limit })).run.Finishes Serves
        ((Request.query { q with skip, limit }).Met (shows skip limit (found w.essence))
          (w.entered gate)) w₁ := by
    have hentered : (w.entered gate).Drained := drained
    have hnext := hfound skip limit w₁ (hw₁.toUnmoved.drained hentered) (hw₁.atRest rest)
    rw [hw₁.essence] at hnext
    exact hnext.mono fun result v hv => hv.of_idles hw₁
  refine (Scheduling.finishes_query hbelow free drained buffer).mono fun result v hv => ?_
  cases result with
  | ok stream =>
    obtain ⟨rows, u, hmet, rfl, p, hp⟩ := hv
    have hback : ((u.entered gate).release gate).gates = u.gates :=
      World.entered_release fun g hg => free g (hmet.unmoved.gates ▸ hg)
    exact ⟨rows, rows_of_shows hmet.answer, _, _,
      Rows.reliable_piped (hmet.unmoved.drained drained) hback, rfl, p, hp⟩
  | error e =>
    have hmet : (Request.query { q with skip, limit }).Met _ w (.error e) v := hv
    exact failure_of_shows hmet.answer

end Handler

/-- The pipeline of any configuration answers queries with streams of the rows in a window. -/
theorem Config.pages_assemble {c : Config} {w w' : World} {layers : List Layer} {hasRuntime : Bool}
    (assembled : w.assemble c [] hasRuntime = .ok (layers, w')) :
    (Handler.ofLayers layers).Pages w'.gates := by
  obtain ⟨-, below, hquiet, rfl | ⟨gate, timeout, buffer, rfl, hfree⟩⟩ := assemble_layers assembled
  · exact (Handler.windows_ofLayers hquiet).pages _
  · exact (Handler.windows_ofLayers hquiet).pages_scheduling hfree timeout buffer

end LiveRecords

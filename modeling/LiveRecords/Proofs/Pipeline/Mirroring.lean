import LiveRecords.Proofs.Pipeline.Draining

/-
  Layers that answer as the store does.

  What the store answers to a request about entities that refer to no others, and what
  becomes of it, is settled by its essence (`Handler.steady_ofStore`). A handler mirrors the
  store if it comes to the same, up to the contexts of failures, and leaves gates and pipes
  alone. The live query layer, the mandatory property layer and the reference layer keep that
  (`Handler.mirrors_ofLayers`), and so does a scheduling layer with every request but a query
  (`Scheduling.finishes_run`).
-/

namespace LiveRecords

open Relation (ReflTransGen)
open World (Serves)
open Job (Finishes)

/-- An outcome with its root cause in place of a failure. -/
def Outcome.rootCause {α : Type} : Outcome α → Outcome α
  | .ok a => .ok a
  | .error e => .error e.rootCause

theorem Outcome.rootCause_inContext {α : Type} (context : String) (o : Outcome α) :
    rootCause (o.mapError (.inContext context)) = o.rootCause := by
  cases o <;> rfl

namespace Request

/-- What a request that was made in one world is answered with, and the world then: as
expected, and with gates and pipes as they were. -/
structure Met (r : Request) (expected : Outcome r.Answer × World) (w : World)
    (result : Outcome r.Answer) (w' : World) : Prop where
  unmoved : w.Unmoved w'
  atRest : w'.AtRest
  listed : r.Listed result
  answer : result.rootCause = expected.1
  essence : w'.essence = expected.2

variable {r : Request} {expected : Outcome r.Answer × World} {w w' w'' : World}
  {result : Outcome r.Answer}

namespace Met

theorem of_idles (h : r.Met expected w' result w'') (idles : w.Idles w') :
    r.Met expected w result w'' :=
  { h with unmoved := idles.toUnmoved.trans h.unmoved }

theorem later (h : r.Met expected w result w') (drained : w.Drained)
    (serves : ReflTransGen Serves w' w'') : r.Met expected w result w'' :=
  have hidles := (h.unmoved.drained drained).idles serves
  { unmoved := h.unmoved.trans hidles.toUnmoved
    atRest := hidles.atRest h.atRest
    listed := h.listed
    answer := h.answer
    essence := hidles.essence.trans h.essence }

theorem inContext (h : r.Met expected w result w') (context : String) :
    r.Met expected w (result.mapError (.inContext context)) w' where
  unmoved := h.unmoved
  atRest := h.atRest
  listed := by
    cases result with
    | ok a => exact h.listed
    | error e => cases r <;> trivial
  answer := (Outcome.rootCause_inContext context result).trans h.answer
  essence := h.essence

end Met

end Request

namespace Handler

/-- What is answered to requests about entities that refer to no others, and what becomes of
the essence of the world. -/
abbrev Answers := (r : Request) → r.Plain → World → Outcome r.Answer × World

/-- While one caller at a time uses it, a handler answers as expected. -/
def Mirrors (answers : Answers) (h : Handler) : Prop :=
  ∀ (r : Request) (plain : r.Plain) (w : World), w.Drained → w.AtRest →
    (h r).run.Finishes Serves (r.Met (answers r plain w.essence) w) w

/-- The store answers in one way. -/
theorem exists_mirrors_ofStore : ∃ answers, Mirrors answers ofStore := by
  choose f hf using steady_ofStore
  refine ⟨fun r plain v => ((f r plain v).1.rootCause, (f r plain v).2), ?_⟩
  intro r plain w drained rest
  refine (hf r plain w drained rest).mono fun result w' h => ?_
  obtain ⟨hunmoved, ⟨hrest, hlisted⟩, hf'⟩ := h
  exact ⟨hunmoved, hrest, hlisted, congrArg (fun x => x.1.rootCause) hf', congrArg Prod.snd hf'⟩

variable {answers : Answers} {next : Handler}

namespace Mirrors

/-- A request that is made a little later is answered in the same way. -/
theorem after (h : Mirrors answers next) {r : Request} (plain : r.Plain) {w w' : World}
    (drained : w.Drained) (rest : w.AtRest) (idles : w.Idles w') :
    (next r).run.Finishes Serves (r.Met (answers r plain w.essence) w) w' := by
  have hnext := h r plain w' (idles.toUnmoved.drained drained) (idles.atRest rest)
  rw [idles.essence] at hnext
  exact hnext.mono fun result v hv => hv.of_idles idles

/-- Nothing is added to what is not a live query. -/
theorem live (h : Mirrors answers next) (interval : Nat) (below : List Layer) :
    Mirrors answers (live interval below next) := by
  intro r plain
  cases r with
  | live q => exact plain.elim
  | _ => exact h _ plain

/-- Nothing is added to a query that asks for whole entities. -/
theorem mandatory (h : Mirrors answers next) : Mirrors answers (mandatory next) := by
  have hwhole {q : Query} (whole : q.properties = []) (c : Catalog) : q.withMandatory c = q := by
    unfold Query.withMandatory
    rw [whole]
    rfl
  intro r plain
  cases r with
  | query q =>
    intro w drained rest w₁ hw₁
    show (next (.query (q.withMandatory w₁.catalog))).run.Finishes _ _ w₁
    rw [hwhole plain.2]
    exact h.after plain drained rest (drained.idles hw₁)
  | snapshot q =>
    intro w drained rest w₁ hw₁
    show (next (.snapshot (q.withMandatory w₁.catalog))).run.Finishes _ _ w₁
    rw [hwhole plain.2]
    exact h.after plain drained rest (drained.idles hw₁)
  | live q => exact plain.elim
  | _ => exact h _ plain

/-- A write is answered as the store answers it, if its key is checked before. -/
theorem checked (h : Mirrors answers next) (store : Mirrors answers ofStore) {r : Request}
    (plain : r.Plain) {type : EntityType} {entity : Value}
    (refused : ∀ e, type.requireKey entity = .error e → (ofStore r).run = .done (.error e))
    (context : String) {w : World} (drained : w.Drained) (rest : w.AtRest) :
    ((do
      let _ ← Work.ofJob (.read World.catalog)
      let _ ← (type.requireKey entity : Outcome Value)
      next r : Work r.Answer).inContext context).run.Finishes Serves
        (r.Met (answers r plain w.essence) w) w := by
  intro w₁ hw₁
  have hidles := drained.idles hw₁
  have hdrained := hidles.toUnmoved.drained drained
  cases hkey : type.requireKey entity with
  | error e =>
    -- the store refuses such a write as well, before it does anything else
    have hmet := store.after plain drained rest hidles
    rw [refused e hkey] at hmet
    intro w₂ hw₂
    exact (hmet w₂ hw₂).inContext context
  | ok key =>
    refine (h.after plain drained rest hidles).bind fun result w₂ hw₂ w₃ hw₃ => ?_
    exact (hw₂.later drained hw₃).inContext context

/-- Entities that refer to no others are written at once. -/
theorem references (h : Mirrors answers next) (store : Mirrors answers ofStore) :
    Mirrors answers (references next) := by
  have hwrite (type : EntityType) (plain : type.Plain) (entity : Value) (mode : WriteMode) :
      writeReferences next type entity mode = (do
        let _ ← Work.ofJob (.read World.catalog)
        let _ ← (type.requireKey entity : Outcome Value)
        References.writeEntity (referenceStore next) type entity mode) := by
    unfold writeReferences References.write
    refine congrArg (Work.ofJob (.read World.catalog) >>= ·) (funext fun c => ?_)
    have hnone : (type.properties.all fun p => (c.referenced? p).isNone) = true :=
      List.all_eq_true.2 fun p hp => by rw [plain.referenced?_eq_none c p hp]; rfl
    simp only [hnone, if_true]
  have hrefused (type : EntityType) (entity : Value) (change : Store → Outcome Store)
      (e : Failure) (he : type.requireKey entity = .error e) :
      (Backend.write type entity change).run = .done (.error e) := by
    unfold Backend.write
    rw [he]
    rfl
  intro r plain w drained rest
  cases r with
  | insert type entity =>
    show (Work.inContext s!"insert {type.name}"
      (writeReferences next type entity .insert)).run.Finishes _ _ w
    rw [hwrite type plain]
    exact h.checked store (r := .insert type entity) plain
      (hrefused type entity fun s => s.insert type entity) _ drained rest
  | update type entity expected =>
    show (Work.inContext s!"update {type.name}"
      (writeReferences next type entity (.update expected))).run.Finishes _ _ w
    rw [hwrite type plain]
    exact h.checked store (r := .update type entity expected) plain
      (hrefused type entity fun s => s.update type entity expected) _ drained rest
  | upsert type entity =>
    show (Work.inContext s!"upsert {type.name}"
      (writeReferences next type entity .upsert)).run.Finishes _ _ w
    rw [hwrite type plain]
    exact h.checked store (r := .upsert type entity) plain
      (hrefused type entity fun s => s.upsert type entity) _ drained rest
  | _ => exact h _ plain w drained rest

end Mirrors

end Handler

/-- A layer that passes on every request but a live query without adding to it, where
nothing refers to other entities. -/
def Layer.Quiet : Layer → Prop
  | .live _ | .mandatory | .references => True
  | _ => False

/-- Whatever quiet layers stand above the store, it is answered as the store answers. -/
theorem Handler.mirrors_ofLayers {answers : Answers} (store : Mirrors answers ofStore)
    {layers : List Layer} (quiet : ∀ layer ∈ layers, layer.Quiet) :
    Mirrors answers (ofLayers layers) := by
  induction layers with
  | nil => exact store
  | cons layer below ih =>
    have hbelow := ih fun l hl => quiet l (List.mem_cons_of_mem _ hl)
    have hlayer := quiet layer List.mem_cons_self
    unfold ofLayers
    cases layer with
    | live interval => exact hbelow.live interval below
    | mandatory => exact hbelow.mandatory
    | references => exact hbelow.references store
    | _ => exact hlayer.elim

/-! ## Scheduling -/

namespace World

variable {w : World} {gate : Nat}

/-- Whoever has entered a gate that was free and leaves it, leaves it as it was. -/
theorem entered_release (free : ∀ g, w.gates[gate]? = some g → g.Free) :
    ((w.entered gate).release gate).gates = w.gates := by
  show (w.gates.modify gate fun g => g.enter.2).modify gate Gate.release = w.gates
  rw [List.modify_modify_eq]
  refine List.ext_getElem? fun i => ?_
  by_cases hi : gate = i
  · subst hi
    rw [List.getElem?_modify_eq]
    cases hg : w.gates[gate]? with
    | none => rfl
    | some g =>
      show some g.enter.2.release = some g
      rw [(free g hg).enter, (free g hg).release]
  · exact List.getElem?_modify_ne _ _ hi

theorem entered_of_none (none : w.gates[gate]? = none) : w.entered gate = w := by
  unfold entered onGate
  rw [List.modify_eq_self (List.getElem?_eq_none_iff.1 none)]

theorem Idles.entered {w' : World} (h : w.Idles w') (gate : Nat) :
    (w.entered gate).Idles (w'.entered gate) where
  gates := congrArg (fun gates => List.modify gates gate fun g : Gate => g.enter.2) h.gates
  pipes := h.pipes
  essence := h.essence

end World

theorem Request.Met.released {r : Request} {expected : Outcome r.Answer × World} {w w' : World}
    {gate : Nat} {result : Outcome r.Answer} (h : r.Met expected (w.entered gate) result w')
    (free : ∀ g, w.gates[gate]? = some g → g.Free) :
    r.Met expected w result (w'.release gate) where
  unmoved := {
    gates := (congrArg (List.modify · gate Gate.release) h.unmoved.gates).trans
      (World.entered_release free)
    pipes := h.unmoved.pipes }
  atRest := h.atRest
  listed := h.listed
  answer := h.answer
  essence := h.essence

namespace Scheduling

variable {w : World} {gate : Nat} {timeout : Option Nat}

/-- A gate that is free is entered at once. -/
theorem finishes_enter (drained : w.Drained) (free : ∀ g, w.gates[gate]? = some g → g.Free) :
    (enter gate).run.Finishes Serves
      (fun result w' => result = .ok none ∧ (w.entered gate).Idles w') w := by
  intro w₁ hw₁
  have hidles := drained.idles hw₁
  have hdrained : (w₁.entered gate).Drained := hidles.toUnmoved.drained drained
  intro w₂ hw₂
  dsimp only at hw₂ ⊢
  cases hg : w₁.gates[gate]? with
  | none =>
    rw [hg] at hw₂
    have hsame : w₁.entered gate = w₁ := World.entered_of_none hg
    rw [hsame] at hdrained
    have hentered := hidles.entered gate
    rw [hsame] at hentered
    exact ⟨rfl, hentered.trans (hdrained.idles hw₂)⟩
  | some g =>
    rw [hg] at hw₂
    rw [hidles.gates] at hg
    exact ⟨congrArg Except.ok (congrArg Prod.fst (free g hg).enter),
      (hidles.entered gate).trans (hdrained.idles hw₂)⟩

theorem finishes_gainEntry (drained : w.Drained) (free : ∀ g, w.gates[gate]? = some g → g.Free)
    (op : Operation) : (gainEntry gate op timeout).run.Finishes Serves
      (fun result w' => result = .ok () ∧ (w.entered gate).Idles w') w := by
  intro w₁ hw₁
  refine Work.finishes_bind ((finishes_enter drained free).later hw₁) (fun ticket? w' hw' => ?_) ?_
  · cases hw'.1
    intro w'' hw''
    exact ⟨rfl, hw'.2.trans ((hw'.2.toUnmoved.drained drained).idles hw'')⟩
  · exact fun e w' hw' => by cases hw'.1

/-- An admitted request is answered as it is below, and has left the gate then. -/
theorem finishes_run {answers : Handler.Answers} {next : Handler} (h : next.Mirrors answers)
    (free : ∀ g, w.gates[gate]? = some g → g.Free) {r : Request} (plain : r.Plain)
    (drained : w.Drained) (rest : w.AtRest) (op : Operation)
    (discard : World → r.Answer → World) :
    (run gate op timeout discard (next r)).run.Finishes Serves
      (r.Met (answers r plain w.essence) w) w := by
  have hentered : (w.entered gate).Drained := drained
  refine Work.finishes_bind (finishes_gainEntry drained free op) (fun _ w₁ hw₁ => ?_) ?_
  · refine Finishes.handOver ?_ ?_
    · have hmet := h.after plain hentered rest hw₁.2
      refine hmet.bind fun result w₂ hw₂ w₃ hw₃ w₄ hw₄ => ?_
      exact ((hw₂.later hentered hw₃).released free).later drained hw₄
    · exact fun result w' w'' hw' serves => hw'.later drained serves
  · exact fun e w' hw' => by cases hw'.1

/-- What an admitted query comes to before its rows are passed on: it is answered as it is
below, and it is still at the gate unless it has failed. -/
def Fetched (gate : Nat) (q : Query) (expected : Outcome Rows × World) (w : World) :
    Outcome Rows → World → Prop
  | .ok stream => (Request.query q).Met expected (w.entered gate) (.ok stream)
  | .error e => (Request.query q).Met expected w (.error e)

/-- What an admitted query comes to: the rows that it is answered with below come through a
new pipe, unless it has failed. -/
def Opened (gate : Nat) (q : Query) (expected : Outcome Rows × World) (w : World) :
    Outcome Rows → World → Prop
  | .ok stream, v => ∃ rows u, (Request.query q).Met expected w (.ok (.listed rows)) u ∧
      stream = .piped u.pipes.length ∧ ∃ p, u.Pours gate rows v p
  | .error e, v => (Request.query q).Met expected w (.error e) v

/-- A query that is at the gate passes its rows on through a new pipe. -/
theorem Fetched.opened {q : Query} {expected : Outcome Rows × World} {rows : List Value}
    {w' w'' : World} (h : Fetched gate q expected w (.ok (.listed rows)) w')
    (free : ∀ g, w.gates[gate]? = some g → g.Free) (drained : w.Drained) (buffer : Nat)
    (serves : ReflTransGen Serves (w'.openPipe buffer (.listed rows) (some gate)).2 w'') :
    Opened gate q expected w (.ok (.piped w'.pipes.length)) w'' := by
  have hmet : (Request.query q).Met expected (w.entered gate) (.ok (.listed rows)) w' := h
  have hbelow := hmet.released free
  have hpours : (w'.release gate).Pours gate rows
      (w'.openPipe buffer (.listed rows) (some gate)).2
      ⟨max buffer 1, .listed rows, rows.length, some gate, [], none, false, false⟩ := {
    essence := rfl
    pipes := rfl
    gates := hmet.unmoved.gates.trans
      (congrArg (fun gates => List.modify gates gate fun g : Gate => g.enter.2)
        hbelow.unmoved.gates.symm)
    carries := {
      inOrder := ⟨rows, rfl, rfl⟩
      left := rfl
      wanted := rfl
      roomy := Nat.lt_of_lt_of_le Nat.one_pos (Nat.le_max_right buffer 1)
      ended := fun ended => by cases ended
      permit := fun _ => rfl } }
  have hback : (((w'.release gate).entered gate).release gate).gates = (w'.release gate).gates :=
    World.entered_release fun g hg => free g (hbelow.unmoved.gates ▸ hg)
  obtain ⟨p, hp, -⟩ := hpours.later (hbelow.unmoved.drained drained) hback serves
  exact ⟨rows, _, hbelow, rfl, p, hp⟩

/-- An admitted query passes on the rows that it is answered with below. -/
theorem finishes_query {next : Handler} {q : Query} {expected : Outcome Rows × World}
    (below : ∀ w₁, (w.entered gate).Idles w₁ → (next (.query q)).run.Finishes Serves
      ((Request.query q).Met expected (w.entered gate)) w₁)
    (free : ∀ g, w.gates[gate]? = some g → g.Free) (drained : w.Drained) (buffer : Nat) :
    (query gate timeout buffer (next (.query q))).run.Finishes Serves
      (Opened gate q expected w) w := by
  have hentered : (w.entered gate).Drained := drained
  have hfetched {w₁ : World} (hw₁ : (w.entered gate).Idles w₁) :
      ((dispatch .query id World.abandonRows (next (.query q))).orUndo
        (World.release gate)).run.Finishes Serves (Fetched gate q expected w) w₁ := by
    have hbelow : (dispatch .query id World.abandonRows (next (.query q))).run.Finishes Serves
        ((Request.query q).Met expected (w.entered gate)) w₁ :=
      Finishes.handOver (below w₁ hw₁)
        fun result w' w'' hw' serves => hw'.later hentered serves
    refine (hbelow.onDrop (World.release gate)).bind fun result w₂ hw₂ => ?_
    cases result with
    | ok stream => exact fun w₃ hw₃ => hw₂.later hentered hw₃
    | error e =>
      intro w₃ hw₃ w₄ hw₄
      exact ((hw₂.later hentered hw₃).released free).later drained hw₄
  refine Work.finishes_bind (finishes_gainEntry drained free .query) (fun _ w₁ hw₁ => ?_) ?_
  · refine Work.finishes_bind (hfetched hw₁.2) (fun stream w₂ hw₂ w₃ hw₃ w₄ hw₄ => ?_) ?_
    · have hmet : (Request.query q).Met expected (w.entered gate) (.ok stream) w₂ := hw₂
      obtain ⟨rows, rfl⟩ := hmet.listed
      have hfetched₃ : Fetched gate q expected w (.ok (.listed rows)) w₃ :=
        hmet.later hentered hw₃
      exact hfetched₃.opened free drained buffer hw₄
    · exact fun e w' hw' w'' hw'' => Request.Met.later hw' drained hw''
  · exact fun e w' hw' => by cases hw'.1

end Scheduling

end LiveRecords

import LiveRecords.Proofs.Provision.Inventory

/-
  How often a table is created.

  Each step of a call takes it from one stage to the next, and the calls that it makes on
  behalf of other types do so while it holds its own cell (`Recorded.carries_ensureWithin`).
  So what is kept is kept by any number of calls that come and go on in any order, and a
  table is created at most once, but for the cells that were handed on (`created_once`).
  That may happen: a call that fails forgets its cell while another one waits for it, and
  a third one opens a new cell (`Shop.maker_twice`).
-/

namespace LiveRecords

namespace Provision

open Job (Gathering Erases Carries)

namespace Recorded

variable {α β : Type} {post : Outcome α → Multiset Token → Prop}
  {post' : Outcome β → Multiset Token → Prop} {held : Multiset Token} {table : String}
  {cell ticket : Nat} {stage : Stage} {c : Catalog} {type : EntityType}

theorem carries_bind {x : Recorded α} {f : α → Recorded β} (h : Carries Kept post x.run held)
    (ok : ∀ a held', post (.ok a) held' → Carries Kept post' (f a).run held')
    (error : ∀ e held', post (.error e) held' → post' (.error e) held') :
    Carries Kept post' (x >>= f).run held := by
  rw [ExceptT.run_bind]
  refine Carries.bind h fun result held' hpost => ?_
  cases result with
  | ok a => exact ok a held' hpost
  | error e => exact error e held' hpost

/-- What comes after a step that does not fail. -/
theorem carries_then {x : Recorded α} {f : α → Recorded β} {got : α → Multiset Token → Prop}
    (h : Carries Kept (fun result held' => ∃ a, result = .ok a ∧ got a held') x.run held)
    (next : ∀ a held', got a held' → Carries Kept post' (f a).run held') :
    Carries Kept post' (x >>= f).run held := by
  refine carries_bind h ?_ ?_
  · rintro _ held' ⟨a, ⟨⟩, hgot⟩
    exact next _ held' hgot
  · rintro e held' ⟨_, ⟨⟩, -⟩

theorem carries_act {f : Logbook → α × Logbook}
    (h : ∀ others l, Kept (held + others) l →
      ∃ held', Kept (held' + others) (f l).2 ∧ post (.ok (f l).1) held') :
    Carries Kept post (act f).run held := h

theorem carries_change {f : World → α × World}
    (h : ∀ others l, Kept (held + others) l → ∃ held',
      Kept (held' + others) { l with world := (f l.world).2 } ∧ post (.ok (f l.world).1) held') :
    Carries Kept post (ofWork (Work.ofJob (.act f))).run held := h

/-! ## The steps of a call -/

theorem carries_look (table : String) :
    Carries Kept (fun result held => ∃ cell, result = .ok cell ∧ held = {⟨table, cell, .found⟩})
      (act (Logbook.look table)).run 0 := by
  refine carries_act fun others l h => ?_
  rw [zero_add] at h
  unfold Logbook.look
  cases hget : l.world.cellOf.get? table with
  | some cell => exact ⟨_, h.use hget, cell, rfl, rfl⟩
  | none => exact ⟨_, (h.extend hget).use (Keyed.get?_put_self ..), _, rfl, rfl⟩

/-- A call is done with a made cell; one that has seen the cell made finds it made. -/
theorem carries_check (table : String) (cell : Nat) (stage : Stage) :
    Carries Kept (fun result held => ∃ made, result = .ok made ∧
        (made = true ∧ held = 0 ∨ made = false ∧ held = {⟨table, cell, stage⟩} ∧ stage ≠ .settled))
      (check cell).run {⟨table, cell, stage⟩} := by
  refine carries_act fun others l h => ?_
  rw [Multiset.singleton_add] at h
  cases hmade : isMade cell l.world with
  | true =>
    have hidle : stage.isWork = false := by
      rw [← Bool.not_eq_true]
      intro hwork
      rw [h.unmade hwork] at hmade
      cases hmade
    refine ⟨0, ?_, true, rfl, .inl ⟨rfl, rfl⟩⟩
    rw [zero_add]
    exact h.leave hidle
  | false =>
    refine ⟨{⟨table, cell, stage⟩}, h, false, rfl, .inr ⟨rfl, rfl, ?_⟩⟩
    rintro rfl
    obtain ⟨c, hget, hstaffed⟩ := h.staffed_cell
    have hsettled : c.made = true := hstaffed.head
    unfold isMade at hmade
    rw [hget, Option.any_some, hsettled] at hmade
    cases hmade

theorem carries_enter (table : String) (cell : Nat) :
    Carries Kept (fun result held => ∃ ticket?, result = .ok ticket? ∧
        held = {⟨table, cell, ticket?.elim .making .queueing⟩})
      (ofWork (enter cell)).run {⟨table, cell, .found⟩} := by
  refine carries_change fun others l h => ?_
  rw [Multiset.singleton_add] at h
  obtain ⟨c, hget, -⟩ := h.staffed_cell
  rw [hget]
  dsimp only
  cases hticket : c.gate.enter.1 with
  | none =>
    refine ⟨{⟨table, cell, .making⟩}, ?_, none, rfl, rfl⟩
    refine h.restage (f := fun g => g.enter.2) nofun nofun fun c' hc hstaffed => ?_
    obtain rfl := Option.some.inj (hget.symm.trans hc)
    exact hstaffed.enter_free hticket
  | some ticket =>
    refine ⟨{⟨table, cell, .queueing ticket⟩}, ?_, some ticket, rfl, rfl⟩
    refine h.restage (f := fun g => g.enter.2) nofun nofun fun c' hc hstaffed => ?_
    obtain rfl := Option.some.inj (hget.symm.trans hc)
    exact hstaffed.enter_full hticket

theorem carries_claim_called (table : String) (cell ticket : Nat) :
    Carries Kept (fun result held => ∃ u, result = .ok u ∧ held = {⟨table, cell, .making⟩})
      (ofWork (Work.ofJob (.modify fun w => w.onCell cell fun c =>
        { c with gate := c.gate.claim ticket }))).run {⟨table, cell, .called ticket⟩} := by
  intro others l h
  refine ⟨{⟨table, cell, .making⟩}, ?_, (), rfl, rfl⟩
  exact Kept.restage h (f := fun g => g.claim ticket) nofun nofun fun c _ hstaffed =>
    hstaffed.claim_called

theorem carries_claim_settled (table : String) (cell ticket : Nat) :
    Carries Kept (fun result held => ∃ u, result = .ok u ∧ held = {⟨table, cell, .settled⟩})
      (ofWork (Work.ofJob (.modify fun w => w.onCell cell fun c =>
        { c with gate := c.gate.claim ticket }))).run {⟨table, cell, .settled⟩} := by
  intro others l h
  refine ⟨{⟨table, cell, .settled⟩}, ?_, (), rfl, rfl⟩
  refine Kept.restage h (f := fun g => g.claim ticket) nofun nofun fun c _ hstaffed => ?_
  rw [hstaffed.claim_settled]
  exact hstaffed

/-- A call that waits goes on as the one to make the cell, or to find it made. -/
theorem carries_await (table : String) (cell ticket : Nat) :
    Carries Kept (fun result held => ∃ u, result = .ok u ∧
        (held = {⟨table, cell, .making⟩} ∨ held = {⟨table, cell, .settled⟩}))
      (ofWork (await cell ticket)).run {⟨table, cell, .queueing ticket⟩} := by
  intro others l h hready
  have h : Kept (⟨table, cell, .queueing ticket⟩ ::ₘ others) l := h
  have hready : (isMade cell l.world || isCalled cell ticket l.world) = true := hready
  cases hmade : isMade cell l.world with
  | true =>
    refine ⟨{⟨table, cell, .settled⟩}, ?_, ?_⟩
    · refine h.proceed nofun nofun fun c hc hstaffed => hstaffed.await rfl nofun ?_
      unfold isMade at hmade
      rwa [hc] at hmade
    · exact Carries.mono (carries_claim_settled table cell ticket) fun result held hend =>
        hend.imp fun _ hgot => ⟨hgot.1, .inr hgot.2⟩
  | false =>
    rw [hmade, Bool.false_or] at hready
    refine ⟨{⟨table, cell, .called ticket⟩}, ?_, ?_⟩
    · refine h.proceed nofun nofun fun c hc hstaffed => hstaffed.await rfl ?_ ?_
      · rintro t ht
        exact (Option.some.inj ht).symm
      · unfold isCalled at hready
        rw [hc] at hready
        exact ⟨hstaffed.head, by simpa [Gate.isCalled] using hready⟩
    · exact Carries.mono (carries_claim_called table cell ticket) fun result held hend =>
        hend.imp fun _ hgot => ⟨hgot.1, .inl hgot.2⟩

theorem carries_pause (latency : Option Nat) (held : Multiset Token) :
    Carries Kept (fun result held' => ∃ u, result = .ok u ∧ held' = held)
      (ofWork (Work.pause latency)).run held := by
  cases latency with
  | none => exact ⟨(), rfl, rfl⟩
  | some time =>
    intro others l h
    exact ⟨held, h, fun others l h _ => ⟨held, h, (), rfl, rfl⟩⟩

/-- A call creates the table of the cell that it is making, or fails. -/
theorem carries_declare (type : EntityType) (cell : Nat) :
    Carries Kept (fun result held =>
        held = {⟨type.name, cell, if result.isOk then .sealed else .making⟩})
      (declare type).run {⟨type.name, cell, .making⟩} := by
  have hcount : Carries Kept (fun result held => ∃ latency, result = .ok latency ∧
      held = {⟨type.name, cell, .making⟩})
      (ofWork (Work.ofJob (.act fun w =>
        (w.schemaLatency, { w with schema := w.schema.count })))).run
      {⟨type.name, cell, .making⟩} :=
    carries_change fun others l h => ⟨_, h.congr rfl rfl, _, rfl, rfl⟩
  refine carries_then hcount fun latency held hcounted => ?_
  subst hcounted
  refine carries_then (carries_pause latency _) fun _ held hpaused => ?_
  subst hpaused
  exact fun others l h => ⟨_, Kept.create h, rfl⟩

/-- To make a cell comes to having created its table and marked it, or to giving it up. -/
theorem carries_make {table : String} {cell : Nat} {work : Recorded Unit}
    (h : Carries Kept (fun result held =>
        held = {⟨table, cell, if result.isOk then .sealed else .making⟩})
      work.run {⟨table, cell, .making⟩}) :
    Carries Kept (fun _ held => held = 0) (make table cell work).run {⟨table, cell, .making⟩} := by
  refine Carries.bind (h.onDrop _) fun result held hend => ?_
  subst hend
  cases result with
  | ok _ =>
    intro others l h
    refine ⟨0, ?_, rfl⟩
    rw [zero_add]
    exact Kept.settle h
  | error e =>
    intro others l h
    refine ⟨0, ?_, rfl⟩
    rw [zero_add]
    exact Kept.giveUp h

/-! ## Calls -/

theorem carries_ensureUnknown {ensure : EntityType → Recorded Unit}
    (h : ∀ type, Carries Kept (fun _ held => held = 0) (ensure type).run 0)
    (types : List EntityType) :
    Carries Kept (fun _ held => held = 0) (ensureUnknown ensure types).run 0 := by
  induction types with
  | nil => exact rfl
  | cons type rest ih =>
    have hread : Carries Kept (fun result held => ∃ known, result = .ok known ∧ held = 0)
        (ofWork (Work.ofJob (.read fun w => w.cellOf.contains type.name))).run 0 :=
      fun others l h => ⟨0, h, _, rfl, rfl⟩
    refine carries_then hread fun known held hheld => ?_
    subst hheld
    cases known with
    | true => exact ih
    | false =>
      refine carries_bind (h type) (fun _ held hheld => ?_) fun _ _ h => h
      subst hheld
      exact ih

/-- A call that holds the place at the gate makes the cell; one that has seen the cell made
finds it so. -/
theorem carries_inside {ensure : EntityType → Recorded Unit}
    (h : ∀ type, Carries Kept (fun _ held => held = 0) (ensure type).run 0) (type : EntityType)
    (types : List EntityType) (cell : Nat) (stage : Stage)
    (hstage : stage = .making ∨ stage = .settled) :
    Carries Kept (fun _ held => held = 0)
      (do
        if ← check cell then return
        make type.name cell do
          ensureUnknown ensure types
          declare type : Recorded Unit).run {⟨type.name, cell, stage⟩} := by
  refine carries_then (carries_check type.name cell stage) ?_
  rintro made held (⟨rfl, rfl⟩ | ⟨rfl, rfl, hnot⟩)
  · exact rfl
  obtain rfl := hstage.resolve_right hnot
  -- the calls for other types leave what this one holds
  have hunknown := Carries.frame (carries_ensureUnknown h types) {⟨type.name, cell, .making⟩}
  rw [zero_add] at hunknown
  refine carries_make (carries_bind hunknown ?_ ?_)
  · rintro _ held ⟨_, rfl, rfl⟩
    rw [zero_add]
    exact carries_declare type cell
  · rintro e held ⟨_, rfl, rfl⟩
    rw [zero_add]
    rfl

theorem carries_ensureWithin (c : Catalog) (fuel : Nat) (type : EntityType) :
    Carries Kept (fun _ held => held = 0) (ensureWithin c fuel type).run 0 := by
  induction fuel generalizing type with
  | zero => exact rfl
  | succ fuel ih =>
    refine carries_then (carries_look type.name) fun cell held hlook => ?_
    subst hlook
    refine carries_then (carries_check type.name cell .found) ?_
    rintro made held (⟨rfl, rfl⟩ | ⟨rfl, rfl, -⟩)
    · exact rfl
    refine carries_then (carries_enter type.name cell) fun ticket? held henter => ?_
    subst henter
    have hinside := carries_inside ih type (c.referencedTypes type) cell
    cases ticket? with
    | none => exact hinside .making (.inl rfl)
    | some ticket =>
      refine carries_then (carries_await type.name cell ticket) ?_
      rintro _ held (rfl | rfl)
      · exact hinside .making (.inl rfl)
      · exact hinside .settled (.inr rfl)

end Recorded

/-! ## All calls together -/

/-- The calls for types. -/
def IsCall (c : Catalog) (job : Job World (Outcome Unit)) : Prop :=
  ∃ type, job = (ensure c type).run

/-- The calls for types with a record. -/
def Recorded.IsCall (c : Catalog) (job : Job Logbook (Outcome Unit)) : Prop :=
  ∃ type, job = (Recorded.ensure c type).run

/-- The others leave the cells and the tables as they are, and record nothing. -/
def Logbook.Apart (l l' : Logbook) : Prop := ∃ w, l.world.Apart w ∧ l' = { l with world := w }

variable {c : Catalog} {start : World}

/-- Whatever calls for types do together can be recorded. -/
theorem recordable {js' : List (Job World (Outcome Unit))} {w : World}
    (gathering : Gathering (IsCall c) World.Apart start js' w) :
    ∃ js l, Gathering (Recorded.IsCall c) Logbook.Apart { world := start } js l ∧ l.world = w ∧
      List.Forall₂ (Erases Logbook.world) js js' := by
  refine Gathering.recorded gathering ?_ ?_
  · rintro j' ⟨type, rfl⟩
    exact ⟨_, ⟨type, rfl⟩, Recorded.does_ensure c type⟩
  · exact fun l w hw => ⟨_, ⟨w, hw, rfl⟩, rfl⟩

/-- Any number of calls for types, for any types, may come and go on in any order, and any
of them may fail: a table is created at most once, and once more each time that its cell
was forgotten while another call was using it. What is recorded of the calls is what they
do to the world. -/
theorem created_once (cellOf : start.cellOf = []) (cells : start.cells = [])
    {js : List (Job Logbook (Outcome Unit))} {l : Logbook}
    (gathering : Gathering (Recorded.IsCall c) Logbook.Apart { world := start } js l) :
    (∃ js', Gathering (IsCall c) World.Apart start js' l.world ∧
      List.Forall₂ (Erases Logbook.world) js js') ∧
    ∀ table, l.created.count table ≤ 1 + l.handedOn.count table := by
  have herased : ∃ js', Gathering (IsCall c) World.Apart start js' l.world ∧
      List.Forall₂ (Erases Logbook.world) js js' := by
    refine Gathering.erased Logbook.world gathering ?_ ?_
    · rintro j ⟨type, rfl⟩
      exact ⟨_, ⟨type, rfl⟩, Recorded.does_ensure c type⟩
    · rintro l _ ⟨w, hw, rfl⟩
      exact hw
  have hcalls : ∀ j, Recorded.IsCall c j → Carries Kept (fun _ held => held = 0) j 0 := by
    rintro j ⟨type, rfl⟩
    exact Recorded.carries_ensureWithin c _ type
  have helsewhere : ∀ all l l', Kept all l → Logbook.Apart l l' → Kept all l' := by
    rintro all l _ h ⟨w, hw, rfl⟩
    exact h.congr hw.cellOf hw.cells
  obtain ⟨all, hkept, -⟩ := gathering.carries (.fresh cellOf cells) hcalls helsewhere
  exact ⟨herased, hkept.created_le⟩

/-! ## Plays -/

/-- What happens next in a play: a call comes, a call takes its turn, declarations are to
be refused, or it gets later. -/
inductive Cue where
  | call (type : EntityType)
  | turn (index : Nat)
  | refuse (count : Nat)
  | time (now : Nat)

/-- The calls and the world after a cue; the last call stands first. -/
def act (c : Catalog) (scene : List (Job Logbook (Outcome Unit)) × Logbook) :
    Cue → List (Job Logbook (Outcome Unit)) × Logbook
  | .call type => ((Recorded.ensure c type).run :: scene.1, scene.2)
  | .turn index =>
    match scene.1[index]? with
    | some j => (scene.1.set index (j.advance 0 scene.2).1, (j.advance 0 scene.2).2)
    | none => scene
  | .refuse count => (scene.1, { scene.2 with
      world := { scene.2.world with schema := { scene.2.world.schema with refusals := count } } })
  | .time now => (scene.1, { scene.2 with world := { scene.2.world with now } })

/-- What happens in a play is something that calls do together. -/
theorem gathering_play (c : Catalog) (start : World) (cues : List Cue)
    (scene : List (Job Logbook (Outcome Unit)) × Logbook)
    (gathering : Gathering (Recorded.IsCall c) Logbook.Apart { world := start } scene.1 scene.2) :
    Gathering (Recorded.IsCall c) Logbook.Apart { world := start } (cues.foldl (act c) scene).1
      (cues.foldl (act c) scene).2 := by
  induction cues generalizing scene with
  | nil => exact gathering
  | cons cue rest ih =>
    refine ih (act c scene cue) ?_
    cases cue with
    | call type => exact gathering.comes ⟨type, rfl⟩
    | refuse count =>
      have apart : scene.2.world.Apart (act c scene (.refuse count)).2.world := ⟨rfl, rfl, rfl⟩
      exact gathering.elsewhere ⟨_, apart, rfl⟩
    | time now =>
      have apart : scene.2.world.Apart (act c scene (.time now)).2.world := ⟨rfl, rfl, rfl⟩
      exact gathering.elsewhere ⟨_, apart, rfl⟩
    | turn index =>
      unfold act
      dsimp only
      split
      · next j hj =>
        obtain ⟨hlt, rfl⟩ := List.getElem?_eq_some_iff.1 hj
        rw [List.set_eq_take_append_cons_drop, if_pos hlt]
        refine Gathering.goesOn (j := scene.1[index]) ?_ (Job.moves_advance 0 _ _)
        rwa [List.cons_getElem_drop_succ, List.take_append_drop]
      · exact gathering

end Provision

namespace Shop

/-- Where batches are stored. -/
def depot : EntityType := ⟨"Depot", 0, [{ name := "id", type := .string, isKey := true }]⟩

/-- Who makes batches. -/
def maker : EntityType := ⟨"Maker", 1, [{ name := "id", type := .string, isKey := true }]⟩

/-- Batches; each has its depot and its maker. -/
def batch : EntityType :=
  ⟨"Batch", 2, [{ name := "id", type := .string, isKey := true },
    { name := "depot", type := .entity ⟨"Depot", 0⟩ },
    { name := "maker", type := .entity ⟨"Maker", 1⟩ }]⟩

def yard : Catalog := ⟨[depot, maker, batch]⟩

/-- Nothing is declared, and each declaration takes a while. -/
def bareYard : World := { catalog := yard, schemaUse := .cached, schemaLatency := some 10 }

/-- Two calls for makers at the same time create their table once. -/
theorem maker_once : ∃ js l,
    Job.Gathering (Provision.Recorded.IsCall yard) Provision.Logbook.Apart
        { world := bareYard } js l ∧
      bareYard.cellOf = [] ∧ bareYard.cells = [] ∧ l.handedOn = [] ∧
      l.created.count "Maker" = 1 ∧
      l.created.count "Maker" ≤ 1 + l.handedOn.count "Maker" := by
  have hgathering := Provision.gathering_play yard bareYard
    [.call maker, .turn 0, .call maker, .turn 0, .time 10, .turn 1, .turn 0]
    ([], { world := bareYard }) .start
  have hbound := (Provision.created_once rfl rfl hgathering).2 "Maker"
  exact ⟨_, _, hgathering, rfl, rfl, by rfl, by rfl, hbound⟩

/-- The first call for makers fails while another one waits for it and a third one is on
its way to them: those two create the table each. -/
theorem maker_twice : ∃ js l,
    Job.Gathering (Provision.Recorded.IsCall yard) Provision.Logbook.Apart
        { world := bareYard } js l ∧
      bareYard.cellOf = [] ∧ bareYard.cells = [] ∧ l.handedOn = ["Maker"] ∧
      l.created.count "Maker" = 2 := by
  have hgathering := Provision.gathering_play yard bareYard
    [.refuse 1, .call maker, .turn 0, .call maker, .turn 0, .call batch, .turn 0, .time 10, .turn 2,
      .turn 1, .turn 0, .time 20, .turn 1, .turn 0]
    ([], { world := bareYard }) .start
  exact ⟨_, _, hgathering, rfl, rfl, by rfl, by rfl⟩

end Shop

end LiveRecords

import LiveRecords.Proofs.Pipeline.Backend
import LiveRecords.Proofs.Store.Journal

/-
  Clients of one store.

  Any number of clients come with requests, at any time, and the store works on all
  of them at once: a step of the crowd is one step of the work on one request
  (`Crowd.Step`). Most of these steps leave the store alone. The others are commits,
  so whatever the order, the store only ever grows by commits (`Crowd.Runs.commits`).

  What a request comes to is settled by the last step of the work on it. A snapshot
  shows the store as it is in that step, and an update is carried out in it, whole,
  or is refused and changes nothing (`Client.Answered`).
-/

namespace LiveRecords

open Job (Moves Each Ends)

/-- A request of a client, and what is left to do of it. -/
structure Client where
  request : Request
  rest : Job World (Outcome request.Answer)

/-- Clients of one store. -/
structure Crowd where
  world : World
  clients : List Client

/-- A request writes through the entity type that owns the table. -/
def Request.OwnedBy (owners : Owners) : Request → Prop
  | .insert type _ | .update type _ _ | .upsert type _ | .delete type _ => owners type.name = type
  | _ => True

/-- A client that comes with a request. -/
def Client.ofRequest (r : Request) : Client := ⟨r, (Handler.ofStore r).run⟩

namespace Crowd

/-- What may happen next: a client comes with a request, the work on a request goes one
step further, or something happens that is none of the store's business. -/
inductive Step (owners : Owners) : Crowd → Crowd → Prop where
  | comes {w : World} {clients : List Client} (r : Request) (owned : r.OwnedBy owners) :
      Step owners ⟨w, clients⟩ ⟨w, clients ++ [.ofRequest r]⟩
  | elsewhere {w w' : World} {clients : List Client} (store : w'.store = w.store) :
      Step owners ⟨w, clients⟩ ⟨w', clients⟩
  | goes {w w' : World} {clients : List Client} {i : Nat} {r : Request}
      {job job' : Job World (Outcome r.Answer)} (here : clients[i]? = some ⟨r, job⟩)
      (moves : Moves job w job' w') :
      Step owners ⟨w, clients⟩ ⟨w', clients.set i ⟨r, job'⟩⟩

/-- Some steps, one after another. -/
abbrev Runs (owners : Owners) : Crowd → Crowd → Prop := Relation.ReflTransGen (Step owners)

end Crowd

/-! ## Steps of the work on a request -/

/-- What happens to a well-formed store is some commits. -/
def World.Advances (owners : Owners) (w w' : World) : Prop :=
  w.store.WellFormed owners → Commits owners w.store w'.store

namespace World.Advances

variable {owners : Owners} {w w' : World}

theorem of_store_eq (h : w'.store = w.store) : w.Advances owners w' := fun _ => h ▸ .refl

theorem refl (owners : Owners) (w : World) : w.Advances owners w := of_store_eq rfl

end World.Advances

namespace World

theorem store_abandonRows (w : World) (rows : Rows) : (w.abandonRows rows).store = w.store := by
  cases rows <;> rfl

theorem store_takeRow (rows : Rows) (w : World) : (takeRow rows w).2.store = w.store := by
  unfold takeRow
  cases rows with
  | listed rows => cases rows <;> rfl
  | piped pipe =>
    dsimp only
    split <;> rfl

end World

namespace Work

variable {α β : Type} {keeps : World → World → Prop}

theorem each_attempt {f : World → Outcome (α × World)} (hrefl : ∀ w, keeps w w)
    (h : ∀ w a w', f w = .ok (a, w') → keeps w w') : Each keeps (act f).run := by
  intro w
  refine ⟨?_, trivial⟩
  cases hf : f w with
  | error e =>
    simp only [hf]
    exact hrefl w
  | ok end_ =>
    simp only [hf]
    exact h w end_.1 end_.2 hf

/-- What may fail has happened, or it has failed and left the world as it was. -/
def Attempted (f : World → Outcome (α × World)) (w w' : World) : Outcome α → Prop
  | .ok a => f w = .ok (a, w')
  | .error e => w' = w ∧ f w = .error e

theorem ends_attempt (f : World → Outcome (α × World)) : Ends (Attempted f) (act f).run := by
  intro w
  refine ⟨trivial, fun result hresult => ?_⟩
  cases hresult
  cases hf : f w with
  | error e =>
    simp only [hf]
    exact ⟨rfl, hf⟩
  | ok end_ =>
    simp only [hf]
    exact hf

theorem ends_bind {goal : World → World → Except Failure β → Prop} {x : Work α} {f : α → Work β}
    (hx : Ends (fun w w' result => ∀ e, result = .error e → goal w w' (.error e)) x.run)
    (hf : ∀ a, Ends goal (f a).run) (hgoes : ∀ a b, (f a).run ≠ .done b) :
    Ends goal (x >>= f).run := by
  rw [ExceptT.run_bind]
  refine Ends.bind (hx.mono ?_) ?_
  · intro w w' result herror b hb
    cases result with
    | ok a => exact absurd hb (hgoes a b)
    | error e =>
      cases hb
      exact herror e rfl
  · intro result
    cases result with
    | ok a => exact hf a
    | error e => trivial

end Work

namespace Rows

theorem advances_first (owners : Owners) (rows : Rows) :
    Each (World.Advances owners) rows.first.run := by
  refine Work.each_bind (Work.each_bind (Work.each_ofJob (j := .waitFor ..) trivial) fun _ => ?_)
    fun row => ?_
  · exact Work.each_act fun w => .of_store_eq (w.store_takeRow rows)
  · exact Work.each_bind (Work.each_modify fun w => .of_store_eq (w.store_abandonRows rows))
      fun _ => trivial

end Rows

namespace Backend

variable {owners : Owners}

theorem advances_prepare (owners : Owners) (type : EntityType) :
    Each (World.Advances owners) (prepare type).run :=
  (each_prepare type).mono fun _ _ h => .of_store_eq h.store.symm

theorem advances_write (type : EntityType) (entity : Value) (change : Store → Outcome Store)
    (h : ∀ s s', change s = .ok s' → Commit owners s s') :
    Each (World.Advances owners) (write type entity change).run := by
  refine Work.each_bind ?_ fun _ => ?_
  · cases type.requireKey entity <;> trivial
  refine Work.each_bind (advances_prepare owners type) fun _ => ?_
  refine Work.each_attempt (.refl owners) fun w a w' hdone _ => ?_
  obtain ⟨s', hs', heq⟩ := Outcome.bind_ok hdone
  cases heq
  exact .single (h w.store s' hs')

theorem advances_delete (owners : Owners) (type : EntityType) (key : Value) :
    Each (World.Advances owners) (delete type key).run := by
  refine Work.each_bind (advances_prepare owners type) fun _ => ?_
  refine Work.each_act fun w _ => ?_
  show Commits owners w.store (w.store.delete type key).2
  rcases w.store.delete_eq type key with ⟨_, he⟩ | ⟨row, hrow, he⟩
  · rw [he]
  · rw [he]
    exact .single (.removed (.row hrow))

theorem advances_query (owners : Owners) (q : Query) :
    Each (World.Advances owners) (query q).run := by
  refine Work.each_bind (x := liftM q.prepare) trivial fun run => ?_
  refine Work.each_bind (advances_prepare owners q.entity) fun _ => ?_
  exact Work.each_bind (Work.each_read (.refl owners) _) fun _ => trivial

theorem advances_snapshot (owners : Owners) (q : Query) :
    Each (World.Advances owners) (snapshot q).run := by
  refine Work.each_bind (x := liftM q.prepare) trivial fun run => ?_
  refine Work.each_bind (advances_prepare owners q.entity) fun _ => ?_
  exact Work.each_read (.refl owners) _

theorem advances_live (owners : Owners) (q : Query) :
    Each (World.Advances owners) (live q).run := by
  refine Work.each_bind (Work.each_read (.refl owners) _) fun offers => ?_
  cases offers with
  | false => trivial
  | true =>
    refine Work.each_bind (x := liftM q.validate) trivial fun _ => ?_
    refine Work.each_bind (advances_prepare owners q.entity) fun _ => ?_
    exact Work.each_act fun w => .of_store_eq rfl

theorem advances_aggregate (owners : Owners) (q : Query) (a : Aggregate) :
    Each (World.Advances owners) (aggregate q a).run := by
  refine Work.each_bind (x := liftM q.prepare) trivial fun run => ?_
  refine Work.each_bind (x := liftM a.prepare) trivial fun operand => ?_
  refine Work.each_bind (advances_prepare owners q.entity) fun _ => ?_
  exact Work.each_read (.refl owners) _

theorem advances_dropAll (owners : Owners) : Each (World.Advances owners) dropAll.run := by
  refine Work.each_bind (Work.each_modify fun w wf => ?_) fun _ => ?_
  · exact (Store.removals_dropAll wf).commits owners
  refine Work.each_bind (Work.each_read (.refl owners) _) fun schemaUse => ?_
  cases schemaUse with
  | unused => trivial
  | direct => exact Work.each_modify fun w => .of_store_eq rfl
  | cached => exact Work.each_modify fun w => .of_store_eq rfl

end Backend

/-- Whatever the request, the store only ever advances by commits. -/
theorem Handler.advances_ofStore {owners : Owners} {r : Request} (owned : r.OwnedBy owners) :
    Each (World.Advances owners) (ofStore r).run := by
  cases r with
  | insert type entity =>
    exact Backend.advances_write type entity (fun s => s.insert type entity) fun _ _ =>
      Store.insert_commit owned
  | update type entity expected =>
    exact Backend.advances_write type entity (fun s => s.update type entity expected) fun _ _ =>
      Store.update_commit owned
  | upsert type entity =>
    exact Backend.advances_write type entity (fun s => s.upsert type entity) fun _ _ =>
      Store.upsert_commit owned
  | delete type key => exact Backend.advances_delete owners type key
  | find type key =>
    refine Work.each_bind (x := liftM (Query.byKey type key)) trivial fun q => ?_
    exact Work.each_bind (Backend.advances_query owners q) fun rows => rows.advances_first owners
  | query q => exact Backend.advances_query owners q
  | snapshot q => exact Backend.advances_snapshot owners q
  | live q => exact Backend.advances_live owners q
  | aggregate q a => exact Backend.advances_aggregate owners q a
  | dropAll => exact Backend.advances_dropAll owners

/-! ## Last steps of the work on a request -/

namespace Backend

/-- What it is that has failed if a table could not be got ready. -/
def declaring (type : EntityType) : String := s!"ensuring schema for {type.name}"

/-- Anything may happen. -/
def anything : Job.Terms World where
  rely _ _ := True
  guarantee _ _ := True
  rely_refl _ := trivial
  rely_trans _ _ := trivial

theorem ensures_pause (time : Option Nat) (w : World) :
    Job.Ensures anything (fun result _ => ∃ u, result = .ok u) (Work.pause time).run w := by
  cases time with
  | none => exact fun _ _ => ⟨(), rfl⟩
  | some milliseconds =>
    refine Work.ensures_bind (Work.ensures_read (fun _ => trivial) _ w) ?_ ?_
    · exact fun _ _ _ _ _ _ _ _ => ⟨(), rfl⟩
    · intro e w' hend
      obtain ⟨_, _, _, hread⟩ := hend
      cases hread

/-- What fails in getting a table ready is its declaration. -/
theorem ensures_prepare_declaring (type : EntityType) (w : World) :
    Job.Ensures anything
      (fun result _ => ∀ e, result = .error e → ∃ cause, e = .inContext (declaring type) cause)
      (prepare type).run w := by
  refine Work.ensures_bind (Work.ensures_read (fun _ => trivial) _ w) ?_ ?_
  · intro latency w₁ _
    refine Work.ensures_bind (ensures_pause latency w₁) ?_ ?_
    · intro _ w₂ _
      refine Work.ensures_bind (Work.ensures_read (fun _ => trivial) _ w₂) ?_ ?_
      · intro schemaUse w₃ _
        refine Job.Ensures.map (((Provision.each_provide schemaUse type)).ensures w₃
          fun _ _ _ => ⟨trivial, trivial⟩) ?_
        intro result w₄ _ e he
        cases result with
        | ok u => cases he
        | error cause =>
          cases he
          exact ⟨cause, rfl⟩
      · intro e w' hend
        obtain ⟨_, _, _, hread⟩ := hend
        cases hread
    · intro e w' hend
      obtain ⟨_, hpaused⟩ := hend
      cases hpaused
  · intro e w' hend
    obtain ⟨_, _, _, hread⟩ := hend
    cases hread

/-- A table that cannot be got ready leaves the store as it is. -/
theorem ends_prepare (type : EntityType) :
    Ends (fun w w' result => w'.store = w.store ∧
      ∀ e, result = .error e → ∃ cause, e = .inContext (declaring type) cause)
      (prepare type).run := by
  have hkeeps : Ends (fun w w' _ => w'.store = w.store) (prepare type).run :=
    ((each_prepare type).ends .refl).mono fun _ _ _ h => h.store.symm
  exact hkeeps.and (Job.Ensures.ends (ensures_prepare_declaring type) fun _ _ => trivial)

/-- What the last step of the work on a write has done: the change is made, whole, or
the store is as it was, since the change was refused or the table could not be got ready. -/
def Changed (type : EntityType) (change : Store → Outcome Store) (w w' : World) :
    Outcome Value → Prop
  | .ok _ => change w.store = .ok w'.store
  | .error e => w'.store = w.store ∧
      (change w.store = .error e ∨ ∃ cause, e = .inContext (declaring type) cause)

theorem ends_write (type : EntityType) (entity : Value) (change : Store → Outcome Store) :
    Ends (Changed type change) (write type entity change).run := by
  have hattempt : Ends (Changed type change)
      (Work.act fun w => do return (entity, { w with store := ← change w.store })).run := by
    refine (Work.ends_attempt _).mono fun w w' result h => ?_
    cases result with
    | ok v =>
      obtain ⟨s', hs', hdone⟩ := Outcome.bind_ok h
      cases hdone
      exact hs'
    | error e =>
      obtain ⟨rfl, hfailed⟩ := h
      refine ⟨rfl, .inl ?_⟩
      cases hc : change w'.store with
      | error e' =>
        simp only [hc] at hfailed
        cases hfailed
        rfl
      | ok s' =>
        simp only [hc] at hfailed
        cases hfailed
  have hwrite : Ends (Changed type change) (do
      prepare type
      Work.act fun w => do return (entity, { w with store := ← change w.store })).run := by
    refine Work.ends_bind ((ends_prepare type).mono ?_) (fun _ => hattempt) nofun
    intro w w' result h e he
    exact ⟨h.1, .inr (h.2 e he)⟩
  unfold write
  cases type.requireKey entity with
  | error e => trivial
  | ok key => exact hwrite

/-- No write succeeds without a step. -/
theorem write_ne_done (type : EntityType) (entity : Value) (change : Store → Outcome Store)
    (v : Value) : (write type entity change).run ≠ .done (.ok v) := by
  unfold write
  cases type.requireKey entity <;> nofun

/-- What the last step of the work on a snapshot has done: it shows the store. -/
def Shown (q : Query) (w w' : World) (result : Outcome Snapshot) : Prop :=
  w'.store = w.store ∧ ∀ s, result = .ok s → ∃ run, q.prepare = .ok run ∧ s = w.store.snapshot q run

theorem ends_snapshot (q : Query) : Ends (Shown q) (snapshot q).run := by
  unfold snapshot
  cases hq : q.prepare with
  | error e => trivial
  | ok run =>
    have hread : Ends (Shown q) (Work.ofJob (.read fun w => w.store.snapshot q run)).run := by
      refine fun w => ⟨trivial, fun result hresult => ?_⟩
      cases hresult
      refine ⟨rfl, fun s hs => ?_⟩
      cases hs
      exact ⟨run, hq, rfl⟩
    have hsnapshot : Ends (Shown q) (do
        prepare q.entity
        Work.ofJob (.read fun w => w.store.snapshot q run)).run := by
      refine Work.ends_bind ((ends_prepare q.entity).mono ?_) (fun _ => hread) nofun
      intro w w' result h e he
      exact ⟨h.1, nofun⟩
    exact hsnapshot

end Backend

namespace Client

/-- What the last step of the work on a request has done. -/
def Answered : (r : Request) → World → World → Outcome r.Answer → Prop
  | .insert type entity => Backend.Changed type fun s => s.insert type entity
  | .update type entity expected => Backend.Changed type fun s => s.update type entity expected
  | .upsert type entity => Backend.Changed type fun s => s.upsert type entity
  | .snapshot q => Backend.Shown q
  | _ => fun _ _ _ => True

theorem ends_ofStore (r : Request) : Ends (Answered r) (Handler.ofStore r).run := by
  cases r with
  | insert type entity => exact Backend.ends_write type entity fun s => s.insert type entity
  | update type entity expected =>
    exact Backend.ends_write type entity fun s => s.update type entity expected
  | upsert type entity => exact Backend.ends_write type entity fun s => s.upsert type entity
  | snapshot q => exact Backend.ends_snapshot q
  | delete type key => exact Ends.anyhow _
  | find type key => exact Ends.anyhow _
  | query q => exact Ends.anyhow _
  | live q => exact Ends.anyhow _
  | aggregate q a => exact Ends.anyhow _
  | dropAll => exact Ends.anyhow _

/-- What holds of a client at any time. -/
structure Sound (owners : Owners) (c : Client) : Prop where
  owned : c.request.OwnedBy owners
  advances : Each (World.Advances owners) c.rest
  answered : Ends (Answered c.request) c.rest

theorem Sound.ofRequest {owners : Owners} {r : Request} (owned : r.OwnedBy owners) :
    (ofRequest r).Sound owners :=
  ⟨owned, Handler.advances_ofStore owned, ends_ofStore r⟩

theorem Sound.moves {owners : Owners} {r : Request} {job job' : Job World (Outcome r.Answer)}
    {w w' : World} (h : Sound owners ⟨r, job⟩) (moves : Moves job w job' w')
    (wf : w.store.WellFormed owners) :
    Commits owners w.store w'.store ∧ Sound owners ⟨r, job'⟩ ∧
      ∀ answer, job' = .done answer → Answered r w w' answer := by
  obtain ⟨hstep, hadvances⟩ := h.advances.moves moves
  obtain ⟨hends, hanswered⟩ := h.answered.moves moves
  refine ⟨?_, ⟨h.owned, hadvances, hends⟩, hanswered⟩
  rcases hstep with hsame | hcommits
  · rw [hsame]
  · exact hcommits wf

end Client

namespace Crowd

/-- What holds of a crowd at any time. -/
structure Sound (owners : Owners) (c : Crowd) : Prop where
  grown : Commits owners {} c.world.store
  clients : ∀ client ∈ c.clients, client.Sound owners

variable {owners : Owners} {a b : Crowd}

theorem Sound.wellFormed (h : a.Sound owners) : a.world.store.WellFormed owners :=
  Commits.wellFormed h.grown (.empty owners)

/-- A step of a crowd is some commits, perhaps none. -/
theorem Step.sound (h : Step owners a b) (ha : a.Sound owners) :
    Commits owners a.world.store b.world.store ∧ b.Sound owners := by
  cases h with
  | comes r owned =>
    refine ⟨.refl, ha.grown, fun client hin => ?_⟩
    rcases List.mem_append.1 hin with hin | hin
    · exact ha.clients client hin
    · rw [List.mem_singleton.1 hin]
      exact .ofRequest owned
  | @elsewhere w w' clients store =>
    refine ⟨store ▸ .refl, ?_, ha.clients⟩
    show Commits owners {} w'.store
    exact store ▸ ha.grown
  | goes here moves =>
    obtain ⟨hcommits, hsound, _⟩ :=
      (ha.clients _ (List.mem_of_getElem? here)).moves moves ha.wellFormed
    refine ⟨hcommits, Relation.ReflTransGen.trans ha.grown hcommits, fun client hin => ?_⟩
    rcases List.mem_or_eq_of_mem_set hin with hin | heq
    · exact ha.clients client hin
    · rw [heq]
      exact hsound

theorem Runs.sound (h : Runs owners a b) (ha : a.Sound owners) :
    Commits owners a.world.store b.world.store ∧ b.Sound owners := by
  induction h with
  | refl => exact ⟨.refl, ha⟩
  | tail _ hlast ih =>
    obtain ⟨hcommits, hsound⟩ := ih
    obtain ⟨hnext, hlater⟩ := hlast.sound hsound
    exact ⟨hcommits.trans hnext, hlater⟩

/-- Nobody has come to a store in which nothing was stored yet. -/
theorem Sound.empty (owners : Owners) {w : World} (h : w.store = {}) : Sound owners ⟨w, []⟩ where
  grown := h ▸ .refl
  clients := nofun

/-- In one step a client is given the answer to a request. -/
def Answers (r : Request) (answer : Outcome r.Answer) (a b : Crowd) : Prop :=
  ∃ i job, a.clients[i]? = some ⟨r, job⟩ ∧ Moves job a.world (.done answer) b.world ∧
    b.clients = a.clients.set i ⟨r, .done answer⟩

theorem Answers.step {r : Request} {answer : Outcome r.Answer} (h : Answers r answer a b) :
    Step owners a b := by
  obtain ⟨w, clients⟩ := a
  obtain ⟨w', clients'⟩ := b
  obtain ⟨i, job, here, moves, rfl⟩ := h
  exact .goes here moves

theorem Answers.answered {r : Request} {answer : Outcome r.Answer} (h : Answers r answer a b)
    (ha : a.Sound owners) : Client.Answered r a.world b.world answer := by
  obtain ⟨i, job, here, moves, _⟩ := h
  exact ((ha.clients _ (List.mem_of_getElem? here)).moves moves ha.wellFormed).2.2 answer rfl

end Crowd

end LiveRecords

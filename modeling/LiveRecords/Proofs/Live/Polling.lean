import LiveRecords.Proofs.Live.Answers
import LiveRecords.Proofs.Live.Convergence
import LiveRecords.Proofs.Query.Arguments

/-
  A live query that polls.

  Without a feed a live query asks for all its entities again and again, and tells how
  they differ from what it told before. Others may write between any two of its steps;
  a poll shows the store at some moment between its question and its answer. What it
  tells of each key is then exactly the difference, and replaying all that was told
  gives exactly the rows that matched at that moment (`Poll.Shows`). A poll that fails
  is told as one failure, and nothing follows it (`History.polls_exactly`).
-/

namespace LiveRecords

open Job (Ensures Goes)

variable {owners : Owners} {q : Query} {w w' : World}

/-! ## Polls -/

/-- A poll: the store when it was asked for, what it told, and the store when it had. -/
structure Poll where
  asked : Store
  told : List FeedItem
  answered : Store

/-- The document under a key of a table that satisfies a predicate. -/
def Store.matching (s : Store) (name : String) (admits : Value → Bool) (key : String) :
    Option Value :=
  (((s.table name).rows.get? key).map Row.value).filter admits

/-- A poll told some notifications to a subscriber who held `held`. -/
structure Poll.Shows (owners : Owners) (q : Query) (admits : Value → Bool) (held : Replica)
    (p : Poll) (ns : List (Notification Value)) : Prop where
  told : p.told = ns.map .ok
  keyed : ∀ n ∈ ns, (n.keyText? q.entity).isSome = true
  /-- At some moment since it was asked for, they were just what there was to tell. -/
  moment : ∃ shown, ByWrites owners p.asked shown ∧ ByWrites owners shown p.answered ∧ ∀ key,
    Tracker.about q.entity key ns =
        Tracker.tidings (held.get? key) (shown.matching q.entity.name admits key) ∧
      Agree ((Replica.takeAll q.entity held ns).get? key)
        (shown.matching q.entity.name admits key)

/-- Some polls, all of which succeeded, and what they told in all. -/
inductive Shown (owners : Owners) (q : Query) (admits : Value → Bool) :
    List Poll → List (Notification Value) → Prop where
  | none : Shown owners q admits [] []
  | poll {ps : List Poll} {p : Poll} {ns ms : List (Notification Value)}
      (before : Shown owners q admits ps ns)
      (shows : p.Shows owners q admits (Replica.takeAll q.entity [] ns) ms) :
      Shown owners q admits (ps ++ [p]) (ns ++ ms)

namespace Shown

variable {admits : Value → Bool} {ps : List Poll} {ns : List (Notification Value)}

theorem told (h : Shown owners q admits ps ns) : ps.flatMap Poll.told = ns.map .ok := by
  induction h with
  | none => rfl
  | poll _ shows ih =>
    rw [List.flatMap_append, ih, List.map_append, ← shows.told]
    simp

/-- What one of the polls told comes after what those before it told. -/
theorem split (h : Shown owners q admits ps ns) {before after : List Poll} {p : Poll}
    (heq : ps = before ++ p :: after) :
    ∃ ms ms', Shown owners q admits before ms ∧
      p.Shows owners q admits (Replica.takeAll q.entity [] ms) ms' := by
  induction h generalizing after with
  | none => simp at heq
  | @poll ps last ns ms hbefore shows ih =>
    rcases List.eq_nil_or_concat after with rfl | ⟨after', last', rfl⟩
    · obtain ⟨rfl, hlast⟩ := List.append_inj' heq rfl
      cases hlast
      exact ⟨ns, ms, hbefore, shows⟩
    · have hassoc : ps ++ [last] = (before ++ p :: after') ++ [last'] := by
        rw [heq]
        simp
      exact ih (List.append_inj' hassoc rfl).1

theorem exists_shows (h : Shown owners q admits ps ns) {p : Poll} (hp : p ∈ ps) :
    ∃ held ms, p.Shows owners q admits held ms := by
  obtain ⟨before, after, heq⟩ := List.append_of_mem hp
  obtain ⟨ms, ms', _, hshows⟩ := h.split heq
  exact ⟨_, ms', hshows⟩

end Shown

/-- What is still to be delivered of a stream of changes. -/
def Changes.queued : Changes → List FeedItem
  | .tracked _ _ _ queued _ => queued
  | .polled _ _ _ queued _ _ => queued
  | _ => []

/-- The last poll failed, and was the first to fail. -/
def Failed (owners : Owners) (q : Query) (admits : Value → Bool) (ps : List Poll) : Prop :=
  ∃ before p ns f, ps = before ++ [p] ∧ Shown owners q admits before ns ∧ p.told = [.error f]

/-- A live query that polls waits to be pulled: what its polls told was delivered or is
queued, and what it tracks is what they told. -/
def Polling (owners : Owners) (below : List Layer) (q : Query) (run : Query.Compiled)
    (ps : List Poll) (received : List FeedItem) (source : Changes) (w : World) : Prop :=
  w.store.WellFormed owners ∧ ∃ tracker queued interval due,
    source = .polled below q.raw tracker queued interval due ∧
      received ++ queued = ps.flatMap Poll.told ∧
      match tracker with
      | some t => Tracks q run t ∧ ∃ ns, Shown owners q run.admits ps ns ∧
          Replica.takeAll q.entity [] ns = t.matched
      | none => Failed owners q run.admits ps

/-- What a pull comes to that was begun in the world `start`. -/
def Polls (owners : Owners) (below : List Layer) (q : Query) (run : Query.Compiled)
    (ps : List Poll) (received : List FeedItem) (start : World) : Pulled → World → Prop
  | .item i rest, w => Polling owners below q run ps (received ++ [i]) rest w
  | .again rest, w =>
      Polling owners below q run (ps ++ [⟨start.store, rest.queued, w.store⟩]) received rest w
  | .ended, _ => Failed owners q run.admits ps ∧ received = ps.flatMap Poll.told

section Pulling

variable {below : List Layer} {run : Query.Compiled} {ps : List Poll} {received : List FeedItem}
  {source : Changes} {t : Tracker}

theorem wellFormed_later (wf : w.store.WellFormed owners) (hw : Elsewhere owners w w') :
    w'.store.WellFormed owners := (hw.store.commits wf).wellFormed wf

theorem Polling.later (h : Polling owners below q run ps received source w)
    (hw : Elsewhere owners w w') : Polling owners below q run ps received source w' :=
  ⟨wellFormed_later h.1 hw, h.2⟩

/-- What a tracker tells of a full list is just what there was to tell. -/
theorem Poll.shows_diff {now : Store} (wf : now.WellFormed owners)
    (owned : owners q.entity.name = q.entity) (whole : run.Whole) (tracks : Tracks q run t)
    {asked answered : Store} (hasked : ByWrites owners asked now)
    (hanswered : ByWrites owners now answered) :
    Poll.Shows owners q run.admits t.matched
      ⟨asked, (t.diff (now.query q.raw run)).1.map .ok, answered⟩
      (t.diff (now.query q.raw run)).1 := by
  have hfull := tracks.inFull whole
  have hreports := Tracker.diff_reports tracks.sound hfull (now.query q.raw run)
  have hdistinct : ((now.query q.raw run).filterMap t.entity.keyTextOf?).Nodup := by
    rw [tracks.entity]
    exact Store.snapshot_distinct (q := q.raw) wf whole owned
  have hfound : ∀ key, t.found (now.query q.raw run) key =
      now.matching q.entity.name run.admits key := by
    intro key
    have hadmits : run.admits = t.query.admits := congrArg _ tracks.query.symm
    have hsnapshot := Tracker.found_snapshot (q := q.raw) wf owned whole tracks.entity hadmits key
    rw [← hadmits] at hsnapshot
    exact hsnapshot
  refine ⟨rfl, fun n hn => ?_, now, hasked, hanswered, fun key => ⟨?_, ?_⟩⟩
  · rw [← tracks.entity]
    exact hreports.stream.keyed n hn
  · rw [← hfound, ← tracks.entity]
    exact Tracker.diff_about tracks.sound hfull hdistinct key
  · rw [← hfound, ← tracks.entity, hreports.replay]
    exact Tracker.diff_agree tracks.sound.ascending hdistinct key

theorem ensures_pullPolled (passes : ∀ layer ∈ below, layer.PassesQueries)
    (owned : owners q.entity.name = q.entity) (compiled : q.raw.compile = .ok run)
    (h : Polling owners below q run ps received source w) :
    Ensures (listening owners) (Polls owners below q run ps received w)
      (source.pull Handler.ofLayers) w := by
  have hwhole := Query.whole_of_compile compiled
  obtain ⟨wf, tracker, queued, interval, due, rfl, hitems, hstate⟩ := h
  cases queued with
  | cons i rest =>
    have hnext : Polling owners below q run ps (received ++ [i])
        (.polled below q.raw tracker rest interval due) w :=
      ⟨wf, tracker, rest, interval, due, rfl, by rw [List.append_assoc]; exact hitems, hstate⟩
    exact fun w' hw' => hnext.later hw'
  | nil =>
    rw [List.append_nil] at hitems
    cases tracker with
    | none => exact fun w' _ => ⟨hstate, hitems⟩
    | some t =>
      obtain ⟨tracks, ns, hshown, hreplay⟩ := hstate
      -- the query waits until it is due, then it asks for all its entities
      intro w₁ hw₁ _ w₂ hw₂
      refine ⟨trivial, ?_⟩
      have hbegun : Elsewhere owners w w₂ := Elsewhere.trans hw₁ hw₂
      refine (ensures_entities passes rfl w₂).bind fun outcome w₃ hanswered w' hw' => ?_
      have hsince := (hbegun.trans hanswered.1).trans hw'
      refine ⟨wellFormed_later wf hsince, _, _, interval, _, rfl, ?_, ?_⟩
      · rw [List.flatMap_append, hitems]
        simp [Changes.queued]
      · cases outcome with
        | error f => exact ⟨ps, _, ns, f, rfl, hshown, rfl⟩
        | ok entities =>
          obtain ⟨run', now, hrun, hnow, hw₃, rfl⟩ := hanswered.2 entities rfl
          obtain rfl : run = run' := Except.ok.inj (compiled.symm.trans hrun)
          have hreports := Tracker.diff_reports tracks.sound (tracks.inFull hwhole)
            (now.store.query q.raw run)
          have hshows := Poll.shows_diff (wellFormed_later wf (hbegun.trans hnow)) owned hwhole
            tracks (hbegun.trans hnow).store (hw₃.trans hw').store
          refine ⟨tracks.reports hreports, ns ++ (t.diff (now.store.query q.raw run)).1,
            .poll hshown (hreplay ▸ hshows), ?_⟩
          rw [Replica.takeAll_append, hreplay, ← tracks.entity]
          exact hreports.replay

theorem Polling.delivered (h : Polling owners below q run ps received source w) :
    received ++ source.queued = ps.flatMap Poll.told := by
  obtain ⟨_, _, _, _, _, rfl, hitems, _⟩ := h
  exact hitems

/-- Every poll but a failed last one told what there was to tell. -/
theorem Polling.split (h : Polling owners below q run ps received source w) {before after : List Poll}
    {p : Poll} (heq : ps = before ++ p :: after) :
    ∃ ns, before.flatMap Poll.told = ns.map .ok ∧
      ((∃ ms, p.Shows owners q run.admits (Replica.takeAll q.entity [] ns) ms) ∨
        ((∃ f, p.told = [.error f]) ∧ after = [])) := by
  obtain ⟨_, tracker, _, _, _, _, _, hstate⟩ := h
  cases tracker with
  | some t =>
    obtain ⟨_, ns, hshown, _⟩ := hstate
    obtain ⟨ms, ms', hbefore, hshows⟩ := hshown.split heq
    exact ⟨ms, hbefore.told, .inl ⟨ms', hshows⟩⟩
  | none =>
    obtain ⟨earlier, last, ns, f, rfl, hshown, hlast⟩ := hstate
    rcases List.eq_nil_or_concat after with rfl | ⟨after', last', rfl⟩
    · obtain ⟨rfl, hsame⟩ := List.append_inj' heq rfl
      cases hsame
      exact ⟨ns, hshown.told, .inr ⟨⟨f, hlast⟩, rfl⟩⟩
    · have hassoc : earlier ++ [last] = (before ++ p :: after') ++ [last'] := by
        rw [heq]
        simp
      obtain ⟨ms, ms', hbefore, hshows⟩ := hshown.split (List.append_inj' hassoc rfl).1
      exact ⟨ms, hbefore.told, .inl ⟨ms', hshows⟩⟩

/-- The stream ends when a failed poll was delivered, and only then. -/
theorem Polling.ends_iff (h : Polling owners below q run ps received source w)
    (hpull : Ensures (listening owners) (Polls owners below q run ps received w)
      (source.pull Handler.ofLayers) w) :
    (∃ w', Goes (Elsewhere owners) (source.pull Handler.ofLayers) w (.done .ended) w') ↔
      source.queued = [] ∧ ∃ p ∈ ps, ∃ f, p.told = [.error f] := by
  obtain ⟨_, tracker, queued, interval, due, rfl, hitems, hstate⟩ := h
  constructor
  · intro hended
    obtain ⟨w', goes⟩ := hended
    obtain ⟨⟨before, p, ns, f, rfl, _, hlast⟩, hdelivered⟩ := (hpull.goes goes).result
    refine ⟨?_, p, by simp, f, hlast⟩
    rw [← hdelivered] at hitems
    exact List.append_right_eq_self.1 hitems
  · intro hfailed
    obtain ⟨hqueued, p, hp, f, hlast⟩ := hfailed
    cases tracker with
    | some t =>
      obtain ⟨_, ns, hshown, _⟩ := hstate
      obtain ⟨_, ms, hshows⟩ := hshown.exists_shows hp
      -- a poll that succeeded told no failure
      have htold : ms.map Except.ok = [.error f] := hshows.told.symm.trans hlast
      cases ms with
      | nil => cases htold
      | cons n rest => cases htold
    | none =>
      obtain rfl : queued = [] := hqueued
      exact ⟨w, .refl⟩

end Pulling

/-! ## Opening -/

namespace Query

/-- The compiled query for the entities behind a query, in full. -/
def Compiled.raw (run : Compiled) : Compiled :=
  { run with mapping := none, skip := 0, limit := none, properties := [] }

theorem compile_raw {run : Compiled} (compiled : q.compile = .ok run) : q.raw.compile = .ok run.raw := by
  unfold compile at compiled ⊢
  obtain ⟨predicate, hpredicate, compiled⟩ := Outcome.bind_ok compiled
  obtain ⟨mapping, _, compiled⟩ := Outcome.bind_ok compiled
  obtain ⟨keys, hkeys, compiled⟩ := Outcome.bind_ok compiled
  cases compiled
  have hpredicate' : q.raw.predicate.mapM Expr.compile = .ok predicate := hpredicate
  have hkeys' : (q.raw.sorting.mapM fun s => SortKey.compile s.expr s.ascending) = .ok keys := hkeys
  rw [hpredicate', hkeys']
  rfl

/-- The query behind a valid one compiles. -/
theorem compile_raw_of_valid (valid : q.validate = .ok ()) : ∃ run, q.raw.compile = .ok run := by
  obtain ⟨_, run, compiled⟩ := validate_eq_ok.1 valid
  exact ⟨run.raw, compile_raw compiled⟩

end Query

/-- A live query that was opened has polled nothing yet. -/
def PollingOpened (owners : Owners) (below : List Layer) (q : Query) :
    Outcome Changes → World → Prop
  | .ok source, w => ∃ run, q.raw.compile = .ok run ∧ Polling owners below q run [] [] source w
  | .error _, _ => False

/-- Without a feed a valid live query is opened, to poll. -/
theorem LiveQuery.ensures_openPolling (interval : Nat) {below : List Layer} (next : Handler)
    (valid : q.validate = .ok ()) (unshaped : q.Unshaped) (wf : w.store.WellFormed owners)
    (feedless : Layer.offersFeed w.offersFeed below = false) :
    Ensures (listening owners) (PollingOpened owners below q)
      (openChanges interval below next q).run w := by
  obtain ⟨run, compiled⟩ := Query.compile_raw_of_valid valid
  refine Work.ensures_bind (Work.ensures_outcome _ q.validate w) ?_ ?_
  · intro _ w₁ hend
    obtain ⟨hw₁, _⟩ := hend
    refine Work.ensures_bind (Work.ensures_read (fun _ => trivial) id w₁) ?_ ?_
    · intro _ w₂ hend
      obtain ⟨now, hnow, hw₂, ⟨⟩⟩ := hend
      have htracker : Tracker.ofQuery now.catalog q = .ok { entity := q.entity, query := run } := by
        unfold Tracker.ofQuery
        rw [unshaped.shaping_eq, compiled]
        rfl
      have hnone : Layer.offersFeed now.offersFeed below = false :=
        (hw₁.trans hnow).offersFeed ▸ feedless
      have hblank : Tracker.Blank { entity := q.entity, query := run } := ⟨rfl, rfl⟩
      refine Work.ensures_bind (Work.ensures_outcome _ (Tracker.ofQuery now.catalog q) w₂) ?_ ?_
      · intro t w₃ hend
        obtain ⟨hw₃, ht⟩ := hend
        rw [htracker] at ht
        cases ht
        show Ensures _ _ (if Layer.offersFeed now.offersFeed below then _ else _ : Work Changes).run w₃
        rw [hnone, if_neg Bool.false_ne_true]
        split
        · exact trivial
        · intro w' hw'
          have hsince := (((hw₁.trans hnow).trans hw₂).trans hw₃).trans hw'
          exact ⟨run, compiled, wellFormed_later wf hsince, _, [], interval, _, rfl, rfl,
            ⟨rfl, rfl, hblank.sound⟩, [], .none, rfl⟩
      · intro e w₃ hend
        rw [htracker] at hend
        cases hend.2
    · intro e w₂ hend
      obtain ⟨_, _, _, ⟨⟩⟩ := hend
  · intro e w₁ hend
    rw [valid] at hend
    cases hend.2

/-! ## Histories -/

/-- What happens to a live query over time: it is opened, others write, it is pulled and
delivers an item, or it is pulled and polls. -/
inductive History (owners : Owners) (interval : Nat) (below : List Layer) (q : Query) (start : World) :
    List Poll → List FeedItem → Changes → World → Prop where
  | opened {source : Changes} {w : World}
      (goes : Goes (Elsewhere owners)
        (Handler.ofLayers (.live interval :: below) (.live q)).run start (.done (.ok source)) w) :
      History owners interval below q start [] [] source w
  | elsewhere {ps : List Poll} {received : List FeedItem} {source : Changes} {w w' : World}
      (before : History owners interval below q start ps received source w)
      (goes : Elsewhere owners w w') : History owners interval below q start ps received source w'
  | delivered {ps : List Poll} {received : List FeedItem} {source rest : Changes} {i : FeedItem}
      {w w' : World} (before : History owners interval below q start ps received source w)
      (goes : Goes (Elsewhere owners) (source.pull Handler.ofLayers) w (.done (.item i rest)) w') :
      History owners interval below q start ps (received ++ [i]) rest w'
  | polled {ps : List Poll} {received : List FeedItem} {source rest : Changes} {w w' : World}
      (before : History owners interval below q start ps received source w)
      (goes : Goes (Elsewhere owners) (source.pull Handler.ofLayers) w (.done (.again rest)) w') :
      History owners interval below q start (ps ++ [⟨w.store, rest.queued, w'.store⟩]) received
        rest w'

namespace History

variable {interval : Nat} {below : List Layer} {start now : World} {ps : List Poll}
  {received : List FeedItem} {source : Changes}

theorem polling (h : History owners interval below q start ps received source now)
    (passes : ∀ layer ∈ below, layer.PassesQueries) (owned : owners q.entity.name = q.entity)
    (valid : q.validate = .ok ()) (unshaped : q.Unshaped) (wf : start.store.WellFormed owners)
    (feedless : Layer.offersFeed start.offersFeed below = false) :
    ∃ run, q.raw.compile = .ok run ∧ Polling owners below q run ps received source now := by
  induction h with
  | opened goes =>
    have hopens := LiveQuery.ensures_openPolling interval (Handler.ofLayers below) valid unshaped
      wf feedless
    exact (hopens.goes goes).result
  | elsewhere _ goes ih =>
    obtain ⟨run, hrun, hpolling⟩ := ih
    exact ⟨run, hrun, hpolling.later goes⟩
  | delivered _ goes ih =>
    obtain ⟨run, hrun, hpolling⟩ := ih
    exact ⟨run, hrun, ((ensures_pullPolled passes owned hrun hpolling).goes goes).result⟩
  | polled _ goes ih =>
    obtain ⟨run, hrun, hpolling⟩ := ih
    exact ⟨run, hrun, ((ensures_pullPolled passes owned hrun hpolling).goes goes).result⟩

/-- Whatever is written at whatever times, a live query that polls is opened, and delivers
what its polls tell. Each poll that succeeds tells of each key how the row that matches
differs from the value told last, once if it does and not at all if it does not; all that
was told so far then replays to the rows that match. A poll that fails is told as one
failure and is the last, and the stream ends when it is delivered, and only then. -/
theorem polls_exactly (h : History owners interval below q start ps received source now)
    (passes : ∀ layer ∈ below, layer.PassesQueries) (owned : owners q.entity.name = q.entity)
    (valid : q.validate = .ok ()) (unshaped : q.Unshaped) (wf : start.store.WellFormed owners)
    (feedless : Layer.offersFeed start.offersFeed below = false) :
    (∀ e w', ¬Goes (Elsewhere owners)
      (Handler.ofLayers (.live interval :: below) (.live q)).run start (.done (.error e)) w') ∧
    ∃ run, q.compile = .ok run ∧ received ++ source.queued = ps.flatMap Poll.told ∧
      (∀ before p after, ps = before ++ p :: after →
        ∃ ns, before.flatMap Poll.told = ns.map .ok ∧
          ((∃ ms, p.Shows owners q run.admits (Replica.takeAll q.entity [] ns) ms) ∨
            ((∃ f, p.told = [.error f]) ∧ after = []))) ∧
      ((∃ w', Goes (Elsewhere owners) (source.pull Handler.ofLayers) now (.done .ended) w') ↔
        source.queued = [] ∧ ∃ p ∈ ps, ∃ f, p.told = [.error f]) := by
  refine ⟨fun e w' goes => ?_, ?_⟩
  · have hopens := LiveQuery.ensures_openPolling interval (Handler.ofLayers below) valid unshaped
      wf feedless
    exact (hopens.goes goes).result
  · obtain ⟨raw, hraw, hpolling⟩ := h.polling passes owned valid unshaped wf feedless
    obtain ⟨run, hrun, hadmits⟩ := unshaped.compile_of_raw hraw
    refine ⟨run, hrun, hpolling.delivered, fun before p after heq => ?_,
      hpolling.ends_iff (ensures_pullPolled passes owned hraw hpolling)⟩
    rw [hadmits]
    exact hpolling.split heq

end History

/-! ## A run -/

/-- How far a live query that polls has come. -/
structure Diary where
  polls : List Poll
  received : List FeedItem
  source : Changes
  world : World

/-- What comes next: others write something, and time passes, or the live query is pulled and
left alone meanwhile. -/
inductive Visit where
  | others (write : Write) (now : Nat)
  | pull

namespace Diary

/-- The entries after what comes next. -/
def visit (d : Diary) : Visit → Diary
  | .others write now =>
    { d with world := { d.world with store := write.after d.world.store, now := now } }
  | .pull =>
    match (d.source.pull Handler.ofLayers).alone d.world with
    | some (.item i rest, w) => ⟨d.polls, d.received ++ [i], rest, w⟩
    | some (.again rest, w) =>
      ⟨d.polls ++ [⟨d.world.store, rest.queued, w.store⟩], d.received, rest, w⟩
    | _ => d

/-- The entries tell a history. -/
def Tells (owners : Owners) (interval : Nat) (below : List Layer) (q : Query) (start : World)
    (d : Diary) : Prop :=
  History owners interval below q start d.polls d.received d.source d.world

variable {interval : Nat} {below : List Layer} {start : World}

theorem Tells.visit {d : Diary} (h : d.Tells owners interval below q start) {v : Visit}
    (owned : ∀ write now, v = .others write now → write.OwnedBy owners) :
    (d.visit v).Tells owners interval below q start := by
  unfold Diary.visit
  cases v with
  | others write now =>
    have howned : ∀ w ∈ [write], w.OwnedBy owners := fun w hw =>
      List.mem_singleton.1 hw ▸ owned write now rfl
    exact .elsewhere h ⟨⟨[write], howned, rfl⟩, rfl, rfl, rfl⟩
  | pull =>
    cases halone : (d.source.pull Handler.ofLayers).alone d.world with
    | none => exact h
    | some end_ =>
      obtain ⟨pulled, w⟩ := end_
      have hgoes : Goes (Elsewhere owners) (d.source.pull Handler.ofLayers) d.world
          (.done pulled) w := Job.goes_of_alone halone
      cases pulled with
      | item i rest => exact .delivered h hgoes
      | again rest => exact .polled h hgoes
      | ended => exact h

theorem Tells.visits {d : Diary} (h : d.Tells owners interval below q start) {visits : List Visit}
    (owned : ∀ write now, .others write now ∈ visits → write.OwnedBy owners) :
    (visits.foldl Diary.visit d).Tells owners interval below q start := by
  induction visits generalizing d with
  | nil => exact h
  | cons v rest ih =>
    refine ih (h.visit fun write now heq => ?_) fun write now hin =>
      owned write now (List.mem_cons_of_mem v hin)
    exact owned write now (heq ▸ List.mem_cons_self)

end Diary

namespace Shop

/-- The shop over a store without a feed, where the third query fails. -/
def feedless : World := { catalog := catalog, offersFeed := false, counters := [0] }

/-- What stands between the live query and the store. -/
def flaky : List Layer := [.failing 0 .query 2 (.unavailable "query") false]

/-- A lamp comes, and the live query polls. Then the lamp is switched off and a desk comes,
it polls again, and fails when it polls once more. -/
def visits : List Visit :=
  [.others (.insert product (item "a" "lamp" true)) 0, .pull, .pull,
    .others (.update product (item "a" "lamp" false) none) 500,
    .others (.insert product (item "b" "desk" true)) 1000, .pull, .pull, .pull,
    .others (.delete product (.text "a")) 2000, .pull, .pull]

/-- The live query for active products, when it was opened. -/
def polled : Diary :=
  match (Handler.ofLayers (.live 1000 :: flaky) (.live activeProducts)).run.alone feedless with
  | some (.ok source, w) => ⟨[], [], source, w⟩
  | _ => ⟨[], [], .channel 0, feedless⟩

/-- The entries after all visits. -/
def visited : Diary := visits.foldl Diary.visit polled

theorem lamp_polled :
    (visited.polls.map Poll.told =
      [[.ok (.create (item "a" "lamp" true))],
        [.ok (.delete (item "a" "lamp" true)), .ok (.create (item "b" "desk" true))],
        [.error (.unavailable "query")]]) ∧
    visited.Tells Shop.owners 1000 flaky activeProducts feedless ∧
    ∃ run, activeProducts.compile = .ok run ∧
      visited.received ++ visited.source.queued = visited.polls.flatMap Poll.told ∧
      (∀ before p after, visited.polls = before ++ p :: after →
        ∃ ns, before.flatMap Poll.told = ns.map .ok ∧
          ((∃ ms, p.Shows Shop.owners activeProducts run.admits (Replica.takeAll product [] ns) ms) ∨
            ((∃ f, p.told = [.error f]) ∧ after = []))) ∧
      ∃ w', Goes (Elsewhere Shop.owners) (visited.source.pull Handler.ofLayers) visited.world
        (.done .ended) w' := by
  have owned : ∀ write now, .others write now ∈ visits → write.OwnedBy Shop.owners := by
    intro write now hin
    simp only [visits, List.mem_cons, Visit.others.injEq, reduceCtorEq, List.not_mem_nil,
      false_or, or_false] at hin
    rcases hin with ⟨rfl, _⟩ | ⟨rfl, _⟩ | ⟨rfl, _⟩ | ⟨rfl, _⟩ <;> rfl
  have opened : polled.Tells Shop.owners 1000 flaky activeProducts feedless :=
    .opened (Job.goes_of_alone rfl)
  have told : visited.polls.map Poll.told =
      [[.ok (.create (item "a" "lamp" true))],
        [.ok (.delete (item "a" "lamp" true)), .ok (.create (item "b" "desk" true))],
        [.error (.unavailable "query")]] := by rfl
  have tells := opened.visits owned
  have passes : ∀ layer ∈ flaky, layer.PassesQueries := by
    intro layer hlayer
    rw [List.mem_singleton.1 hlayer]
    exact trivial
  obtain ⟨_, run, hrun, hdelivered, hpolls, hends⟩ := History.polls_exactly tells passes rfl rfl
    ⟨rfl, rfl⟩ (.empty Shop.owners) rfl
  have failed : ∃ p ∈ visited.polls, ∃ f, p.told = [.error f] := by
    have hin : [.error (.unavailable "query")] ∈ visited.polls.map Poll.told := by
      rw [told]
      simp
    obtain ⟨p, hp, hlast⟩ := List.mem_map.1 hin
    exact ⟨p, hp, _, hlast⟩
  exact ⟨told, tells, run, hrun, hdelivered, hpolls, hends.2 ⟨by rfl, failed⟩⟩

end Shop

end LiveRecords

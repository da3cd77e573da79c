import LiveRecords.Proofs.Live.Convergence

/-
  A live query after a failure.

  A subscriber whose feed has dropped events catches up with a snapshot. If no snapshot
  can be read the failure is delivered, and the feed goes on behind the events that were
  dropped: nothing tells the subscriber of them again (`Shop.missed_for_good`).

  What the subscriber holds of a key is then old, but never wrong: it is what the store
  held under the key at some moment. It is what the store holds now for every key that no
  event is about since all was well, and for every key that an event is about since a
  moment, if no failure was delivered since that moment (`Scene.recovers`).
-/

namespace LiveRecords

/-! ## Keys that nothing happens to -/

/-- None of the events between two places of the journal is about a key. -/
def Store.Silent (owners : Owners) (s : Store) (table key : String) (m n : Nat) : Prop :=
  ∀ i e, m ≤ i → i < n → s.journal[i]? = some e → e.concerns owners table key = false

namespace Store.Silent

variable {owners : Owners} {s s' : Store} {table key : String} {m n : Nat}

theorem of_le (h : n ≤ m) : s.Silent owners table key m n := by
  intro i e hm hn
  omega

theorem succ {e : StoreEvent} (h : s.Silent owners table key m n) (he : s.journal[n]? = some e)
    (other : e.concerns owners table key = false) : s.Silent owners table key m (n + 1) := by
  intro i e' hm hn he'
  rcases Nat.lt_succ_iff_lt_or_eq.1 hn with hlt | rfl
  · exact h i e' hm hlt he'
  · obtain rfl : e = e' := Option.some.inj (he.symm.trans he')
    exact other

theorem later (h : s.Silent owners table key m n) (hs : Commits owners s s')
    (wf : s.WellFormed owners) (hle : n ≤ s.journal.size) : s'.Silent owners table key m n := by
  intro i e hm hn he
  obtain ⟨new, hnew⟩ := hs.journal_append wf
  have hlt : i < s.journal.toList.length := by
    rw [Array.length_toList]
    omega
  rw [← Array.getElem?_toList, hnew, List.getElem?_append_left hlt, Array.getElem?_toList] at he
  exact h i e hm hn he

end Store.Silent

namespace Tracker

variable {owners : Owners} {s s' : Store} {t : Tracker} {since place low : Nat}

/-- A tracker that is abreast of a key stays so while no event is about the key. -/
theorem Abreast.of_silent {key : String} (h : Abreast owners s low t key)
    (silent : s.Silent owners t.entity.name key low place) (hle : place ≤ s.journal.size) :
    Abreast owners s (max low place) t key := by
  induction place with
  | zero => exact h.before (by omega)
  | succ n ih =>
    have hn := ih (fun i e hm hlt => silent i e hm (by omega)) (by omega)
    rcases Nat.lt_or_ge n low with hlt | hge
    · exact hn.before (by omega)
    · have he : s.journal[n]? = some s.journal[n] := Array.getElem?_eq_getElem (by omega)
      rw [Nat.max_eq_right hge] at hn
      exact (hn.pass he (silent n _ hge (by omega) he)).before (by omega)

/-- Taking an event a tracker does not fall behind where it was. -/
theorem Follows.apply_behind {e : StoreEvent} (h : Follows owners s low t)
    (hs : Commits owners {} s) (sound : t.Sound) (full : t.InFull)
    (owned : owners t.entity.name = t.entity) (he : s.journal[place]? = some e)
    (table : e.table = t.entity.name) : Follows owners s low (t.apply e.toNotification).2 := by
  intro key
  rcases h.apply_cases hs sound full owned he table key with habout | ⟨_, hstays⟩
  · exact habout.before (Nat.le_max_left ..)
  · exact hstays low (h key)

/-! ## Following since a moment -/

/-- A tracker is abreast of every key that an event is about since a moment. -/
def FollowsSince (owners : Owners) (s : Store) (since place : Nat) (t : Tracker) : Prop :=
  ∀ key, t.Abreast owners s place key ∨ s.Silent owners t.entity.name key since place

namespace FollowsSince

theorem of_le (h : place ≤ since) : FollowsSince owners s since place t := fun _ => .inr (.of_le h)

theorem of_follows (h : Follows owners s place t) : FollowsSince owners s since place t :=
  fun key => .inl (h key)

theorem later (h : FollowsSince owners s since place t) (hs : Commits owners s s')
    (wf : s.WellFormed owners) (hle : place ≤ s.journal.size) :
    FollowsSince owners s' since place t :=
  fun key => (h key).imp (·.later hs wf) (·.later hs wf hle)

theorem skip {e : StoreEvent} (h : FollowsSince owners s since place t)
    (he : s.journal[place]? = some e) (table : e.table ≠ t.entity.name) :
    FollowsSince owners s since (place + 1) t := by
  intro key
  have hother : e.concerns owners t.entity.name key = false := StoreEvent.concerns_of_ne table key
  exact (h key).imp (·.pass he hother) (·.succ he hother)

theorem apply {e : StoreEvent} (h : FollowsSince owners s since place t)
    (follows : Follows owners s low t) (hs : Commits owners {} s) (sound : t.Sound)
    (full : t.InFull) (owned : owners t.entity.name = t.entity)
    (he : s.journal[place]? = some e) (table : e.table = t.entity.name) :
    FollowsSince owners s since (place + 1) (t.apply e.toNotification).2 := by
  intro key
  rw [(apply_reports sound full e.toNotification).entity]
  rcases follows.apply_cases hs sound full owned he table key with habout | ⟨hother, hstays⟩
  · exact .inl (habout.before (Nat.le_max_right ..))
  · exact (h key).imp (fun habreast => (hstays place habreast).pass he (hother _))
      (·.succ he (hother _))

end FollowsSince

end Tracker

/-! ## What the deliveries come to -/

/-- The notifications among the items of a feed. -/
def notices (items : List FeedItem) : List (Notification Value) := items.filterMap Except.toOption

theorem notices_append (a b : List FeedItem) : notices (a ++ b) = notices a ++ notices b :=
  List.filterMap_append

theorem notices_ok (ns : List (Notification Value)) : notices (ns.map .ok) = ns := by
  unfold notices
  rw [List.filterMap_map]
  exact List.filterMap_some

/-- The notifications lead to the tracked set, which is never older than a moment; and as
long as nothing that failed was delivered since another moment, the tracker follows since
then. -/
structure Told (owners : Owners) (q : Query) (low : Nat) (before : List FeedItem) (since : Nat)
    (delivered : List FeedItem) (t : Tracker) (place : Nat) (s : Store) : Prop where
  began : before <+: delivered
  follows : t.Follows owners s low
  replay : Replica.takeAll q.entity [] (notices delivered) = t.matched
  unfailing : ∀ ns : List (Notification Value), delivered = before ++ ns.map .ok →
    t.FollowsSince owners s since place

namespace Told

variable {owners : Owners} {q : Query} {low since : Nat} {before : List FeedItem}

/-- What a tracker reports joins what was delivered before. -/
theorem reports {delivered : List FeedItem} {changes : List (Notification Value)} {t t' : Tracker}
    {low' place place' : Nat} {s s' : Store} (h : Told owners q low before since delivered t place s)
    (entity : t.entity = q.entity) (hr : Tracker.Reports t changes t')
    (follows : t'.Follows owners s' low')
    (unfailing : t.FollowsSince owners s since place → t'.FollowsSince owners s' since place') :
    Told owners q low' before since (delivered ++ changes.map .ok) t' place' s' where
  began := h.began.trans (List.prefix_append ..)
  follows := follows
  replay := by
    rw [notices_append, notices_ok, Replica.takeAll_append, h.replay, ← entity]
    exact hr.replay
  unfailing ns hns := by
    obtain ⟨more, rfl⟩ := h.began
    rw [List.append_assoc] at hns
    obtain ⟨first, _, _, hfirst, _⟩ := List.map_eq_append_iff.1 (List.append_cancel_left hns).symm
    exact unfailing (h.unfailing first (by rw [hfirst]))

theorem opens : Account.Opens owners q (Told owners q 0 [] 0) := by
  intro t place s owned compiled entity blank grown hle
  have hwhole := Query.whole_of_compile compiled
  have hwf : s.WellFormed owners := Commits.wellFormed grown (.empty owners)
  have hblank : Told owners q 0 [] 0 [] t 0 s :=
    ⟨List.prefix_rfl, .of_blank blank, blank.matched.symm, fun _ _ => .of_le (Nat.le_refl 0)⟩
  have hfollows := Tracker.Follows.snapshot grown owned hwhole blank entity rfl
  exact hblank.reports entity (Tracker.opened_reports hwf owned compiled entity blank)
    (hfollows.before (Nat.zero_le _)) fun _ => .of_follows (hfollows.before hle)

theorem lasting : Account.Lasting owners q (Told owners q low before since) where
  later h hle wf hs :=
    ⟨h.began, h.follows.later hs wf, h.replay, fun ns hns => (h.unfailing ns hns).later hs wf hle⟩
  skips h attended he table :=
    ⟨h.began, h.follows, h.replay,
      fun ns hns => (h.unfailing ns hns).skip he (attended.tracks.entity ▸ table)⟩
  takes h attended he table := by
    obtain ⟨owned, whole, tracks, grown⟩ := attended
    have hfull := tracks.inFull whole
    have howned := tracks.entity ▸ owned
    have htable := tracks.entity ▸ table
    exact h.reports tracks.entity (Tracker.apply_reports tracks.sound hfull _)
      (h.follows.apply_behind grown tracks.sound hfull howned he htable)
      (·.apply h.follows grown tracks.sound hfull howned he htable)
  misses h := ⟨h.began, h.follows, h.replay, fun _ _ => .of_le (Nat.zero_le _)⟩
  catchesUp h attended hle := by
    obtain ⟨owned, whole, tracks, grown⟩ := attended
    have hfull := tracks.inFull whole
    -- whatever was missed before, the snapshot shows it
    have hfollows := (h.follows.before (Nat.zero_le _)).resync grown owned whole tracks.sound hfull
      tracks.entity (congrArg Query.Compiled.admits tracks.query).symm
    exact h.reports tracks.entity (Tracker.resync_reports tracks.sound hfull _)
      (hfollows.before h.follows.le_size) fun _ => .of_follows (hfollows.before hle)
  fails {delivered t place s} f h := by
    refine ⟨h.began.trans (List.prefix_append ..), h.follows, ?_, fun ns hns => ?_⟩
    · rw [notices_append]
      exact (congrArg _ (List.append_nil _)).trans h.replay
    · -- the failure is delivered since the moment, so nothing more is promised
      obtain ⟨more, rfl⟩ := h.began
      rw [List.append_assoc] at hns
      obtain ⟨_, last, _, _, hlast⟩ :=
        List.map_eq_append_iff.1 (List.append_cancel_left hns).symm
      cases last with
      | nil => cases hlast
      | cons n rest => cases hlast

end Told

/-! ## Moments of a subscription -/

namespace Scene

/-- The subscriber waits between two pulls. -/
def Resting : Scene → Prop
  | ⟨_, .resting _, _⟩ => True
  | _ => False

/-- No failure was delivered between two scenes. -/
def Unfailing (a b : Scene) : Prop :=
  ∃ ns : List (Notification Value), b.received = a.received ++ ns.map .ok

/-- No event between two scenes is about a key. -/
abbrev Silent (owners : Owners) (table key : String) (a b : Scene) : Prop :=
  b.world.store.Silent owners table key a.world.store.journal.size b.world.store.journal.size

/-- What a subscriber holds under a key who replays the notifications delivered. -/
def held (q : Query) (key : String) (b : Scene) : Option Value :=
  (Replica.takeAll q.entity [] (notices b.received)).get? key

variable {owners : Owners} {q : Query} {account : Account} {a b c : Scene}

/-- What an account says of a subscriber who has read all there is. -/
theorem Keeps.of_drained (h : b.Keeps owners q account) (drained : b.Drained) :
    ∃ raw t id, q.raw.compile = .ok raw ∧ Tracks q raw t ∧
      b.subscription = .resting (.tracked [] q.raw t [] (.feed id q.entity.name)) ∧
      Placed owners id b.world.store.journal.size b.world ∧
      account b.received t b.world.store.journal.size b.world.store := by
  obtain ⟨now, sub, delivered⟩ := b
  cases sub with
  | resting source =>
    obtain ⟨raw, hraw, t, queued, id, place, rfl, hplaced, htracks, haccount⟩ := h
    cases queued with
    | cons i rest => cases drained
    | nil =>
      obtain rfl : place = now.store.journal.size := place_eq_of_drained hplaced drained
      rw [List.append_nil] at haccount
      exact ⟨raw, t, id, hraw, htracks, rfl, hplaced, haccount⟩
  | opening job => cases drained
  | pulling job => cases drained
  | closed => cases drained

/-- A subscriber who has read all there is, and was delivered no failure, will not fall
behind where they are. -/
theorem Keeps.told_of_drained (h : c.Keeps owners q (InStep owners q)) (drained : c.Drained)
    {ns : List (Notification Value)} (received : c.received = ns.map .ok) :
    c.Keeps owners q (Told owners q c.world.store.journal.size c.received
      c.world.store.journal.size) := by
  obtain ⟨raw, t, id, hraw, htracks, hsub, hplaced, hstep⟩ := h.of_drained drained
  obtain ⟨now, sub, delivered⟩ := c
  obtain ⟨hfollows, hreplay⟩ := hstep ns received
  obtain rfl : delivered = ns.map .ok := received
  obtain rfl : sub = _ := hsub
  refine ⟨raw, hraw, t, [], id, _, rfl, hplaced, htracks, ?_⟩
  rw [List.append_nil]
  exact ⟨List.prefix_rfl, hfollows, by rw [notices_ok]; exact hreplay,
    fun _ _ => .of_le (Nat.le_refl _)⟩

/-- From a scene in which the subscriber waits, what is told may be told since then. -/
theorem Keeps.again {low since : Nat} {before : List FeedItem}
    (h : a.Keeps owners q (Told owners q low before since)) (resting : a.Resting) :
    a.Keeps owners q (Told owners q low a.received a.world.store.journal.size) := by
  obtain ⟨now, sub, received⟩ := a
  cases sub with
  | resting source =>
    obtain ⟨raw, hraw, t, queued, id, place, hsource, hplaced, htracks, htold⟩ := h
    exact ⟨raw, hraw, t, queued, id, place, hsource, hplaced, htracks, List.prefix_append ..,
      htold.follows, htold.replay, fun _ _ => .of_le hplaced.le⟩
  | opening job => cases resting
  | pulling job => cases resting
  | closed => cases resting

/-- What a subscriber who has read all there is holds is what the tracker says. -/
theorem Keeps.held_eq {low since : Nat} {before : List FeedItem} {run : Query.Compiled}
    (h : b.Keeps owners q (Told owners q low before since)) (drained : b.Drained)
    (unshaped : q.Unshaped) (compiled : q.compile = .ok run) :
    ∃ t : Tracker, t.entity = q.entity ∧ t.query.admits = run.admits ∧ b.world.Grown owners ∧
      Told owners q low before since b.received t b.world.store.journal.size b.world.store ∧
        ∀ key, b.held q key = t.matched.get? key := by
  obtain ⟨raw, t, id, hraw, htracks, _, hplaced, htold⟩ := h.of_drained drained
  obtain ⟨run', hrun', hadmits⟩ := unshaped.compile_of_raw hraw
  obtain rfl : run = run' := Except.ok.inj (compiled.symm.trans hrun')
  refine ⟨t, htracks.entity, ?_, hplaced.grown, htold, fun key => ?_⟩
  · rw [htracks.query, hadmits]
  · unfold held
    rw [htold.replay]

/-- Whenever a subscriber has read all there is, whatever failures were delivered: what they
hold under a key was the row that matched at some moment. It is the row that matches now if
no event is about the key since a scene in which the subscriber had read all there was and
no failure had been delivered; and also if an event is about the key since a scene in which
the subscriber waited, and no failure was delivered since. -/
theorem recovers (owners : Owners) (interval : Nat) (q : Query) (w : World)
    (owned : owners q.entity.name = q.entity) (unshaped : q.Unshaped) (empty : w.store = {})
    (feed : w.feed.WellFormed) (offers : w.offersFeed = true) (b : Scene)
    (runs : Runs owners (start interval q w) b) (drained : b.Drained) :
    ∃ run, q.compile = .ok run ∧ ∀ key,
      (∃ n, n ≤ b.world.store.journal.size ∧
        Agree (b.held q key)
          (((heldAt owners b.world.store.journal n q.entity.name key).row?.map Row.value).filter
            run.admits)) ∧
      ((∃ c, Runs owners (start interval q w) c ∧ c.Drained ∧ Unfailing (start interval q w) c ∧
          Runs owners c b ∧ Silent owners q.entity.name key c b) ∨
        (∃ a, Runs owners (start interval q w) a ∧ a.Resting ∧ Runs owners a b ∧
          Unfailing a b ∧ ¬Silent owners q.entity.name key a b) →
        Agree (b.held q key)
          (((b.world.store.table q.entity.name).rows.get? key |>.map Row.value).filter
            run.admits)) := by
  have hstart := start_keeps interval Told.opens Told.lasting owned unshaped empty feed offers
  have hb := runs.keeps Told.lasting owned hstart
  obtain ⟨raw, _, _, hraw, _⟩ := hb.of_drained drained
  obtain ⟨run, hrun, _⟩ := unshaped.compile_of_raw hraw
  refine ⟨run, hrun, fun key => ⟨?_, ?_⟩⟩
  · obtain ⟨t, hentity, hadmits, _, htold, hheld⟩ := hb.held_eq drained unshaped hrun
    obtain ⟨n, _, hn, _, hagree⟩ := htold.follows key
    rw [hheld, ← hadmits, ← hentity]
    exact ⟨n, hn, hagree⟩
  rintro (⟨c, hc, hdrained, ⟨ns, hns⟩, onward, hsilent⟩ | ⟨a, ha, hresting, onward, ⟨ns, hns⟩, hloud⟩)
  · -- the key is as it was when all was well
    have hstep := hc.sound owned (start_sound interval owned unshaped empty feed offers)
    have hkeeps := onward.keeps Told.lasting owned (hstep.told_of_drained hdrained hns)
    obtain ⟨t, hentity, hadmits, hgrown, htold, hheld⟩ := hkeeps.held_eq drained unshaped hrun
    have habreast := (htold.follows key).of_silent (hentity ▸ hsilent) (Nat.le_refl _)
    rw [hheld, ← hadmits, ← hentity]
    exact (habreast.before (Nat.le_max_right ..)).settled hgrown
  · -- the tracker was told of the key since
    have hkeeps := onward.keeps Told.lasting owned
      ((ha.keeps Told.lasting owned hstart).again hresting)
    obtain ⟨t, hentity, hadmits, hgrown, htold, hheld⟩ := hkeeps.held_eq drained unshaped hrun
    have habreast := (htold.unfailing ns hns key).resolve_right (hentity ▸ hloud)
    rw [hheld, ← hadmits, ← hentity]
    exact habreast.settled hgrown

/-! ## A run -/

/-- The scene after others have brought it about that the next declaration of a table is
refused. -/
def refusing (a : Scene) : Scene :=
  { a with world := { a.world with schema := { a.world.schema with refusals := 1 } } }

theorem runs_refusing (owners : Owners) (a : Scene) : Runs owners a a.refusing :=
  .single (.elsewhere ⟨.refl owners _, rfl, rfl, rfl⟩)

end Scene

namespace Shop

/-- A shop that declares its tables, with a feed that keeps one event. -/
def declaring : World := { World.withCapacity catalog 1 with schemaUse := .direct }

/-- A subscriber opens the query for the active products and is told of a lamp. Then a desk
and a chair come. -/
def arrivals : List Scene.Turn :=
  [.others (.insert product (item "a" "lamp" true)), .subscriber, .subscriber,
    .others (.insert product (item "b" "desk" true)),
    .others (.insert product (item "c" "chair" true))]

/-- The subscriber has missed the desk, and goes on while no snapshot can be read. -/
def lapsed : Scene :=
  [.subscriber, .subscriber, .subscriber, .subscriber].foldl Scene.turn
    (arrivals.foldl Scene.turn (Scene.start 1000 activeProducts declaring)).refusing

theorem runs_lapsed :
    Scene.Runs owners (Scene.start 1000 activeProducts declaring) lapsed := by
  have owned : ∀ write, .others write ∈ arrivals → write.OwnedBy owners := by
    intro write hin
    simp only [arrivals, List.mem_cons, Scene.Turn.others.injEq, reduceCtorEq, List.not_mem_nil,
      false_or, or_false] at hin
    rcases hin with rfl | rfl | rfl <;> rfl
  refine ((Scene.runs_turns owned _).trans (Scene.runs_refusing owners _)).trans ?_
  exact Scene.runs_turns (by simp) _

/-- The desk is there and matches, but the subscriber, who has read all there is and was told
of the chair since, is not told of it. -/
theorem missed_for_good :
    Scene.Runs owners (Scene.start 1000 activeProducts declaring) lapsed ∧ lapsed.Drained ∧
      (notices lapsed.received).map Notification.newValue =
        [some (item "a" "lamp" true), some (item "c" "chair" true)] ∧
      ∃ run, activeProducts.compile = .ok run ∧
        ¬Agree (lapsed.held activeProducts "b")
          (((lapsed.world.store.table "Product").rows.get? "b" |>.map Row.value).filter
            run.admits) := by
  refine ⟨runs_lapsed, ?_, by rfl, _, rfl, ?_⟩
  · show (_ : Bool) = false
    decide +kernel
  · have hheld : lapsed.held activeProducts "b" = none := by rfl
    rw [hheld]
    intro h
    cases h

/-- Then the desk gets another name. -/
def laterTurns : List Scene.Turn :=
  [.others (.update product (item "b" "table" true) none), .subscriber, .subscriber]

/-- The scene after that. -/
def renamed : Scene := laterTurns.foldl Scene.turn lapsed

theorem runs_renamed : Scene.Runs owners lapsed renamed := by
  have owned : ∀ write, .others write ∈ laterTurns → write.OwnedBy owners := by
    intro write hin
    simp only [laterTurns, List.mem_cons, Scene.Turn.others.injEq, reduceCtorEq, List.not_mem_nil,
      or_false] at hin
    subst hin
    rfl
  exact Scene.runs_turns owned _

theorem renamed_recovers :
    Scene.Runs owners (Scene.start 1000 activeProducts declaring) renamed ∧ renamed.Drained ∧
      ∃ run, activeProducts.compile = .ok run ∧
        Agree (renamed.held activeProducts "b")
          (((renamed.world.store.table "Product").rows.get? "b" |>.map Row.value).filter
            run.admits) := by
  have runs := runs_lapsed.trans runs_renamed
  have drained : renamed.Drained := by
    show (_ : Bool) = false
    decide +kernel
  have unfailing : Scene.Unfailing lapsed renamed :=
    ⟨[(Notification.create (item "b" "table" true)).withVersion (some 2)], by rfl⟩
  have loud : ¬Scene.Silent owners "Product" "b" lapsed renamed := by
    intro silent
    have hother := silent 3 (.updated "Product" (item "b" "desk" true) (item "b" "table" true) 2)
      (by decide +kernel) (by decide +kernel) (by rfl)
    exact absurd hother (by decide +kernel)
  obtain ⟨run, hrun, hkeys⟩ := Scene.recovers owners 1000 activeProducts declaring rfl ⟨rfl, rfl⟩
    rfl (fun r hr => by cases hr) rfl renamed runs drained
  exact ⟨runs, drained, run, hrun,
    (hkeys "b").2 (.inr ⟨lapsed, runs_lapsed, trivial, runs_renamed, unfailing, loud⟩)⟩

end Shop

end LiveRecords

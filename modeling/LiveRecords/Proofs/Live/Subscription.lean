import LiveRecords.Pipeline.Handler
import LiveRecords.Proofs.Live.Following
import LiveRecords.Proofs.Pipeline.Backend

/-
  A live query over a feed while others write.

  Between two pulls of a live query its receiver has come to a place in the journal, and
  its tracker to what was delivered or is queued (`Listening`). What may be said of these
  is an account. One that every move of a live query keeps (`Account.Lasting`) is kept by
  pulling (`ensures_pull`), and one that its first snapshot brings about (`Account.Opens`)
  is brought about by opening it (`ensures_openChanges`), whatever is written between any
  two of their steps.
-/

namespace LiveRecords

open Job (Ensures Terms)

/-! ## Receivers -/

namespace Feed

/-- Identities of receivers are below the next one to be given. -/
def WellFormed (f : Feed) : Prop := ∀ r ∈ f.receivers, r.id < f.opened

theorem place?_subscribe {f : Feed} (h : f.WellFormed) (journal : Array StoreEvent) :
    (f.subscribe journal).2.place? (f.subscribe journal).1 = some journal.size := by
  have hnone : f.receivers.find? (·.id == f.opened) = none := by
    rw [List.find?_eq_none]
    intro r hr
    have hlt := h r hr
    simp only [beq_iff_eq]
    omega
  unfold place? subscribe
  simp only [List.find?_append, hnone]
  simp

theorem place?_moveTo {f : Feed} {id place : Nat} (h : f.place? id = some place) (next : Nat) :
    (f.moveTo id next).place? id = some next := by
  unfold place? at h
  obtain ⟨r, hr, _⟩ := Option.map_eq_some_iff.1 h
  have hid : r.id = id := by
    have hfound := List.find?_some hr
    simpa using hfound
  have hsame : ((fun r : Receiver => r.id == id) ∘
      fun r => if r.id = id then { r with place := next } else r) = fun r => r.id == id := by
    funext other
    by_cases heq : other.id = id <;> simp [heq]
  unfold place? moveTo
  rw [List.find?_map, hsame, hr]
  simp [hid]

/-- What a receiver comes to: it missed something, it takes the event at its place, or
there is none. -/
theorem take?_cases {f : Feed} {id place : Nat} (h : f.place? id = some place)
    (journal : Array StoreEvent) :
    (∃ oldest count, place < oldest ∧ oldest ≤ journal.size ∧
        f.take? journal id = some (.missed count, f.moveTo id oldest)) ∨
      (∃ e, journal[place]? = some e ∧
        f.take? journal id = some (.event e, f.moveTo id (place + 1))) ∨
      f.take? journal id = none := by
  unfold take?
  rw [h]
  dsimp only
  split
  · next hlt => exact .inl ⟨_, _, hlt, Nat.sub_le .., rfl⟩
  · cases hget : journal[place]? with
    | none => exact .inr (.inr rfl)
    | some e => exact .inr (.inl ⟨e, rfl, rfl⟩)

end Feed

/-! ## Terms -/

/-- Some writes were made, each through the entity type that owns its table. -/
def ByWrites (owners : Owners) (s s' : Store) : Prop :=
  ∃ writes, (∀ w ∈ writes, Write.OwnedBy owners w) ∧ s' = s.afterAll writes

namespace ByWrites

variable {owners : Owners} {s s' s'' : Store}

theorem refl (owners : Owners) (s : Store) : ByWrites owners s s := ⟨[], nofun, rfl⟩

theorem trans (h : ByWrites owners s s') (h' : ByWrites owners s' s'') : ByWrites owners s s'' := by
  obtain ⟨writes, hwrites, rfl⟩ := h
  obtain ⟨writes', hwrites', rfl⟩ := h'
  refine ⟨writes ++ writes', fun w hw => ?_, (List.foldl_append ..).symm⟩
  rcases List.mem_append.1 hw with hw | hw
  · exact hwrites w hw
  · exact hwrites' w hw

theorem commits (h : ByWrites owners s s') (wf : s.WellFormed owners) : Commits owners s s' := by
  obtain ⟨writes, hwrites, rfl⟩ := h
  exact Store.commits_afterAll hwrites wf

end ByWrites

/-- The world has gone on, with writes and whatever else others do in it. -/
abbrev Elsewhere (owners : Owners) : World → World → Prop := World.Beside (ByWrites owners)

theorem Elsewhere.refl (owners : Owners) (w : World) : Elsewhere owners w w :=
  ⟨.refl owners _, rfl, rfl, rfl⟩

theorem Elsewhere.trans {owners : Owners} {w w' w'' : World} (h : Elsewhere owners w w')
    (h' : Elsewhere owners w' w'') : Elsewhere owners w w'' :=
  World.Beside.trans
    (fun s s' s'' (hs : ByWrites owners s s') (hs' : ByWrites owners s' s'') => hs.trans hs') h h'

/-- Others may write, and a live query may do what it likes. -/
def listening (owners : Owners) : Terms World where
  rely := Elsewhere owners
  guarantee _ _ := True
  rely_refl := .refl owners
  rely_trans := .trans

/-! ## What holds between two pulls -/

/-- The store began empty and was written to, each table through its owner. -/
abbrev World.Grown (owners : Owners) (w : World) : Prop := Commits owners {} w.store

theorem World.Grown.wellFormed {owners : Owners} {w : World} (h : w.Grown owners) :
    w.store.WellFormed owners := Commits.wellFormed h (.empty owners)

theorem World.Grown.later {owners : Owners} {w w' : World} (h : w.Grown owners)
    (hw : Elsewhere owners w w') : w'.Grown owners :=
  Relation.ReflTransGen.trans h (hw.store.commits h.wellFormed)

/-- A receiver has come to a place in the journal. -/
structure Placed (owners : Owners) (id place : Nat) (w : World) : Prop where
  grown : w.Grown owners
  came : w.feed.place? id = some place
  le : place ≤ w.store.journal.size

theorem Placed.later {owners : Owners} {id place : Nat} {w w' : World}
    (h : Placed owners id place w) (hw : Elsewhere owners w w') : Placed owners id place w' where
  grown := h.grown.later hw
  came := by rw [hw.feed]; exact h.came
  le := Nat.le_trans h.le ((hw.store.commits h.grown.wellFormed).size_le h.grown.wellFormed)

/-- The tracker of a live query that is to be shown whole entities. -/
structure Tracks (q : Query) (run : Query.Compiled) (t : Tracker) : Prop where
  entity : t.entity = q.entity
  query : t.query = run
  sound : t.Sound

theorem Tracks.reports {q : Query} {run : Query.Compiled} {t t' : Tracker}
    {ns : List (Notification Value)} (h : Tracks q run t) (hr : Tracker.Reports t ns t') :
    Tracks q run t' :=
  ⟨hr.entity.trans h.entity, hr.query.trans h.query, hr.sound⟩

theorem Tracks.inFull {q : Query} {run : Query.Compiled} {t : Tracker} (h : Tracks q run t)
    (whole : run.Whole) : t.InFull := by
  intro v
  rw [h.query]
  exact Query.Compiled.shape_eq whole.mapping whole.properties v

/-- What may be said of the items that were delivered or are queued, of the tracker, and
of the place in the journal of a store to which the receiver has come. -/
abbrev Account := List FeedItem → Tracker → Nat → Store → Prop

/-- A live query that is attended to, over a store that began empty. -/
structure Attended (owners : Owners) (q : Query) (run : Query.Compiled) (t : Tracker)
    (s : Store) : Prop where
  owned : owners q.entity.name = q.entity
  whole : run.Whole
  tracks : Tracks q run t
  grown : Commits owners {} s

namespace Account

/-- An account is brought about by the first snapshot. -/
def Opens (owners : Owners) (q : Query) (account : Account) : Prop :=
  ∀ {t : Tracker} {place : Nat} {s : Store}, owners q.entity.name = q.entity →
    q.raw.compile = .ok t.query → t.entity = q.entity → t.Blank → Commits owners {} s →
      place ≤ s.journal.size →
        account (t.opened (s.snapshot q.raw t.query)).1 (t.opened (s.snapshot q.raw t.query)).2
          place s

/-- An account is kept by all that may happen to a live query. -/
structure Lasting (owners : Owners) (q : Query) (account : Account) : Prop where
  later : ∀ {delivered : List FeedItem} {t : Tracker} {place : Nat} {s s' : Store},
    account delivered t place s → place ≤ s.journal.size → s.WellFormed owners →
      Commits owners s s' → account delivered t place s'
  /-- The next event is of another table. -/
  skips : ∀ {run : Query.Compiled} {delivered : List FeedItem} {t : Tracker} {place : Nat}
    {s : Store} {e : StoreEvent}, account delivered t place s → Attended owners q run t s →
      s.journal[place]? = some e → e.table ≠ q.entity.name → account delivered t (place + 1) s
  /-- The next event is taken. -/
  takes : ∀ {run : Query.Compiled} {delivered : List FeedItem} {t : Tracker} {place : Nat}
    {s : Store} {e : StoreEvent}, account delivered t place s → Attended owners q run t s →
      s.journal[place]? = some e → e.table = q.entity.name →
        account (delivered ++ (t.apply e.toNotification).1.toList.map .ok)
          (t.apply e.toNotification).2 (place + 1) s
  /-- Events were missed, and from now on nothing is said of the place. -/
  misses : ∀ {delivered : List FeedItem} {t : Tracker} {place : Nat} {s : Store},
    account delivered t place s → account delivered t 0 s
  /-- A snapshot is taken to catch up. -/
  catchesUp : ∀ {run : Query.Compiled} {delivered : List FeedItem} {t : Tracker} {place : Nat}
    {s : Store}, account delivered t 0 s → Attended owners q run t s → place ≤ s.journal.size →
      account (delivered ++ (t.resync (s.snapshot q.raw run)).1.map .ok)
        (t.resync (s.snapshot q.raw run)).2 place s
  /-- No snapshot can be read, and the failure is delivered. -/
  fails : ∀ {delivered : List FeedItem} {t : Tracker} {place : Nat} {s : Store} (f : Failure),
    account delivered t 0 s → account (delivered ++ [.error f]) t place s

end Account

/-- A live query waits to be pulled, and an account holds. -/
def Listening (owners : Owners) (q : Query) (run : Query.Compiled) (account : Account)
    (received : List FeedItem) (source : Changes) (w : World) : Prop :=
  ∃ t queued id place, source = .tracked [] q.raw t queued (.feed id q.entity.name) ∧
    Placed owners id place w ∧ Tracks q run t ∧
    account (received ++ queued) t place w.store

section Lasting

variable {owners : Owners} {q : Query} {run : Query.Compiled} {account : Account}

theorem Account.Lasting.goesOn (lasting : account.Lasting owners q) {delivered : List FeedItem}
    {t : Tracker} {place : Nat} {w w' : World} (h : account delivered t place w.store)
    (grown : w.Grown owners) (le : place ≤ w.store.journal.size) (hw : Elsewhere owners w w') :
    account delivered t place w'.store :=
  lasting.later h le grown.wellFormed (hw.store.commits grown.wellFormed)

theorem Listening.later {received : List FeedItem} {source : Changes} {w w' : World}
    (h : Listening owners q run account received source w) (lasting : account.Lasting owners q)
    (hw : Elsewhere owners w w') : Listening owners q run account received source w' := by
  obtain ⟨t, queued, id, place, hsource, hplaced, htracks, haccount⟩ := h
  exact ⟨t, queued, id, place, hsource, hplaced.later hw, htracks,
    lasting.goesOn haccount hplaced.grown hplaced.le hw⟩

end Lasting

/-! ## Requests to the store -/

namespace Backend

variable {owners : Owners} {w : World}

theorem ensures_prepare (type : EntityType) (w : World) :
    Ensures (listening owners) (fun _ w' => Elsewhere owners w w') (prepare type).run w :=
  (each_prepare type).ensures w fun s s' (hs : s.Keeps s') =>
    ⟨hs.mono fun _ _ heq => heq ▸ ByWrites.refl owners _, trivial⟩

/-- What is read once the table of a query is prepared shows the world at some moment since
the query was asked. -/
theorem ensures_reading {α : Type} (q : Query) (read : Query.Compiled → World → α) (w : World) :
    Ensures (listening owners)
      (fun result w' => Elsewhere owners w w' ∧ ∀ a, result = .ok a → ∃ run now,
        q.compile = .ok run ∧ Elsewhere owners w now ∧ Elsewhere owners now w' ∧ a = read run now)
      (do
        let run ← (q.prepare : Outcome Query.Compiled)
        prepare q.entity
        Work.ofJob (.read (read run)) : Work α).run w := by
  refine Work.ensures_bind (Work.ensures_outcome _ q.prepare w) ?_ ?_
  · intro run w₁ hend
    obtain ⟨hw₁, hrun⟩ := hend
    refine Work.ensures_bind (ensures_prepare q.entity w₁) ?_ ?_
    · intro _ w₂ hw₂
      refine (Work.ensures_read (fun _ => trivial) _ w₂).mono ?_
      intro _ w' hend
      obtain ⟨now, hnow, hw', rfl⟩ := hend
      have hread := (hw₁.trans hw₂).trans hnow
      refine ⟨hread.trans hw', fun a ha => ?_⟩
      cases ha
      exact ⟨run, now, Query.compile_of_prepare hrun.symm, hread, hw', rfl⟩
    · intro e w₂ hw₂ w' hw'
      exact ⟨(hw₁.trans hw₂).trans hw', nofun⟩
  · intro e w₁ hend w' hw'
    obtain ⟨hw₁, _⟩ := hend
    exact ⟨hw₁.trans hw', nofun⟩

/-- A snapshot that was read shows the store at some moment since it was asked for. -/
theorem ensures_snapshot (q : Query) (w : World) :
    Ensures (listening owners)
      (fun result w' => Elsewhere owners w w' ∧ ∀ s, result = .ok s → ∃ run now,
        q.compile = .ok run ∧ Elsewhere owners w now ∧ Elsewhere owners now w' ∧
          s = now.store.snapshot q run)
      (snapshot q).run w :=
  ensures_reading q (fun run now => now.store.snapshot q run) w

/-- The receiver of a feed that was opened stands at some place in the journal. -/
def Joined (owners : Owners) (table : String) : Outcome Changes → World → Prop
  | .ok source, w => ∃ id place, source = .feed id table ∧ Placed owners id place w
  | .error _, _ => True

theorem ensures_live (q : Query) {w : World} (grown : w.Grown owners)
    (feed : w.feed.WellFormed) :
    Ensures (listening owners) (Joined owners q.entity.name) (live q).run w := by
  have hfail : ∀ (e : Failure) (w' : World),
      Ensures (listening owners) (Joined owners q.entity.name) (.done (.error e)) w' :=
    fun _ _ _ _ => trivial
  have hrest : ∀ w₁, Elsewhere owners w w₁ →
      Ensures (listening owners) (Joined owners q.entity.name)
        (do
          (q.validate : Outcome Unit)
          prepare q.entity
          Work.ofJob (.act fun w =>
            (.feed (w.feed.subscribe w.store.journal).1 q.entity.name,
              { w with feed := (w.feed.subscribe w.store.journal).2 })) : Work Changes).run w₁ := by
    intro w₁ hw₁
    refine Work.ensures_bind (Work.ensures_outcome _ q.validate w₁) ?_ fun e w' _ => hfail e w'
    intro _ w₂ hend
    obtain ⟨hw₂, _⟩ := hend
    refine Work.ensures_bind (ensures_prepare q.entity w₂) ?_ fun e w' _ => hfail e w'
    intro _ w₃ hw₃
    refine (Work.ensures_act fun _ _ => trivial).mono ?_
    intro _ w' hend
    obtain ⟨now, hnow, hw', rfl⟩ := hend
    -- whoever joins now is told all that comes after the journal of now
    have hsince := ((hw₁.trans hw₂).trans hw₃).trans hnow
    have hgrown : now.Grown owners := grown.later hsince
    have hplaced : Placed owners (now.feed.subscribe now.store.journal).1 now.store.journal.size
        { now with feed := (now.feed.subscribe now.store.journal).2 } :=
      ⟨hgrown, Feed.place?_subscribe (hsince.feed ▸ feed) _, Nat.le_refl _⟩
    exact ⟨_, _, rfl, hplaced.later hw'⟩
  refine Work.ensures_bind (Work.ensures_read (fun _ => trivial) World.offersFeed w) ?_
    fun e w' _ => hfail e w'
  intro offers w₁ hend
  obtain ⟨now, hnow, hw₁, _⟩ := hend
  cases offers with
  | true => exact hrest w₁ (hnow.trans hw₁)
  | false => exact hfail _ w₁

end Backend

/-! ## Opening -/

variable {owners : Owners} {q : Query} {run : Query.Compiled} {account : Account}

/-- Whole entities are asked for, and the layer shapes nothing. -/
structure Query.Unshaped (q : Query) : Prop where
  mapping : q.mapping = none
  properties : q.properties = []

theorem Query.Unshaped.shaping_eq (h : q.Unshaped) (c : Catalog) :
    q.shaping c = q.raw.compile := by
  unfold Query.shaping Query.raw
  rw [h.properties]
  obtain ⟨mapping, _⟩ := h
  cases q
  subst mapping
  rfl

theorem Query.whole_of_compile (h : q.raw.compile = .ok run) : run.Whole := by
  unfold Query.compile at h
  obtain ⟨predicate, _, hmore⟩ := Outcome.bind_ok h
  obtain ⟨mapping, hmapping, hmore⟩ := Outcome.bind_ok hmore
  obtain ⟨keys, _, hdone⟩ := Outcome.bind_ok hmore
  cases hmapping
  cases hdone
  exact ⟨rfl, rfl, rfl, rfl⟩

/-- Clearing what a query skips and where it stops does not change what it admits. -/
theorem Query.Unshaped.compile_of_raw (h : q.Unshaped) (compiled : q.raw.compile = .ok run) :
    ∃ run', q.compile = .ok run' ∧ run'.admits = run.admits := by
  unfold Query.compile at compiled ⊢
  obtain ⟨predicate, hpredicate, hmore⟩ := Outcome.bind_ok compiled
  obtain ⟨mapping, hmapping, hmore⟩ := Outcome.bind_ok hmore
  obtain ⟨keys, hkeys, hdone⟩ := Outcome.bind_ok hmore
  cases hmapping
  cases hdone
  -- the raw query has the predicate and the sorting of the query itself
  have hpredicate' : q.predicate.mapM Expr.compile = .ok predicate := hpredicate
  have hkeys' : (q.sorting.mapM fun s => SortKey.compile s.expr s.ascending) = .ok keys := hkeys
  rw [h.mapping, hpredicate', hkeys']
  exact ⟨_, rfl, rfl⟩

/-- An account holds of a live query that was opened. -/
def Opened (owners : Owners) (q : Query) (account : Account) : Outcome Changes → World → Prop
  | .ok source, w => ∃ run, q.raw.compile = .ok run ∧ Listening owners q run account [] source w
  | .error _, _ => True

theorem Opened.later {result : Outcome Changes} {w w' : World}
    (h : Opened owners q account result w) (lasting : account.Lasting owners q)
    (hw : Elsewhere owners w w') : Opened owners q account result w' := by
  cases result with
  | error e => trivial
  | ok source =>
    obtain ⟨run, hrun, hlistening⟩ := h
    exact ⟨run, hrun, hlistening.later lasting hw⟩

/-- Nothing is promised of a query that could not be opened. -/
theorem ensures_refused (e : Failure) (w : World) :
    Ensures (listening owners) (Opened owners q account) (.done (.error e)) w := fun _ _ => trivial

theorem ofQuery_ok {c : Catalog} {t : Tracker} (unshaped : q.Unshaped)
    (h : Tracker.ofQuery c q = .ok t) :
    q.raw.compile = .ok t.query ∧ t.entity = q.entity ∧ t.Blank := by
  unfold Tracker.ofQuery at h
  rw [unshaped.shaping_eq] at h
  obtain ⟨run, hrun, hdone⟩ := Outcome.bind_ok h
  cases hdone
  exact ⟨hrun, rfl, rfl, rfl⟩

/-- The first snapshot is reported to the tracker. -/
theorem Tracker.opened_reports {t : Tracker} {s : Store} (wf : s.WellFormed owners)
    (owned : owners q.entity.name = q.entity) (compiled : q.raw.compile = .ok t.query)
    (entity : t.entity = q.entity) (blank : t.Blank) :
    Tracker.Reports t (t.snapshot (s.snapshot q.raw t.query)).1
      (t.snapshot (s.snapshot q.raw t.query)).2 := by
  have hwhole := Query.whole_of_compile compiled
  have hfull : t.InFull := Query.Compiled.shape_eq hwhole.mapping hwhole.properties
  have hdistinct := Store.snapshot_distinct (q := q.raw) wf hwhole owned
  exact Tracker.snapshot_reports blank hfull (entity ▸ hdistinct)

/-- What the first snapshot brings about. -/
theorem listening_of_snapshot {t : Tracker} {w : World} {id place : Nat}
    (opens : account.Opens owners q) (owned : owners q.entity.name = q.entity)
    (compiled : q.raw.compile = .ok t.query) (entity : t.entity = q.entity) (blank : t.Blank)
    (placed : Placed owners id place w) :
    Listening owners q t.query account []
      (.tracked [] q.raw (t.opened (w.store.snapshot q.raw t.query)).2
        (t.opened (w.store.snapshot q.raw t.query)).1 (.feed id q.entity.name)) w := by
  have hreports := Tracker.opened_reports placed.grown.wellFormed owned compiled entity blank
  exact ⟨_, _, id, place, rfl, placed, ⟨hreports.entity.trans entity, hreports.query,
    hreports.sound⟩, opens owned compiled entity blank placed.grown placed.le⟩

theorem LiveQuery.ensures_follow {t : Tracker} {w : World} (opens : account.Opens owners q)
    (lasting : account.Lasting owners q) (owned : owners q.entity.name = q.entity)
    (compiled : q.raw.compile = .ok t.query) (entity : t.entity = q.entity) (blank : t.Blank)
    (grown : w.Grown owners) (feed : w.feed.WellFormed) :
    Ensures (listening owners) (Opened owners q account) (follow [] .ofStore q t).run w := by
  refine Work.ensures_bind (Backend.ensures_live q.raw grown feed) ?_ fun e w' _ => ensures_refused e w'
  intro source w₁ hend
  obtain ⟨id, place, rfl, hplaced⟩ := hend
  -- the receiver has joined before the snapshot is read, so nothing in between is lost
  have hread : Ensures (listening owners)
      (fun result w' => ∀ s, result = .ok s → Opened owners q account
        (.ok (.tracked [] q.raw (t.opened s).2 (t.opened s).1 (.feed id q.entity.name))) w')
      ((Handler.ofStore (.snapshot q.raw)).orUndo
        (·.abandonChanges (.feed id q.entity.name)) : Work Snapshot).run w₁ := by
    refine Work.ensures_orUndo ?_ (fun _ => trivial) ?_ ?_
    · refine (Backend.ensures_snapshot q.raw w₁).mono ?_
      intro result w' hend s hs
      obtain ⟨_, hread⟩ := hend
      obtain ⟨run, now, hrun, hnow, hw', rfl⟩ := hread s hs
      obtain rfl : t.query = run := Except.ok.inj (compiled.symm.trans hrun)
      exact ⟨t.query, hrun, (listening_of_snapshot opens owned compiled entity blank
        (hplaced.later hnow)).later lasting hw'⟩
    · exact fun s w' h w'' hw' s' hs => (h s' hs).later lasting hw'
    · exact fun e w' s hs => by cases hs
  refine Work.ensures_bind hread ?_ fun e w' _ => ensures_refused e w'
  exact fun s w' h w'' hw' => (h s rfl).later lasting hw'

theorem LiveQuery.ensures_openChanges (interval : Nat) {w : World} (opens : account.Opens owners q)
    (lasting : account.Lasting owners q) (owned : owners q.entity.name = q.entity)
    (unshaped : q.Unshaped) (grown : w.Grown owners) (feed : w.feed.WellFormed)
    (offers : w.offersFeed = true) :
    Ensures (listening owners) (Opened owners q account)
      (openChanges interval [] .ofStore q).run w := by
  refine Work.ensures_bind (Work.ensures_outcome _ q.validate w) ?_ fun e w' _ => ensures_refused e w'
  intro _ w₁ hend
  obtain ⟨hw₁, _⟩ := hend
  refine Work.ensures_bind (Work.ensures_read (fun _ => trivial) id w₁) ?_ fun e w' _ => ensures_refused e w'
  intro _ w₂ hend
  obtain ⟨now, hnow, hw₂, ⟨⟩⟩ := hend
  refine Work.ensures_bind (Work.ensures_outcome _ (Tracker.ofQuery now.catalog q) w₂) ?_
    fun e w' _ => ensures_refused e w'
  intro t w₃ hend
  obtain ⟨hw₃, htracker⟩ := hend
  obtain ⟨hcompiled, hentity, hblank⟩ := ofQuery_ok unshaped htracker.symm
  have hread := hw₁.trans hnow
  have hsince := (hread.trans hw₂).trans hw₃
  have hoffers : Layer.offersFeed now.offersFeed [] = true := hread.offersFeed.trans offers
  show Ensures _ _ (if Layer.offersFeed now.offersFeed [] then _ else _ : Work Changes).run w₃
  rw [if_pos hoffers]
  exact ensures_follow opens lasting owned hcompiled hentity hblank (grown.later hsince)
    (hsince.feed ▸ feed)

/-! ## Pulling -/

/-- What a pull comes to keeps the account. -/
def Pulls (owners : Owners) (q : Query) (run : Query.Compiled) (account : Account)
    (received : List FeedItem) : Pulled → World → Prop
  | .item i rest, w => Listening owners q run account (received ++ [i]) rest w
  | .again rest, w => Listening owners q run account received rest w
  | .ended, _ => True

/-- What taking from the feed comes to: the account holds, or will after a change, or
events were missed and the tracker has to catch up. -/
def Takes (owners : Owners) (q : Query) (account : Account) (received : List FeedItem) (id : Nat)
    (t : Tracker) : Pulled → World → Prop
  | .item (.ok n) rest, w => rest = .feed id q.entity.name ∧ ∃ place, Placed owners id place w ∧
      account (received ++ (t.apply n).1.toList.map .ok) (t.apply n).2 place w.store
  | .item (.error f) rest, w => rest = .feed id q.entity.name ∧ ∃ place, Placed owners id place w ∧
      f.isLag = true ∧ account received t 0 w.store
  | .again rest, w => rest = .feed id q.entity.name ∧ ∃ place, Placed owners id place w ∧
      account received t place w.store
  | .ended, _ => True

theorem Takes.later {received : List FeedItem} {id : Nat} {t : Tracker} {p : Pulled} {w w' : World}
    (h : Takes owners q account received id t p w) (lasting : account.Lasting owners q)
    (hw : Elsewhere owners w w') : Takes owners q account received id t p w' := by
  cases p with
  | ended => trivial
  | again rest =>
    obtain ⟨hrest, place, hplaced, haccount⟩ := h
    exact ⟨hrest, place, hplaced.later hw, lasting.goesOn haccount hplaced.grown hplaced.le hw⟩
  | item i rest =>
    cases i with
    | ok n =>
      obtain ⟨hrest, place, hplaced, haccount⟩ := h
      exact ⟨hrest, place, hplaced.later hw, lasting.goesOn haccount hplaced.grown hplaced.le hw⟩
    | error f =>
      obtain ⟨hrest, place, hplaced, hlag, haccount⟩ := h
      exact ⟨hrest, place, hplaced.later hw, hlag,
        lasting.goesOn haccount hplaced.grown (Nat.zero_le _) hw⟩

theorem Placed.moveTo {id place : Nat} {w : World} (h : Placed owners id place w) {next : Nat}
    (hle : next ≤ w.store.journal.size) :
    Placed owners id next { w with feed := w.feed.moveTo id next } :=
  ⟨h.grown, Feed.place?_moveTo h.came next, hle⟩

/-- Taking the next event, or learning that some were missed. -/
theorem takeEvent_takes {received : List FeedItem} {id place : Nat} {t : Tracker} {w : World}
    (lasting : account.Lasting owners q) (attended : Attended owners q run t w.store)
    (placed : Placed owners id place w) (holds : account received t place w.store) :
    Takes owners q account received id t (Changes.takeEvent id q.entity.name w).1
      (Changes.takeEvent id q.entity.name w).2 := by
  unfold Changes.takeEvent
  rcases Feed.take?_cases placed.came w.store.journal with
    ⟨oldest, count, hlt, hle, htake⟩ | ⟨e, he, htake⟩ | htake
  · -- events were missed: what the tracker knows may be older than its place
    rw [htake]
    exact ⟨rfl, oldest, placed.moveTo hle, rfl, lasting.misses holds⟩
  · obtain ⟨hsize, _⟩ := Array.getElem?_eq_some_iff.1 he
    have hplaced : Placed owners id (place + 1)
        { w with feed := w.feed.moveTo id (place + 1) } := placed.moveTo hsize
    rw [htake]
    by_cases htable : e.table = q.entity.name
    · simp only [htable, if_true]
      exact ⟨rfl, place + 1, hplaced, lasting.takes holds attended he htable⟩
    · simp only [htable, if_false]
      exact ⟨rfl, place + 1, hplaced, lasting.skips holds attended he htable⟩
  · rw [htake]
    trivial

theorem ensures_catchUp {received : List FeedItem} {id place : Nat} {t : Tracker} {w : World}
    (lasting : account.Lasting owners q) (owned : owners q.entity.name = q.entity)
    (compiled : q.raw.compile = .ok run) (tracks : Tracks q run t)
    (placed : Placed owners id place w) (holds : account received t 0 w.store) :
    Ensures (listening owners) (Pulls owners q run account received)
      ((Handler.ofStore (.snapshot q.raw) : Work Snapshot).run.bind fun outcome =>
        .done (.again (.tracked [] q.raw (t.caughtUp outcome).2 (t.caughtUp outcome).1
          (.feed id q.entity.name)))) w := by
  have hwhole := Query.whole_of_compile compiled
  have hlater : ∀ {w' : World}, Elsewhere owners w w' → account received t 0 w'.store :=
    fun hw => lasting.goesOn holds placed.grown (Nat.zero_le _) hw
  refine (Backend.ensures_snapshot q.raw w).bind ?_
  intro outcome w₁ hend w' hw'
  obtain ⟨hw₁, hread⟩ := hend
  cases outcome with
  | error f =>
    have hw := hw₁.trans hw'
    exact ⟨t, [.error f], id, place, rfl, placed.later hw, tracks, lasting.fails f (hlater hw)⟩
  | ok s =>
    obtain ⟨run', now, hrun, hnow, hw₁', rfl⟩ := hread s rfl
    obtain rfl : run = run' := Except.ok.inj (compiled.symm.trans hrun)
    -- the snapshot shows the store at `now`, which may be past the place of the receiver
    have hplaced := placed.later hnow
    have hreports := Tracker.resync_reports tracks.sound (tracks.inFull hwhole)
      (now.store.snapshot q.raw run)
    have hlistening : Listening owners q run account received
        (.tracked [] q.raw (t.caughtUp (.ok (now.store.snapshot q.raw run))).2
          (t.caughtUp (.ok (now.store.snapshot q.raw run))).1 (.feed id q.entity.name)) now :=
      ⟨_, _, id, place, rfl, hplaced, tracks.reports hreports,
        lasting.catchesUp (hlater hnow) ⟨owned, hwhole, tracks, hplaced.grown⟩ hplaced.le⟩
    exact hlistening.later lasting (hw₁'.trans hw')

theorem ensures_pull {received : List FeedItem} {source : Changes} {w : World}
    (lasting : account.Lasting owners q) (owned : owners q.entity.name = q.entity)
    (compiled : q.raw.compile = .ok run) (h : Listening owners q run account received source w) :
    Ensures (listening owners) (Pulls owners q run account received)
      (source.pull Handler.ofLayers) w := by
  have hwhole := Query.whole_of_compile compiled
  obtain ⟨t, queued, id, place, rfl, hplaced, htracks, haccount⟩ := h
  cases queued with
  | cons i rest =>
    -- what is queued was reported before, and is delivered first
    have hnext : Listening owners q run account (received ++ [i])
        (.tracked [] q.raw t rest (.feed id q.entity.name)) w :=
      ⟨t, rest, id, place, rfl, hplaced, htracks, by rw [List.append_assoc]; exact haccount⟩
    exact fun w' hw' => hnext.later lasting hw'
  | nil =>
    rw [List.append_nil] at haccount
    have htake : Ensures (listening owners) (Takes owners q account received id t)
        (Changes.pull Handler.ofLayers (.feed id q.entity.name)) w := by
      intro w₁ hw₁ _ w₂ hw₂
      have hw := hw₁.trans hw₂
      have hplaced₂ := hplaced.later hw
      have htakes := takeEvent_takes lasting ⟨owned, hwhole, htracks, hplaced₂.grown⟩ hplaced₂
        (lasting.goesOn haccount hplaced.grown hplaced.le hw)
      exact ⟨trivial, fun w' hw' => htakes.later lasting hw'⟩
    refine Ensures.bind htake ?_
    intro p w₁ htakes
    cases p with
    | ended => exact fun _ _ => trivial
    | again rest =>
      obtain ⟨rfl, place', hplaced', haccount'⟩ := htakes
      have hnext : Listening owners q run account received
          (.tracked [] q.raw t [] (.feed id q.entity.name)) w₁ :=
        ⟨t, [], id, place', rfl, hplaced', htracks, by rw [List.append_nil]; exact haccount'⟩
      exact fun w' hw' => hnext.later lasting hw'
    | item i rest =>
      cases i with
      | ok n =>
        obtain ⟨rfl, place', hplaced', haccount'⟩ := htakes
        have hreports := Tracker.apply_reports htracks.sound (htracks.inFull hwhole) n
        have hnext : Listening owners q run account received
            (.tracked [] q.raw (t.apply n).2 ((t.apply n).1.toList.map .ok)
              (.feed id q.entity.name)) w₁ :=
          ⟨_, _, id, place', rfl, hplaced', htracks.reports hreports, haccount'⟩
        exact fun w' hw' => hnext.later lasting hw'
      | error f =>
        obtain ⟨rfl, place', hplaced', hlag, haccount'⟩ := htakes
        have hreact : t.react (.error f) = .catchUp := by
          unfold Tracker.react
          simp only [hlag, if_true]
        simp only [hreact]
        exact ensures_catchUp lasting owned compiled htracks hplaced' haccount'

end LiveRecords

import LiveRecords.Pipeline.Assembly
import LiveRecords.Proofs.Live.Stream
import LiveRecords.Proofs.Live.Subscription

/-
  A live query converges.

  A subscriber opens a live query over a feed and pulls it again and again, while
  others write to the store (`Scene`). Between any two steps of the opening or of a
  pull anything may be written, and the feed may drop events before the subscriber has
  read them. Yet as long as no failure is delivered, whenever the next pull would have
  to wait, replaying what was delivered gives exactly the rows that match
  (`Scene.converges`).
-/

namespace LiveRecords

open Job (Moves Ensures)

/-! ## In step -/

/-- As long as nothing that failed was delivered, the tracker follows the journal from
a place on, and the deliveries lead to the tracked set. -/
def InStep (owners : Owners) (q : Query) (delivered : List FeedItem) (t : Tracker)
    (place : Nat) (s : Store) : Prop :=
  ∀ ns, delivered = ns.map .ok →
    t.Follows owners s place ∧ Replica.takeAll q.entity [] ns = t.matched

namespace InStep

variable {owners : Owners} {q : Query}

/-- What a tracker reports joins what was delivered before. -/
theorem reports {delivered : List FeedItem} {changes : List (Notification Value)}
    {t t' : Tracker} {place place' : Nat} {s s' : Store}
    (h : InStep owners q delivered t place s) (entity : t.entity = q.entity)
    (hr : Tracker.Reports t changes t')
    (hfollows : t.Follows owners s place → t'.Follows owners s' place') :
    InStep owners q (delivered ++ changes.map .ok) t' place' s' := by
  intro ns hns
  obtain ⟨before, after, rfl, hbefore, hafter⟩ := List.map_eq_append_iff.1 hns.symm
  obtain rfl : after = changes := List.map_injective_iff.2 (fun _ _ => Except.ok.inj) hafter
  obtain ⟨hstart, hreplay⟩ := h before hbefore.symm
  refine ⟨hfollows hstart, ?_⟩
  rw [Replica.takeAll_append, hreplay, ← entity]
  exact hr.replay

theorem opens : Account.Opens owners q (InStep owners q) := by
  intro t place s owned compiled entity blank grown hle
  have hwhole := Query.whole_of_compile compiled
  have hwf : s.WellFormed owners := Commits.wellFormed grown (.empty owners)
  have hblank : InStep owners q [] t 0 s := by
    intro ns hns
    obtain rfl : ns = [] := List.map_eq_nil_iff.1 hns.symm
    exact ⟨.of_blank blank, blank.matched.symm⟩
  refine hblank.reports entity (Tracker.opened_reports hwf owned compiled entity blank) fun _ => ?_
  exact (Tracker.Follows.snapshot grown owned hwhole blank entity rfl).before hle

theorem lasting : Account.Lasting owners q (InStep owners q) where
  later h _ wf hs ns hns := ⟨(h ns hns).1.later hs wf, (h ns hns).2⟩
  skips h attended he table ns hns :=
    ⟨(h ns hns).1.skip he (attended.tracks.entity ▸ table), (h ns hns).2⟩
  takes h attended he table := by
    obtain ⟨owned, whole, tracks, grown⟩ := attended
    have hfull := tracks.inFull whole
    refine h.reports tracks.entity (Tracker.apply_reports tracks.sound hfull _) fun hfollows => ?_
    exact hfollows.apply grown tracks.sound hfull (tracks.entity ▸ owned) he
      (tracks.entity ▸ table)
  misses h ns hns := ⟨(h ns hns).1.before (Nat.zero_le _), (h ns hns).2⟩
  catchesUp h attended hle := by
    obtain ⟨owned, whole, tracks, grown⟩ := attended
    have hfull := tracks.inFull whole
    refine h.reports tracks.entity (Tracker.resync_reports tracks.sound hfull _) fun hfollows => ?_
    exact (hfollows.resync grown owned whole tracks.sound hfull tracks.entity
      (congrArg Query.Compiled.admits tracks.query).symm).before hle
  fails f _ ns hns := by
    -- the failure is delivered, so nothing more is promised
    obtain ⟨_, after, _, _, hafter⟩ := List.map_eq_append_iff.1 hns.symm
    cases after with
    | nil => cases hafter
    | cons n rest => cases hafter

end InStep

/-! ## Scenes -/

/-- How far a subscriber has come. -/
inductive Subscription where
  | opening (job : Job World (Outcome Changes))
  | resting (source : Changes)
  | pulling (job : Job World Pulled)
  | closed

/-- A subscriber in the world, and the items delivered so far. -/
structure Scene where
  world : World
  subscription : Subscription
  received : List FeedItem

namespace Scene

/-- A subscriber is about to open a live query in a world. -/
def start (interval : Nat) (q : Query) (w : World) : Scene :=
  ⟨w, .opening (Handler.ofLayers [.live interval] (.live q)).run, []⟩

/-- What may happen next: others write or do something else, or the subscriber takes
one step. -/
inductive Step (owners : Owners) : Scene → Scene → Prop where
  | elsewhere {w w' : World} {sub : Subscription} {received : List FeedItem}
      (goes : Elsewhere owners w w') : Step owners ⟨w, sub, received⟩ ⟨w', sub, received⟩
  | opens {w w' : World} {job job' : Job World (Outcome Changes)} {received : List FeedItem}
      (moves : Moves job w job' w') :
      Step owners ⟨w, .opening job, received⟩ ⟨w', .opening job', received⟩
  | opened {w : World} {source : Changes} {received : List FeedItem} :
      Step owners ⟨w, .opening (.done (.ok source)), received⟩ ⟨w, .resting source, received⟩
  | refused {w : World} {e : Failure} {received : List FeedItem} :
      Step owners ⟨w, .opening (.done (.error e)), received⟩ ⟨w, .closed, received⟩
  | pull {w : World} {source : Changes} {received : List FeedItem} :
      Step owners ⟨w, .resting source, received⟩
        ⟨w, .pulling (source.pull Handler.ofLayers), received⟩
  | work {w w' : World} {job job' : Job World Pulled} {received : List FeedItem}
      (moves : Moves job w job' w') :
      Step owners ⟨w, .pulling job, received⟩ ⟨w', .pulling job', received⟩
  | item {w : World} {i : FeedItem} {rest : Changes} {received : List FeedItem} :
      Step owners ⟨w, .pulling (.done (.item i rest)), received⟩
        ⟨w, .resting rest, received ++ [i]⟩
  | again {w : World} {rest : Changes} {received : List FeedItem} :
      Step owners ⟨w, .pulling (.done (.again rest)), received⟩ ⟨w, .resting rest, received⟩
  | ended {w : World} {received : List FeedItem} :
      Step owners ⟨w, .pulling (.done .ended), received⟩ ⟨w, .closed, received⟩

/-- Some steps, one after another. -/
abbrev Runs (owners : Owners) : Scene → Scene → Prop := Relation.ReflTransGen (Step owners)

/-- An account holds of a scene at any time. -/
def Keeps (owners : Owners) (q : Query) (account : Account) : Scene → Prop
  | ⟨w, .opening job, received⟩ =>
      received = [] ∧ Ensures (listening owners) (Opened owners q account) job w
  | ⟨w, .resting source, received⟩ => ∃ run, q.raw.compile = .ok run ∧
      Listening owners q run account received source w
  | ⟨w, .pulling job, received⟩ => ∃ run, q.raw.compile = .ok run ∧
      Ensures (listening owners) (Pulls owners q run account received) job w
  | ⟨_, .closed, _⟩ => True

variable {owners : Owners} {q : Query} {account : Account} {a b : Scene}

theorem Step.keeps (h : Step owners a b) (lasting : account.Lasting owners q)
    (owned : owners q.entity.name = q.entity) (ha : a.Keeps owners q account) :
    b.Keeps owners q account := by
  cases h with
  | @elsewhere w w' sub received goes =>
    cases sub with
    | opening job => exact ⟨ha.1, ha.2.later goes⟩
    | resting source =>
      obtain ⟨run, hrun, hlistening⟩ := ha
      exact ⟨run, hrun, hlistening.later lasting goes⟩
    | pulling job =>
      obtain ⟨run, hrun, hjob⟩ := ha
      exact ⟨run, hrun, hjob.later goes⟩
    | closed => trivial
  | opens moves => exact ⟨ha.1, (ha.2.moves moves).2⟩
  | opened =>
    obtain ⟨rfl, hjob⟩ := ha
    exact hjob.result
  | refused => trivial
  | pull =>
    obtain ⟨run, hrun, hlistening⟩ := ha
    exact ⟨run, hrun, ensures_pull lasting owned hrun hlistening⟩
  | work moves =>
    obtain ⟨run, hrun, hjob⟩ := ha
    exact ⟨run, hrun, (hjob.moves moves).2⟩
  | item =>
    obtain ⟨run, hrun, hjob⟩ := ha
    exact ⟨run, hrun, hjob.result⟩
  | again =>
    obtain ⟨run, hrun, hjob⟩ := ha
    exact ⟨run, hrun, hjob.result⟩
  | ended => trivial

theorem Runs.keeps (h : Runs owners a b) (lasting : account.Lasting owners q)
    (owned : owners q.entity.name = q.entity) (ha : a.Keeps owners q account) :
    b.Keeps owners q account := by
  induction h with
  | refl => exact ha
  | tail _ hlast ih => exact hlast.keeps lasting owned ih

theorem start_keeps (interval : Nat) {w : World} (opens : account.Opens owners q)
    (lasting : account.Lasting owners q) (owned : owners q.entity.name = q.entity)
    (unshaped : q.Unshaped) (empty : w.store = {}) (feed : w.feed.WellFormed)
    (offers : w.offersFeed = true) : (start interval q w).Keeps owners q account := by
  have hgrown : w.Grown owners := by
    show Commits owners {} w.store
    exact empty ▸ .refl
  exact ⟨rfl, LiveQuery.ensures_openChanges interval opens lasting owned unshaped hgrown feed offers⟩

/-- As long as nothing that failed was delivered a scene is in step. -/
abbrev Sound (owners : Owners) (q : Query) (a : Scene) : Prop := a.Keeps owners q (InStep owners q)

theorem Runs.sound (h : Runs owners a b) (owned : owners q.entity.name = q.entity)
    (ha : a.Sound owners q) : b.Sound owners q := h.keeps InStep.lasting owned ha

theorem start_sound (interval : Nat) {w : World} (owned : owners q.entity.name = q.entity)
    (unshaped : q.Unshaped) (empty : w.store = {}) (feed : w.feed.WellFormed)
    (offers : w.offersFeed = true) : (start interval q w).Sound owners q :=
  start_keeps interval InStep.opens InStep.lasting owned unshaped empty feed offers

/-- The subscriber has read all there is: the next pull would have to wait. -/
def Drained : Scene → Prop
  | ⟨w, .resting source, _⟩ => (source.pull Handler.ofLayers).isReady 0 w = false
  | _ => False

/-- A receiver that has nothing to take has come to the end of the journal. -/
theorem place_eq_of_drained {w : World} {id place : Nat} (placed : Placed owners id place w)
    (h : w.feed.hasNews w.store.journal id = false) : place = w.store.journal.size := by
  unfold Feed.hasNews at h
  rw [placed.came] at h
  have hge : ¬place < w.store.journal.size := of_decide_eq_false h
  have hle := placed.le
  omega

/-- Whenever a subscriber has read all there is and no failure was delivered, replaying
what was delivered gives exactly the rows of the table that match. -/
theorem converges (owners : Owners) (interval : Nat) (q : Query) (w : World)
    (owned : owners q.entity.name = q.entity) (unshaped : q.Unshaped) (empty : w.store = {})
    (feed : w.feed.WellFormed) (offers : w.offersFeed = true) (b : Scene)
    (runs : Runs owners (start interval q w) b) (drained : b.Drained)
    (ns : List (Notification Value)) (received : b.received = ns.map .ok) :
    ∃ run, q.compile = .ok run ∧ ∀ key,
      Agree ((Replica.takeAll q.entity [] ns).get? key)
        (((b.world.store.table q.entity.name).rows.get? key |>.map Row.value).filter
          run.admits) := by
  have hsound := runs.sound owned (start_sound interval owned unshaped empty feed offers)
  obtain ⟨now, sub, delivered⟩ := b
  cases sub with
  | resting source =>
    obtain ⟨raw, hraw, t, queued, id, place, rfl, hplaced, htracks, hstep⟩ := hsound
    obtain ⟨run, hrun, hadmits⟩ := unshaped.compile_of_raw hraw
    cases queued with
    | cons i rest => cases drained
    | nil =>
      have hplace : place = now.store.journal.size := place_eq_of_drained hplaced drained
      -- nothing is queued, and the tracker follows to the end of the journal
      rw [List.append_nil, hplace] at hstep
      obtain ⟨hfollows, hreplay⟩ := hstep ns received
      refine ⟨run, hrun, fun key => ?_⟩
      have hsettled := hfollows.settled hplaced.grown key
      rw [htracks.query, htracks.entity] at hsettled
      rw [hreplay, hadmits]
      exact hsettled
  | opening job => cases drained
  | pulling job => cases drained
  | closed => cases drained

/-! ## A run -/

/-- The scene after the subscriber goes on alone, to where it next rests. -/
def onward : Scene → Scene
  | ⟨w, .opening job, received⟩ =>
    match job.alone w with
    | some (.ok source, w') => ⟨w', .resting source, received⟩
    | _ => ⟨w, .opening job, received⟩
  | ⟨w, .resting source, received⟩ =>
    match (source.pull Handler.ofLayers).alone w with
    | some (.item i rest, w') => ⟨w', .resting rest, received ++ [i]⟩
    | some (.again rest, w') => ⟨w', .resting rest, received⟩
    | _ => ⟨w, .resting source, received⟩
  | s => s

/-- A job of opening that nothing interferes with is a run. -/
theorem runs_opening (owners : Owners) {job : Job World (Outcome Changes)}
    {result : Outcome Changes} {w w' : World} (halone : job.alone w = some (result, w'))
    (received : List FeedItem) :
    Runs owners ⟨w, .opening job, received⟩ ⟨w', .opening (.done result), received⟩ :=
  Relation.ReflTransGen.lift (p := Step owners)
    (fun x : Job World (Outcome Changes) × World => ⟨x.2, .opening x.1, received⟩)
    (fun _ _ moves => .opens moves) _ _ (Job.moves_of_alone halone)

/-- A pull that nothing interferes with is a run. -/
theorem runs_pulling (owners : Owners) {source : Changes} {p : Pulled} {w w' : World}
    (halone : (source.pull Handler.ofLayers).alone w = some (p, w')) (received : List FeedItem) :
    Runs owners ⟨w, .resting source, received⟩ ⟨w', .pulling (.done p), received⟩ := by
  have hpulling : Runs owners ⟨w, .pulling (source.pull Handler.ofLayers), received⟩
      ⟨w', .pulling (.done p), received⟩ :=
    Relation.ReflTransGen.lift (p := Step owners)
      (fun x : Job World Pulled × World => ⟨x.2, .pulling x.1, received⟩)
      (fun _ _ moves => .work moves) _ _ (Job.moves_of_alone halone)
  exact hpulling.head .pull

theorem runs_onward (owners : Owners) (a : Scene) : Runs owners a a.onward := by
  obtain ⟨w, sub, received⟩ := a
  unfold onward
  cases sub with
  | opening job =>
    cases halone : job.alone w with
    | none =>
      simp only [halone]
      exact .refl
    | some end_ =>
      obtain ⟨result, w'⟩ := end_
      cases result with
      | error e =>
        simp only [halone]
        exact .refl
      | ok source =>
        simp only [halone]
        exact (runs_opening owners halone received).tail .opened
  | resting source =>
    cases halone : (source.pull Handler.ofLayers).alone w with
    | none =>
      simp only [halone]
      exact .refl
    | some end_ =>
      obtain ⟨p, w'⟩ := end_
      have hpulled := runs_pulling owners halone received
      cases p with
      | ended =>
        simp only [halone]
        exact .refl
      | again rest =>
        simp only [halone]
        exact hpulled.tail .again
      | item i rest =>
        simp only [halone]
        exact hpulled.tail .item
  | pulling job => exact .refl
  | closed => exact .refl

/-- Whose turn it is: others write something, or the subscriber goes on. -/
inductive Turn where
  | others (write : Write)
  | subscriber

/-- The scene after a turn. -/
def turn (a : Scene) : Turn → Scene
  | .others write => { a with world := { a.world with store := write.after a.world.store } }
  | .subscriber => a.onward

theorem runs_turns {owners : Owners} {turns : List Turn}
    (owned : ∀ write, .others write ∈ turns → write.OwnedBy owners) (a : Scene) :
    Runs owners a (turns.foldl turn a) := by
  induction turns generalizing a with
  | nil => exact .refl
  | cons t rest ih =>
    have hrest := ih (fun write hin => owned write (List.mem_cons_of_mem _ hin)) (a.turn t)
    refine Relation.ReflTransGen.trans ?_ hrest
    cases t with
    | others write =>
      have howned : ∀ w ∈ [write], w.OwnedBy owners := fun w hw =>
        List.mem_singleton.1 hw ▸ owned write List.mem_cons_self
      exact .single (.elsewhere ⟨⟨[write], howned, rfl⟩, rfl, rfl, rfl⟩)
    | subscriber => exact runs_onward owners a

end Scene

namespace Shop

/-- The products that are active. -/
def activeProducts : Query where
  entity := product
  predicate := some (.property (.argument product.asType) { name := "active", type := .bool })

/-- A lamp is there when a subscriber opens the query. Then it is switched off and a desk
comes, before the subscriber goes on. -/
def turns : List Scene.Turn :=
  [.others (.insert product (item "a" "lamp" true)), .subscriber,
    .others (.update product (item "a" "lamp" false) none),
    .others (.insert product (item "b" "desk" true)),
    .subscriber, .subscriber, .subscriber, .subscriber, .subscriber]

/-- A subscriber watches the active products over a feed that keeps one event, so the
first of the two later writes is missed. -/
def watched : Scene :=
  turns.foldl Scene.turn (Scene.start 1000 activeProducts (.withCapacity catalog 1))

/-- What the subscriber was told. -/
def told : List (Notification Value) :=
  [.create (item "a" "lamp" true), .delete (item "a" "lamp" true), .create (item "b" "desk" true)]

theorem watched_converges :
    watched.Drained ∧ watched.received = told.map .ok ∧
      ∃ run, activeProducts.compile = .ok run ∧ ∀ key,
        Agree ((Replica.takeAll product [] told).get? key)
          (((watched.world.store.table "Product").rows.get? key |>.map Row.value).filter
            run.admits) := by
  have owned : ∀ write, .others write ∈ turns → write.OwnedBy owners := by
    intro write hin
    simp only [turns, List.mem_cons, Scene.Turn.others.injEq, reduceCtorEq, List.not_mem_nil,
      false_or, or_false] at hin
    rcases hin with rfl | rfl | rfl <;> rfl
  have runs : Scene.Runs owners (Scene.start 1000 activeProducts (.withCapacity catalog 1))
      watched := Scene.runs_turns owned _
  have drained : watched.Drained := by
    show (_ : Bool) = false
    decide +kernel
  have received : watched.received = told.map .ok := by rfl
  exact ⟨drained, received, Scene.converges owners 1000 activeProducts (.withCapacity catalog 1)
    rfl ⟨rfl, rfl⟩ rfl (fun r hr => by cases hr) rfl watched runs drained told received⟩

end Shop

end LiveRecords

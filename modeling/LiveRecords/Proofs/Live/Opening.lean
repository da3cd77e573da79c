import LiveRecords.Proofs.Live.Beginning
import LiveRecords.Proofs.Pipeline.Calm

/-
  Opening a live query while nobody writes.

  Through live queries above widened projections above the store (`LiveQuery.layers`) a
  live query is opened by subscribing to the feed and reading a snapshot, or, without a
  feed, polls when it is pulled for the first time. As long as nobody writes, what it
  delivers first are the results of the query with its window cleared, one by one, each as
  created (`LiveQuery.begins_with_results`).
-/

namespace LiveRecords

open Job (Ensures Goes)
open Work (Settles)

/-! ## What is delivered at once -/

/-- A stream of changes delivers some items at once, and has to read what comes after them. -/
def Changes.Tells : List FeedItem → Changes → Prop
  | [], source => source.queued = []
  | i :: items, source =>
    ∃ rest, source.pull Handler.ofLayers = .done (.item i rest) ∧ Changes.Tells items rest

/-- What is queued is delivered first, item by item. -/
theorem Changes.tells_of_queued {source : Changes} {items : List FeedItem}
    (hqueued : source.queued = items) : Changes.Tells items source := by
  induction items generalizing source with
  | nil => exact hqueued
  | cons i items ih =>
    cases source with
    | feed | channel => cases hqueued
    | tracked below raw t queued source =>
      obtain rfl : queued = i :: items := hqueued
      exact ⟨.tracked below raw t items source, by rw [Changes.pull]; rfl, ih rfl⟩
    | polled below raw t queued interval due =>
      obtain rfl : queued = i :: items := hqueued
      exact ⟨.polled below raw t items interval due, by rw [Changes.pull]; rfl, ih rfl⟩

/-- As long as nobody has written since `w`, a live query delivers some items first: at once,
over a feed; or, without one, after a first poll, unless its table cannot be declared. -/
inductive Changes.Begins (type : EntityType) (w : World) (first : List FeedItem) : Changes → Prop
  | following {source : Changes} (offers : w.offersFeed = true) (tells : Tells first source) :
    Begins type w first source
  | polling {source : Changes} (feedless : w.offersFeed = false) (tells : Tells [] source)
      (polls : ∀ w' pulled w'', w.Calm w' →
        Goes World.Calm (source.pull Handler.ofLayers) w' (.done pulled) w'' →
          ∃ rest, pulled = .again rest ∧
            (Tells first rest ∨ ∃ e, Undeclared type e ∧ Tells [.error e] rest)) :
    Begins type w first source

theorem World.calm_abandonChanges (w : World) (source : Changes) :
    w.Calm (w.abandonChanges source) := by
  induction source with
  | feed | channel | polled => exact ⟨rfl, rfl, rfl⟩
  | tracked _ _ _ _ _ ih => exact ih

/-! ## Above widened projections -/

namespace LiveQuery

variable {q : Query} {run : Query.Compiled} {w : World} {found : List Value}

/-- Live queries above widened projections above the store. -/
def layers (interval : Nat) : List Layer := [.live interval, .mandatory]

theorem settles_query (answer : w.store.answer (q.withMandatory w.catalog) = .ok found) :
    Settles q.entity (· = .listed found) (Handler.ofLayers [.mandatory] (.query q)) w := by
  obtain ⟨run, prepared, hfound⟩ := Outcome.bind_ok answer
  cases hfound
  refine (Settles.read World.catalog).bind fun c w₁ hw₁ hread => ?_
  obtain ⟨now, hnow, rfl⟩ := hread
  rw [hnow.catalog]
  have hquery := Backend.settles_query prepared w₁
  rw [Query.entity_withMandatory, hw₁.store] at hquery
  exact hquery

/-- Whole entities are asked for as they are. -/
theorem settles_snapshot (whole : q.properties = []) (prepared : q.prepare = .ok run) :
    Settles q.entity (· = w.store.snapshot q run) (Handler.ofLayers [.mandatory] (.snapshot q))
      w := by
  refine (Settles.read World.catalog).bind fun c w₁ hw₁ _ => ?_
  rw [Query.withMandatory_of_whole c whole, ← hw₁.store]
  exact Backend.settles_snapshot prepared w₁

theorem settles_live (whole : q.properties = []) (valid : q.validate = .ok ())
    (offers : w.offersFeed = true) :
    Settles q.entity (fun _ => True) (Handler.ofLayers [.mandatory] (.live q)) w := by
  refine (Settles.read World.catalog).bind fun c w₁ hw₁ _ => ?_
  rw [Query.withMandatory_of_whole c whole]
  exact Backend.settles_live valid (hw₁.offersFeed.trans offers)

theorem settles_all {type : EntityType} (entities : List Value) (w : World) :
    Settles type (· = entities) (Rows.all (.listed entities)) w := by
  refine (Rows.ensures_all (fun _ _ => trivial) entities w).mono fun result w' hend => ?_
  obtain ⟨hw', rfl⟩ := hend
  exact ⟨hw', rfl⟩

/-! ## Opening -/

/-- The query behind a valid one is valid. -/
theorem prepared_raw (checked : q.Checked) (compiled : q.compile = .ok run) :
    q.raw.prepare = .ok run.raw ∧ q.raw.validate = .ok () := by
  have hraw := Query.compile_raw compiled
  exact ⟨checked.raw.prepare_eq.trans hraw, Query.validate_eq_ok.2 ⟨checked.raw, _, hraw⟩⟩

theorem settles_follow {t : Tracker} (checked : q.Checked) (compiled : q.compile = .ok run)
    (offers : w.offersFeed = true) :
    Settles q.entity (Changes.Tells (t.opened (w.store.snapshot q.raw run.raw)).1)
      (follow [.mandatory] (Handler.ofLayers [.mandatory]) q t) w := by
  obtain ⟨hprepared, hvalid⟩ := prepared_raw checked compiled
  refine (settles_live (q := q.raw) rfl hvalid offers).bind fun source w₁ hw₁ _ => ?_
  have hundo : ∀ now : World, now.Calm (now.abandonChanges source) := fun now =>
    now.calm_abandonChanges source
  refine ((settles_snapshot (q := q.raw) rfl hprepared).orUndo hundo).bind
    fun snapshot w₂ _ hsnapshot => .pure ?_
  rw [hsnapshot, hw₁.store]
  exact Changes.tells_of_queued rfl

/-- What a poll is answered. -/
theorem answer_raw (checked : q.Checked) (compiled : q.compile = .ok run) (w : World) :
    w.store.answer (q.raw.withMandatory w.catalog) = .ok (w.store.query q.raw run.raw) := by
  unfold Store.answer
  rw [Query.withMandatory_of_whole (q := q.raw) w.catalog rfl, (prepared_raw checked compiled).1]
  rfl

/-- The first poll of a live query. -/
theorem settles_poll {t : Tracker} {interval due : Nat} (checked : q.Checked)
    (compiled : q.compile = .ok run) :
    Ensures calm (fun pulled _ => ∃ rest, pulled = .again rest ∧
        (Changes.Tells (t.polled (.ok (w.store.query q.raw run.raw))).1 rest ∨
          ∃ e, Undeclared q.entity e ∧ Changes.Tells [.error e] rest))
      ((Changes.polled [.mandatory] q.raw (some t) [] interval due).pull Handler.ofLayers) w := by
  -- the query waits until it is due, then it asks for all its entities
  intro w₁ hw₁ _ w₂ hw₂
  refine ⟨trivial, ?_⟩
  have hstore : w₂.store = w.store := (hw₁.trans hw₂).store
  have hrows : Settles q.entity (· = w₂.store.query q.raw run.raw)
      (do (← Handler.ofLayers [.mandatory] (.query q.raw)).all : Work (List Value)) w₂ :=
    (settles_query (answer_raw checked compiled w₂)).bind fun rows w₃ _ hlisted =>
      hlisted ▸ settles_all _ w₃
  rw [hstore] at hrows
  unfold Work.Settles at hrows
  refine hrows.bind fun outcome w₃ hend _ _ => ⟨_, rfl, ?_⟩
  cases outcome with
  | ok entities =>
    obtain rfl : entities = _ := hend.2
    exact .inl (Changes.tells_of_queued rfl)
  | error e => exact .inr ⟨e, hend.2, Changes.tells_of_queued rfl⟩

/-- The tracker of a query that compiles. -/
theorem ofQuery_eq (c : Catalog) (compiled : q.compile = .ok run) :
    Tracker.ofQuery c q = .ok (q.tracker c run) := by
  unfold Tracker.ofQuery
  rw [Query.shaping_eq, Query.compile_widened c compiled]
  rfl

theorem settles_openChanges {first : List FeedItem} (interval : Nat) (checked : q.Checked)
    (compiled : q.compile = .ok run)
    (opened : ((q.tracker w.catalog run).opened (w.store.snapshot q.raw run.raw)).1 = first)
    (polled : ((q.tracker w.catalog run).polled (.ok (w.store.query q.raw run.raw))).1 = first) :
    Settles q.entity (Changes.Begins q.entity w first)
      (openChanges interval [.mandatory] (Handler.ofLayers [.mandatory]) q) w := by
  have hvalid : q.validate = .ok () := Query.validate_eq_ok.2 ⟨checked, run, compiled⟩
  refine (Settles.outcome hvalid).bind fun _ w₁ hw₁ _ => ?_
  refine (Settles.read id).bind fun now w₂ hw₂ hread => ?_
  obtain ⟨now, hnow, rfl⟩ := hread
  have hcatalog : now.catalog = w.catalog := (hw₁.trans hnow).catalog
  have hoffers : now.offersFeed = w.offersFeed := (hw₁.trans hnow).offersFeed
  refine (Settles.outcome (ofQuery_eq now.catalog compiled)).bind fun t w₃ hw₃ ht => ?_
  have hsince : w.Calm w₃ := (hw₁.trans hw₂).trans hw₃
  rw [ht]
  show Settles _ _ (if now.offersFeed then follow _ _ q (q.tracker now.catalog run) else _) w₃
  rw [hcatalog, hoffers]
  cases offers : w.offersFeed with
  | true =>
    have hfollow := settles_follow (t := q.tracker w.catalog run) checked compiled
      (hsince.offersFeed.trans offers)
    rw [hsince.store, opened] at hfollow
    exact hfollow.mono fun source htells => .following offers htells
  | false =>
    rw [if_neg Bool.false_ne_true]
    split
    · exact trivial
    · refine .pure (.polling offers rfl fun w' pulled w'' hw' goes => ?_)
      have hpoll := ((settles_poll checked compiled).goes goes).result
      rw [hw'.store, polled] at hpoll
      exact hpoll

/-! ## Alone -/

theorem alone_query (answer : w.store.answer (q.withMandatory w.catalog) = .ok found)
    (quiet : w.Quiet) :
    (Handler.ofLayers [.mandatory] (.query q)).run.alone w = some (.ok (.listed found), w) := by
  have hquery := Handler.alone_query quiet (q.withMandatory w.catalog)
  rw [answer] at hquery
  exact hquery

theorem alone_snapshot (whole : q.properties = []) (prepared : q.prepare = .ok run)
    (quiet : w.Quiet) :
    (Handler.ofLayers [.mandatory] (.snapshot q)).run.alone w =
      some (.ok (w.store.snapshot q run), w) := by
  show (Backend.snapshot (q.withMandatory w.catalog)).run.alone w = _
  rw [Query.withMandatory_of_whole w.catalog whole]
  exact Backend.alone_snapshot prepared quiet

theorem alone_live (whole : q.properties = []) (valid : q.validate = .ok ())
    (offers : w.offersFeed = true) (quiet : w.Quiet) :
    (Handler.ofLayers [.mandatory] (.live q)).run.alone w =
      some (.ok (.feed (w.feed.subscribe w.store.journal).1 q.entity.name),
        { w with feed := (w.feed.subscribe w.store.journal).2 }) := by
  show (Backend.live (q.withMandatory w.catalog)).run.alone w = _
  rw [Query.withMandatory_of_whole w.catalog whole]
  exact Backend.alone_live valid offers quiet

theorem alone_follow {t : Tracker} (checked : q.Checked) (compiled : q.compile = .ok run)
    (offers : w.offersFeed = true) (quiet : w.Quiet) :
    ∃ source w', (follow [.mandatory] (Handler.ofLayers [.mandatory]) q t).run.alone w =
        some (.ok source, w') ∧
      Changes.Tells (t.opened (w.store.snapshot q.raw run.raw)).1 source := by
  obtain ⟨hprepared, hvalid⟩ := prepared_raw checked compiled
  have hlive := alone_live (q := q.raw) rfl hvalid offers quiet
  have hquiet : World.Quiet { w with feed := (w.feed.subscribe w.store.journal).2 } :=
    ⟨quiet.latency, quiet.unused⟩
  have hsnapshot := alone_snapshot (q := q.raw) rfl hprepared hquiet
  refine ⟨_, _, (Work.alone_bind_ok hlive).trans
    ((Work.alone_bind_ok (Work.alone_orUndo hsnapshot)).trans rfl), ?_⟩
  exact Changes.tells_of_queued rfl

theorem alone_poll {t : Tracker} {due : Nat} (interval : Nat) (checked : q.Checked)
    (compiled : q.compile = .ok run) (isDue : due ≤ w.now) (quiet : w.Quiet) :
    ∃ rest w', ((Changes.polled [.mandatory] q.raw (some t) [] interval due).pull
        Handler.ofLayers).alone w = some (.again rest, w') ∧
      Changes.Tells (t.polled (.ok (w.store.query q.raw run.raw))).1 rest := by
  have hrows : (do (← Handler.ofLayers [.mandatory] (.query q.raw)).all :
      Work (List Value)).run.alone w = some (.ok (w.store.query q.raw run.raw), w) := by
    rw [Work.alone_bind_ok (alone_query (answer_raw checked compiled w) quiet)]
    exact Rows.alone_all _ w
  have hpull : ((Changes.polled [.mandatory] q.raw (some t) [] interval due).pull
      Handler.ofLayers).alone w =
        ((do (← Handler.ofLayers [.mandatory] (.query q.raw)).all : Work (List Value)).run.bind
          fun rows => .done (.again (.polled [.mandatory] q.raw (t.polled rows).2 (t.polled rows).1
            interval (nextDue interval due w.now)))).alone w := by
    rw [Changes.pull]
    exact if_pos (decide_eq_true isDue)
  rw [hpull, Job.alone_bind, hrows]
  exact ⟨_, _, rfl, Changes.tells_of_queued rfl⟩

/-- What a live query comes to that was opened, and, without a feed, was pulled once. -/
def Began (interval : Nat) (q : Query) (first : List FeedItem) (w : World) : Prop :=
  ∃ source w', (Handler.ofLayers (layers interval) (.live q)).run.alone w = some (.ok source, w') ∧
    (w.offersFeed = true → Changes.Tells first source) ∧
    (w.offersFeed = false → Changes.Tells [] source ∧ ∃ rest w'',
      (source.pull Handler.ofLayers).alone w' = some (.again rest, w'') ∧ Changes.Tells first rest)

theorem began {first : List FeedItem} {interval : Nat} (checked : q.Checked)
    (compiled : q.compile = .ok run)
    (opened : ((q.tracker w.catalog run).opened (w.store.snapshot q.raw run.raw)).1 = first)
    (polled : ((q.tracker w.catalog run).polled (.ok (w.store.query q.raw run.raw))).1 = first)
    (quiet : w.Quiet) (paced : w.offersFeed = true ∨ 0 < interval) :
    Began interval q first w := by
  have hvalid : q.validate = .ok () := Query.validate_eq_ok.2 ⟨checked, run, compiled⟩
  have hread : (Work.ofJob (.read id) : Work World).run.alone w = some (.ok w, w) := rfl
  have hopen : (openChanges interval [.mandatory] (Handler.ofLayers [.mandatory]) q).run.alone w =
      (if w.offersFeed then
        follow [.mandatory] (Handler.ofLayers [.mandatory]) q (q.tracker w.catalog run)
      else if interval = 0 then Work.ofJob .broken
      else return .polled [.mandatory] q.raw (some (q.tracker w.catalog run)) [] interval w.now :
        Work Changes).run.alone w :=
    (Work.alone_bind_ok (Work.alone_outcome hvalid w)).trans ((Work.alone_bind_ok hread).trans
      (Work.alone_bind_ok (Work.alone_outcome (ofQuery_eq w.catalog compiled) w)))
  cases hoffers : w.offersFeed with
  | false =>
    -- without a feed nothing is read yet
    have hinterval : interval ≠ 0 := by
      rw [hoffers] at paced
      simp only [Bool.false_eq_true, false_or] at paced
      exact Nat.ne_of_gt paced
    rw [hoffers, if_neg Bool.false_ne_true, if_neg hinterval] at hopen
    obtain ⟨rest, w', hpull, htells⟩ := alone_poll (t := q.tracker w.catalog run) interval
      checked compiled (Nat.le_refl w.now) quiet
    exact ⟨_, _, hopen, fun hoffered => absurd (hoffers.symm.trans hoffered) Bool.false_ne_true,
      fun _ => ⟨rfl, rest, w', hpull, polled ▸ htells⟩⟩
  | true =>
    rw [hoffers, if_pos rfl] at hopen
    obtain ⟨source, w', hfollow, htells⟩ := alone_follow (t := q.tracker w.catalog run) checked
      compiled hoffers quiet
    exact ⟨source, w', hopen.trans hfollow, fun _ => opened ▸ htells,
      fun hnone => absurd (hnone.symm.trans hoffers) Bool.false_ne_true⟩

end LiveQuery

/-- While nobody writes, a query with its window cleared returns what a valid live query
tells first: each of the results as created, in their order. So it is over a feed and by
polling, whenever these requests end, unless the table cannot be declared; and alone in a
quiet world they do end. -/
theorem LiveQuery.begins_with_results {owners : Owners} {w : World} {q : Query} (interval : Nat)
    (wf : w.store.WellFormed owners) (owned : owners q.entity.name = q.entity)
    (named : q.Named w.catalog) (valid : q.validate = .ok ()) :
    ∃ found : List Value, w.store.answer (q.clearPaging.withMandatory w.catalog) = .ok found ∧
      (∀ result w',
        Goes World.Calm (Handler.ofLayers (layers interval) (.query q.clearPaging)).run w
          (.done result) w' → Settled q.entity (· = .listed found) result) ∧
      (∀ result w',
        Goes World.Calm (Handler.ofLayers (layers interval) (.live q)).run w (.done result) w' →
          Settled q.entity
            (Changes.Begins q.entity w (found.map (Except.ok ∘ Notification.create))) result) ∧
      (w.Quiet → w.offersFeed = true ∨ 0 < interval →
        (Handler.ofLayers (layers interval) (.query q.clearPaging)).run.alone w =
            some (.ok (.listed found), w) ∧
          Began interval q (found.map (Except.ok ∘ Notification.create)) w) := by
  obtain ⟨checked, run, compiled⟩ := Query.validate_eq_ok.1 valid
  obtain ⟨found, hanswer, hopened, hpolled⟩ := q.begins wf owned named checked compiled
  refine ⟨found, hanswer, fun result w' goes => ?_, fun result w' goes => ?_,
    fun quiet paced => ⟨?_, ?_⟩⟩
  · exact (settles_query (q := q.clearPaging) hanswer).goes goes
  · exact (settles_openChanges interval checked compiled hopened hpolled).goes goes
  · exact alone_query (q := q.clearPaging) hanswer quiet
  · exact began checked compiled hopened hpolled quiet paced

namespace Shop

/-- The prices of some products, the highest first. -/
def prices : Query :=
  { entity := product
    sorting := [⟨ofProduct "price" .int, false⟩]
    skip := some 1
    limit := some 2
    properties := [.root product { name := "price", type := .int, index := some .plain }] }

/-- All prices, each with the key of its product. -/
def priceList : List Value :=
  [priced "c" (.int 9), priced "a" (.int 5), priced "d" (.int 5), priced "b" .null]

/-- Over a feed and without one, the live query tells all prices first. -/
theorem shelf_begins :
    LiveQuery.Began 1000 prices (priceList.map (Except.ok ∘ Notification.create)) shelf ∧
      LiveQuery.Began 1000 prices (priceList.map (Except.ok ∘ Notification.create))
        { shelf with offersFeed := false } := by
  have wf : shelf.store.WellFormed Shop.owners := by
    refine (Store.commits_afterAll (fun write hin => ?_) (.empty Shop.owners)).wellFormed
      (.empty Shop.owners)
    simp only [List.mem_cons, List.not_mem_nil, or_false] at hin
    rcases hin with rfl | rfl | rfl | rfl <;> rfl
  have named : prices.Named catalog := by
    refine ⟨fun ref href => ?_, fun p hp ref href => ?_⟩
    · cases href
      rfl
    · rw [List.mem_singleton.1 hp] at href
      cases href
      rfl
  have listed : shelf.store.answer (prices.clearPaging.withMandatory catalog) = .ok priceList := by
    rfl
  have began : ∀ offers, LiveQuery.Began 1000 prices
      (priceList.map (Except.ok ∘ Notification.create)) { shelf with offersFeed := offers } := by
    intro offers
    obtain ⟨found, answer, _, _, halone⟩ := LiveQuery.begins_with_results
      (w := { shelf with offersFeed := offers }) (q := prices) 1000 wf rfl named rfl
    obtain rfl : priceList = found := Except.ok.inj (listed.symm.trans answer)
    exact (halone ⟨rfl, rfl⟩ (.inr (Nat.succ_pos 999))).2
  exact ⟨began true, began false⟩

end Shop

end LiveRecords

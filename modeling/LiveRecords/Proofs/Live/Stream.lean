import LiveRecords.Proofs.Live.Tracker
import LiveRecords.Sample.Shop

/-
  The stream of a live query is well formed, whatever its tracker is told.

  What the calls of a tracker report joins end to end, so what holds of one call holds
  of a whole life (`life_reports`). A query shapes what is reported of an entity; that
  changes the reports and nothing else (`life_renders`), so a life is that of the
  plain tracker with every report shaped (`life_well_formed`).
-/

namespace LiveRecords

namespace Tracker

/-! ## Lives -/

/-- What a tracker may be told after its snapshot. -/
inductive Call where
  | apply (n : Notification Value)
  | resync (s : Snapshot)
  | diff (entities : List Value)

/-- What is reported at a call, and the tracker after it. -/
def call (t : Tracker) : Call → List (Notification Value) × Tracker
  | .apply n => ((t.apply n).1.toList, (t.apply n).2)
  | .resync s => t.resync s
  | .diff entities => t.diff entities

/-- What is reported at some calls, and the tracker after them. -/
def calls (t : Tracker) : List Call → List (Notification Value) × Tracker
  | [] => ([], t)
  | c :: rest => ((t.call c).1 ++ ((t.call c).2.calls rest).1, ((t.call c).2.calls rest).2)

/-- All that is reported from a snapshot on, and the tracker at last. -/
def life (t : Tracker) (s : Snapshot) (cs : List Call) : List (Notification Value) × Tracker :=
  ((t.snapshot s).1 ++ ((t.snapshot s).2.calls cs).1, ((t.snapshot s).2.calls cs).2)

theorem call_reports {t : Tracker} (h : t.Sound) (full : t.InFull) (c : Call) :
    Reports t (t.call c).1 (t.call c).2 := by
  cases c with
  | apply n => exact apply_reports h full n
  | resync s => exact resync_reports h full s
  | diff entities => exact diff_reports h full entities

theorem calls_reports {t : Tracker} (h : t.Sound) (full : t.InFull) (cs : List Call) :
    Reports t (t.calls cs).1 (t.calls cs).2 := by
  induction cs generalizing t with
  | nil => exact .refl h
  | cons c rest ih =>
    have hcall := call_reports h full c
    exact hcall.trans (ih hcall.sound fun value => by rw [hcall.query]; exact full value)

theorem life_reports {t : Tracker} (blank : t.Blank) (full : t.InFull) {s : Snapshot}
    (distinct : (s.entities.filterMap t.entity.keyTextOf?).Nodup) (cs : List Call) :
    Reports t (t.life s cs).1 (t.life s cs).2 := by
  have hsnapshot := snapshot_reports blank full distinct
  exact hsnapshot.trans (calls_reports hsnapshot.sound
    (fun value => by rw [hsnapshot.query]; exact full value) cs)

/-! ## Shaping -/

/-- The tracker that does the same and reports entities in full. -/
def plain (t : Tracker) : Tracker :=
  { t with query := { t.query with mapping := none, properties := [] } }

theorem plain_inFull (t : Tracker) : t.plain.InFull := fun value => by
  show Projection.project value [] = value
  unfold Projection.project
  rfl

/-- What a tracker reports is what the plain one reports, shaped by its query. -/
structure Renders (t : Tracker) (out raw : List (Notification Value) × Tracker) : Prop where
  reported : out.1 = raw.1.map t.shaped
  after : out.2.plain = raw.2
  query : out.2.query = t.query

namespace Renders

variable {t : Tracker} {out raw out' raw' : List (Notification Value) × Tracker}

theorem shaped_eq {t t' : Tracker} (h : t'.query = t.query) : t'.shaped = t.shaped := by
  funext n
  unfold shaped
  rw [h]

theorem append (h : Renders t out raw) (h' : Renders out.2 out' raw') :
    Renders t (out.1 ++ out'.1, out'.2) (raw.1 ++ raw'.1, raw'.2) where
  reported := by
    show out.1 ++ out'.1 = (raw.1 ++ raw'.1).map t.shaped
    rw [h.reported, h'.reported, shaped_eq h.query, List.map_append]
  after := h'.after
  query := h'.query.trans h.query

end Renders

/-- A transition does not look at the shape of what it reports. -/
theorem transition_plain (t : Tracker) (key : String) (after : Option Value) :
    (t.plain.transition key after).1 = (t.transition key after).1 ∧
      (t.plain.transition key after).2 = (t.transition key after).2.plain ∧
      (t.transition key after).2.query = t.query := by
  unfold transition
  have hmatched : t.plain.matched = t.matched := rfl
  rw [hmatched]
  cases t.matched.get? key with
  | none => cases after <;> exact ⟨rfl, rfl, rfl⟩
  | some before =>
    cases after with
    | none => exact ⟨rfl, rfl, rfl⟩
    | some v =>
      dsimp only
      split <;> exact ⟨rfl, rfl, rfl⟩

theorem transitions_plain (t : Tracker) (steps : List (String × Option Value)) :
    (t.plain.transitions steps).1 = (t.transitions steps).1 ∧
      (t.plain.transitions steps).2 = (t.transitions steps).2.plain ∧
      (t.transitions steps).2.query = t.query := by
  induction steps generalizing t with
  | nil => exact ⟨rfl, rfl, rfl⟩
  | cons step rest ih =>
    obtain ⟨key, after⟩ := step
    obtain ⟨hchange, hplain, hquery⟩ := t.transition_plain key after
    obtain ⟨hchanges, hplain', hquery'⟩ := ih (t.transition key after).2
    rw [transitions_cons, transitions_cons, hchange, hplain, hchanges, hplain']
    exact ⟨rfl, rfl, hquery'.trans hquery⟩

theorem shaped_plain (t : Tracker) (n : Notification Value) : t.plain.shaped n = n :=
  t.plain_inFull.shaped n

theorem snapshot_renders (t : Tracker) (s : Snapshot) :
    Renders t (t.snapshot s) (t.plain.snapshot s) where
  reported := by
    show (t.keyed s.entities).map _ = ((t.keyed s.entities).map _).map _
    rw [List.map_map]
    refine List.map_congr_left fun entry _ => ?_
    exact (congrArg t.shaped (t.shaped_plain _)).symm
  after := rfl
  query := rfl

/-- What is done once the version of a change was seen. -/
theorem seen_renders (t : Tracker) (n : Notification Value) (key : String) :
    Renders t
      (((t.transition key (t.matchedAfter n)).1.map fun c =>
        (t.transition key (t.matchedAfter n)).2.shaped (c.withVersion n.version)).toList,
        (t.transition key (t.matchedAfter n)).2)
      (((t.plain.transition key (t.plain.matchedAfter n)).1.map fun c =>
        (t.plain.transition key (t.plain.matchedAfter n)).2.shaped (c.withVersion n.version)).toList,
        (t.plain.transition key (t.plain.matchedAfter n)).2) := by
  have hafter : t.plain.matchedAfter n = t.matchedAfter n := rfl
  rw [hafter]
  obtain ⟨hchange, hplain, hquery⟩ := t.transition_plain key (t.matchedAfter n)
  refine ⟨?_, hplain.symm, hquery⟩
  rw [hchange, hplain, Renders.shaped_eq hquery]
  cases (t.transition key (t.matchedAfter n)).1 with
  | none => rfl
  | some c => exact congrArg (fun m => [t.shaped m]) (shaped_plain _ _).symm

theorem apply_renders (t : Tracker) (n : Notification Value) :
    Renders t ((t.apply n).1.toList, (t.apply n).2)
      ((t.plain.apply n).1.toList, (t.plain.apply n).2) := by
  have hsilent : Renders t ([], t) ([], t.plain) := ⟨rfl, rfl, rfl⟩
  have hstale : ∀ key v, t.plain.isStale key v = t.isStale key v := fun _ _ => rfl
  have hentity : t.plain.entity = t.entity := rfl
  unfold apply
  rw [hentity]
  cases n.current?.bind t.entity.keyTextOf? with
  | none => exact hsilent
  | some key =>
    have hseen := t.seen_renders n key
    cases hversion : n.version with
    | none =>
      rw [hversion] at hseen
      exact hseen
    | some version =>
      dsimp only
      rw [hstale]
      split
      · exact hsilent
      · have hseen := seen_renders { t with versions := t.versions.put key version } n key
        rw [hversion] at hseen
        exact ⟨hseen.reported, hseen.after, hseen.query⟩

theorem diff_renders (t : Tracker) (entities : List Value) :
    Renders t (t.diff entities) (t.plain.diff entities) := by
  have hstates : t.plain.states entities = t.states entities := rfl
  obtain ⟨hchanges, hplain, hquery⟩ := t.transitions_plain (t.states entities)
  rw [diff_eq, diff_eq, hstates]
  refine ⟨?_, hplain.symm, hquery⟩
  rw [hchanges, hplain, Renders.shaped_eq hquery, (plain_inFull _).map_shaped]

theorem call_renders (t : Tracker) (c : Call) : Renders t (t.call c) (t.plain.call c) := by
  cases c with
  | apply n => exact t.apply_renders n
  | resync s =>
    have hdiff := diff_renders { t with versions := newest t.versions s.versions } s.entities
    exact ⟨hdiff.reported, hdiff.after, hdiff.query⟩
  | diff entities => exact t.diff_renders entities

theorem calls_renders (t : Tracker) (cs : List Call) :
    Renders t (t.calls cs) (t.plain.calls cs) := by
  induction cs generalizing t with
  | nil => exact ⟨rfl, rfl, rfl⟩
  | cons c rest ih =>
    have hcall := t.call_renders c
    have hrest := ih (t.call c).2
    rw [hcall.after] at hrest
    exact hcall.append hrest

theorem life_renders (t : Tracker) (s : Snapshot) (cs : List Call) :
    Renders t (t.life s cs) (t.plain.life s cs) := by
  have hsnapshot := t.snapshot_renders s
  have hrest := (t.snapshot s).2.calls_renders cs
  rw [hsnapshot.after] at hrest
  exact hsnapshot.append hrest

/-- Whatever a tracker is told after its first snapshot, what it reports is, but for
the shape, a stream that fits a subscriber who begins with nothing and leads them to
the tracked set; the entities of this set satisfy the predicate, and the versions
reported of a key rise. -/
theorem life_well_formed (entity : EntityType) (query : Query.Compiled) (s : Snapshot)
    (cs : List Call) (distinct : (s.entities.filterMap entity.keyTextOf?).Nodup) :
    let t : Tracker := { entity, query }
    let raw := (t.plain.life s cs).1
    let tracked := (t.life s cs).2.matched
    (t.life s cs).1 = raw.map t.shaped ∧
      Replica.Stream entity [] raw ∧
      Replica.takeAll entity [] raw = tracked ∧
      (∀ entry ∈ tracked, query.admits entry.2 = true) ∧
      Rising entity raw := by
  intro t raw tracked
  have hrenders := t.life_renders s cs
  have hreports := life_reports (t := t.plain) ⟨rfl, rfl⟩ t.plain_inFull distinct cs
  have htracked : (t.plain.life s cs).2.matched = tracked :=
    (congrArg Tracker.matched hrenders.after).symm
  refine ⟨hrenders.reported, hreports.stream, hreports.replay.trans htracked, ?_, hreports.rising⟩
  intro pair hin
  obtain ⟨key, value⟩ := pair
  -- the tracked set is that of the plain tracker, whose predicate is the same
  have hasc : tracked.Ascending := htracked ▸ hreports.sound.ascending
  have hget : Keyed.get? key (t.plain.life s cs).2.matched = some value :=
    htracked ▸ Keyed.get?_of_mem hasc hin
  have hadmits := hreports.sound.admitted hget
  rw [hreports.query] at hadmits
  exact hadmits

end Tracker

namespace Shop

/-- The names of the products that are active. -/
def activeNames : Query.Compiled where
  predicate := some (Value.get "active")
  mapping := some (Value.get "name")
  keys := []
  skip := 0
  limit := none
  properties := []

/-- A product, active or not. -/
def item (key name : String) (active : Bool) : Value :=
  .object [("active", .bool active), ("key", .text key), ("name", .text name)]

/-- Two products, of which one is active. -/
def stock : Snapshot where
  entities := [item "a" "lamp" true, item "b" "desk" false]
  versions := [("a", 1), ("b", 1)]

/-- The desk becomes active, which is told twice; then the lamp goes, comes back under
another name, and a full list without the desk is taken. -/
def news : List Tracker.Call :=
  [.apply ((Notification.create (item "b" "desk" true)).withVersion (some 2)),
   .apply ((Notification.create (item "b" "desk" true)).withVersion (some 2)),
   .apply { kind := .delete, newValue := some (item "a" "lamp" true) },
   .resync { entities := [item "b" "desk" true, item "a" "torch" true], versions := [("a", 3)] },
   .diff [item "a" "torch" true]]

theorem news_well_formed :
    let t : Tracker := { entity := product, query := activeNames }
    let raw := (t.plain.life stock news).1
    (stock.entities.filterMap product.keyTextOf?).Nodup ∧
      (t.life stock news).1 = raw.map t.shaped ∧ Replica.Stream product [] raw ∧
      raw.map Notification.kind = [.create, .create, .delete, .create, .delete] ∧
      raw.map Notification.version = [none, some 2, none, none, none] := by
  have distinct : (stock.entities.filterMap product.keyTextOf?).Nodup := by decide
  obtain ⟨hshaped, hstream, _⟩ := Tracker.life_well_formed product activeNames stock news distinct
  exact ⟨distinct, hshaped, hstream, by decide, by decide⟩

end Shop

end LiveRecords

import LiveRecords.Live.Tracker
import LiveRecords.Proofs.Live.Replica

/-
  What a tracker reports at one call.

  All calls come down to transitions, each of which moves one key of the tracked set
  and reports just that (`Moves`). So every call reports a stream that fits the set
  tracked before it, and replaying the stream gives the set tracked after it; the
  versions reported of a key are new to the tracker, and known to it since
  (`Reports`). The tracker trusts nothing it is told: changes may be of any kind,
  stale, repeated, or without a version or a value.
-/

namespace LiveRecords

namespace Tracker

/-! ## What one call reports -/

/-- What holds of a tracker's set: every entity stands under its own key, once, and
satisfies the predicate. -/
structure Sound (t : Tracker) : Prop where
  ascending : t.matched.Ascending
  keyed : ∀ {key value}, t.matched.get? key = some value → t.entity.keyTextOf? value = some key
  admitted : ∀ {key value}, t.matched.get? key = some value → t.query.admits value = true

theorem Sound.congr {t t' : Tracker} (h : t.Sound) (entity : t'.entity = t.entity)
    (query : t'.query = t.query) (matched : t'.matched = t.matched) : t'.Sound where
  ascending := by rw [matched]; exact h.ascending
  keyed := by rw [matched, entity]; exact h.keyed
  admitted := by rw [matched, query]; exact h.admitted

/-- A tracker that reports entities in full. -/
def InFull (t : Tracker) : Prop := ∀ value, t.query.shape value = value

/-- A tracker goes over into another one and reports some notifications on the way. -/
structure Reports (t : Tracker) (ns : List (Notification Value)) (t' : Tracker) : Prop where
  entity : t'.entity = t.entity
  query : t'.query = t.query
  sound : t'.Sound
  stream : Replica.Stream t.entity t.matched ns
  replay : Replica.takeAll t.entity t.matched ns = t'.matched
  keeps : ∀ {key v}, t.isStale key v = true → t'.isStale key v = true
  fresh : ∀ n ∈ ns, ∀ key v, n.keyText? t.entity = some key → n.version = some v →
    t.isStale key v = false ∧ t'.isStale key v = true
  rising : Rising t.entity ns

theorem isStale_iff {t : Tracker} {key : String} {v : Nat} :
    t.isStale key v = true ↔ ∃ seen, t.versions.get? key = some seen ∧ v ≤ seen := by
  unfold isStale
  cases t.versions.get? key with
  | none => simp
  | some seen => simp

theorem isStale_put_self (t : Tracker) (key : String) (v : Nat) :
    ({ t with versions := t.versions.put key v } : Tracker).isStale key v = true :=
  isStale_iff.2 ⟨v, Keyed.get?_put_self .., Nat.le_refl v⟩

theorem lt_of_not_isStale {t : Tracker} {key : String} {v seen : Nat}
    (h : t.isStale key v = false) (hseen : t.versions.get? key = some seen) : seen < v := by
  unfold isStale at h
  rw [hseen] at h
  have hgt : ¬v ≤ seen := of_decide_eq_false h
  omega

theorem isStale_put {t : Tracker} {key other : String} {v w : Nat} (h : t.isStale key v = false)
    (hs : t.isStale other w = true) :
    ({ t with versions := t.versions.put key v } : Tracker).isStale other w = true := by
  obtain ⟨seen, hget, hle⟩ := isStale_iff.1 hs
  by_cases heq : other = key
  · subst heq
    -- only a version that is new of the key takes the place of the one seen
    have hlt := lt_of_not_isStale h hget
    refine isStale_iff.2 ⟨v, Keyed.get?_put_self .., ?_⟩
    omega
  · exact isStale_iff.2 ⟨seen, (Keyed.get?_put_of_ne heq ..).trans hget, hle⟩

theorem isStale_congr {t t' : Tracker} (h : t'.versions = t.versions) (key : String) (v : Nat) :
    t'.isStale key v = t.isStale key v := by
  unfold isStale
  rw [h]

namespace Reports

variable {t t' t'' : Tracker} {ns ms : List (Notification Value)}

theorem refl (h : t.Sound) : Reports t [] t where
  entity := rfl
  query := rfl
  sound := h
  stream := trivial
  replay := rfl
  keeps h := h
  fresh _ hin := by cases hin
  rising := List.Pairwise.nil

theorem trans (h : Reports t ns t') (h' : Reports t' ms t'') : Reports t (ns ++ ms) t'' where
  entity := h'.entity.trans h.entity
  query := h'.query.trans h.query
  sound := h'.sound
  stream := by
    refine h.stream.append ?_
    rw [h.replay, ← h.entity]
    exact h'.stream
  replay := by
    rw [Replica.takeAll_append, h.replay, ← h.entity]
    exact h'.replay
  keeps hs := h'.keeps (h.keeps hs)
  fresh n hin key v hk hv := by
    rcases List.mem_append.1 hin with hin | hin
    · obtain ⟨hnew, hseen⟩ := h.fresh n hin key v hk hv
      exact ⟨hnew, h'.keeps hseen⟩
    · rw [← h.entity] at hk
      obtain ⟨hnew, hseen⟩ := h'.fresh n hin key v hk hv
      refine ⟨?_, hseen⟩
      cases hs : t.isStale key v with
      | false => rfl
      | true =>
        rw [h.keeps hs] at hnew
        cases hnew
  rising := by
    refine List.pairwise_append.2 ⟨h.rising, h.entity ▸ h'.rising, ?_⟩
    intro m hm n hn key v w hkm hkn hv hw
    rw [← h.entity] at hkn
    obtain ⟨_, hseen⟩ := h.fresh m hm key v hkm hv
    obtain ⟨hnew, _⟩ := h'.fresh n hn key w hkn hw
    -- the later one is new after the version of the earlier one was seen
    obtain ⟨seen, hget, hle⟩ := isStale_iff.1 hseen
    have hlt := lt_of_not_isStale hnew hget
    omega

/-- Seeing newer versions reports nothing. -/
theorem of_versions (h : t.Sound) (entity : t'.entity = t.entity) (query : t'.query = t.query)
    (matched : t'.matched = t.matched)
    (keeps : ∀ {key v}, t.isStale key v = true → t'.isStale key v = true) : Reports t [] t' where
  entity := entity
  query := query
  sound := h.congr entity query matched
  stream := trivial
  replay := matched.symm
  keeps := keeps
  fresh _ hin := by cases hin
  rising := List.Pairwise.nil

end Reports

/-! ## Transitions -/

/-- What a transition of a key does: it moves the set, and the set only, in the way
that what it reports of the key says. -/
structure Moves (t : Tracker) (key : String) (change : Option (Notification Value))
    (t' : Tracker) : Prop where
  entity : t'.entity = t.entity
  query : t'.query = t.query
  versions : t'.versions = t.versions
  sound : t'.Sound
  about : ∀ n ∈ change, n.keyText? t.entity = some key ∧ n.version = none
  fits : ∀ n ∈ change, n.Fits t.entity t.matched
  replay : change.elim t.matched (Replica.take t.entity t.matched) = t'.matched

theorem Sound.put {t : Tracker} (h : t.Sound) {key : String} {value : Value}
    (keyed : t.entity.keyTextOf? value = some key) (admitted : t.query.admits value = true) :
    ({ t with matched := t.matched.put key value } : Tracker).Sound where
  ascending := h.ascending.put key value
  keyed {other v} hget := by
    rw [Keyed.get?_put] at hget
    split at hget
    · next heq =>
      cases hget
      rw [heq]
      exact keyed
    · exact h.keyed hget
  admitted {other v} hget := by
    rw [Keyed.get?_put] at hget
    split at hget
    · cases hget
      exact admitted
    · exact h.admitted hget

theorem Sound.erase {t : Tracker} (h : t.Sound) (key : String) :
    ({ t with matched := t.matched.erase key } : Tracker).Sound where
  ascending := h.ascending.erase key
  keyed {other v} hget := by
    rw [Keyed.get?_erase h.ascending] at hget
    split at hget
    · cases hget
    · exact h.keyed hget
  admitted {other v} hget := by
    rw [Keyed.get?_erase h.ascending] at hget
    split at hget
    · cases hget
    · exact h.admitted hget

/-- A transition that is told of by one notification. -/
theorem Moves.told {t : Tracker} {key : String} {n : Notification Value} {held : Replica}
    (sound : ({ t with matched := held } : Tracker).Sound)
    (about : n.keyText? t.entity = some key) (unversioned : n.version = none)
    (fits : n.Fits t.entity t.matched) (replay : Replica.take t.entity t.matched n = held) :
    Moves t key (some n) { t with matched := held } where
  entity := rfl
  query := rfl
  versions := rfl
  sound := sound
  about m hm := by
    cases hm
    exact ⟨about, unversioned⟩
  fits m hm := by
    cases hm
    exact fits
  replay := replay

/-- A transition moves a key from whether it was tracked to whether it is to be. -/
theorem transition_moves {t : Tracker} (h : t.Sound) (key : String) (after : Option Value)
    (good : ∀ v, after = some v → t.entity.keyTextOf? v = some key ∧ t.query.admits v = true) :
    Moves t key (t.transition key after).1 (t.transition key after).2 := by
  unfold transition
  cases hbefore : t.matched.get? key with
  | none =>
    cases after with
    | none => exact ⟨rfl, rfl, rfl, h, nofun, nofun, rfl⟩
    | some new =>
      obtain ⟨hkey, hadmits⟩ := good new rfl
      have hn : (Notification.create new).keyText? t.entity = some key := hkey
      exact .told (h.put hkey hadmits) hn rfl ⟨key, hn, rfl, hbefore⟩ (Replica.take_of_keyed hn)
  | some old =>
    cases after with
    | none =>
      have hn : (Notification.delete old).keyText? t.entity = some key := h.keyed hbefore
      exact .told (h.erase key) hn rfl ⟨key, hn, rfl, rfl, hbefore⟩ (Replica.take_of_keyed hn)
    | some new =>
      obtain ⟨hkey, hadmits⟩ := good new rfl
      have hn : (Notification.update old new).keyText? t.entity = some key := hkey
      cases hsame : old.same new with
      | true =>
        -- nothing changes, so nothing is reported
        simp only [hsame, if_true]
        exact ⟨rfl, rfl, rfl, h, nofun, nofun, rfl⟩
      | false =>
        simp only [hsame, Bool.false_eq_true, if_false]
        exact .told (h.put hkey hadmits) hn rfl ⟨key, hn, old, new, rfl, rfl, hbefore, hsame⟩
          (Replica.take_of_keyed hn)

/-- A transition reports what it does, under any version that is new of the key. -/
theorem Moves.reports {t t₀ t' : Tracker} {key : String} {change : Option (Notification Value)}
    (h : Moves t key change t') (version : Option Nat)
    (entity : t.entity = t₀.entity) (query : t.query = t₀.query) (matched : t.matched = t₀.matched)
    (keeps : ∀ {k v}, t₀.isStale k v = true → t.isStale k v = true)
    (fresh : ∀ v, version = some v → t₀.isStale key v = false ∧ t.isStale key v = true) :
    Reports t₀ (change.map (·.withVersion version)).toList t' where
  entity := h.entity.trans entity
  query := h.query.trans query
  sound := h.sound
  stream := by
    rw [← entity, ← matched]
    cases change with
    | none => exact trivial
    | some n => exact ⟨h.fits n rfl, trivial⟩
  replay := by
    rw [← h.replay, ← entity, ← matched]
    cases change <;> rfl
  keeps hs := by
    rw [isStale_congr h.versions]
    exact keeps hs
  fresh n hin k v hk hv := by
    rw [isStale_congr h.versions]
    cases change with
    | none => cases hin
    | some m =>
      obtain rfl : n = m.withVersion version := by simpa using hin
      obtain rfl : k = key := by
        have : some k = some key := hk.symm.trans (entity ▸ (h.about m rfl).1)
        simpa using this
      exact fresh v hv
  rising := by
    cases change with
    | none => exact List.Pairwise.nil
    | some n => exact List.pairwise_singleton ..

theorem Moves.reports_unversioned {t t' : Tracker} {key : String}
    {change : Option (Notification Value)} (h : Moves t key change t') :
    Reports t change.toList t' := by
  have hsame : change.map (·.withVersion none) = change := by
    cases change with
    | none => rfl
    | some n =>
      have hnone : n.version = none := (h.about n rfl).2
      show some (n.withVersion none) = some n
      rw [← hnone]
      rfl
  have hreports := h.reports none rfl rfl rfl (fun hs => hs) (fun v hv => by cases hv)
  rwa [hsame] at hreports

theorem transitions_cons (t : Tracker) (key : String) (after : Option Value)
    (rest : List (String × Option Value)) :
    t.transitions ((key, after) :: rest) =
      ((t.transition key after).1.toList ++ ((t.transition key after).2.transitions rest).1,
        ((t.transition key after).2.transitions rest).2) := rfl

theorem transitions_reports {t : Tracker} (h : t.Sound) (steps : List (String × Option Value))
    (good : ∀ key v, (key, some v) ∈ steps →
      t.entity.keyTextOf? v = some key ∧ t.query.admits v = true) :
    Reports t (t.transitions steps).1 (t.transitions steps).2 := by
  induction steps generalizing t with
  | nil => exact .refl h
  | cons step rest ih =>
    obtain ⟨key, after⟩ := step
    have hmoves := transition_moves h key after fun v hv =>
      good key v (hv ▸ List.mem_cons_self)
    refine hmoves.reports_unversioned.trans (ih hmoves.sound fun k v hin => ?_)
    rw [hmoves.entity, hmoves.query]
    exact good k v (List.mem_cons_of_mem _ hin)

/-! ## The calls of a tracker that reports in full -/

theorem InFull.shaped {t : Tracker} (h : t.InFull) (n : Notification Value) : t.shaped n = n := by
  have hid : t.query.shape = id := funext h
  unfold Tracker.shaped Notification.map
  rw [hid, Option.map_id]
  rfl

theorem InFull.map_shaped {t : Tracker} (h : t.InFull) (ns : List (Notification Value)) :
    ns.map t.shaped = ns := by
  rw [funext h.shaped]
  exact List.map_id ns

theorem of_matchedAfter {t : Tracker} {n : Notification Value} {key : String} {v : Value}
    (hkey : n.keyText? t.entity = some key) (h : t.matchedAfter n = some v) :
    t.entity.keyTextOf? v = some key ∧ t.query.admits v = true := by
  have hfilter : n.newValue.filter t.query.admits = some v := by
    unfold matchedAfter at h
    split at h
    · cases h
    all_goals exact h
  rw [Option.filter_eq_some_iff] at hfilter
  obtain ⟨hnew, hadmits⟩ := hfilter
  refine ⟨?_, hadmits⟩
  unfold Notification.keyText? Notification.current? at hkey
  rwa [hnew] at hkey

/-- What a change does to a tracker `u` that has seen its version, told of the tracker
`t` before. -/
theorem seen_reports {t u : Tracker} (h : t.Sound) (full : t.InFull) {n : Notification Value}
    {key : String} (hkey : n.keyText? t.entity = some key) (entity : u.entity = t.entity)
    (query : u.query = t.query) (matched : u.matched = t.matched)
    (keeps : ∀ {k v}, t.isStale k v = true → u.isStale k v = true)
    (fresh : ∀ v, n.version = some v → t.isStale key v = false ∧ u.isStale key v = true) :
    Reports t
      ((u.transition key (u.matchedAfter n)).1.map fun c =>
        (u.transition key (u.matchedAfter n)).2.shaped (c.withVersion n.version)).toList
      (u.transition key (u.matchedAfter n)).2 := by
  have hmoves := transition_moves (h.congr entity query matched) key (u.matchedAfter n)
    fun v hv => of_matchedAfter (by rw [entity]; exact hkey) hv
  have hfull : (u.transition key (u.matchedAfter n)).2.InFull := by
    intro value
    rw [hmoves.query, query]
    exact full value
  simp only [hfull.shaped]
  exact hmoves.reports n.version entity query matched keeps fresh

theorem apply_reports {t : Tracker} (h : t.Sound) (full : t.InFull) (n : Notification Value) :
    Reports t (t.apply n).1.toList (t.apply n).2 := by
  unfold apply
  cases hkey : n.current?.bind t.entity.keyTextOf? with
  | none => exact .refl h
  | some key =>
    cases hversion : n.version with
    | none =>
      have hreports := seen_reports (u := t) h full hkey rfl rfl rfl (fun hs => hs)
        fun v hv => by rw [hversion] at hv; cases hv
      rwa [hversion] at hreports
    | some version =>
      cases hstale : t.isStale key version with
      | true =>
        simp only [hstale, if_true]
        exact .refl h
      | false =>
        simp only [hstale, Bool.false_eq_true, if_false]
        have hreports := seen_reports (u := { t with versions := t.versions.put key version })
          h full hkey rfl rfl rfl (fun hs => isStale_put hstale hs) fun v hv => by
            rw [hversion] at hv
            cases hv
            exact ⟨hstale, isStale_put_self ..⟩
        rwa [hversion] at hreports

theorem of_mem_keyed {t : Tracker} {entities : List Value} {key : String} {v : Value}
    (h : (key, v) ∈ t.keyed entities) :
    t.entity.keyTextOf? v = some key ∧ t.query.admits v = true := by
  unfold keyed at h
  simp only [List.mem_filterMap, List.mem_filter, Option.map_eq_some_iff, Prod.mk.injEq] at h
  obtain ⟨entity, ⟨_, hadmits⟩, k, hkey, rfl, rfl⟩ := h
  exact ⟨hkey, hadmits⟩

/-- What arrives is something found. -/
theorem of_mem_arrivals {current : Keyed Value} {names : List String} {key : String} {v : Value}
    (h : (key, some v) ∈ arrivals current names) : (key, v) ∈ current := by
  induction names generalizing current with
  | nil => cases h
  | cons name rest ih =>
    rcases List.mem_cons.1 h with heq | hin
    · obtain ⟨rfl, hget⟩ := Prod.mk.inj heq
      exact Keyed.mem_of_get? hget.symm
    · exact (Keyed.erase_sublist name current).subset (ih hin)

/-- The new states of keys that a full list of entities brings. -/
def states (t : Tracker) (entities : List Value) : List (String × Option Value) :=
  let current := Keyed.ofList (t.keyed entities)
  (t.matched.filter fun entry => !current.contains entry.1).map (fun entry => (entry.1, none)) ++
    arrivals current ((t.keyed entities).map (·.1))

theorem diff_eq (t : Tracker) (entities : List Value) :
    t.diff entities =
      ((t.transitions (t.states entities)).1.map (t.transitions (t.states entities)).2.shaped,
        (t.transitions (t.states entities)).2) := rfl

theorem of_mem_states {t : Tracker} {entities : List Value} {key : String} {v : Value}
    (h : (key, some v) ∈ t.states entities) :
    t.entity.keyTextOf? v = some key ∧ t.query.admits v = true := by
  rcases List.mem_append.1 h with hgone | hnew
  · obtain ⟨_, _, heq⟩ := List.mem_map.1 hgone
    cases heq
  · have hfound := of_mem_arrivals hnew
    rw [Keyed.ofList_eq_putAll] at hfound
    rcases Keyed.mem_putAll hfound with hin | hin
    · exact of_mem_keyed hin
    · cases hin

theorem diff_reports {t : Tracker} (h : t.Sound) (full : t.InFull) (entities : List Value) :
    Reports t (t.diff entities).1 (t.diff entities).2 := by
  have hreports := transitions_reports h (t.states entities) fun _ _ => of_mem_states
  have hfull : InFull (t.transitions (t.states entities)).2 := by
    intro value
    rw [hreports.query]
    exact full value
  rw [diff_eq, hfull.map_shaped]
  exact hreports

/-- The versions seen of each key, with those of a snapshot. -/
def newest (seen : Keyed Nat) (versions : List (String × Nat)) : Keyed Nat :=
  versions.foldl
    (fun seen entry => seen.put entry.1 (max ((seen.get? entry.1).getD 0) entry.2)) seen

/-- Seeing the versions of a snapshot forgets none seen before. -/
theorem isStale_newest {t : Tracker} {versions : List (String × Nat)} {key : String} {v : Nat}
    (h : t.isStale key v = true) :
    ({ t with versions := newest t.versions versions } : Tracker).isStale key v = true := by
  induction versions generalizing t with
  | nil => exact h
  | cons entry rest ih =>
    -- the version kept is the later of the two, so it is not before the one seen
    let version := max ((t.versions.get? entry.1).getD 0) entry.2
    refine ih (t := { t with versions := t.versions.put entry.1 version }) ?_
    obtain ⟨seen, hget, hle⟩ := isStale_iff.1 h
    by_cases heq : key = entry.1
    · subst heq
      refine isStale_iff.2 ⟨_, Keyed.get?_put_self .., ?_⟩
      show v ≤ max ((t.versions.get? entry.1).getD 0) entry.2
      rw [hget, Option.getD_some]
      omega
    · exact isStale_iff.2 ⟨seen, (Keyed.get?_put_of_ne heq ..).trans hget, hle⟩

theorem resync_reports {t : Tracker} (h : t.Sound) (full : t.InFull) (s : Snapshot) :
    Reports t (t.resync s).1 (t.resync s).2 := by
  have hseen : Reports t [] { t with versions := newest t.versions s.versions } :=
    .of_versions h rfl rfl rfl isStale_newest
  exact hseen.trans (diff_reports hseen.sound full s.entities)

/-- Where nothing found is tracked yet, all that is found arrives. -/
theorem transitions_found {t : Tracker} {found : List (String × Value)}
    (distinct : (found.map (·.1)).Nodup)
    (absent : ∀ entry ∈ found, t.matched.get? entry.1 = none) :
    t.transitions (found.map fun entry => (entry.1, some entry.2)) =
      (found.map fun entry => .create entry.2,
        { t with matched := Keyed.putAll found t.matched }) := by
  induction found generalizing t with
  | nil => rfl
  | cons entry rest ih =>
    obtain ⟨key, value⟩ := entry
    rw [List.map_cons, List.nodup_cons] at distinct
    have hstep : t.transition key (some value) =
        (some (.create value), { t with matched := t.matched.put key value }) := by
      unfold transition
      rw [absent (key, value) List.mem_cons_self]
    have hrest := ih (t := { t with matched := t.matched.put key value }) distinct.2
      fun entry hin => by
        have hne : entry.1 ≠ key := by
          intro heq
          subst heq
          exact distinct.1 (List.mem_map.2 ⟨entry, hin, rfl⟩)
        exact (Keyed.get?_put_of_ne hne ..).trans (absent entry (List.mem_cons_of_mem _ hin))
    rw [List.map_cons, transitions_cons, hstep, hrest]
    rfl

theorem keyed_distinct {t : Tracker} {entities : List Value}
    (h : (entities.filterMap t.entity.keyTextOf?).Nodup) :
    ((t.keyed entities).map (·.1)).Nodup := by
  have hkeys : (t.keyed entities).map (·.1) =
      (entities.filter t.query.admits).filterMap t.entity.keyTextOf? := by
    unfold keyed
    rw [List.map_filterMap]
    congr 1
    funext entity
    cases t.entity.keyTextOf? entity <;> rfl
  rw [hkeys]
  exact h.sublist (List.filter_sublist.filterMap _)

/-- A tracker that has read nothing yet. -/
structure Blank (t : Tracker) : Prop where
  matched : t.matched = []
  versions : t.versions = []

theorem Blank.sound {t : Tracker} (h : t.Blank) : t.Sound where
  ascending := by rw [h.matched]; exact Keyed.ascending_nil
  keyed hget := by rw [h.matched] at hget; cases hget
  admitted hget := by rw [h.matched] at hget; cases hget

theorem snapshot_reports {t : Tracker} (blank : t.Blank) (full : t.InFull) {s : Snapshot}
    (distinct : (s.entities.filterMap t.entity.keyTextOf?).Nodup) :
    Reports t (t.snapshot s).1 (t.snapshot s).2 := by
  have harrive := transitions_reports blank.sound
    ((t.keyed s.entities).map fun entry => (entry.1, some entry.2))
    fun key v hin => by
      obtain ⟨entry, hentry, heq⟩ := List.mem_map.1 hin
      cases heq
      exact of_mem_keyed hentry
  rw [transitions_found (keyed_distinct distinct) fun entry _ => by rw [blank.matched]; rfl]
    at harrive
  -- the versions come from the snapshot; before it none were seen
  have hversions : Reports _ [] (t.snapshot s).2 :=
    .of_versions harrive.sound rfl rfl rfl fun {key v} hs => by
      obtain ⟨_, hget, _⟩ := isStale_iff.1 hs
      rw [blank.versions] at hget
      cases hget
  have hreports := harrive.trans hversions
  rw [List.append_nil] at hreports
  have hcreated : (t.snapshot s).1 = (t.keyed s.entities).map fun entry => .create entry.2 :=
    List.map_congr_left fun entry _ => full.shaped (.create entry.2)
  rw [hcreated]
  exact hreports

end Tracker

end LiveRecords

import LiveRecords.Proofs.Live.Tracking
import LiveRecords.Proofs.Store.Reading

/-
  A tracker that follows the journal of a store.

  A tracker takes the events of a journal one by one, but it may have read more of a
  key in a snapshot than the place in the journal says to which it has come. So for
  every key there is a moment, not before that place, at which the store held under
  the key just what the tracker says of it (`Abreast`, `Follows`). Events before that
  moment are stale to the tracker, and the next one behind it is new
  (`Abreast.apply_self`); so taking events one by one it follows (`Follows.apply`). A
  snapshot moves the moment of every key to the present, wherever it was before
  (`Follows.resync`); and where the place is the end of the journal, the moment of
  every key is the present (`Follows.settled`).
-/

namespace LiveRecords

/-! ## What was held at a moment -/

/-- What was held under every key after the first `n` events of a journal. -/
def heldAt (owners : Owners) (journal : Array StoreEvent) (n : Nat) : Ledger :=
  Ledger.empty.recordAll owners (journal.toList.take n)

section heldAt

variable {owners : Owners} {s s' : Store} {n : Nat}

/-- At the end of the journal that is what is held now. -/
theorem heldAt_size (h : Commits owners {} s) : heldAt owners s.journal s.journal.size = s.ledger := by
  rw [h.ledger_eq]
  unfold heldAt Store.recorded
  rw [← Array.length_toList, List.take_length]

theorem heldAt_succ {e : StoreEvent} (he : s.journal[n]? = some e) :
    heldAt owners s.journal (n + 1) = (heldAt owners s.journal n).record owners e := by
  have hget : s.journal.toList[n]? = some e := by rw [Array.getElem?_toList, he]
  unfold heldAt
  rw [List.take_add_one, hget, Ledger.recordAll_append]
  rfl

/-- The next event fits what was held, and has the next version. -/
theorem Commits.next (h : Commits owners {} s) {e : StoreEvent} (he : s.journal[n]? = some e) :
    ∃ key, (owners e.table).keyTextOf? e.value = some key ∧
      e.version = (heldAt owners s.journal n e.table key).version + 1 := by
  have hget : s.journal.toList[n]? = some e := by rw [Array.getElem?_toList, he]
  obtain ⟨hlt, heq⟩ := List.getElem?_eq_some_iff.1 hget
  have hsplit : s.journal.toList = s.journal.toList.take n ++ e :: s.journal.toList.drop (n + 1) := by
    rw [← heq, List.getElem_cons_drop, List.take_append_drop]
  obtain ⟨⟨key, hkey, _, hversion⟩, _⟩ := h.chained_at hsplit
  exact ⟨key, hkey, hversion⟩

/-- Versions only grow from moment to moment. -/
theorem Commits.version_heldAt_le (h : Commits owners {} s) {m : Nat} (hmn : m ≤ n)
    (table key : String) : (heldAt owners s.journal m table key).version ≤
      (heldAt owners s.journal n table key).version := by
  have hsplit := (List.take_append_drop m (s.journal.toList.take n)).symm
  rw [List.take_take, Nat.min_eq_left hmn] at hsplit
  have hchain : Chained owners Ledger.empty (s.journal.toList.take n) := by
    have hall := h.chained
    rw [← List.take_append_drop n s.journal.toList, Chained.append] at hall
    exact hall.1
  rw [hsplit, Chained.append] at hchain
  have hle := hchain.2.version_le table key
  unfold heldAt
  rw [hsplit, Ledger.recordAll_append]
  exact hle

/-- What was held at a moment stays so. -/
theorem Commits.heldAt_eq (h : Commits owners s s') (wf : s.WellFormed owners)
    (hn : n ≤ s.journal.size) : heldAt owners s'.journal n = heldAt owners s.journal n := by
  obtain ⟨new, hnew⟩ := h.journal_append wf
  unfold heldAt
  rw [hnew, List.take_append_of_le_length (by rwa [Array.length_toList])]

end heldAt

/-! ## Following -/

namespace Tracker

/-- What a tracker says of a key is what was held under it at a moment. -/
def Mirrors (t : Tracker) (key : String) (held : Held) : Prop :=
  t.seen key = held.version ∧
    Agree (t.matched.get? key) ((held.row?.map Row.value).filter t.query.admits)

/-- There is a moment, not before a place in the journal, at which the store held under a
key just what the tracker says of it. -/
def Abreast (owners : Owners) (s : Store) (place : Nat) (t : Tracker) (key : String) : Prop :=
  ∃ n, place ≤ n ∧ n ≤ s.journal.size ∧
    t.Mirrors key (heldAt owners s.journal n t.entity.name key)

/-- For every key there is such a moment. -/
def Follows (owners : Owners) (s : Store) (place : Nat) (t : Tracker) : Prop :=
  ∀ key, t.Abreast owners s place key

variable {owners : Owners} {s s' : Store} {t : Tracker} {place : Nat}

theorem Mirrors.congr {t' : Tracker} {key : String} {held : Held} (h : t.Mirrors key held)
    (query : t'.query = t.query) (seen : t'.seen key = t.seen key)
    (matched : t'.matched.get? key = t.matched.get? key) : t'.Mirrors key held := by
  unfold Mirrors
  rw [query, seen, matched]
  exact h

namespace Abreast

variable {key : String}

theorem later (h : Abreast owners s place t key) (hs : Commits owners s s')
    (wf : s.WellFormed owners) : Abreast owners s' place t key := by
  obtain ⟨n, hplace, hn, hmirrors⟩ := h
  refine ⟨n, hplace, Nat.le_trans hn (hs.size_le wf), ?_⟩
  rw [hs.heldAt_eq wf hn]
  exact hmirrors

theorem before (h : Abreast owners s place t key) {earlier : Nat} (hle : earlier ≤ place) :
    Abreast owners s earlier t key := by
  obtain ⟨n, hplace, hn, hmirrors⟩ := h
  exact ⟨n, Nat.le_trans hle hplace, hn, hmirrors⟩

/-- An event does not touch the other keys. -/
theorem pass {e : StoreEvent} (h : Abreast owners s place t key)
    (he : s.journal[place]? = some e) (other : e.concerns owners t.entity.name key = false) :
    Abreast owners s (place + 1) t key := by
  obtain ⟨n, hplace, hn, hmirrors⟩ := h
  rcases Nat.lt_or_eq_of_le hplace with hlt | rfl
  · exact ⟨n, hlt, hn, hmirrors⟩
  · -- the moment of the key is moved past the event, which leaves it as it was
    obtain ⟨hsize, _⟩ := Array.getElem?_eq_some_iff.1 he
    refine ⟨place + 1, Nat.le_refl _, hsize, ?_⟩
    rw [heldAt_succ he]
    unfold Ledger.record
    rw [other, if_neg Bool.false_ne_true]
    exact hmirrors

/-- At the end of the journal a tracker knows what the store holds. -/
theorem settled (h : Abreast owners s s.journal.size t key) (hs : Commits owners {} s) :
    Agree (t.matched.get? key)
      (((s.table t.entity.name).rows.get? key |>.map Row.value).filter t.query.admits) := by
  obtain ⟨n, hge, hle, hmirrors⟩ := h
  obtain rfl : n = s.journal.size := Nat.le_antisymm hle hge
  rw [heldAt_size hs] at hmirrors
  rw [← Table.row?_held]
  exact hmirrors.2

end Abreast

namespace Follows

theorem later (h : Follows owners s place t) (hs : Commits owners s s')
    (wf : s.WellFormed owners) : Follows owners s' place t := fun key => (h key).later hs wf

/-- A tracker that has read nothing says what was held at the beginning. -/
theorem of_blank (h : t.Blank) : Follows owners s 0 t := by
  intro key
  refine ⟨0, Nat.le_refl 0, Nat.zero_le _, ?_, ?_⟩
  · unfold Tracker.seen
    rw [h.versions]
    rfl
  · rw [h.matched]
    exact .none

theorem before (h : Follows owners s place t) {earlier : Nat} (hle : earlier ≤ place) :
    Follows owners s earlier t := fun key => (h key).before hle

theorem le_size (h : Follows owners s place t) : place ≤ s.journal.size := by
  obtain ⟨n, hplace, hn, _⟩ := h ""
  exact Nat.le_trans hplace hn

/-- An event of another table tells nothing. -/
theorem skip {e : StoreEvent} (h : Follows owners s place t) (he : s.journal[place]? = some e)
    (other : e.table ≠ t.entity.name) : Follows owners s (place + 1) t :=
  fun key => (h key).pass he (StoreEvent.concerns_of_ne other key)

end Follows

/-- The value that an event leaves matched is the one it leaves in the store. -/
theorem matchedAfter_toNotification (t : Tracker) (e : StoreEvent) :
    t.matchedAfter e.toNotification = (e.leaves.row?.map Row.value).filter t.query.admits := by
  cases e <;> rfl

theorem keyText?_toNotification (type : EntityType) (e : StoreEvent) :
    e.toNotification.keyText? type = type.keyTextOf? e.value := by
  cases e <;> rfl

theorem version_toNotification (e : StoreEvent) : e.toNotification.version = some e.version := by
  cases e <;> rfl

/-- An event of its table tells a tracker nothing of other keys. -/
theorem Abreast.apply_of_ne {e : StoreEvent} {key other : String} {place : Nat}
    (h : Abreast owners s place t other) (sound : t.Sound) (full : t.InFull)
    (keyed : e.toNotification.keyText? t.entity = some key) (hne : other ≠ key) :
    Abreast owners s place (t.apply e.toNotification).2 other := by
  have hreports := apply_reports sound full e.toNotification
  obtain ⟨hseen, hmatched⟩ := Tracker.apply_of_ne keyed (version_toNotification e) hne
  obtain ⟨n, hplace, hn, hmirrors⟩ := h
  refine ⟨n, hplace, hn, ?_⟩
  rw [hreports.entity]
  exact hmirrors.congr hreports.query hseen hmatched

/-- An event of its table leaves a tracker abreast of the key that the event is about,
however many events before it the tracker was not told of. -/
theorem Abreast.apply_self {e : StoreEvent} {key : String} {low : Nat}
    (h : Abreast owners s low t key)
    (hs : Commits owners {} s) (sound : t.Sound) (full : t.InFull)
    (he : s.journal[place]? = some e) (table : e.table = t.entity.name)
    (keyed : (owners e.table).keyTextOf? e.value = some key)
    (keyed' : e.toNotification.keyText? t.entity = some key) :
    Abreast owners s (max low (place + 1)) (t.apply e.toNotification).2 key := by
  have hreports := apply_reports sound full e.toNotification
  obtain ⟨key', hkey', hversion⟩ := hs.next he
  obtain rfl : key' = key := Option.some.inj (hkey'.symm.trans keyed)
  have hpositive : 0 < e.version := by omega
  obtain ⟨hsize, _⟩ := Array.getElem?_eq_some_iff.1 he
  obtain ⟨n, hlow, hn, hmirrors⟩ := h
  rcases Nat.lt_or_ge place n with hlt | hge
  · -- the tracker has read of the event in a snapshot
    have hle := hs.version_heldAt_le hlt t.entity.name key'
    rw [heldAt_succ he, Ledger.record_of_keyed keyed, if_pos ⟨table, rfl⟩,
      StoreEvent.version_leaves, ← hmirrors.1] at hle
    rw [apply_of_stale keyed' (version_toNotification e) ((isStale_iff_le hpositive).2 hle)]
    exact ⟨n, Nat.max_le.2 ⟨hlow, hlt⟩, hn, hmirrors⟩
  · -- the event is newer than all that the tracker has seen of the key
    have hnew : t.isStale key' e.version = false := by
      rw [Bool.eq_false_iff]
      intro hstale
      have hle := (isStale_iff_le hpositive).1 hstale
      have hle' := hs.version_heldAt_le hge t.entity.name key'
      rw [hmirrors.1] at hle
      rw [table] at hversion
      omega
    refine ⟨place + 1, Nat.max_le.2 ⟨by omega, Nat.le_refl _⟩, hsize, ?_⟩
    rw [hreports.entity, heldAt_succ he, Ledger.record_of_keyed keyed, if_pos ⟨table, rfl⟩]
    unfold Mirrors
    rw [hreports.query, apply_of_new keyed' (version_toNotification e) hnew]
    constructor
    · unfold Tracker.seen
      rw [transition_versions, Keyed.get?_put_self, StoreEvent.version_leaves]
      rfl
    · rw [← matchedAfter_toNotification t e]
      exact transition_agree (t := { t with versions := t.versions.put key' e.version })
        sound.ascending key' (t.matchedAfter e.toNotification)

/-- The key that an event of its table is about, to a tracker. -/
theorem keyText?_of_owned {e : StoreEvent} {key : String}
    (owned : owners t.entity.name = t.entity) (table : e.table = t.entity.name)
    (keyed : (owners e.table).keyTextOf? e.value = some key) :
    e.toNotification.keyText? t.entity = some key := by
  rw [keyText?_toNotification, ← owned, ← table]
  exact keyed

/-- With an event of its table a tracker comes abreast of the key that the event is about,
and stays where it was with every other key. -/
theorem Follows.apply_cases {e : StoreEvent} {low : Nat} (h : Follows owners s low t)
    (hs : Commits owners {} s) (sound : t.Sound) (full : t.InFull)
    (owned : owners t.entity.name = t.entity) (he : s.journal[place]? = some e)
    (table : e.table = t.entity.name) (key : String) :
    (t.apply e.toNotification).2.Abreast owners s (max low (place + 1)) key ∨
      (∀ name, e.concerns owners name key = false) ∧
        ∀ m, t.Abreast owners s m key → (t.apply e.toNotification).2.Abreast owners s m key := by
  obtain ⟨about, habout, _⟩ := hs.next he
  have hkeyed := keyText?_of_owned owned table habout
  by_cases hother : key = about
  · subst hother
    exact .inl ((h key).apply_self hs sound full he table habout hkeyed)
  · exact .inr ⟨StoreEvent.concerns_of_keyed_ne habout hother,
      fun _ habreast => habreast.apply_of_ne sound full hkeyed hother⟩

/-- Taking the next event of its table keeps a tracker following, one place further. -/
theorem Follows.apply {e : StoreEvent} (h : Follows owners s place t) (hs : Commits owners {} s)
    (sound : t.Sound) (full : t.InFull) (owned : owners t.entity.name = t.entity)
    (he : s.journal[place]? = some e) (table : e.table = t.entity.name) :
    Follows owners s (place + 1) (t.apply e.toNotification).2 := by
  intro key
  rcases h.apply_cases hs sound full owned he table key with habout | ⟨hother, hstays⟩
  · exact habout.before (Nat.le_max_right ..)
  · exact (hstays place (h key)).pass he (hother _)

/-! ## Snapshots -/

/-- What is found in a snapshot under a key is what the store holds there, if it
matches. -/
theorem found_snapshot {q : Query} {run : Query.Compiled} (wf : s.WellFormed owners)
    (owned : owners q.entity.name = q.entity) (whole : run.Whole)
    (entity : t.entity = q.entity) (admits : run.admits = t.query.admits) (key : String) :
    t.found (s.snapshot q run).entities key =
      (((s.table q.entity.name).rows.get? key).map Row.value).filter t.query.admits := by
  have hkeyed : ∀ {k row}, (s.table q.entity.name).rows.get? k = some row →
      t.entity.keyTextOf? row.value = some k := by
    intro k row hget
    rw [entity, ← owned]
    exact (wf.table q.entity.name).keyed hget
  have hdistinct : ((s.snapshot q run).entities.filterMap t.entity.keyTextOf?).Nodup := by
    rw [entity]
    exact Store.snapshot_distinct wf whole owned
  refine Option.ext fun v => ?_
  rw [found_eq_some_iff hdistinct, Store.mem_snapshot wf whole, admits, Option.filter_eq_some_iff,
    Option.map_eq_some_iff]
  constructor
  · intro h
    obtain ⟨⟨⟨k, row, hget, rfl⟩, hadmits⟩, _, hkey⟩ := h
    obtain rfl : k = key := Option.some.inj ((hkeyed hget).symm.trans hkey)
    exact ⟨⟨row, hget, rfl⟩, hadmits⟩
  · intro h
    obtain ⟨⟨row, hget, rfl⟩, hadmits⟩ := h
    exact ⟨⟨⟨key, row, hget, rfl⟩, hadmits⟩, hadmits, hkeyed hget⟩

theorem Follows.of_present (hs : Commits owners {} s)
    (h : ∀ key, t.Mirrors key (s.ledger t.entity.name key)) :
    Follows owners s s.journal.size t := by
  intro key
  refine ⟨s.journal.size, Nat.le_refl _, Nat.le_refl _, ?_⟩
  rw [heldAt_size hs]
  exact h key

variable {q : Query} {run : Query.Compiled}

/-- A tracker that starts from a snapshot knows what the store holds. -/
theorem Follows.snapshot (hs : Commits owners {} s) (owned : owners q.entity.name = q.entity)
    (whole : run.Whole) (blank : t.Blank) (entity : t.entity = q.entity)
    (admits : run.admits = t.query.admits) :
    Follows owners s s.journal.size (t.snapshot (s.snapshot q run)).2 := by
  have wf : s.WellFormed owners := hs.wellFormed (.empty owners)
  refine .of_present hs fun key => ?_
  show Mirrors _ key (s.ledger t.entity.name key)
  rw [entity]
  constructor
  · exact Table.getD_versions (wf.table q.entity.name) key
  · show Agree (Keyed.get? key ((t.keyed _).foldl _ t.matched)) (Option.filter t.query.admits _)
    unfold Store.ledger
    rw [blank.matched, Table.row?_held, ← found_snapshot wf owned whole entity admits key]
    exact .refl _

/-- After a snapshot is taken to catch up a tracker knows what the store holds. -/
theorem Follows.resync (h : Follows owners s 0 t) (hs : Commits owners {} s)
    (owned : owners q.entity.name = q.entity) (whole : run.Whole) (sound : t.Sound)
    (full : t.InFull) (entity : t.entity = q.entity) (admits : run.admits = t.query.admits) :
    Follows owners s s.journal.size (t.resync (s.snapshot q run)).2 := by
  have wf : s.WellFormed owners := hs.wellFormed (.empty owners)
  have hreports := resync_reports sound full (s.snapshot q run)
  have hwf := wf.table q.entity.name
  refine .of_present hs fun key => ?_
  rw [hreports.entity, entity]
  unfold Mirrors
  rw [hreports.query]
  constructor
  · -- the versions seen before are not newer than those of the snapshot
    obtain ⟨n, _, hn, hmirrors⟩ := h key
    have hle := hs.version_heldAt_le hn t.entity.name key
    rw [heldAt_size hs, ← hmirrors.1, entity] at hle
    have hversions : (t.resync (s.snapshot q run)).2.versions =
        newest t.versions (s.table q.entity.name).versions := transitions_versions _
    have hseen : (t.resync (s.snapshot q run)).2.seen key =
        max (t.seen key) (s.ledger q.entity.name key).version := by
      unfold Tracker.seen
      rw [hversions, getD_newest (Table.versions_ascending hwf), Table.getD_versions hwf]
      rfl
    omega
  · have hdistinct : ((s.snapshot q run).entities.filterMap t.entity.keyTextOf?).Nodup := by
      rw [entity]
      exact Store.snapshot_distinct wf whole owned
    have hagree : Agree ((t.resync (s.snapshot q run)).2.matched.get? key)
        (t.found (s.snapshot q run).entities key) :=
      diff_agree (t := { t with versions := newest t.versions (s.snapshot q run).versions })
        sound.ascending hdistinct key
    rw [found_snapshot wf owned whole entity admits key] at hagree
    unfold Store.ledger
    rw [Table.row?_held]
    exact hagree

/-- At the end of the journal a tracker knows what the store holds. -/
theorem Follows.settled (h : Follows owners s s.journal.size t) (hs : Commits owners {} s)
    (key : String) :
    Agree (t.matched.get? key)
      (((s.table t.entity.name).rows.get? key |>.map Row.value).filter t.query.admits) :=
  (h key).settled hs

end Tracker

end LiveRecords

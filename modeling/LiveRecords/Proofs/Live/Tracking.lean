import LiveRecords.Proofs.Document.Sameness
import LiveRecords.Proofs.Live.Tracker

/-
  What a tracker holds of one key.

  A call sets what is tracked under some keys and leaves the other keys alone. Under
  a key that is set stands, up to sameness of documents, what the call says
  (`Agree`): after a new change its value, if it matches (`apply_of_new`), and after
  a full list of entities the one found there (`diff_agree`).
-/

namespace LiveRecords

/-! ## Agreement -/

/-- Neither is there, or both are and are the same document. -/
abbrev Agree : Option Value → Option Value → Prop := Option.Rel fun v w => v.same w = true

namespace Agree

variable {u v w : Option Value}

theorem refl (v : Option Value) : Agree v v := by
  cases v with
  | none => exact .none
  | some v => exact .some v.same_refl

theorem symm (h : Agree v w) : Agree w v := by
  cases h with
  | none => exact .none
  | some h => exact .some ((Value.same_symm ..).trans h)

theorem trans (h : Agree u v) (h' : Agree v w) : Agree u w := by
  cases h with
  | none => exact h'
  | some h =>
    cases h' with
    | some h' => exact .some (Value.same_trans _ _ _ h h')

end Agree

namespace Tracker

variable {t : Tracker}

/-! ## Transitions -/

theorem transition_versions (t : Tracker) (key : String) (after : Option Value) :
    (t.transition key after).2.versions = t.versions := by
  unfold transition
  cases t.matched.get? key <;> cases after
  all_goals first | rfl | (dsimp only; split <;> rfl)

theorem transition_ascending (h : t.matched.Ascending) (key : String) (after : Option Value) :
    (t.transition key after).2.matched.Ascending := by
  unfold transition
  cases t.matched.get? key <;> cases after
  · exact h
  · exact h.put ..
  · exact h.erase ..
  · dsimp only
    split
    · exact h
    · exact h.put ..

theorem get?_transition_of_ne {key other : String} (hne : other ≠ key) (after : Option Value) :
    (t.transition key after).2.matched.get? other = t.matched.get? other := by
  unfold transition
  cases t.matched.get? key <;> cases after
  · rfl
  · exact Keyed.get?_put_of_ne hne ..
  · exact Keyed.get?_erase_of_ne hne ..
  · dsimp only
    split
    · rfl
    · exact Keyed.get?_put_of_ne hne ..

theorem transition_agree (h : t.matched.Ascending) (key : String) (after : Option Value) :
    Agree ((t.transition key after).2.matched.get? key) after := by
  unfold transition
  cases hbefore : t.matched.get? key <;> cases after
  · show Agree (t.matched.get? key) none
    rw [hbefore]
    exact .none
  · show Agree ((t.matched.put key _).get? key) _
    rw [Keyed.get?_put_self]
    exact .refl _
  · show Agree ((t.matched.erase key).get? key) none
    rw [Keyed.get?_erase_self key h]
    exact .none
  · dsimp only
    split
    · next hsame =>
      rw [hbefore]
      exact .some hsame
    · rw [Keyed.get?_put_self]
      exact .refl _

theorem transitions_versions (steps : List (String × Option Value)) :
    (t.transitions steps).2.versions = t.versions := by
  induction steps generalizing t with
  | nil => rfl
  | cons step rest ih => exact ih.trans (t.transition_versions step.1 step.2)

theorem get?_transitions_of_not_mem {key : String} {steps : List (String × Option Value)}
    (h : key ∉ steps.map (·.1)) :
    (t.transitions steps).2.matched.get? key = t.matched.get? key := by
  induction steps generalizing t with
  | nil => rfl
  | cons step rest ih =>
    rw [List.map_cons, List.mem_cons, not_or] at h
    exact (ih h.2).trans (get?_transition_of_ne h.1 step.2)

theorem transitions_agree (h : t.matched.Ascending) {key : String} {after : Option Value}
    {steps : List (String × Option Value)} (hn : (steps.map (·.1)).Nodup)
    (hin : (key, after) ∈ steps) : Agree ((t.transitions steps).2.matched.get? key) after := by
  induction steps generalizing t with
  | nil => cases hin
  | cons step rest ih =>
    rw [List.map_cons, List.nodup_cons] at hn
    rcases List.mem_cons.1 hin with heq | hin
    · subst heq
      rw [transitions_cons, get?_transitions_of_not_mem hn.1]
      exact transition_agree h key after
    · exact ih (transition_ascending h step.1 step.2) hn.2 hin

/-! ## Tidings -/

/-- What there is to report of a key that goes from one value, or none, to another. -/
def tidings : Option Value → Option Value → List (Notification Value)
  | some old, some new => if old.same new then [] else [.update old new]
  | some old, none => [.delete old]
  | none, some new => [.create new]
  | none, none => []

/-- The notifications that are about a key. -/
def about (type : EntityType) (key : String) (ns : List (Notification Value)) :
    List (Notification Value) :=
  ns.filter fun n => n.keyText? type == some key

theorem about_append (type : EntityType) (key : String) (ms ns : List (Notification Value)) :
    about type key (ms ++ ns) = about type key ms ++ about type key ns := List.filter_append ..

theorem about_of_keyed {type : EntityType} {name : String} {ns : List (Notification Value)}
    (h : ∀ n ∈ ns, n.keyText? type = some name) (key : String) :
    about type key ns = if name = key then ns else [] := by
  unfold about
  split
  · next heq =>
    subst heq
    exact List.filter_eq_self.2 fun n hn => by rw [h n hn, beq_self_eq_true]
  · next hne =>
    refine List.filter_eq_nil_iff.2 fun n hn => ?_
    rw [h n hn, beq_iff_eq, Option.some.injEq]
    exact hne

theorem transition_tidings (t : Tracker) (key : String) (after : Option Value) :
    (t.transition key after).1.toList = tidings (t.matched.get? key) after := by
  unfold transition tidings
  cases t.matched.get? key <;> cases after
  all_goals first | rfl | (dsimp only; split <;> rfl)

/-- Of a key that is to be moved once, its tidings are reported; of others nothing is. -/
theorem transitions_about (h : t.Sound) {steps : List (String × Option Value)}
    (hn : (steps.map (·.1)).Nodup)
    (good : ∀ key v, (key, some v) ∈ steps →
      t.entity.keyTextOf? v = some key ∧ t.query.admits v = true) (key : String) :
    (∀ after, (key, after) ∈ steps →
        about t.entity key (t.transitions steps).1 = tidings (t.matched.get? key) after) ∧
      (key ∉ steps.map (·.1) → about t.entity key (t.transitions steps).1 = []) := by
  induction steps generalizing t with
  | nil => exact ⟨nofun, fun _ => rfl⟩
  | cons step rest ih =>
    obtain ⟨name, value⟩ := step
    rw [List.map_cons, List.nodup_cons] at hn
    have hmoves := transition_moves h name value fun v hv => good name v (hv ▸ List.mem_cons_self)
    have hkeyed : ∀ n ∈ (t.transition name value).1.toList, n.keyText? t.entity = some name :=
      fun n hin => (hmoves.about n (Option.mem_toList.1 hin)).1
    have hrest := ih hmoves.sound hn.2 fun k v hin => by
      rw [hmoves.entity, hmoves.query]
      exact good k v (List.mem_cons_of_mem _ hin)
    rw [hmoves.entity] at hrest
    rw [transitions_cons, about_append, about_of_keyed hkeyed]
    by_cases heq : name = key
    · subst heq
      rw [if_pos rfl, hrest.2 hn.1, List.append_nil, transition_tidings]
      refine ⟨fun after hin => ?_, fun hnot => absurd List.mem_cons_self hnot⟩
      rcases List.mem_cons.1 hin with heq | hin
      · cases heq
        rfl
      · exact absurd (List.mem_map.2 ⟨_, hin, rfl⟩) hn.1
    · rw [if_neg heq, List.nil_append]
      rw [get?_transition_of_ne (Ne.symm heq)] at hrest
      refine ⟨fun after hin => ?_, fun hnot => ?_⟩
      · rcases List.mem_cons.1 hin with hpair | hin
        · cases hpair
          exact absurd rfl heq
        · exact hrest.1 after hin
      · exact hrest.2 fun hin => hnot (List.mem_cons_of_mem _ hin)

/-! ## Changes -/

/-- The last version seen of a key. -/
def seen (t : Tracker) (key : String) : Nat := (t.versions.get? key).getD 0

theorem isStale_iff_le {key : String} {v : Nat} (hv : 0 < v) :
    t.isStale key v = true ↔ v ≤ t.seen key := by
  unfold isStale seen
  cases t.versions.get? key with
  | none =>
    simp only [Bool.false_eq_true, Option.getD_none, false_iff]
    omega
  | some w => simp

theorem apply_of_stale {n : Notification Value} {key : String} {v : Nat}
    (hkey : n.keyText? t.entity = some key) (hversion : n.version = some v)
    (hstale : t.isStale key v = true) : t.apply n = (none, t) := by
  have hkey' : n.current?.bind t.entity.keyTextOf? = some key := hkey
  unfold apply
  simp only [hkey', hversion, hstale, if_true]

theorem apply_of_new {n : Notification Value} {key : String} {v : Nat}
    (hkey : n.keyText? t.entity = some key) (hversion : n.version = some v)
    (hnew : t.isStale key v = false) :
    (t.apply n).2 =
      ({ t with versions := t.versions.put key v }.transition key (t.matchedAfter n)).2 := by
  have hkey' : n.current?.bind t.entity.keyTextOf? = some key := hkey
  unfold apply
  simp only [hkey', hversion, hnew, Bool.false_eq_true, if_false]
  rfl

/-- A change tells nothing of other keys. -/
theorem apply_of_ne {n : Notification Value} {key other : String} {v : Nat}
    (hkey : n.keyText? t.entity = some key) (hversion : n.version = some v) (hne : other ≠ key) :
    (t.apply n).2.seen other = t.seen other ∧
      (t.apply n).2.matched.get? other = t.matched.get? other := by
  cases hstale : t.isStale key v with
  | true =>
    rw [apply_of_stale hkey hversion hstale]
    exact ⟨rfl, rfl⟩
  | false =>
    rw [apply_of_new hkey hversion hstale]
    refine ⟨?_, get?_transition_of_ne hne _⟩
    unfold seen
    rw [transition_versions, Keyed.get?_put_of_ne hne]

/-! ## Full lists -/

theorem arrivals_eq {current : Keyed Value} {names : List String} (hn : names.Nodup) :
    arrivals current names = names.map fun name => (name, current.get? name) := by
  induction names generalizing current with
  | nil => rfl
  | cons name rest ih =>
    rw [List.nodup_cons] at hn
    show (name, current.get? name) :: arrivals (current.erase name) rest = _
    rw [ih hn.2, List.map_cons]
    congr 1
    refine List.map_congr_left fun other hin => ?_
    have hne : other ≠ name := fun heq => hn.1 (heq ▸ hin)
    rw [Keyed.get?_erase_of_ne hne]

/-- The entity found under a key in a full list. -/
def found (t : Tracker) (entities : List Value) (key : String) : Option Value :=
  (Keyed.ofList (t.keyed entities)).get? key

theorem mem_keyed_iff {entities : List Value} {key : String} {v : Value} :
    (key, v) ∈ t.keyed entities ↔
      v ∈ entities ∧ t.query.admits v = true ∧ t.entity.keyTextOf? v = some key := by
  unfold keyed
  simp only [List.mem_filterMap, List.mem_filter, Option.map_eq_some_iff, Prod.mk.injEq]
  constructor
  · intro h
    obtain ⟨entity, ⟨hin, hadmits⟩, k, hkey, rfl, rfl⟩ := h
    exact ⟨hin, hadmits, hkey⟩
  · intro h
    obtain ⟨hin, hadmits, hkey⟩ := h
    exact ⟨v, ⟨hin, hadmits⟩, key, hkey, rfl, rfl⟩

theorem found_eq_some_iff {entities : List Value}
    (distinct : (entities.filterMap t.entity.keyTextOf?).Nodup) {key : String} {v : Value} :
    t.found entities key = some v ↔
      v ∈ entities ∧ t.query.admits v = true ∧ t.entity.keyTextOf? v = some key := by
  unfold found
  rw [Keyed.ofList_eq_putAll, ← mem_keyed_iff]
  constructor
  · intro hget
    rcases Keyed.mem_putAll (Keyed.mem_of_get? hget) with hin | hin
    · exact hin
    · cases hin
  · exact fun hin => Keyed.get?_putAll_of_mem (keyed_distinct distinct) hin []

theorem states_distinct (h : t.matched.Ascending) {entities : List Value}
    (distinct : (entities.filterMap t.entity.keyTextOf?).Nodup) :
    ((t.states entities).map (·.1)).Nodup := by
  have hkeys := keyed_distinct distinct
  have hnames : (t.states entities).map (·.1) =
      (t.matched.filter fun entry => !(Keyed.ofList (t.keyed entities)).contains entry.1).map
        (·.1) ++ (t.keyed entities).map (·.1) := by
    simp only [states, arrivals_eq hkeys, List.map_append, List.map_map]
    rfl
  rw [hnames]
  -- what is gone is not found, so no name is in both parts
  refine List.nodup_append.2 ⟨h.nodup.sublist (List.filter_sublist.map _), hkeys, ?_⟩
  intro key hgone _ hname heq
  subst heq
  obtain ⟨entry, hentry, rfl⟩ := List.mem_map.1 hgone
  obtain ⟨⟨name, value⟩, hpair, hsame⟩ := List.mem_map.1 hname
  obtain ⟨-, habsent⟩ := List.mem_filter.1 hentry
  have hget : Keyed.get? name (Keyed.ofList (t.keyed entities)) = some value :=
    Keyed.get?_putAll_of_mem hkeys hpair []
  unfold Keyed.contains at habsent
  rw [← show name = entry.1 from hsame, hget] at habsent
  cases habsent

/-- A full list moves a key to what is found under it, or does not touch a key that is
neither tracked nor found. -/
theorem mem_states {entities : List Value}
    (distinct : (entities.filterMap t.entity.keyTextOf?).Nodup) (key : String) :
    (key, t.found entities key) ∈ t.states entities ∨
      (key ∉ (t.states entities).map (·.1) ∧ t.matched.get? key = none ∧
        t.found entities key = none) := by
  have hkeys := keyed_distinct distinct
  cases hfound : t.found entities key with
  | some v =>
    refine .inl (List.mem_append_right _ ?_)
    rw [arrivals_eq hkeys]
    refine List.mem_map.2 ⟨key, ?_, congrArg (Prod.mk key) hfound⟩
    have hin := mem_keyed_iff.2 ((found_eq_some_iff distinct).1 hfound)
    exact List.mem_map.2 ⟨(key, v), hin, rfl⟩
  | none =>
    by_cases hin : key ∈ (t.states entities).map (·.1)
    · obtain ⟨⟨_, after⟩, hstep, rfl⟩ := List.mem_map.1 hin
      -- what is not found has either gone, or is not there when its turn comes
      have hafter : after = none := by
        rcases List.mem_append.1 hstep with hgone | hnew
        · obtain ⟨_, _, heq⟩ := List.mem_map.1 hgone
          exact (congrArg Prod.snd heq).symm
        · rw [arrivals_eq hkeys] at hnew
          obtain ⟨_, _, heq⟩ := List.mem_map.1 hnew
          cases heq
          exact hfound
      exact .inl (hafter ▸ hstep)
    · refine .inr ⟨hin, ?_, rfl⟩
      cases htracked : t.matched.get? key with
      | none => rfl
      | some v =>
        -- a tracked key that is not found would be among the gone
        refine absurd (List.mem_map.2 ⟨(key, none), List.mem_append_left _ ?_, rfl⟩) hin
        refine List.mem_map.2 ⟨(key, v), List.mem_filter.2 ⟨Keyed.mem_of_get? htracked, ?_⟩, rfl⟩
        have habsent : Keyed.get? key (Keyed.ofList (t.keyed entities)) = none := hfound
        unfold Keyed.contains
        rw [habsent]
        rfl

theorem diff_agree (h : t.matched.Ascending) {entities : List Value}
    (distinct : (entities.filterMap t.entity.keyTextOf?).Nodup) (key : String) :
    Agree ((t.diff entities).2.matched.get? key) (t.found entities key) := by
  show Agree ((t.transitions (t.states entities)).2.matched.get? key) _
  rcases mem_states distinct key with hin | ⟨hnot, hmatched, hfound⟩
  · exact transitions_agree h (states_distinct h distinct) hin
  · rw [get?_transitions_of_not_mem hnot, hmatched, hfound]
    exact .none

/-- Of each key a full list reports how its value has changed since it was last reported. -/
theorem diff_about (h : t.Sound) (full : t.InFull) {entities : List Value}
    (distinct : (entities.filterMap t.entity.keyTextOf?).Nodup) (key : String) :
    about t.entity key (t.diff entities).1 =
      tidings (t.matched.get? key) (t.found entities key) := by
  have hchanges : (t.diff entities).1 = (t.transitions (t.states entities)).1 := by
    have hfull : InFull (t.transitions (t.states entities)).2 := by
      intro value
      rw [(transitions_reports h (t.states entities) fun _ _ => of_mem_states).query]
      exact full value
    rw [diff_eq, hfull.map_shaped]
  have habout := transitions_about h (states_distinct h.ascending distinct)
    (fun _ _ => of_mem_states) key
  rw [hchanges]
  rcases mem_states distinct key with hin | ⟨hnot, hmatched, hfound⟩
  · exact habout.1 _ hin
  · rw [habout.2 hnot, hmatched, hfound]
    rfl

/-! ## Snapshots -/

theorem getD_newest {versions : Keyed Nat} (h : versions.Ascending) (seen : Keyed Nat)
    (key : String) :
    ((newest seen versions).get? key).getD 0 =
      max ((seen.get? key).getD 0) ((versions.get? key).getD 0) := by
  induction versions generalizing seen with
  | nil => simp [newest, Keyed.get?_nil]
  | cons entry rest ih =>
    obtain ⟨n, v⟩ := entry
    refine (ih h.tail _).trans ?_
    rw [Keyed.get?_put, Keyed.get?_cons]
    by_cases heq : key = n
    · subst heq
      rw [if_pos rfl, if_pos rfl, h.get?_head]
      simp
    · rw [if_neg heq, if_neg (Ne.symm heq)]

end Tracker

end LiveRecords

import Mathlib.Logic.Relation
import LiveRecords.Proofs.Live.Stream
import LiveRecords.Proofs.Live.Tracking

/-
  Changes that come in any order, and more than once.

  A tracker takes a change of a key only if its version is newer than the last one of
  that key (`apply_cases`). So after some changes a key stands where the highest of
  their versions puts it, or where it stood if none of them was new (`ComesTo`), which
  does not depend on the order they came in. Whatever was heard once is stale from
  then on, so hearing it again reports nothing.
-/

namespace LiveRecords

/-- A change that brings a key to a version. -/
def Notification.Brings (type : EntityType) (n : Notification Value) (key : String)
    (v : Nat) : Prop :=
  n.keyText? type = some key ∧ n.version = some v

theorem Notification.Brings.unique {type : EntityType} {n : Notification Value}
    {key other : String} {v w : Nat} (h : n.Brings type key v) (h' : n.Brings type other w) :
    other = key ∧ w = v := by
  refine ⟨?_, ?_⟩
  · apply Option.some.inj
    rw [← h'.1, h.1]
  · apply Option.some.inj
    rw [← h'.2, h.2]

/-- A list with one more copy of something in it, behind the first. -/
inductive Echo {α : Type} : List α → List α → Prop
  | again {before after : List α} {a : α} (heard : a ∈ before) :
    Echo (before ++ after) (before ++ a :: after)

namespace Tracker

/-- What is reported at some changes, and the tracker after them. -/
def hears (t : Tracker) (ns : List (Notification Value)) :
    List (Notification Value) × Tracker :=
  t.calls (ns.map .apply)

theorem hears_cons (t : Tracker) (n : Notification Value) (rest : List (Notification Value)) :
    t.hears (n :: rest) =
      ((t.apply n).1.toList ++ ((t.apply n).2.hears rest).1, ((t.apply n).2.hears rest).2) := rfl

theorem hears_append (t : Tracker) (ns ms : List (Notification Value)) :
    t.hears (ns ++ ms) =
      ((t.hears ns).1 ++ ((t.hears ns).2.hears ms).1, ((t.hears ns).2.hears ms).2) := by
  induction ns generalizing t with
  | nil => rfl
  | cons n rest ih =>
    rw [List.cons_append, hears_cons, ih, hears_cons]
    simp only [List.append_assoc]

/-- What is kept by name is in the order of names. -/
structure Orderly (t : Tracker) : Prop where
  matched : t.matched.Ascending
  versions : t.versions.Ascending

/-! ## One change -/

/-- A tracker takes a change that brings a key to a new version. -/
structure Takes (t : Tracker) (n : Notification Value) (key : String) (v : Nat)
    (t' : Tracker) : Prop where
  brings : n.Brings t.entity key v
  newer : t.isStale key v = false
  entity : t'.entity = t.entity
  query : t'.query = t.query
  orderly : t'.Orderly
  versions : t'.versions = t.versions.put key v
  others : ∀ other, other ≠ key → t'.matched.get? other = t.matched.get? other
  value : Agree (t'.matched.get? key) (t.matchedAfter n)

/-- A tracker hears a change that is not new to it. -/
structure Ignores (t : Tracker) (n : Notification Value) : Prop where
  apply_eq : t.apply n = (none, t)
  old : ∀ {key v}, n.Brings t.entity key v → t.isStale key v = true

theorem transition_query (t : Tracker) (key : String) (after : Option Value) :
    (t.transition key after).2.entity = t.entity ∧
      (t.transition key after).2.query = t.query := by
  unfold transition
  cases t.matched.get? key <;> cases after
  all_goals first | exact ⟨rfl, rfl⟩ | (dsimp only; split <;> exact ⟨rfl, rfl⟩)

theorem apply_takes {t : Tracker} (h : t.Orderly) {n : Notification Value} {key : String}
    {v : Nat} (brings : n.Brings t.entity key v) (newer : t.isStale key v = false) :
    Takes t n key v (t.apply n).2 := by
  let seen : Tracker := { t with versions := t.versions.put key v }
  have hmatched : seen.matched.Ascending := h.matched
  have hversions := seen.transition_versions key (t.matchedAfter n)
  obtain ⟨hentity, hquery⟩ := seen.transition_query key (t.matchedAfter n)
  rw [apply_of_new brings.1 brings.2 newer]
  refine ⟨brings, newer, hentity, hquery, ⟨transition_ascending hmatched .., ?_⟩, hversions,
    fun other hne => get?_transition_of_ne hne _, transition_agree hmatched ..⟩
  rw [hversions]
  exact h.versions.put ..

theorem ignores_of_stale {t : Tracker} {n : Notification Value} {key : String} {v : Nat}
    (brings : n.Brings t.entity key v) (old : t.isStale key v = true) : t.Ignores n := by
  refine ⟨apply_of_stale brings.1 brings.2 old, fun {other w} hother => ?_⟩
  obtain ⟨rfl, rfl⟩ := brings.unique hother
  exact old

theorem ignores_of_keyless {t : Tracker} {n : Notification Value}
    (h : n.keyText? t.entity = none) : t.Ignores n := by
  have h' : n.current?.bind t.entity.keyTextOf? = none := h
  refine ⟨?_, fun {key v} hbrings => ?_⟩
  · unfold apply
    simp only [h']
  · rw [hbrings.1] at h
    cases h

theorem apply_cases {t : Tracker} (h : t.Orderly) {n : Notification Value}
    (versioned : n.version.isSome = true) :
    t.Ignores n ∨ ∃ key v, Takes t n key v (t.apply n).2 := by
  obtain ⟨v, hversion⟩ := Option.isSome_iff_exists.1 versioned
  cases hkey : n.keyText? t.entity with
  | none => exact .inl (ignores_of_keyless hkey)
  | some key =>
    have hbrings : n.Brings t.entity key v := ⟨hkey, hversion⟩
    cases hstale : t.isStale key v with
    | true => exact .inl (ignores_of_stale hbrings hstale)
    | false => exact .inr ⟨key, v, apply_takes h hbrings hstale⟩

theorem Takes.matchedAfter {t t' : Tracker} {n : Notification Value} {key : String} {v : Nat}
    (h : Takes t n key v t') (m : Notification Value) : t'.matchedAfter m = t.matchedAfter m := by
  unfold Tracker.matchedAfter
  rw [h.query]

theorem Takes.isStale {t t' : Tracker} {n : Notification Value} {key : String} {v : Nat}
    (h : Takes t n key v t') (w : Nat) : t'.isStale key w = decide (w ≤ v) := by
  unfold Tracker.isStale
  rw [h.versions, Keyed.get?_put_self]

theorem Takes.isStale_of_ne {t t' : Tracker} {n : Notification Value} {key other : String}
    {v : Nat} (h : Takes t n key v t') (hne : other ≠ key) (w : Nat) :
    t'.isStale other w = t.isStale other w := by
  unfold Tracker.isStale
  rw [h.versions, Keyed.get?_put_of_ne hne]

/-! ## Many changes -/

/-- What some changes have made of a key: the highest of its versions among them counts,
if it was new to the tracker. -/
inductive ComesTo (t : Tracker) (ns : List (Notification Value)) (key : String)
    (t' : Tracker) : Prop
  | newest {n : Notification Value} {v : Nat} (heard : n ∈ ns) (brings : n.Brings t.entity key v)
    (newer : t.isStale key v = false)
    (highest : ∀ m ∈ ns, ∀ w, m.Brings t.entity key w → w ≤ v)
    (version : t'.versions.get? key = some v)
    (value : Agree (t'.matched.get? key) (t.matchedAfter n))
  | unmoved (old : ∀ m ∈ ns, ∀ w, m.Brings t.entity key w → t.isStale key w = true)
    (version : t'.versions.get? key = t.versions.get? key)
    (value : t'.matched.get? key = t.matched.get? key)

variable {t t' : Tracker} {ns ms : List (Notification Value)} {key : String}

theorem ComesTo.ignoring {n : Notification Value} (ignores : t.Ignores n)
    (h : ComesTo t ns key t') : ComesTo t (n :: ns) key t' := by
  cases h with
  | newest heard brings newer highest version value =>
    refine .newest (List.mem_cons_of_mem _ heard) brings newer (fun m hm w hw => ?_) version value
    rcases List.mem_cons.1 hm with rfl | hm
    · obtain ⟨seen, hseen, hle⟩ := isStale_iff.1 (ignores.old hw)
      have hlt := lt_of_not_isStale newer hseen
      omega
    · exact highest m hm w hw
  | unmoved old version value =>
    refine .unmoved (fun m hm w hw => ?_) version value
    rcases List.mem_cons.1 hm with rfl | hm
    · exact ignores.old hw
    · exact old m hm w hw

/-- Of the key that a change is about, the change is the newest but for those after it. -/
theorem ComesTo.taking_self {t₁ : Tracker} {n : Notification Value} {v : Nat}
    (takes : Takes t n key v t₁) (h : ComesTo t₁ ns key t') : ComesTo t (n :: ns) key t' := by
  cases h with
  | newest heard brings newer highest version value =>
    rw [takes.entity] at brings highest
    rw [takes.isStale] at newer
    rw [takes.matchedAfter] at value
    have hlater := of_decide_eq_false newer
    refine .newest (List.mem_cons_of_mem _ heard) brings ?_ (fun m hm w hw => ?_) version value
    · rw [Bool.eq_false_iff]
      intro hstale
      obtain ⟨seen, hseen, hle⟩ := isStale_iff.1 hstale
      have hlt := lt_of_not_isStale takes.newer hseen
      omega
    · rcases List.mem_cons.1 hm with rfl | hm
      · obtain ⟨-, rfl⟩ := takes.brings.unique hw
        omega
      · exact highest m hm w hw
  | unmoved old version value =>
    rw [takes.entity] at old
    rw [takes.versions, Keyed.get?_put_self] at version
    refine .newest List.mem_cons_self takes.brings takes.newer (fun m hm w hw => ?_) version
      (value ▸ takes.value)
    rcases List.mem_cons.1 hm with rfl | hm
    · obtain ⟨-, rfl⟩ := takes.brings.unique hw
      omega
    · have hstale := old m hm w hw
      rw [takes.isStale] at hstale
      exact of_decide_eq_true hstale

/-- A change of another key is not about this one. -/
theorem ComesTo.taking_other {t₁ : Tracker} {n : Notification Value} {name : String} {v : Nat}
    (takes : Takes t n name v t₁) (hkey : key ≠ name) (h : ComesTo t₁ ns key t') :
    ComesTo t (n :: ns) key t' := by
  have hother : ∀ {w}, ¬n.Brings t.entity key w := fun hw => hkey (takes.brings.unique hw).1
  cases h with
  | newest heard brings newer highest version value =>
    rw [takes.entity] at brings highest
    rw [takes.isStale_of_ne hkey] at newer
    rw [takes.matchedAfter] at value
    refine .newest (List.mem_cons_of_mem _ heard) brings newer (fun m hm w hw => ?_) version value
    rcases List.mem_cons.1 hm with rfl | hm
    · exact absurd hw hother
    · exact highest m hm w hw
  | unmoved old version value =>
    rw [takes.entity] at old
    rw [takes.versions, Keyed.get?_put_of_ne hkey] at version
    rw [takes.others key hkey] at value
    refine .unmoved (fun m hm w hw => ?_) version value
    rcases List.mem_cons.1 hm with rfl | hm
    · exact absurd hw hother
    · rw [← takes.isStale_of_ne hkey]
      exact old m hm w hw

theorem ComesTo.taking {t₁ : Tracker} {n : Notification Value} {name : String} {v : Nat}
    (takes : Takes t n name v t₁) (h : ComesTo t₁ ns key t') : ComesTo t (n :: ns) key t' := by
  by_cases hkey : key = name
  · subst hkey
    exact h.taking_self takes
  · exact h.taking_other takes hkey

/-- What is kept of a tracker while it hears changes. -/
structure Heard (t : Tracker) (ns : List (Notification Value)) (t' : Tracker) : Prop where
  entity : t'.entity = t.entity
  orderly : t'.Orderly
  comesTo : ∀ key, ComesTo t ns key t'

theorem hears_heard (h : t.Orderly) (versioned : ∀ n ∈ ns, n.version.isSome = true) :
    Heard t ns (t.hears ns).2 := by
  induction ns generalizing t with
  | nil => exact ⟨rfl, h, fun key => .unmoved nofun rfl rfl⟩
  | cons n rest ih =>
    have hrest : ∀ m ∈ rest, m.version.isSome = true := fun m hm =>
      versioned m (List.mem_cons_of_mem _ hm)
    rw [hears_cons]
    rcases apply_cases h (versioned n List.mem_cons_self) with hignores | ⟨name, v, htakes⟩
    · rw [hignores.apply_eq]
      have hheard := ih h hrest
      exact ⟨hheard.entity, hheard.orderly, fun key => (hheard.comesTo key).ignoring hignores⟩
    · have hheard := ih htakes.orderly hrest
      exact ⟨hheard.entity.trans htakes.entity, hheard.orderly,
        fun key => (hheard.comesTo key).taking htakes⟩

/-- What was heard is not new any more. -/
theorem Heard.ignores (h : Heard t ns t') (versioned : ∀ n ∈ ns, n.version.isSome = true)
    {n : Notification Value} (hn : n ∈ ns) : t'.Ignores n := by
  obtain ⟨v, hversion⟩ := Option.isSome_iff_exists.1 (versioned n hn)
  cases hkey : n.keyText? t'.entity with
  | none => exact ignores_of_keyless hkey
  | some key =>
    have hbrings : n.Brings t'.entity key v := ⟨hkey, hversion⟩
    refine ignores_of_stale hbrings (isStale_iff.2 ?_)
    rw [h.entity] at hbrings
    cases h.comesTo key with
    | newest heard brings newer highest version value =>
      exact ⟨_, version, highest n hn v hbrings⟩
    | unmoved old version value =>
      rw [version]
      exact isStale_iff.1 (old n hn v hbrings)

theorem hears_echo (h : t.Orderly) (versioned : ∀ n ∈ ns, n.version.isSome = true)
    (echo : Echo ns ms) : t.hears ms = t.hears ns ∧ ∀ n ∈ ms, n.version.isSome = true := by
  cases echo with
  | @again before after n heard =>
    have hbefore : ∀ m ∈ before, m.version.isSome = true := fun m hm =>
      versioned m (List.mem_append_left _ hm)
    refine ⟨?_, fun m hm => versioned m ?_⟩
    · have hignores := (hears_heard h hbefore).ignores hbefore heard
      rw [hears_append, hears_append, hears_cons, hignores.apply_eq]
      rfl
    · rw [List.mem_append, List.mem_cons] at hm
      rw [List.mem_append]
      rcases hm with hm | rfl | hm
      · exact .inl hm
      · exact .inl heard
      · exact .inr hm

/-- Where a key comes to depends on the changes heard and on nothing else. -/
theorem ComesTo.unique {t₁ t₂ : Tracker} (h : ComesTo t ns key t₁) (h' : ComesTo t ms key t₂)
    (same : ∀ n, n ∈ ns ↔ n ∈ ms)
    (one : ∀ n ∈ ns, ∀ m ∈ ns, ∀ key v, n.Brings t.entity key v → m.Brings t.entity key v →
      n = m) :
    t₁.versions.get? key = t₂.versions.get? key ∧
      Agree (t₁.matched.get? key) (t₂.matched.get? key) := by
  cases h with
  | @newest n v heard brings newer highest version value =>
    cases h' with
    | @newest m w heard' brings' newer' highest' version' value' =>
      have hle := highest m ((same m).2 heard') w brings'
      have hge := highest' n ((same n).1 heard) v brings
      obtain rfl : v = w := by omega
      obtain rfl := one n heard m ((same m).2 heard') key v brings brings'
      exact ⟨version.trans version'.symm, Agree.trans value (Agree.symm value')⟩
    | unmoved old version' value' =>
      rw [old n ((same n).1 heard) v brings] at newer
      cases newer
  | unmoved old version value =>
    cases h' with
    | @newest m w heard' brings' newer' highest' version' value' =>
      rw [old m ((same m).2 heard') w brings'] at newer'
      cases newer'
    | unmoved old' version' value' =>
      refine ⟨version.trans version'.symm, ?_⟩
      rw [value, value']
      exact .refl _

/-- Two sequences of versioned changes that hold the same changes, in any order and any
number of times, lead a tracker to the same tracked set and the same versions: each key
comes to where its highest version puts it if that was new, and stays where it was
otherwise. What is heard again after it was heard once changes neither the reports nor
the tracker. -/
theorem hears_in_any_order (h : t.Orderly) (versioned : ∀ n ∈ ns, n.version.isSome = true)
    (same : ∀ n, n ∈ ns ↔ n ∈ ms)
    (one : ∀ n ∈ ns, ∀ m ∈ ns, ∀ key v, n.Brings t.entity key v → m.Brings t.entity key v →
      n = m) :
    (t.hears ns).2.versions = (t.hears ms).2.versions ∧
      (∀ key, Agree ((t.hears ns).2.matched.get? key) ((t.hears ms).2.matched.get? key)) ∧
      (∀ key, ComesTo t ns key (t.hears ns).2) ∧
      ∀ echoed, Relation.ReflTransGen Echo ns echoed → t.hears echoed = t.hears ns := by
  have hns := hears_heard h versioned
  have hms := hears_heard h fun n hn => versioned n ((same n).2 hn)
  have hunique := fun key => (hns.comesTo key).unique (hms.comesTo key) same one
  refine ⟨?_, fun key => (hunique key).2, hns.comesTo, fun echoed hechoed => ?_⟩
  · exact Keyed.ext hns.orderly.versions hms.orderly.versions fun key => (hunique key).1
  · suffices t.hears echoed = t.hears ns ∧ ∀ n ∈ echoed, n.version.isSome = true from this.1
    induction hechoed with
    | refl => exact ⟨rfl, versioned⟩
    | tail _ hstep ih =>
      obtain ⟨heq, hversioned⟩ := hears_echo h ih.2 hstep
      exact ⟨heq.trans ih.1, hversioned⟩

end Tracker

namespace Shop

/-- The tracker of the active products that has read the stock. -/
def rack : Tracker := (({ entity := product, query := activeNames } : Tracker).snapshot stock).2

/-- The desk becomes active. -/
def deskShown : Notification Value :=
  (Notification.create (item "b" "desk" true)).withVersion (some 2)

/-- The desk gets another name. -/
def deskNamed : Notification Value :=
  (Notification.update (item "b" "desk" true) (item "b" "table" true)).withVersion (some 3)

/-- The lamp goes. -/
def lampGone : Notification Value :=
  (Notification.delete (item "a" "lamp" true)).withVersion (some 2)

theorem rack_in_any_order :
    let ns := [deskShown, deskNamed, lampGone]
    let ms := [lampGone, deskNamed, lampGone, deskShown]
    rack.Orderly ∧ (∀ n ∈ ns, n.version.isSome = true) ∧ (∀ n, n ∈ ns ↔ n ∈ ms) ∧
      (rack.hears ns).2.versions = (rack.hears ms).2.versions ∧
      (∀ key, Agree ((rack.hears ns).2.matched.get? key)
        ((rack.hears ms).2.matched.get? key)) ∧
      (rack.hears ns).1.map (·.kind) = [.create, .update, .delete] ∧
      (rack.hears ms).1.map (·.kind) = [.delete, .create] ∧
      rack.hears [deskShown, deskNamed, deskShown, lampGone] = rack.hears ns := by
  intro ns ms
  have horderly : rack.Orderly := by
    refine ⟨List.pairwise_singleton .., ?_⟩
    show [("a", 1), ("b", 1)].Pairwise fun a b => a.1 < b.1
    decide
  have hversioned : ∀ n ∈ ns, n.version.isSome = true := by
    simp [ns, deskShown, deskNamed, lampGone, Notification.withVersion]
  have hsame : ∀ n, n ∈ ns ↔ n ∈ ms := by
    intro n
    simp only [ns, ms, List.mem_cons, List.not_mem_nil, or_false]
    grind
  have hone : ∀ n ∈ ns, ∀ m ∈ ns, ∀ key v, n.Brings rack.entity key v →
      m.Brings rack.entity key v → n = m := by
    have hshown : deskShown.Brings rack.entity "b" 2 := ⟨by rfl, rfl⟩
    have hnamed : deskNamed.Brings rack.entity "b" 3 := ⟨by rfl, rfl⟩
    have hgone : lampGone.Brings rack.entity "a" 2 := ⟨by rfl, rfl⟩
    -- no two of the changes bring one key to one version
    have hwhich : ∀ n ∈ ns, ∀ key v, n.Brings rack.entity key v →
        n = deskShown ∧ key = "b" ∧ v = 2 ∨ n = deskNamed ∧ key = "b" ∧ v = 3 ∨
          n = lampGone ∧ key = "a" ∧ v = 2 := by
      intro n hn key v hv
      simp only [ns, List.mem_cons, List.not_mem_nil, or_false] at hn
      rcases hn with rfl | rfl | rfl
      · exact .inl ⟨rfl, hshown.unique hv⟩
      · exact .inr (.inl ⟨rfl, hnamed.unique hv⟩)
      · exact .inr (.inr ⟨rfl, hgone.unique hv⟩)
    intro n hn m hm key v hv hw
    have h := hwhich n hn key v hv
    have h' := hwhich m hm key v hw
    grind
  obtain ⟨hversions, hmatched, -, hechoes⟩ :=
    Tracker.hears_in_any_order horderly hversioned hsame hone
  have hecho : Echo ([deskShown, deskNamed] ++ [lampGone])
      ([deskShown, deskNamed] ++ deskShown :: [lampGone]) := .again List.mem_cons_self
  exact ⟨horderly, hversioned, hsame, hversions, hmatched, by rfl, by rfl,
    hechoes _ (.single hecho)⟩

end Shop

end LiveRecords

import Mathlib
import LiveRecords.Pattern.Basic

/-
  What a pattern matches.

  A pattern spans a text from one place to another if its parts do so one after the other
  (`Spans`). The places that are reached from some places are the ends of what the pattern
  spans from there (`mem_reach_iff`): an open repetition needs no more rounds than there are
  characters, because a round that takes no character can be left out (`Rounds.shortened`).
-/

namespace LiveRecords.Pattern

/-- A relation between places, followed a number of times. -/
def Rounds (step : Nat → Nat → Prop) : Nat → Nat → Nat → Prop
  | 0, i, j => i = j
  | n + 1, i, j => ∃ k, step i k ∧ Rounds step n k j

/-- The pattern matches the text from one place to another. A repetition goes round as often
as its counts allow; the greatest count is never taken as less than the least. -/
def Spans (text : Array Char) : Pattern → Nat → Nat → Prop
  | .empty, i, j => i = j
  | .one set, i, j => j = i + 1 ∧ ∃ c, text[i]? = some c ∧ set.has c = true
  | .look condition, i, j => i = j ∧ condition.holds text i = true
  | .seq first second, i, j => ∃ k, first.Spans text i k ∧ second.Spans text k j
  | .alt left right, i, j => left.Spans text i j ∨ right.Spans text i j
  | .rep body least most, i, j =>
    ∃ n, least ≤ n ∧ (∀ greatest ∈ most, n ≤ max least greatest) ∧ Rounds (body.Spans text) n i j

/-! ## Rounds -/

section

variable {step : Nat → Nat → Prop} {i j k m n : Nat}

theorem Rounds.append (first : Rounds step m i k) (second : Rounds step n k j) :
    Rounds step (m + n) i j := by
  induction m generalizing i with
  | zero =>
    rw [Nat.zero_add, show i = k from first]
    exact second
  | succ m ih =>
    obtain ⟨l, hl, hrest⟩ := first
    rw [Nat.succ_add]
    exact ⟨l, hl, ih hrest⟩

theorem Rounds.split (h : Rounds step (m + n) i j) : ∃ k, Rounds step m i k ∧ Rounds step n k j := by
  induction m generalizing i with
  | zero =>
    rw [Nat.zero_add] at h
    exact ⟨i, rfl, h⟩
  | succ m ih =>
    rw [Nat.succ_add] at h
    obtain ⟨l, hl, hrest⟩ := h
    obtain ⟨k, hfirst, hsecond⟩ := ih hrest
    exact ⟨k, ⟨l, hl, hfirst⟩, hsecond⟩

/-- Rounds do not lead out of what a step does not lead out of. -/
theorem Rounds.stays {P : Nat → Prop} (closed : ∀ i k, P i → step i k → P k) (hi : P i)
    (h : Rounds step n i j) : P j := by
  induction n generalizing i with
  | zero => exact (show i = j from h) ▸ hi
  | succ n ih =>
    obtain ⟨k, hk, hrest⟩ := h
    exact ih (closed i k hi hk) hrest

theorem Rounds.forward (forward : ∀ i j, step i j → i ≤ j) (h : Rounds step n i j) : i ≤ j := by
  induction n generalizing i with
  | zero => exact le_of_eq h
  | succ n ih =>
    obtain ⟨k, hk, hrest⟩ := h
    exact (forward i k hk).trans (ih hrest)

theorem Rounds.inside {size : Nat} (inside : ∀ i j, step i j → j ≤ max i size)
    (h : Rounds step n i j) : j ≤ max i size := by
  induction n generalizing i with
  | zero =>
    rw [← show i = j from h]
    exact Nat.le_max_left i size
  | succ n ih =>
    obtain ⟨k, hk, hrest⟩ := h
    have hnext := inside i k hk
    have hlast := ih hrest
    omega

/-- Rounds that stay where they are can be left out. -/
theorem Rounds.shortened (forward : ∀ i j, step i j → i ≤ j) (h : Rounds step n i j) :
    ∃ m ≤ j - i, Rounds step m i j := by
  induction n generalizing i with
  | zero => exact ⟨0, Nat.zero_le _, h⟩
  | succ n ih =>
    obtain ⟨k, hk, hrest⟩ := h
    obtain ⟨m, hm, hshort⟩ := ih hrest
    rcases Nat.lt_or_eq_of_le (forward i k hk) with hlt | rfl
    · have hkj := hrest.forward forward
      exact ⟨m + 1, by omega, k, hk, hshort⟩
    · exact ⟨m, hm, hshort⟩

end

/-! ## Going on -/

section

variable {step : List Nat → List Nat} {next : Nat → Nat → Prop} {places found fresh : List Nat}
  {j : Nat}

theorem mem_times (exact : ∀ places j, j ∈ step places ↔ ∃ i ∈ places, next i j) (n : Nat) :
    j ∈ times step n places ↔ ∃ i ∈ places, Rounds next n i j := by
  induction n generalizing places with
  | zero =>
    constructor
    · intro h
      exact ⟨j, h, rfl⟩
    · rintro ⟨i, hi, rfl⟩
      exact hi
  | succ n ih =>
    unfold times
    split
    · next hempty =>
      rw [List.isEmpty_iff.1 hempty]
      simp
    · rw [ih]
      constructor
      · rintro ⟨k, hk, hrest⟩
        obtain ⟨i, hi, hik⟩ := (exact places k).1 hk
        exact ⟨i, hi, k, hik, hrest⟩
      · rintro ⟨i, hi, k, hik, hrest⟩
        exact ⟨k, (exact places k).2 ⟨i, hi, hik⟩, hrest⟩

/-- Spreading finds what is reached from the places found so far, if those that are not fresh
lead to nothing new. -/
theorem mem_spread (exact : ∀ places j, j ∈ step places ↔ ∃ i ∈ places, next i j) (n : Nat)
    (among : ∀ i ∈ fresh, i ∈ found)
    (settled : ∀ i ∈ found, i ∉ fresh → ∀ k, next i k → k ∈ found) :
    j ∈ spread step n found fresh ↔ ∃ i ∈ found, ∃ m ≤ n, Rounds next m i j := by
  induction n generalizing found fresh with
  | zero =>
    constructor
    · intro h
      exact ⟨j, h, 0, Nat.le_refl 0, rfl⟩
    · rintro ⟨i, hi, m, hm, hrounds⟩
      obtain rfl := Nat.le_zero.1 hm
      rw [← show i = j from hrounds]
      exact hi
  | succ n ih =>
    unfold spread
    split
    · next hempty =>
      -- nothing is fresh, so no step leads out of what was found
      have hnone : ∀ i, i ∉ fresh := fun i => by
        rw [List.isEmpty_iff.1 hempty]
        exact List.not_mem_nil
      constructor
      · intro h
        exact ⟨j, h, 0, Nat.zero_le _, rfl⟩
      · rintro ⟨i, hi, m, -, hrounds⟩
        exact hrounds.stays (fun i k hi hik => settled i hi (hnone i) k hik) hi
    · have hnext : ∀ k, k ∈ (step fresh).filter (fun p => !found.contains p) ↔
          (∃ i ∈ fresh, next i k) ∧ k ∉ found := by
        intro k
        simp [exact]
      have hstep : ∀ i ∈ found, ∀ k, next i k →
          k ∈ found ++ (step fresh).filter fun p => !found.contains p := by
        intro i hi k hik
        by_cases hk : k ∈ found
        · exact List.mem_append_left _ hk
        · refine List.mem_append_right _ ((hnext k).2 ⟨⟨i, ?_, hik⟩, hk⟩)
          by_contra hi'
          exact hk (settled i hi hi' k hik)
      rw [ih (fun i hi => List.mem_append_right _ hi) fun i hi hfresh k hik => hstep i
        ((List.mem_append.1 hi).resolve_right hfresh) k hik]
      constructor
      · rintro ⟨i, hi, m, hm, hrounds⟩
        rcases List.mem_append.1 hi with hi | hi
        · exact ⟨i, hi, m, by omega, hrounds⟩
        · obtain ⟨⟨i', hi', hstep'⟩, -⟩ := (hnext i).1 hi
          exact ⟨i', among i' hi', m + 1, by omega, i, hstep', hrounds⟩
      · rintro ⟨i, hi, m, hm, hrounds⟩
        cases m with
        | zero => exact ⟨i, List.mem_append_left _ hi, 0, Nat.zero_le _, hrounds⟩
        | succ m =>
          obtain ⟨k, hik, hrest⟩ := hrounds
          exact ⟨k, hstep i hi k hik, m, by omega, hrest⟩

/-- Spreading from where a number of steps leads takes that number of steps and some more. -/
theorem mem_spread_times (exact : ∀ places j, j ∈ step places ↔ ∃ i ∈ places, next i j)
    (least n : Nat) : j ∈ spread step n (times step least places) (times step least places) ↔
      ∃ i ∈ places, ∃ m ≤ n, Rounds next (least + m) i j := by
  rw [mem_spread exact n (fun i hi => hi) fun i hi hfresh => absurd hi hfresh]
  constructor
  · rintro ⟨k, hk, m, hm, hrest⟩
    obtain ⟨i, hi, hfirst⟩ := (mem_times exact least).1 hk
    exact ⟨i, hi, m, hm, hfirst.append hrest⟩
  · rintro ⟨i, hi, m, hm, hrounds⟩
    obtain ⟨k, hfirst, hrest⟩ := hrounds.split
    exact ⟨k, (mem_times exact least).2 ⟨i, hi, hfirst⟩, m, hm, hrest⟩

end

/-! ## The places reached -/

variable {text : Array Char} {q : Pattern} {i j : Nat}

theorem Spans.forward (h : q.Spans text i j) : i ≤ j := by
  induction q generalizing i j with
  | empty => exact le_of_eq h
  | one set => exact h.1 ▸ Nat.le_succ i
  | look condition => exact le_of_eq h.1
  | seq first second ihf ihs =>
    obtain ⟨k, hfirst, hsecond⟩ := h
    exact (ihf hfirst).trans (ihs hsecond)
  | alt left right ihl ihr =>
    rcases h with h | h
    · exact ihl h
    · exact ihr h
  | rep body least most ih =>
    obtain ⟨n, -, -, hrounds⟩ := h
    exact hrounds.forward fun i j => ih

/-- No match leads out of the text. -/
theorem Spans.inside (h : q.Spans text i j) : j ≤ max i text.size := by
  induction q generalizing i j with
  | empty => exact (show i = j from h) ▸ Nat.le_max_left i _
  | one set =>
    obtain ⟨rfl, c, hc, -⟩ := h
    exact le_max_of_le_right (Array.getElem?_eq_some_iff.1 hc).1
  | look condition => exact h.1 ▸ Nat.le_max_left i _
  | seq first second ihf ihs =>
    obtain ⟨k, hfirst, hsecond⟩ := h
    have hmiddle := ihf hfirst
    have hlast := ihs hsecond
    omega
  | alt left right ihl ihr =>
    rcases h with h | h
    · exact ihl h
    · exact ihr h
  | rep body least most ih =>
    obtain ⟨n, -, -, hrounds⟩ := h
    exact hrounds.inside fun i j => ih

/-- An open repetition needs no more rounds behind the least count than there are characters. -/
theorem spans_open_iff {least : Nat} : (rep q least none).Spans text i j ↔
    ∃ m ≤ text.size + 1, Rounds (q.Spans text) (least + m) i j := by
  constructor
  · rintro ⟨n, hn, -, hrounds⟩
    obtain ⟨m, rfl⟩ := Nat.exists_eq_add_of_le hn
    obtain ⟨k, hfirst, hrest⟩ := hrounds.split
    -- after the least count only rounds that take a character are needed
    obtain ⟨m', hm', hshort⟩ := hrest.shortened fun i j => Spans.forward
    have hinside := hrest.inside fun i j => Spans.inside
    exact ⟨m', by omega, hfirst.append hshort⟩
  · rintro ⟨m, -, hrounds⟩
    exact ⟨least + m, Nat.le_add_right _ _, nofun, hrounds⟩

theorem spans_capped_iff {least greatest : Nat} : (rep q least (some greatest)).Spans text i j ↔
    ∃ m ≤ greatest - least, Rounds (q.Spans text) (least + m) i j := by
  constructor
  · rintro ⟨n, hn, hgreatest, hrounds⟩
    obtain ⟨m, rfl⟩ := Nat.exists_eq_add_of_le hn
    have hm := hgreatest greatest rfl
    exact ⟨m, by omega, hrounds⟩
  · rintro ⟨m, hm, hrounds⟩
    refine ⟨least + m, Nat.le_add_right _ _, ?_, hrounds⟩
    rintro _ ⟨⟩
    omega

theorem mem_join {a b : List Nat} : j ∈ join a b ↔ j ∈ a ∨ j ∈ b := by
  unfold join
  by_cases h : j ∈ a <;> simp [h]

/-- The places reached are the ends of what the pattern spans. -/
theorem mem_reach_iff (q : Pattern) (places : List Nat) (j : Nat) :
    j ∈ q.reach text places ↔ ∃ i ∈ places, q.Spans text i j := by
  induction q generalizing places j with
  | empty =>
    constructor
    · intro h
      exact ⟨j, h, rfl⟩
    · rintro ⟨i, hi, rfl⟩
      exact hi
  | one set =>
    unfold reach
    rw [List.mem_filterMap]
    refine exists_congr fun i => and_congr_right fun _ => ?_
    unfold Spans
    rw [← Option.any_eq_true, eq_comm]
    split
    · next hany => rw [Option.some.injEq, and_iff_left hany]
    · next hany => exact iff_of_false nofun fun h => hany h.2
  | look condition =>
    unfold reach
    rw [List.mem_filter]
    constructor
    · rintro ⟨hj, hholds⟩
      exact ⟨j, hj, rfl, hholds⟩
    · rintro ⟨i, hi, rfl, hholds⟩
      exact ⟨hi, hholds⟩
  | seq first second ihf ihs =>
    unfold reach
    rw [ihs]
    constructor
    · rintro ⟨k, hk, hsecond⟩
      obtain ⟨i, hi, hfirst⟩ := (ihf places k).1 hk
      exact ⟨i, hi, k, hfirst, hsecond⟩
    · rintro ⟨i, hi, k, hfirst, hsecond⟩
      exact ⟨k, (ihf places k).2 ⟨i, hi, hfirst⟩, hsecond⟩
  | alt left right ihl ihr =>
    unfold reach
    rw [mem_join, ihl, ihr, ← exists_or]
    refine exists_congr fun i => ?_
    rw [← and_or_left]
    exact Iff.rfl
  | rep body least most ih =>
    cases most with
    | none =>
      exact (mem_spread_times ih least _).trans
        (exists_congr fun i => and_congr_right fun _ => spans_open_iff.symm)
    | some greatest =>
      exact (mem_spread_times ih least _).trans
        (exists_congr fun i => and_congr_right fun _ => spans_capped_iff.symm)

/-- Between the two ends of a text a pattern matches the whole text. -/
theorem occursIn_anchored (q : Pattern) (s : String) :
    occursIn (.seq (.look .textStart) (.seq q (.look .textEnd))) s = true ↔
      q.Spans s.toList.toArray 0 s.toList.toArray.size := by
  unfold occursIn
  dsimp only
  rw [Bool.not_eq_true', ← Bool.not_eq_true, List.isEmpty_iff, List.eq_nil_iff_forall_not_mem]
  push Not
  generalize s.toList.toArray = text
  constructor
  · rintro ⟨j, hj⟩
    obtain ⟨i, -, k, ⟨rfl, hstart⟩, l, hspans, rfl, hend⟩ := (mem_reach_iff _ _ j).1 hj
    obtain rfl := beq_iff_eq.1 hstart
    obtain rfl := beq_iff_eq.1 hend
    exact hspans
  · intro h
    exact ⟨text.size, (mem_reach_iff _ _ _).2 ⟨0, by simp, 0, ⟨rfl, beq_iff_eq.2 rfl⟩, text.size,
      h, rfl, beq_iff_eq.2 rfl⟩⟩

end LiveRecords.Pattern

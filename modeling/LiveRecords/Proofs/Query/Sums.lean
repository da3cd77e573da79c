import Mathlib
import LiveRecords.Proofs.Document.Likeness
import LiveRecords.Query.Aggregate

/-
  Sums of integers.

  A running sum is exact as long as it has 64 bits with sign, and once it has not it never is
  again. So the sum of some integers is an integer just if all partial sums, in their order,
  have 64 bits (`foldl_exact`). Which partial sums there are depends on the order; all of them
  lie between the sum of the negative integers and that of the positive ones, and either end is
  reached in some order. So the sum does not depend on the order just if both ends have 64 bits
  (`Aggregate.sums_exactly`).
-/

namespace LiveRecords

/-- What a sum of integers is formed of: nulls and integers of 64 bits with sign. -/
def Value.Summand (v : Value) : Prop := v = .null ∨ ∃ n, v = .int n ∧ InSigned64 n

/-- The integers of 64 bits with sign among some values, in their order. -/
def Value.integers (values : List Value) : List Int := values.filterMap Value.signed64?

/-! ## Partial sums -/

namespace PartialSums

/-- All partial sums of some integers that are added to another one have 64 bits with sign. -/
def Contained (start : Int) (ns : List Int) : Prop := ∀ p, p <+: ns → InSigned64 (start + p.sum)

theorem contained_cons {start n : Int} {ns : List Int} :
    Contained start (n :: ns) ↔ InSigned64 start ∧ Contained (start + n) ns := by
  unfold Contained
  constructor
  · intro h
    refine ⟨by simpa using h [] List.nil_prefix, fun p hp => ?_⟩
    have hlonger := h (n :: p) (List.cons_prefix_cons.2 ⟨rfl, hp⟩)
    rwa [List.sum_cons, ← Int.add_assoc] at hlonger
  · rintro ⟨hstart, hrest⟩ p hp
    rcases List.prefix_cons_iff.1 hp with rfl | ⟨q, rfl, hq⟩
    · simpa using hstart
    · rw [List.sum_cons, ← Int.add_assoc]
      exact hrest q hq

theorem contained_nil {start : Int} : Contained start [] ↔ InSigned64 start := by
  unfold Contained
  constructor
  · intro h
    simpa using h [] List.nil_prefix
  · intro h p hp
    obtain rfl := List.prefix_nil.1 hp
    simpa using h

instance decidableContained : ∀ (start : Int) (ns : List Int), Decidable (Contained start ns)
  | _, [] => decidable_of_iff _ contained_nil.symm
  | start, n :: ns =>
    have := decidableContained (start + n) ns
    decidable_of_iff _ contained_cons.symm

/-- The sum of the positive ones among some integers. -/
def gains (ns : List Int) : Int := (ns.filter (0 < ·)).sum

/-- The sum of the negative ones among some integers. -/
def losses (ns : List Int) : Int := (ns.filter (· < 0)).sum

theorem gains_cons (n : Int) (ns : List Int) : gains (n :: ns) = max n 0 + gains ns := by
  unfold gains
  rcases Int.lt_or_le 0 n with hpos | hneg
  · simp [hpos, hpos.le]
  · simp [not_lt.2 hneg, hneg]

theorem losses_cons (n : Int) (ns : List Int) : losses (n :: ns) = min n 0 + losses ns := by
  unfold losses
  rcases Int.lt_or_le n 0 with hneg | hpos
  · simp [hneg, hneg.le]
  · simp [not_lt.2 hpos, hpos]

theorem ends_bound (ns : List Int) : losses ns ≤ 0 ∧ 0 ≤ gains ns := by
  induction ns with
  | nil => decide
  | cons n rest ih =>
    rw [gains_cons, losses_cons]
    omega

/-- Every partial sum lies between the losses and the gains. -/
theorem sum_bounds {p ns : List Int} (h : p <+: ns) : losses ns ≤ p.sum ∧ p.sum ≤ gains ns := by
  induction ns generalizing p with
  | nil =>
    obtain rfl := List.prefix_nil.1 h
    exact ends_bound []
  | cons n rest ih =>
    have hends := ends_bound rest
    rw [gains_cons, losses_cons]
    rcases List.prefix_cons_iff.1 h with rfl | ⟨q, rfl, hq⟩
    · rw [List.sum_nil]
      omega
    · have hrest := ih hq
      rw [List.sum_cons]
      omega

/-- In every order the partial sums are contained, just if the gains and the losses are. -/
theorem contained_orders_iff (ns : List Int) :
    (∀ ms, ms.Perm ns → Contained 0 ms) ↔ InSigned64 (gains ns) ∧ InSigned64 (losses ns) := by
  constructor
  · intro h
    have hfirst : ∀ test : Int → Bool, InSigned64 (ns.filter test).sum := fun test => by
      simpa using h _ (List.filter_append_perm test ns) _ (List.prefix_append _ _)
    exact ⟨hfirst _, hfirst _⟩
  · rintro ⟨hgains, hlosses⟩ ms hms p hp
    have hbounds := sum_bounds hp
    have hg : gains ms = gains ns := (hms.filter _).sum_eq
    have hl : losses ms = losses ns := (hms.filter _).sum_eq
    unfold InSigned64 at hgains hlosses ⊢
    omega

/-- Integers whose total is contained have an order in which all partial sums are: as long as
there are some of either sign, the next one has the sign that the sum has not. -/
theorem exists_contained (ns : List Int) {start : Int} (h : InSigned64 start)
    (signed : ∀ n ∈ ns, InSigned64 n) (total : InSigned64 (start + ns.sum)) :
    ∃ ms, ms.Perm ns ∧ Contained start ms := by
  induction hlength : ns.length generalizing ns start with
  | zero =>
    obtain rfl := List.length_eq_zero_iff.1 hlength
    exact ⟨[], .nil, contained_nil.2 h⟩
  | succ k ih =>
    by_cases hturn : ∃ n ∈ ns, if 0 ≤ start then n ≤ 0 else 0 ≤ n
    · obtain ⟨n, hn, hsign⟩ := hturn
      have hperm := List.perm_cons_erase hn
      have hnext : InSigned64 (start + n) := by
        have hin := signed n hn
        unfold InSigned64 at h hin ⊢
        split at hsign <;> omega
      have hsum : start + n + (ns.erase n).sum = start + ns.sum := by
        rw [hperm.sum_eq, List.sum_cons, Int.add_assoc]
      obtain ⟨ms, hms, hcontained⟩ := ih (ns.erase n) hnext
        (fun m hm => signed m (List.mem_of_mem_erase hm)) (hsum ▸ total)
        (by rw [List.length_erase_of_mem hn, hlength, Nat.add_sub_cancel])
      exact ⟨n :: ms, (hms.cons n).trans hperm.symm, contained_cons.2 ⟨h, hcontained⟩⟩
    · -- all are of one sign, and the sums go from the first to the last without turning
      refine ⟨ns, .refl ns, fun p hp => ?_⟩
      have hbounds := sum_bounds hp
      unfold InSigned64 at h total ⊢
      by_cases hstart : 0 ≤ start
      · have hpos : ∀ n ∈ ns, 0 < n := fun n hn => by
          by_contra hle
          exact hturn ⟨n, hn, by rw [if_pos hstart]; omega⟩
        have hgains : gains ns = ns.sum := by
          unfold gains
          rw [List.filter_eq_self.2 fun n hn => decide_eq_true (hpos n hn)]
        have hlosses : losses ns = 0 := by
          unfold losses
          rw [List.filter_eq_nil_iff.2 fun n hn => by have := hpos n hn; simp; omega]
          rfl
        omega
      · have hneg : ∀ n ∈ ns, n < 0 := fun n hn => by
          by_contra hle
          exact hturn ⟨n, hn, by rw [if_neg hstart]; omega⟩
        have hgains : gains ns = 0 := by
          unfold gains
          rw [List.filter_eq_nil_iff.2 fun n hn => by have := hneg n hn; simp; omega]
          rfl
        have hlosses : losses ns = ns.sum := by
          unfold losses
          rw [List.filter_eq_self.2 fun n hn => decide_eq_true (hneg n hn)]
        omega

end PartialSums

namespace Aggregate

open PartialSums

/-! ## The running sum -/

/-- The sum in binary64 of some integers that are added, one after another, to a number. -/
def roundedSum (start : Option Binary64) (ns : List Int) : Option Binary64 :=
  ns.foldl (fun total n => total.bind (·.add (.ofInt n))) start

theorem foldl_none (values : List Value) (rounded : Option Binary64) :
    (values.foldl Total.add ⟨none, rounded⟩).exact = none := by
  induction values generalizing rounded with
  | nil => rfl
  | cons v rest ih => exact ih _

/-- A sum that begins with an integer is exact just if all partial sums are contained. -/
theorem foldl_exact (ns : List Int) {start : Int} (h : InSigned64 start)
    (signed : ∀ n ∈ ns, InSigned64 n) (rounded : Option Binary64) :
    ((ns.map Value.int).foldl Total.add ⟨some start, rounded⟩).exact =
      if Contained start ns then some (start + ns.sum) else none := by
  induction ns generalizing start rounded with
  | nil => simp [contained_nil, h]
  | cons n rest ih =>
    have hn : Value.signed64? (.int n) = some n := if_pos (signed n List.mem_cons_self)
    have hstep : Total.add ⟨some start, rounded⟩ (.int n) =
        ⟨signed64? (start + n), addRounded rounded (.int n)⟩ := by
      unfold Total.add
      rw [hn]
      rfl
    rw [List.map_cons, List.foldl_cons, hstep]
    by_cases hnext : InSigned64 (start + n)
    · rw [signed64?, if_pos hnext, ih hnext fun m hm => signed m (List.mem_cons_of_mem n hm)]
      simp only [contained_cons, h, true_and, List.sum_cons, Int.add_assoc]
    · -- one partial sum too great is enough
      have hnot : ¬Contained start (n :: rest) := fun hall => hnext (by
        simpa using hall [n] (List.cons_prefix_cons.2 ⟨rfl, List.nil_prefix⟩))
      rw [signed64?, if_neg hnext, if_neg hnot]
      exact foldl_none _ _

theorem foldl_rounded (ns : List Int) (start : Total) :
    ((ns.map Value.int).foldl Total.add start).rounded = roundedSum start.rounded ns := by
  induction ns generalizing start with
  | nil => rfl
  | cons n rest ih => exact ih _

theorem Total.value_of_exact {t : Total} {n : Int} (h : t.exact = some n) : t.value = .int n := by
  rw [Total.value, h]

theorem Total.value_of_inexact {t : Total} (h : t.exact = none) :
    t.value = .ofBinary? t.rounded := by
  rw [Total.value, h]

/-! ## Values -/

variable {values : List Value}

theorem signed_of_summands (h : ∀ v ∈ values, v.Summand) :
    ∀ n ∈ Value.integers values, InSigned64 n := by
  intro n hn
  obtain ⟨v, hv, hsome⟩ := List.mem_filterMap.1 hn
  rcases h v hv with rfl | ⟨m, rfl, hm⟩
  · cases hsome
  · have hsigned : Value.signed64? (.int m) = some m := if_pos hm
    rw [hsigned] at hsome
    cases hsome
    exact hm

/-- Without the nulls, summands are integers. -/
theorem filter_summands (h : ∀ v ∈ values, v.Summand) :
    (values.filter fun v => !v.isNull) = (Value.integers values).map Value.int := by
  induction values with
  | nil => rfl
  | cons v rest ih =>
    have hrest := ih fun w hw => h w (List.mem_cons_of_mem v hw)
    rcases h v List.mem_cons_self with rfl | ⟨n, rfl, hn⟩
    · exact hrest
    · have hsigned : Value.signed64? (.int n) = some n := if_pos hn
      rw [List.filter_cons_of_pos (by rfl), hrest]
      simp only [Value.integers, List.filterMap_cons, hsigned, List.map_cons]

theorem reduce_sum (e : Expr) (h : ∀ v ∈ values, v.Summand) :
    reduce (.sum e) values =
      if Contained 0 (Value.integers values) then .int (Value.integers values).sum
      else .ofBinary? (roundedSum (some (.zero false)) (Value.integers values)) := by
  have hexact := foldl_exact (Value.integers values) (show InSigned64 0 by decide)
    (signed_of_summands h) (some (.zero false))
  have hrounded := foldl_rounded (Value.integers values) .zero
  show (((values.filter fun v => !v.isNull).foldl Total.add .zero)).value = _
  rw [filter_summands h]
  split
  · next hcontained =>
    rw [if_pos hcontained, Int.zero_add] at hexact
    exact Total.value_of_exact hexact
  · next hnot =>
    rw [if_neg hnot] at hexact
    exact (Total.value_of_inexact hexact).trans (congrArg _ hrounded)

/-- A sum is an integer just if the partial sums are contained. -/
theorem reduce_sum_eq_int_iff (e : Expr) (h : ∀ v ∈ values, v.Summand) (n : Int) :
    reduce (.sum e) values = .int n ↔
      Contained 0 (Value.integers values) ∧ n = (Value.integers values).sum := by
  rw [reduce_sum e h]
  split
  · next hcontained =>
    rw [Value.int.injEq, eq_comm, and_iff_right hcontained]
  · next hnot =>
    refine ⟨fun heq => ?_, fun heq => absurd heq.1 hnot⟩
    cases hrounded : roundedSum (some (.zero false)) (Value.integers values) with
    | none => rw [hrounded] at heq; cases heq
    | some x => rw [hrounded] at heq; cases heq

/-! ## Orders -/

/-- What stands in another order among the integers can stand so among the values. -/
theorem exists_order (h : ∀ v ∈ values, v.Summand) {ms : List Int}
    (perm : ms.Perm (Value.integers values)) :
    ∃ order : List Value, order.Perm values ∧ Value.integers order = ms := by
  have hsigned : ∀ n ∈ ms, Value.signed64? (.int n) = some n := fun n hn =>
    if_pos (signed_of_summands h n (perm.mem_iff.1 hn))
  refine ⟨ms.map Value.int ++ values.filter fun v => !!v.isNull, ?_, ?_⟩
  · refine (List.Perm.append_right _ (perm.map _)).trans ?_
    rw [← filter_summands h]
    exact List.filter_append_perm _ values
  · have hnulls : (values.filter fun v => !!v.isNull).filterMap Value.signed64? = [] := by
      refine List.filterMap_eq_nil_iff.2 fun v hv => ?_
      have hnull := (List.mem_filter.1 hv).2
      rw [Bool.not_not] at hnull
      rw [Value.eq_null_of_isNull hnull]
      rfl
    unfold Value.integers
    rw [List.filterMap_append, hnulls, List.append_nil, List.filterMap_map]
    calc ms.filterMap (Value.signed64? ∘ Value.int) = ms.filterMap some :=
          List.filterMap_congr hsigned
      _ = ms := List.filterMap_some

/-- The sum of nulls and integers is the exact sum just if every partial sum, in their order,
has 64 bits with sign; otherwise it is the sum in binary64, and no integer. It is exact in all
orders just if the sum of the positive integers and that of the negative ones have 64 bits; and
where the exact sum has, those are the only values whose sum is the same in all orders. -/
theorem sums_exactly (e : Expr) (h : ∀ v ∈ values, v.Summand) :
    reduce (.sum e) values =
        (if Contained 0 (Value.integers values) then .int (Value.integers values).sum
        else .ofBinary? (roundedSum (some (.zero false)) (Value.integers values))) ∧
      (∀ n, reduce (.sum e) values = .int n ↔
        Contained 0 (Value.integers values) ∧ n = (Value.integers values).sum) ∧
      ((∀ order : List Value, order.Perm values →
          reduce (.sum e) order = .int (Value.integers values).sum) ↔
        InSigned64 (gains (Value.integers values)) ∧
          InSigned64 (losses (Value.integers values))) ∧
      (InSigned64 (Value.integers values).sum →
        ((∀ order : List Value, order.Perm values →
            reduce (.sum e) order = reduce (.sum e) values) ↔
          InSigned64 (gains (Value.integers values)) ∧
            InSigned64 (losses (Value.integers values)))) := by
  have hsummands : ∀ {order : List Value}, order.Perm values → ∀ v ∈ order, v.Summand :=
    fun hperm v hv => h v (hperm.mem_iff.1 hv)
  have horders : (∀ order : List Value, order.Perm values →
      reduce (.sum e) order = .int (Value.integers values).sum) ↔
      ∀ ms : List Int, ms.Perm (Value.integers values) → Contained 0 ms := by
    constructor
    · intro hall ms hms
      obtain ⟨order, hperm, rfl⟩ := exists_order h hms
      exact ((reduce_sum_eq_int_iff e (hsummands hperm) _).1 (hall order hperm)).1
    · intro hall order hperm
      have hints : (Value.integers order).Perm (Value.integers values) := hperm.filterMap _
      exact (reduce_sum_eq_int_iff e (hsummands hperm) _).2 ⟨hall _ hints, hints.sum_eq.symm⟩
  rw [contained_orders_iff] at horders
  refine ⟨reduce_sum e h, reduce_sum_eq_int_iff e h, horders, fun htotal => ?_⟩
  rw [← horders]
  constructor
  · intro hsame
    -- in some order the sum is exact, so it is in all
    obtain ⟨ms, hms, hcontained⟩ := exists_contained (Value.integers values)
      (show InSigned64 0 by decide) (signed_of_summands h) (by rwa [Int.zero_add])
    obtain ⟨order, hperm, rfl⟩ := exists_order h hms
    have hexact := (reduce_sum_eq_int_iff e (hsummands hperm) _).2 ⟨hcontained, hms.sum_eq.symm⟩
    exact fun other hother => (hsame other hother).trans ((hsame order hperm).symm.trans hexact)
  · intro hall order hperm
    rw [hall order hperm, hall values (.refl values)]

end Aggregate

namespace Shop

/-- The takings of three days; on one of them more was paid back than taken. -/
def takings : List Value := [.int (2 ^ 63 - 2), .null, .int (-5), .int 6]

theorem takings_summands : ∀ v ∈ takings, v.Summand := by
  intro v hv
  simp only [takings, List.mem_cons, List.not_mem_nil, or_false] at hv
  rcases hv with rfl | rfl | rfl | rfl
  · exact .inr ⟨_, rfl, by decide⟩
  · exact .inl rfl
  · exact .inr ⟨_, rfl, by decide⟩
  · exact .inr ⟨_, rfl, by decide⟩

/-- The sum of the takings is exact, but it is not so in all orders. -/
theorem takings_summed :
    (∀ v ∈ takings, v.Summand) ∧
      Aggregate.reduce (.sum (.argument .int)) takings = .int (2 ^ 63 - 1) ∧
      ¬∀ order : List Value, order.Perm takings → Aggregate.reduce (.sum (.argument .int)) order =
        Aggregate.reduce (.sum (.argument .int)) takings := by
  obtain ⟨-, hexact, -, horders⟩ :=
    Aggregate.sums_exactly (.argument .int) takings_summands
  refine ⟨takings_summands, (hexact _).2 (by decide), fun hall => ?_⟩
  exact absurd ((horders (by decide)).1 hall) (by decide)

/-- The same takings in another order. -/
def reordered : List Value := [.int 6, .int (2 ^ 63 - 2), .null, .int (-5)]

/-- Reordered takings have the same exact sum, which has 64 bits, but what is returned for them
is a floating number. -/
theorem takings_reordered :
    reordered.Perm takings ∧ (∀ v ∈ reordered, v.Summand) ∧
      (Value.integers reordered).sum = 2 ^ 63 - 1 ∧ InSigned64 (2 ^ 63 - 1) ∧
      Aggregate.reduce (.sum (.argument .int)) takings = .int (2 ^ 63 - 1) ∧
      Aggregate.reduce (.sum (.argument .int)) reordered = .float (.ofInt (2 ^ 63)) := by
  have hperm : reordered.Perm takings :=
    show ([.int 6] ++ [.int (2 ^ 63 - 2), .null, .int (-5)] : List Value).Perm _ from
      List.perm_append_comm
  have hsummands : ∀ v ∈ reordered, v.Summand := fun v hv =>
    takings_summands v (hperm.mem_iff.1 hv)
  have hrounded : Aggregate.roundedSum (some (.zero false)) (Value.integers reordered) =
      some (.ofInt (2 ^ 63)) := by decide +kernel
  refine ⟨hperm, hsummands, by decide, by decide, ?_, ?_⟩
  · rw [Aggregate.reduce_sum _ takings_summands, if_pos (by decide)]
    rfl
  · rw [Aggregate.reduce_sum _ hsummands, if_neg (by decide), hrounded]
    rfl

end Shop

end LiveRecords

import LiveRecords.Proofs.Document.Likeness
import LiveRecords.Proofs.Number.Rounding
import LiveRecords.Proofs.Number.Whole
import LiveRecords.Proofs.Query.Sorting

/-
  Where sorting compares by a total preorder.

  Two values always compare the other way round from the other side. But two integers of
  64 bits compare exactly and all other numbers as binary64, so a number that is no such
  integer may be equal to two different ones (`great_numbers_tie`). This is all that can go
  wrong: among some values the comparison is transitive exactly if no such number is there
  with two integers that it is nearest to (`Value.Coherent`). Comparing documents by several
  keys is a total preorder if the values under each key are so (`SortKey.compares_totally`).
-/

namespace LiveRecords

/-! ## Total preorders -/

/-- Comparison is a total preorder among some values. -/
structure PreorderOn (on : Value → Prop) (cmp : Value → Value → Ordering) : Prop where
  swap : ∀ a b, on a → on b → cmp b a = (cmp a b).swap
  isLE_trans : ∀ a b c, on a → on b → on c →
    (cmp a b).isLE → (cmp b c).isLE → (cmp a c).isLE
  eq_trans : ∀ a b c, on a → on b → on c → cmp a b = .eq → cmp b c = .eq → cmp a c = .eq

section

variable {on : Value → Prop} {cmp : Value → Value → Ordering}

theorem preorderOn_iff : PreorderOn on cmp ↔ Std.TransCmp fun a b : Subtype on => cmp a b := by
  constructor
  · intro h
    exact { eq_swap := fun {a b} => h.swap b a b.2 a.2
            isLE_trans := fun {a b c} => h.isLE_trans a b c a.2 b.2 c.2 }
  · intro h
    refine ⟨fun a b ha hb => ?_, fun a b c ha hb hc => ?_, fun a b c ha hb hc => ?_⟩
    · exact h.eq_swap (a := ⟨b, hb⟩) (b := ⟨a, ha⟩)
    · exact h.isLE_trans (a := ⟨a, ha⟩) (b := ⟨b, hb⟩) (c := ⟨c, hc⟩)
    · exact @Std.TransCmp.eq_trans _ (fun a b : Subtype on => cmp a b) h ⟨a, ha⟩ ⟨b, hb⟩ ⟨c, hc⟩

/-- Of two comparisons the second decides where the first does not. -/
theorem PreorderOn.andThen {cmp' : Value → Value → Ordering} (h : PreorderOn on cmp)
    (h' : PreorderOn on cmp') : PreorderOn on fun a b => (cmp a b).then (cmp' a b) := by
  have := preorderOn_iff.1 h
  have := preorderOn_iff.1 h'
  exact preorderOn_iff.2 (inferInstanceAs (Std.TransCmp (compareLex
    (fun a b : Subtype on => cmp a b) fun a b : Subtype on => cmp' a b)))

theorem PreorderOn.reversed (h : PreorderOn on cmp) :
    PreorderOn on fun a b => (cmp a b).swap := by
  have hflip := preorderOn_iff.1 h
  refine preorderOn_iff.2 ?_
  have hswap : (fun a b : Subtype on => (cmp a b).swap) = fun a b : Subtype on => cmp b a :=
    funext fun a => funext fun b => (h.swap a b a.2 b.2).symm
  rw [hswap]
  exact Std.TransCmp.opposite

theorem PreorderOn.comap {f : Value → Value}
    (h : PreorderOn (fun v => ∃ d, on d ∧ f d = v) cmp) :
    PreorderOn on fun a b => cmp (f a) (f b) where
  swap a b ha hb := h.swap _ _ ⟨a, ha, rfl⟩ ⟨b, hb, rfl⟩
  isLE_trans a b c ha hb hc := h.isLE_trans _ _ _ ⟨a, ha, rfl⟩ ⟨b, hb, rfl⟩ ⟨c, hc, rfl⟩
  eq_trans a b c ha hb hc := h.eq_trans _ _ _ ⟨a, ha, rfl⟩ ⟨b, hb, rfl⟩ ⟨c, hc, rfl⟩

end

/-! ## Numbers -/

namespace Value

theorem int_of_signed64? {a : Value} {m : Int} (h : a.signed64? = some m) :
    a = .int m ∧ InSigned64 m := by
  cases a with
  | int n =>
    simp only [signed64?, LiveRecords.signed64?] at h
    split at h
    · next hin =>
      cases h
      exact ⟨rfl, hin⟩
    · cases h
  | _ => cases h

theorem sortOrder_of_numbers {a b : Value} {o : Ordering} (h : compareNumbers? a b = some o) :
    a.sortOrder b = o := by
  unfold sortOrder
  have hcompare : compare? a b = some o := by
    cases a with
    | text s => cases h
    | bool s => cases h
    | _ => exact h
  rw [hcompare]
  rfl

theorem sortOrder_of_signed64? {a b : Value} {m n : Int} (hm : a.signed64? = some m)
    (hn : b.signed64? = some n) : a.sortOrder b = Ord.compare m n :=
  sortOrder_of_numbers (by simp only [compareNumbers?, hm, hn])

/-- Two integers of 64 bits compare exactly, other numbers by their nearest binary64. -/
theorem compareNumbers?_cases {a b : Value} {x y : Binary64} (ha : a.toBinary? = some x)
    (hb : b.toBinary? = some y) :
    (∃ m n, a.signed64? = some m ∧ b.signed64? = some n ∧
      compareNumbers? a b = some (Ord.compare m n)) ∨
    compareNumbers? a b = some (x.compare y) := by
  unfold compareNumbers?
  rw [ha, hb]
  cases hm : a.signed64? with
  | none => exact .inr rfl
  | some m =>
    cases hn : b.signed64? with
    | none => exact .inr rfl
    | some n => exact .inl ⟨m, n, rfl, rfl, rfl⟩

/-- Numbers in order have nearest binary64 numbers in order. -/
theorem units_le_of_isLE {a b : Value} {x y : Binary64} (ha : a.toBinary? = some x)
    (hb : b.toBinary? = some y) (h : (a.sortOrder b).isLE) : x.units ≤ y.units := by
  obtain ⟨m, n, hm, hn, -⟩ | hcompare := compareNumbers?_cases ha hb
  · rw [sortOrder_of_signed64? hm hn, Int.isLE_compare] at h
    obtain ⟨rfl, -⟩ := int_of_signed64? hm
    obtain ⟨rfl, -⟩ := int_of_signed64? hn
    cases ha
    cases hb
    exact Binary64.units_ofInt_mono h
  · rw [sortOrder_of_numbers hcompare] at h
    exact Int.isLE_compare.1 h

/-! ## Coherent values -/

/-- Among some values no number that is not an integer of 64 bits is nearest to two
different integers of 64 bits. -/
def Coherent (on : Value → Prop) : Prop :=
  ∀ m n v x, on (.int m) → on (.int n) → on v → InSigned64 m → InSigned64 n →
    v.signed64? = none → v.toBinary? = some x → (Binary64.ofInt m).same x →
      (Binary64.ofInt n).same x → m = n

/-- Without floating numbers and greater integers there is no such number. -/
theorem coherent_of_sortable {on : Value → Prop} (h : ∀ v, on v → v.Sortable) : Coherent on := by
  intro m n v x _ _ hv _ _ hnone hx
  have hsortable := h v hv
  cases v with
  | int k =>
    have hsome : signed64? (.int k) = some k := if_pos hsortable
    rw [hsome] at hnone
    cases hnone
  | float y => exact hsortable.elim
  | _ => cases hx

/-- Integers up to 2^53 in size are binary64 numbers themselves. -/
theorem coherent_of_exact {on : Value → Prop} (h : ∀ n, on (.int n) → n.natAbs ≤ 2 ^ 53) :
    Coherent on := by
  intro m n v x hm hn _ _ _ _ _ hmx hnx
  have hunits : m * Binary64.one = n * Binary64.one := by
    rw [← Binary64.units_ofInt (h m hm), ← Binary64.units_ofInt (h n hn)]
    exact (beq_iff_eq.1 hmx).trans (beq_iff_eq.1 hnx).symm
  exact Int.eq_of_mul_eq_mul_right (by have := Binary64.one_pos; omega) hunits

variable {on : Value → Prop} {a b c : Value}

theorem Coherent.numbers_trans (h : Coherent on) (ha : on a) (hb : on b) (hc : on c)
    {x y z : Binary64} (hx : a.toBinary? = some x) (hy : b.toBinary? = some y)
    (hz : c.toBinary? = some z) (hab : (a.sortOrder b).isLE) (hbc : (b.sortOrder c).isLE) :
    (a.sortOrder c).isLE := by
  have hxy := units_le_of_isLE hx hy hab
  have hyz := units_le_of_isLE hy hz hbc
  obtain ⟨m, k, hm, hk, -⟩ | hac := compareNumbers?_cases hx hz
  · rw [sortOrder_of_signed64? hm hk, Int.isLE_compare]
    obtain ⟨rfl, hin⟩ := int_of_signed64? hm
    obtain ⟨rfl, hin'⟩ := int_of_signed64? hk
    cases hx
    cases hz
    cases hn : b.signed64? with
    | some n =>
      -- all three are compared exactly
      rw [sortOrder_of_signed64? hm hn, Int.isLE_compare] at hab
      rw [sortOrder_of_signed64? hn hk, Int.isLE_compare] at hbc
      exact hab.trans hbc
    | none =>
      -- if `k` were less than `m`, all three would have one nearest number
      by_contra hlt
      have hkm : (Binary64.ofInt k).units ≤ (Binary64.ofInt m).units :=
        Binary64.units_ofInt_mono (by omega)
      have heq := h m k b y ha hc hb hin hin' hn hy (beq_iff_eq.2 (by omega))
        (beq_iff_eq.2 (by omega))
      omega
  · rw [sortOrder_of_numbers hac]
    exact Int.isLE_compare.2 (hxy.trans hyz)

/-! ## All values -/

theorem toBinary?_of_rank {a : Value} (h : a.familyRank = 2) : ∃ x, a.toBinary? = some x := by
  cases a with
  | int n => exact ⟨_, rfl⟩
  | float x => exact ⟨_, rfl⟩
  | _ => cases h

theorem rank_of_toBinary? {a : Value} {x : Binary64} (h : a.toBinary? = some x) :
    a.familyRank = 2 := by
  cases a with
  | int n => rfl
  | float y => rfl
  | _ => cases h

theorem sortable_of_rank {a : Value} (h : a.familyRank ≠ 2) : a.Sortable := by
  cases a with
  | int n => exact absurd rfl h
  | float x => exact absurd rfl h
  | _ => trivial

/-- Only numbers compare as numbers. -/
theorem ranks_of_compareNumbers? {a b : Value} {o : Ordering} (h : compareNumbers? a b = some o) :
    a.familyRank = 2 ∧ b.familyRank = 2 := by
  unfold compareNumbers? at h
  split at h
  · next hm hn =>
    obtain ⟨rfl, -⟩ := int_of_signed64? hm
    obtain ⟨rfl, -⟩ := int_of_signed64? hn
    exact ⟨rfl, rfl⟩
  · split at h
    · next hx hy => exact ⟨rank_of_toBinary? hx, rank_of_toBinary? hy⟩
    · cases h

/-- Values of different families are in the order of the families. -/
theorem sortOrder_of_ranks {a b : Value} (h : a.familyRank ≠ b.familyRank) :
    a.sortOrder b = Ord.compare a.familyRank b.familyRank := by
  have hcompare : compare? a b = compareNumbers? a b := by
    cases a <;> cases b <;> first | rfl | exact absurd rfl h
  unfold sortOrder
  rw [hcompare]
  cases hnumbers : compareNumbers? a b with
  | none => rfl
  | some o =>
    obtain ⟨ha, hb⟩ := ranks_of_compareNumbers? hnumbers
    exact absurd (ha.trans hb.symm) h

theorem sortOrder_swap (a b : Value) : b.sortOrder a = (a.sortOrder b).swap := by
  by_cases heq : a.familyRank = b.familyRank
  · by_cases hnumber : a.familyRank = 2
    · obtain ⟨x, hx⟩ := toBinary?_of_rank hnumber
      obtain ⟨y, hy⟩ := toBinary?_of_rank (heq ▸ hnumber)
      obtain ⟨o, ho⟩ : ∃ o, compareNumbers? a b = some o := by
        obtain ⟨m, n, -, -, hcompare⟩ | hcompare := compareNumbers?_cases hx hy
        · exact ⟨_, hcompare⟩
        · exact ⟨_, hcompare⟩
      have ho' : compareNumbers? b a = some o.swap := by
        rw [compareNumbers?_swap a b, ho]
        rfl
      rw [sortOrder_of_numbers ho, sortOrder_of_numbers ho']
    · have ha := sortable_of_rank hnumber
      have hb := sortable_of_rank (heq ▸ hnumber)
      rw [sortOrder_eq_placeOrder ha hb, sortOrder_eq_placeOrder hb ha]
      exact placeOrder_swap b a
  · rw [sortOrder_of_ranks heq, sortOrder_of_ranks (Ne.symm heq)]
    exact Std.OrientedCmp.eq_swap

theorem rank_le_of_isLE (h : (a.sortOrder b).isLE) : a.familyRank ≤ b.familyRank := by
  by_cases heq : a.familyRank = b.familyRank
  · exact heq.le
  · rw [sortOrder_of_ranks heq] at h
    exact Nat.isLE_compare.1 h

theorem Coherent.isLE_trans (h : Coherent on) (ha : on a) (hb : on b) (hc : on c)
    (hab : (a.sortOrder b).isLE) (hbc : (b.sortOrder c).isLE) : (a.sortOrder c).isLE := by
  have hranks := rank_le_of_isLE hab
  have hranks' := rank_le_of_isLE hbc
  by_cases heq : a.familyRank = c.familyRank
  · have hb' : b.familyRank = a.familyRank := by omega
    by_cases hnumber : a.familyRank = 2
    · obtain ⟨x, hx⟩ := toBinary?_of_rank hnumber
      obtain ⟨y, hy⟩ := toBinary?_of_rank (hb'.trans hnumber)
      obtain ⟨z, hz⟩ := toBinary?_of_rank (heq ▸ hnumber)
      exact h.numbers_trans ha hb hc hx hy hz hab hbc
    · have ha' := sortable_of_rank hnumber
      have hb' := sortable_of_rank (hb' ▸ hnumber)
      have hc' := sortable_of_rank (heq ▸ hnumber)
      rw [sortOrder_eq_placeOrder ha' hb'] at hab
      rw [sortOrder_eq_placeOrder hb' hc'] at hbc
      rw [sortOrder_eq_placeOrder ha' hc']
      exact placeOrder_isLE_trans hab hbc
  · rw [sortOrder_of_ranks heq]
    exact Nat.isLE_compare.2 (hranks.trans hranks')

/-- Among some values sorting compares by a total preorder exactly if they are coherent. -/
theorem coherent_iff (on : Value → Prop) : Coherent on ↔ PreorderOn on sortOrder := by
  constructor
  · intro h
    refine preorderOn_iff.2 ?_
    exact { eq_swap := sortOrder_swap _ _
            isLE_trans := fun {a b c} => h.isLE_trans a.2 b.2 c.2 }
  · intro h m n v x hm hn hv hin hin' hnone hx hmx hnx
    have htie : ∀ k, (Binary64.ofInt k).same x → (Value.int k).sortOrder v = .eq := by
      intro k hk
      have hint : toBinary? (.int k) = some (Binary64.ofInt k) := rfl
      obtain ⟨i, j, -, hj, -⟩ | hcompare := compareNumbers?_cases hint hx
      · rw [hnone] at hj
        cases hj
      · rw [sortOrder_of_numbers hcompare]
        exact Int.compare_eq_eq.2 (beq_iff_eq.1 hk)
    have hback : v.sortOrder (.int n) = .eq := by
      rw [sortOrder_swap, htie n hnx]
      rfl
    have heq := h.eq_trans _ v _ hm hv hn (htie m hmx) hback
    have hm' : signed64? (.int m) = some m := if_pos hin
    have hn' : signed64? (.int n) = some n := if_pos hin'
    rw [sortOrder_of_signed64? hm' hn'] at heq
    exact Int.compare_eq_eq.1 heq

end Value

/-! ## Sort keys -/

namespace SortKey

theorem preorderOn_order {key : SortKey} {on : Value → Prop}
    (h : Value.Coherent fun v => ∃ d, on d ∧ key.value d = v) :
    PreorderOn on (key.order Value.sortOrder) := by
  have hvalues : PreorderOn on fun a b => (key.value a).sortOrder (key.value b) :=
    ((Value.coherent_iff _).1 h).comap
  unfold order
  cases key.ascending with
  | true => exact hvalues
  | false => exact hvalues.reversed

theorem preorderOn_compare {keys : List SortKey} {on : Value → Prop}
    (h : ∀ key ∈ keys, Value.Coherent fun v => ∃ d, on d ∧ key.value d = v) :
    PreorderOn on (compare keys) := by
  induction keys with
  | nil => exact ⟨fun _ _ _ _ => rfl, fun _ _ _ _ _ _ _ _ => rfl, fun _ _ _ _ _ _ _ _ => rfl⟩
  | cons key rest ih =>
    have hfirst := preorderOn_order (h key List.mem_cons_self)
    have hrest := ih fun k hk => h k (List.mem_cons_of_mem _ hk)
    have hboth : compare (key :: rest) =
        fun a b => (key.order Value.sortOrder a b).then (compare rest a b) :=
      funext fun a => funext fun b => compare_cons key rest a b
    rw [hboth]
    exact hfirst.andThen hrest

theorem swap_compare (keys : List SortKey) (a b : Value) :
    compare keys b a = (compare keys a b).swap := by
  induction keys with
  | nil => rfl
  | cons key rest ih =>
    have hfirst : key.order Value.sortOrder b a = (key.order Value.sortOrder a b).swap := by
      unfold order
      cases key.ascending with
      | true => exact Value.sortOrder_swap _ _
      | false => exact congrArg Ordering.swap (Value.sortOrder_swap _ _)
    rw [compare_cons, compare_cons, hfirst, ih, Ordering.swap_then]

/-- Two values compare the other way round from the other side, and so do documents by any
keys in any directions; among some values the comparison is a total preorder exactly if they
are coherent; and comparing documents by keys is one if their values under each key are
coherent. -/
theorem compares_totally (keys : List SortKey) (on : Value → Prop) :
    (∀ a b : Value, b.sortOrder a = (a.sortOrder b).swap) ∧
    (∀ a b : Value, compare keys b a = (compare keys a b).swap) ∧
    (Value.Coherent on ↔ PreorderOn on Value.sortOrder) ∧
    ((∀ key ∈ keys, Value.Coherent fun v => ∃ d, on d ∧ key.value d = v) →
      PreorderOn on (compare keys)) :=
  ⟨Value.sortOrder_swap, swap_compare keys, Value.coherent_iff on, preorderOn_compare⟩

end SortKey

/-- A floating number is equal to two integers that differ. -/
theorem Value.great_numbers_tie :
    (Value.int (2 ^ 53 + 1)).sortOrder (.float (.ofInt (2 ^ 53))) = .eq ∧
      (Value.float (.ofInt (2 ^ 53))).sortOrder (.int (2 ^ 53)) = .eq ∧
      (Value.int (2 ^ 53 + 1)).sortOrder (.int (2 ^ 53)) = .gt := by
  decide +kernel

/-! ## Price tags -/

namespace Shop

/-- Documents whose prices are integers and floating numbers, and one without a price. -/
def priceTags : List Value :=
  [.object [("price", .int (2 ^ 53))], .object [("price", .float (.ofInt (2 ^ 53)))],
   .object [("price", .float (.greatest true))], .object [], .object [("price", .int 7)]]

theorem priceTags_compare :
    PreorderOn (· ∈ priceTags) (SortKey.compare [⟨Value.get "price", false⟩]) := by
  obtain ⟨-, -, -, hkeys⟩ :=
    SortKey.compares_totally [⟨Value.get "price", false⟩] (· ∈ priceTags)
  refine hkeys fun key hkey => ?_
  obtain rfl := List.mem_singleton.1 hkey
  have hints : ∀ d ∈ priceTags, ∀ n, d.get "price" = .int n → n.natAbs ≤ 2 ^ 53 := by
    simp only [priceTags, List.forall_mem_cons]
    refine ⟨?_, nofun, nofun, nofun, ?_, nofun⟩
    · rintro n ⟨⟩
      decide
    · rintro n ⟨⟩
      decide
  exact Value.coherent_of_exact fun n ⟨d, hd, hn⟩ => hints d hd n hn

end Shop

end LiveRecords

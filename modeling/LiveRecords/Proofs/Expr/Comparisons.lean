import LiveRecords.Proofs.Expr.Forms
import LiveRecords.Proofs.Query.Preorder

/-
  Comparison operators make one order.

  An operator compares what the receiver comes to with what its bound comes to, and a bound is
  a value or an expression (`Typed.Bound`). The strict operators ask for the order of two
  values, equality is a comparison of its own that looks into lists and objects, and the
  inclusive operators are made of both. Where the two values have an order (`Value.Peers`),
  equality is what the order says, for an integer and a floating number too
  (`Value.Peers.alike_of_compare?`), so the inclusive operators are the denials of the strict
  ones. Null has no order and is alike to null only.
-/

namespace LiveRecords

namespace Value

/-! ## Values that have an order -/

/-- Two truth values, two numbers or two texts. -/
inductive Peers : Value → Value → Prop
  | bools (x y : Bool) : Peers (.bool x) (.bool y)
  | numbers {a b : Value} (ha : a.familyRank = 2) (hb : b.familyRank = 2) : Peers a b
  | texts (s t : String) : Peers (.text s) (.text t)

variable {a b : Value}

theorem compare?_of_number (h : a.familyRank = 2) : a.compare? b = a.compareNumbers? b := by
  cases a with
  | int n => rfl
  | float x => rfl
  | _ => cases h

theorem alike_of_number (h : a.familyRank = 2) : a.alike b = a.alikeNumbers b := by
  cases a with
  | int n => cases b <;> rfl
  | float x => cases b <;> rfl
  | _ => cases h

theorem isSome_compareNumbers? (ha : a.familyRank = 2) (hb : b.familyRank = 2) :
    ∃ o, a.compareNumbers? b = some o := by
  obtain ⟨x, hx⟩ := toBinary?_of_rank ha
  obtain ⟨y, hy⟩ := toBinary?_of_rank hb
  obtain ⟨m, n, -, -, hcompare⟩ | hcompare := compareNumbers?_cases hx hy
  · exact ⟨_, hcompare⟩
  · exact ⟨_, hcompare⟩

theorem Peers.compare? (h : a.Peers b) : ∃ o, a.compare? b = some o := by
  cases h with
  | bools x y => exact ⟨_, rfl⟩
  | numbers ha hb =>
    rw [compare?_of_number ha]
    exact isSome_compareNumbers? ha hb
  | texts s t => exact ⟨_, rfl⟩

/-- Among values that have an order being alike is being neither less nor greater. -/
theorem Peers.alike_of_compare? (h : a.Peers b) {o : Ordering} (ho : a.compare? b = some o) :
    a.alike b = (o == .eq) := by
  cases h with
  | bools x y =>
    cases ho
    cases x <;> cases y <;> rfl
  | numbers ha hb =>
    rw [compare?_of_number ha] at ho
    rw [alike_of_number ha, alikeNumbers_eq, ho]
    rfl
  | texts s t =>
    cases ho
    rw [Bool.eq_iff_iff, beq_iff_eq, Std.compare_eq_iff_eq]
    exact beq_iff_eq

/-! ## Null -/

theorem compare?_eq_none (h : (a.isNull || b.isNull) = true) : a.compare? b = none := by
  have hnone : a.compareNumbers? b = none := by
    cases hnumbers : a.compareNumbers? b with
    | none => rfl
    | some o =>
      obtain ⟨ha, hb⟩ := ranks_of_compareNumbers? hnumbers
      obtain hnull | hnull := Bool.or_eq_true_iff.1 h
      · rw [eq_null_of_isNull hnull] at ha
        cases ha
      · rw [eq_null_of_isNull hnull] at hb
        cases hb
  cases a <;> cases b <;> first | exact hnone | cases h

theorem alike_of_isNull (h : (a.isNull || b.isNull) = true) :
    a.alike b = (a.isNull && b.isNull) := by
  obtain hnull | hnull := Bool.or_eq_true_iff.1 h
  · rw [hnull, eq_null_of_isNull hnull, alike_symm, alike_null, Bool.true_and]
  · rw [hnull, eq_null_of_isNull hnull, alike_null, Bool.and_true]

end Value

namespace Typed

/-! ## Operators on two values -/

namespace Method

variable {a b c : Value}

/-- Of less, alike and greater one holds, the one that the order says. -/
theorem apply_of_peers (h : a.Peers b) : ∃ o, a.compare? b = some o ∧
    apply .lessThan a b = .bool (o == .lt) ∧ apply .eq a b = .bool (o == .eq) ∧
    apply .greaterThan a b = .bool (o == .gt) := by
  obtain ⟨o, ho⟩ := h.compare?
  refine ⟨o, ho, ?_, congrArg Value.bool (h.alike_of_compare? ho), ?_⟩
  · show Value.bool (a.compare? b == some .lt) = _
    rw [ho]
    rfl
  · show Value.bool (a.compare? b == some .gt) = _
    rw [ho]
    rfl

theorem greaterOrEqual_of_peers (h : a.Peers b) :
    apply .greaterOrEqual a b = .bool !(apply .lessThan a b).isTrue := by
  obtain ⟨o, ho⟩ := h.compare?
  show Value.bool (a.compare? b == some .gt || a.alike b) = .bool !(a.compare? b == some .lt)
  rw [h.alike_of_compare? ho, ho]
  cases o <;> rfl

theorem lessOrEqual_of_peers (h : a.Peers b) :
    apply .lessOrEqual a b = .bool !(apply .greaterThan a b).isTrue := by
  obtain ⟨o, ho⟩ := h.compare?
  show Value.bool (a.compare? b == some .lt || a.alike b) = .bool !(a.compare? b == some .gt)
  rw [h.alike_of_compare? ho, ho]
  cases o <;> rfl

theorem within_of_peers (hb : a.Peers b) (hc : a.Peers c) :
    within a b c =
      .bool (!(apply .lessThan a b).isTrue && !(apply .greaterThan a c).isTrue) := by
  unfold within
  rw [greaterOrEqual_of_peers hb, lessOrEqual_of_peers hc]
  rfl

/-- With null only the inclusive operators can hold, and only between null and null. -/
theorem apply_of_isNull (h : (a.isNull || b.isNull) = true) :
    apply .lessThan a b = .bool false ∧ apply .greaterThan a b = .bool false ∧
    apply .lessOrEqual a b = .bool (a.isNull && b.isNull) ∧
    apply .greaterOrEqual a b = .bool (a.isNull && b.isNull) := by
  simp only [apply, Value.compare?_eq_none h, Value.alike_of_isNull h]
  exact ⟨rfl, rfl, rfl, rfl⟩

end Method

/-! ## Bounds -/

/-- A bound of a comparison. -/
inductive Bound where
  | value (v : Value)
  | expr (e : Expr)

/-- What a bound comes to on a document. -/
def Bound.valueOn : Bound → Value → Outcome Value
  | value v, _ => .ok v
  | expr e, d => e.valueOn d

/-- A typed expression under an operator with a bound. -/
def against (t : Typed) (m : Method) : Bound → Typed
  | .value v => t.withValue v m
  | .expr e => t.withExpr e m

variable {t : Typed} {d a b c : Value}

theorem valueOn_against (ha : t.node.valueOn d = .ok a) {bound : Bound}
    (hb : bound.valueOn d = .ok b) (m : Method) :
    (t.against m bound).node.valueOn d = .ok (m.apply a b) := by
  cases bound with
  | value v =>
    cases hb
    show (t.withValue b m).node.valueOn d = _
    rw [valueOn_withValue, valueOn_withExpr, ha]
    rfl
  | expr e =>
    show (t.withExpr e m).node.valueOn d = _
    rw [valueOn_withExpr, ha, show e.valueOn d = .ok b from hb]
    rfl

theorem valueOn_against_not (ha : t.node.valueOn d = .ok a) {bound : Bound}
    (hb : bound.valueOn d = .ok b) (m : Method) :
    (t.against m bound).not.node.valueOn d = .ok (.bool !(m.apply a b).isTrue) := by
  rw [valueOn_not, valueOn_against ha hb]
  rfl

/-- A value outside of neither bound. -/
def notOutside (t : Typed) (low high : Bound) : Typed :=
  (t.against .lessThan low).not.and (t.against .greaterThan high).not

theorem valueOn_notOutside (ha : t.node.valueOn d = .ok a) {low high : Bound}
    (hb : low.valueOn d = .ok b) (hc : high.valueOn d = .ok c) (hab : a.Peers b)
    (hac : a.Peers c) :
    (t.notOutside low high).node.valueOn d = .ok (Method.within a b c) := by
  unfold notOutside
  rw [valueOn_and, valueOn_against_not ha hb, valueOn_against_not ha hc,
    Method.within_of_peers hab hac]
  rfl

/-- On a document where the receiver and a bound come to values that have an order, one of
less, equal and greater is true, the one that the order says, and the inclusive operators deny
the strict ones. So does asking whether a value is between two bounds. With null the strict
operators are false and the inclusive ones true of null and null only. -/
theorem comparisons_consistent (t : Typed) (d a : Value) (ha : t.node.valueOn d = .ok a) :
    (∀ (bound : Bound) (b : Value), bound.valueOn d = .ok b →
      (a.Peers b →
        (∃ o, a.compare? b = some o ∧
          (t.against .lessThan bound).node.valueOn d = .ok (.bool (o == .lt)) ∧
          (t.against .eq bound).node.valueOn d = .ok (.bool (o == .eq)) ∧
          (t.against .greaterThan bound).node.valueOn d = .ok (.bool (o == .gt))) ∧
        (t.against .greaterOrEqual bound).node.valueOn d =
          (t.against .lessThan bound).not.node.valueOn d ∧
        (t.against .lessOrEqual bound).node.valueOn d =
          (t.against .greaterThan bound).not.node.valueOn d) ∧
      ((a.isNull || b.isNull) = true →
        (t.against .lessThan bound).node.valueOn d = .ok (.bool false) ∧
        (t.against .greaterThan bound).node.valueOn d = .ok (.bool false) ∧
        (t.against .lessOrEqual bound).node.valueOn d = .ok (.bool (a.isNull && b.isNull)) ∧
        (t.against .greaterOrEqual bound).node.valueOn d =
          .ok (.bool (a.isNull && b.isNull)))) ∧
    (∀ low high : Value, a.Peers low → a.Peers high →
      (t.between low high).node.valueOn d =
        (t.notOutside (.value low) (.value high)).node.valueOn d) ∧
    ∀ (low high : Expr) (b c : Value), low.valueOn d = .ok b → high.valueOn d = .ok c →
      a.Peers b → a.Peers c →
        (t.betweenExpr low high).node.valueOn d =
          (t.notOutside (.expr low) (.expr high)).node.valueOn d := by
  refine ⟨fun bound b hb => ⟨fun hpeers => ⟨?_, ?_, ?_⟩, fun hnull => ?_⟩,
    fun low high hlow hhigh => ?_, fun low high b c hb hc hlow hhigh => ?_⟩
  · obtain ⟨o, ho, hless, heq, hgreater⟩ := Method.apply_of_peers hpeers
    simp only [valueOn_against ha hb]
    exact ⟨o, ho, congrArg _ hless, congrArg _ heq, congrArg _ hgreater⟩
  · rw [valueOn_against ha hb, valueOn_against_not ha hb, Method.greaterOrEqual_of_peers hpeers]
  · rw [valueOn_against ha hb, valueOn_against_not ha hb, Method.lessOrEqual_of_peers hpeers]
  · obtain ⟨hless, hgreater, hatMost, hatLeast⟩ := Method.apply_of_isNull hnull
    simp only [valueOn_against ha hb]
    exact ⟨congrArg _ hless, congrArg _ hgreater, congrArg _ hatMost, congrArg _ hatLeast⟩
  · have hlow' : Bound.valueOn (.value low) d = .ok low := rfl
    have hhigh' : Bound.valueOn (.value high) d = .ok high := rfl
    rw [valueOn_notOutside ha hlow' hhigh' hlow hhigh, valueOn_between, valueOn_betweenExpr, ha]
    rfl
  · have hlow' : Bound.valueOn (.expr low) d = .ok b := hb
    have hhigh' : Bound.valueOn (.expr high) d = .ok c := hc
    rw [valueOn_notOutside ha hlow' hhigh' hlow hhigh, valueOn_betweenExpr, ha, hb, hc]
    rfl

end Typed

namespace Shop

/-- A product whose price is an integer and whose rating is the floating number nearest to
it. -/
def dearest : Value :=
  .object [("key", .text "a"), ("price", .int (2 ^ 53 + 1)), ("rating", .float (.ofInt (2 ^ 53)))]

/-- The price of that product equals its rating, so it is at least the rating and not less, and
it is between two bounds where it is outside of neither. A missing price is at least null. -/
theorem dearest_comparisons :
    (price.against .eq (.expr rating.node)).node.valueOn dearest = .ok (.bool true) ∧
    (price.against .greaterOrEqual (.expr rating.node)).node.valueOn dearest =
      (price.against .lessThan (.expr rating.node)).not.node.valueOn dearest ∧
    (price.betweenExpr rating.node price.node).node.valueOn dearest =
      (price.notOutside (.expr rating.node) (.expr price.node)).node.valueOn dearest ∧
    (price.between (.int (2 ^ 53)) (.float (.ofInt (2 ^ 60)))).node.valueOn dearest =
      (price.notOutside (.value (.int (2 ^ 53)))
        (.value (.float (.ofInt (2 ^ 60))))).node.valueOn dearest ∧
    (price.against .greaterOrEqual (.value .null)).node.valueOn unpriced = .ok (.bool true) := by
  obtain ⟨hbound, hbetween, hbetweenExpr⟩ :=
    Typed.comparisons_consistent price dearest (.int (2 ^ 53 + 1)) rfl
  obtain ⟨hnull, -⟩ := Typed.comparisons_consistent price unpriced .null rfl
  obtain ⟨⟨o, ho, -, heq, -⟩, hatLeast, -⟩ :=
    (hbound (.expr rating.node) (.float (.ofInt (2 ^ 53))) rfl).1 (.numbers rfl rfl)
  have horder : o = .eq := by
    have hcompare : (Value.int (2 ^ 53 + 1)).compare? (.float (.ofInt (2 ^ 53))) = some .eq := by
      decide +kernel
    exact Option.some.inj (ho.symm.trans hcompare)
  subst horder
  exact ⟨heq, hatLeast,
    hbetweenExpr rating.node price.node _ _ rfl rfl (.numbers rfl rfl) (.numbers rfl rfl),
    hbetween _ _ (.numbers rfl rfl) (.numbers rfl rfl),
    ((hnull (.value .null) .null rfl).2 rfl).2.2.2⟩

end Shop

end LiveRecords

import LiveRecords.Document.Order

/-
  Likeness of values.

  Values are alike up to the kind of numbers. That is symmetric through lists and
  objects of any depth (`alike_symm`), because numbers compare by value on either
  side. And every value is alike to itself (`alike_refl`).
-/

namespace LiveRecords.Value

/-! ## Symmetry -/

/-- Two numbers compare the other way round from the other side. -/
theorem compareNumbers?_swap (a b : Value) :
    compareNumbers? b a = (compareNumbers? a b).map Ordering.swap := by
  unfold compareNumbers?
  cases ha : a.signed64? <;> cases hb : b.signed64?
  all_goals cases hx : a.toBinary? <;> cases hy : b.toBinary?
  all_goals simp [Binary64.compare, Int.compare_swap]

/-- Numbers have one value if they compare as equal. -/
theorem alikeNumbers_eq (a b : Value) : alikeNumbers a b = (compareNumbers? a b == some .eq) := by
  have hcompare (m n : Int) : (m == n) = (some (Ord.compare m n) == some Ordering.eq) := by
    rw [Bool.eq_iff_iff, beq_iff_eq, beq_iff_eq, Option.some.injEq, Int.compare_eq_eq]
  unfold alikeNumbers compareNumbers?
  cases a.signed64? <;> cases b.signed64?
  case some.some m n => exact hcompare m n
  -- where one of them is no integer of 64 bits, both are compared as binary64
  all_goals
    cases a.toBinary? <;> cases b.toBinary?
    case some.some x y => exact hcompare x.units y.units
    all_goals rfl

theorem alikeNumbers_symm (a b : Value) : alikeNumbers a b = alikeNumbers b a := by
  rw [alikeNumbers_eq, alikeNumbers_eq, compareNumbers?_swap a b]
  cases compareNumbers? a b with
  | none => rfl
  | some o => cases o <;> rfl

mutual

theorem alike_symm : ∀ a b : Value, a.alike b = b.alike a
  | .null, b => by
    have hnumbers := alikeNumbers_symm .null b
    cases b with
    | null => rfl
    | _ => exact hnumbers
  | .bool x, b => by
    have hnumbers := alikeNumbers_symm (.bool x) b
    cases b with
    | bool y => exact Bool.beq_comm
    | _ => exact hnumbers
  | .int n, b => by
    have hnumbers := alikeNumbers_symm (.int n) b
    cases b <;> exact hnumbers
  | .float x, b => by
    have hnumbers := alikeNumbers_symm (.float x) b
    cases b <;> exact hnumbers
  | .text x, b => by
    have hnumbers := alikeNumbers_symm (.text x) b
    cases b with
    | text y => exact Bool.beq_comm
    | _ => exact hnumbers
  | .list as, b => by
    have hnumbers := alikeNumbers_symm (.list as) b
    cases b with
    | list bs => exact alikeItems_symm as bs
    | _ => exact hnumbers
  | .object as, b => by
    have hnumbers := alikeNumbers_symm (.object as) b
    cases b with
    | object bs => exact alikeFields_symm as bs
    | _ => exact hnumbers

theorem alikeItems_symm : ∀ as bs : List Value, alikeItems as bs = alikeItems bs as
  | [], [] => rfl
  | [], _ :: _ => rfl
  | _ :: _, [] => rfl
  | a :: as, b :: bs => by simp [alikeItems, alike_symm a b, alikeItems_symm as bs]

theorem alikeFields_symm : ∀ as bs : List (String × Value), alikeFields as bs = alikeFields bs as
  | [], [] => rfl
  | [], _ :: _ => rfl
  | _ :: _, [] => rfl
  | (m, a) :: as, (n, b) :: bs => by
    simp [alikeFields, alike_symm a b, alikeFields_symm as bs, Bool.beq_comm]

end

/-! ## Reflexivity -/

/-- A number is alike to itself. -/
theorem alikeNumbers_refl {v : Value} (h : v.toBinary?.isSome = true) :
    alikeNumbers v v = true := by
  obtain ⟨x, hx⟩ := Option.isSome_iff_exists.1 h
  unfold alikeNumbers
  rw [hx]
  cases v.signed64? with
  | some n => simp
  | none => simp [Binary64.same]

mutual

theorem alike_refl : ∀ v : Value, v.alike v = true
  | .null => rfl
  | .bool _ => beq_self_eq_true _
  | .int n => alikeNumbers_refl (v := .int n) rfl
  | .float x => alikeNumbers_refl (v := .float x) rfl
  | .text _ => beq_self_eq_true _
  | .list items => alikeItems_refl items
  | .object fields => alikeFields_refl fields

theorem alikeItems_refl : ∀ items : List Value, alikeItems items items = true
  | [] => rfl
  | v :: rest => by simp [alikeItems, alike_refl v, alikeItems_refl rest]

theorem alikeFields_refl : ∀ fields : List (String × Value), alikeFields fields fields = true
  | [] => rfl
  | (_, v) :: rest => by simp [alikeFields, alike_refl v, alikeFields_refl rest]

end

/-! ## Null -/

theorem eq_null_of_isNull {v : Value} (h : v.isNull = true) : v = .null := by
  cases v <;> first | rfl | cases h

/-- Nothing but null is alike to null. -/
theorem alike_null_of_value {v : Value} (h : v.isNull = false) : v.alike .null = false := by
  cases v with
  | null => cases h
  | int n => cases hn : LiveRecords.signed64? n <;> simp [alike, alikeNumbers, signed64?,
      toBinary?, hn]
  | _ => rfl

/-- What is alike to null is null. -/
theorem alike_null (v : Value) : v.alike .null = v.isNull := by
  cases h : v.isNull with
  | true =>
    rw [eq_null_of_isNull h]
    rfl
  | false => exact alike_null_of_value h

end LiveRecords.Value

import LiveRecords.Document.Render
import LiveRecords.Proofs.Number.Rounding

/-
  Sameness of documents.

  To be the same document is an equivalence. It takes the two zeros of floating numbers
  for one, and the text of a document does not: two documents that are the same have the
  same text just if their zeros have the same signs, one after another
  (`render_eq_iff`). For where their texts part, one goes on with a digit and the other
  with a sign.
-/

namespace LiveRecords.Value

/-! ## An equivalence -/

mutual

theorem same_refl : ∀ v : Value, v.same v = true
  | .null => rfl
  | .bool _ => by simp [same]
  | .int _ => by simp [same]
  | .float _ => by simp [same, Binary64.same]
  | .text _ => by simp [same]
  | .list items => sameItems_refl items
  | .object fields => sameFields_refl fields

theorem sameItems_refl : ∀ items : List Value, sameItems items items = true
  | [] => rfl
  | v :: rest => by simp [sameItems, same_refl v, sameItems_refl rest]

theorem sameFields_refl : ∀ fields : List (String × Value), sameFields fields fields = true
  | [] => rfl
  | (_, v) :: rest => by simp [sameFields, same_refl v, sameFields_refl rest]

end

mutual

theorem same_symm : ∀ a b : Value, a.same b = b.same a
  | .null, b => by cases b <;> rfl
  | .bool _, b => by cases b <;> simp [same, Bool.beq_comm]
  | .int _, b => by cases b <;> simp [same, Bool.beq_comm]
  | .float _, b => by cases b <;> simp [same, Binary64.same, Bool.beq_comm]
  | .text _, b => by cases b <;> simp [same, Bool.beq_comm]
  | .list as, b => by
    cases b with
    | list bs => exact sameItems_symm as bs
    | _ => rfl
  | .object as, b => by
    cases b with
    | object bs => exact sameFields_symm as bs
    | _ => rfl

theorem sameItems_symm : ∀ as bs : List Value, sameItems as bs = sameItems bs as
  | [], [] => rfl
  | [], _ :: _ => rfl
  | _ :: _, [] => rfl
  | a :: as, b :: bs => by simp [sameItems, same_symm a b, sameItems_symm as bs]

theorem sameFields_symm : ∀ as bs : List (String × Value), sameFields as bs = sameFields bs as
  | [], [] => rfl
  | [], _ :: _ => rfl
  | _ :: _, [] => rfl
  | (m, a) :: as, (n, b) :: bs => by
    simp [sameFields, same_symm a b, sameFields_symm as bs, Bool.beq_comm]

end

mutual

theorem same_trans : ∀ a b d : Value, a.same b = true → b.same d = true → a.same d = true
  | .null, b, d => by cases b <;> cases d <;> simp [same]
  | .bool _, b, d => by
    cases b <;> cases d
    case bool.bool => simpa [same] using Eq.trans
    all_goals simp [same]
  | .int _, b, d => by
    cases b <;> cases d
    case int.int => simpa [same] using Eq.trans
    all_goals simp [same]
  | .float _, b, d => by
    cases b <;> cases d
    case float.float => simpa [same, Binary64.same] using Eq.trans
    all_goals simp [same]
  | .text _, b, d => by
    cases b <;> cases d
    case text.text => simpa [same] using Eq.trans
    all_goals simp [same]
  | .list as, b, d => by
    cases b <;> cases d
    case list.list bs ds => exact sameItems_trans as bs ds
    all_goals simp [same]
  | .object as, b, d => by
    cases b <;> cases d
    case object.object bs ds => exact sameFields_trans as bs ds
    all_goals simp [same]

theorem sameItems_trans : ∀ as bs ds : List Value,
    sameItems as bs = true → sameItems bs ds = true → sameItems as ds = true
  | [], bs, ds => by cases bs <;> cases ds <;> simp [sameItems]
  | _ :: _, [], _ => by simp [sameItems]
  | _ :: _, _ :: _, [] => by simp [sameItems]
  | a :: as, b :: bs, d :: ds => by
    simp only [sameItems, Bool.and_eq_true]
    intro h h'
    exact ⟨same_trans a b d h.1 h'.1, sameItems_trans as bs ds h.2 h'.2⟩

theorem sameFields_trans : ∀ as bs ds : List (String × Value),
    sameFields as bs = true → sameFields bs ds = true → sameFields as ds = true
  | [], bs, ds => by cases bs <;> cases ds <;> simp [sameFields]
  | _ :: _, [], _ => by simp [sameFields]
  | _ :: _, _ :: _, [] => by simp [sameFields]
  | (_, a) :: as, (_, b) :: bs, (_, d) :: ds => by
    simp only [sameFields, Bool.and_eq_true, beq_iff_eq]
    intro h h'
    exact ⟨⟨h.1.1.trans h'.1.1, same_trans a b d h.1.2 h'.1.2⟩, sameFields_trans as bs ds h.2 h'.2⟩

end

/-! ## The text of what is the same -/

mutual

/-- The signs of the floating zeros in a value, in the order of its text. -/
def zeros : Value → List Bool
  | .float x => if x.code = 0 then [x.negative] else []
  | .list items => itemsZeros items
  | .object fields => fieldsZeros fields
  | _ => []

/-- The signs of the floating zeros in some items. -/
def itemsZeros : List Value → List Bool
  | [] => []
  | v :: rest => zeros v ++ itemsZeros rest

/-- The signs of the floating zeros in the values of some fields. -/
def fieldsZeros : List (String × Value) → List Bool
  | [] => []
  | (_, v) :: rest => zeros v ++ fieldsZeros rest

end

theorem length_zeros_float {x y : Binary64} (h : x.same y = true) :
    (zeros (.float x)).length = (zeros (.float y)).length := by
  rcases Binary64.same_iff.1 h with rfl | ⟨hx, hy⟩
  · rfl
  · simp only [zeros, hx, hy, if_true, List.length_singleton]

mutual

/-- What is the same has as many zeros. -/
theorem length_zeros : ∀ a b : Value, a.same b = true → a.zeros.length = b.zeros.length
  | .float x, b, h => by
    cases b with
    | float y => exact length_zeros_float h
    | _ => cases h
  | .list as, b, h => by
    cases b with
    | list bs => exact length_itemsZeros as bs h
    | _ => cases h
  | .object as, b, h => by
    cases b with
    | object bs => exact length_fieldsZeros as bs h
    | _ => cases h
  | .null, b, h => by cases b <;> first | rfl | cases h
  | .bool _, b, h => by cases b <;> first | rfl | cases h
  | .int _, b, h => by cases b <;> first | rfl | cases h
  | .text _, b, h => by cases b <;> first | rfl | cases h

theorem length_itemsZeros : ∀ as bs : List Value, sameItems as bs = true →
    (itemsZeros as).length = (itemsZeros bs).length
  | [], [], _ => rfl
  | a :: as, b :: bs, h => by
    simp only [sameItems, Bool.and_eq_true] at h
    simp only [itemsZeros, List.length_append, length_zeros a b h.1, length_itemsZeros as bs h.2]

theorem length_fieldsZeros : ∀ as bs : List (String × Value), sameFields as bs = true →
    (fieldsZeros as).length = (fieldsZeros bs).length
  | [], [], _ => rfl
  | (_, a) :: as, (_, b) :: bs, h => by
    simp only [sameFields, Bool.and_eq_true] at h
    simp only [fieldsZeros, List.length_append, length_zeros a b h.1.2,
      length_fieldsZeros as bs h.2]

end

theorem append_eq_iff {α : Type} {as bs r s : List α} (h : as.length = bs.length) :
    as ++ r = bs ++ s ↔ as = bs ∧ r = s :=
  ⟨fun heq => List.append_inj heq h, fun heq => heq.1 ▸ heq.2 ▸ rfl⟩

/-- A zero is written with its sign. -/
theorem render_zero {x : Binary64} (h : x.code = 0) :
    x.render.toList = (if x.negative then ['-'] else []) ++ ['0', '.', '0'] := by
  have hsigned : ∀ negative, (Binary64.zero negative).render.toList =
      (if negative then ['-'] else []) ++ ['0', '.', '0'] := by decide +kernel
  obtain ⟨negative, code, finite⟩ := x
  obtain rfl : code = 0 := h
  exact hsigned negative

theorem float_append_iff {x y : Binary64} (h : x.same y = true) (r s : List Char) :
    renderChars (.float x) ++ r = renderChars (.float y) ++ s ↔
      zeros (.float x) = zeros (.float y) ∧ r = s := by
  rcases Binary64.same_iff.1 h with rfl | ⟨hx, hy⟩
  · rw [append_eq_iff rfl]
    simp only [true_and]
  · simp only [renderChars, zeros, hx, hy, if_true, render_zero hx, render_zero hy]
    cases x.negative <;> cases y.negative <;> simp

mutual

/-- The texts of what is the same, and whatever comes after them, are the same just if the
zeros have the same signs and the same comes after. -/
theorem renderChars_append_iff : ∀ a b : Value, a.same b = true → ∀ r s : List Char,
    (a.renderChars ++ r = b.renderChars ++ s ↔ a.zeros = b.zeros ∧ r = s)
  | .float x, b, h, r, s => by
    cases b with
    | float y => exact float_append_iff h r s
    | _ => cases h
  | .list as, b, h, r, s => by
    cases b with
    | list bs =>
      simp only [renderChars, zeros, List.cons_append, List.append_assoc, List.cons.injEq,
        true_and, renderItems_append_iff as bs h, List.nil_append]
    | _ => cases h
  | .object as, b, h, r, s => by
    cases b with
    | object bs =>
      simp only [renderChars, zeros, List.cons_append, List.append_assoc, List.cons.injEq,
        true_and, renderFields_append_iff as bs h, List.nil_append]
    | _ => cases h
  | .null, b, h, r, s => by
    cases b with
    | null => simp [zeros]
    | _ => cases h
  | .bool x, b, h, r, s => by
    cases b with
    | bool y =>
      obtain rfl : x = y := beq_iff_eq.1 h
      simp [zeros]
    | _ => cases h
  | .int m, b, h, r, s => by
    cases b with
    | int n =>
      obtain rfl : m = n := beq_iff_eq.1 h
      simp [zeros]
    | _ => cases h
  | .text x, b, h, r, s => by
    cases b with
    | text y =>
      obtain rfl : x = y := beq_iff_eq.1 h
      simp [zeros]
    | _ => cases h

theorem renderItems_append_iff : ∀ as bs : List Value, sameItems as bs = true →
    ∀ (first : Bool) (r s : List Char),
      (renderItems first as ++ r = renderItems first bs ++ s ↔
        itemsZeros as = itemsZeros bs ∧ r = s)
  | [], [], _, _, r, s => by simp only [renderItems, itemsZeros, List.nil_append, true_and]
  | a :: as, b :: bs, h, first, r, s => by
    simp only [sameItems, Bool.and_eq_true] at h
    simp only [renderItems, itemsZeros, List.append_assoc, List.append_cancel_left_eq,
      renderChars_append_iff a b h.1, renderItems_append_iff as bs h.2,
      append_eq_iff (length_zeros a b h.1), and_assoc]

theorem renderFields_append_iff : ∀ as bs : List (String × Value), sameFields as bs = true →
    ∀ (first : Bool) (r s : List Char),
      (renderFields first as ++ r = renderFields first bs ++ s ↔
        fieldsZeros as = fieldsZeros bs ∧ r = s)
  | [], [], _, _, r, s => by simp only [renderFields, fieldsZeros, List.nil_append, true_and]
  | (m, a) :: as, (n, b) :: bs, h, first, r, s => by
    simp only [sameFields, Bool.and_eq_true, beq_iff_eq] at h
    obtain ⟨⟨rfl, hv⟩, hrest⟩ := h
    simp only [renderFields, fieldsZeros, List.append_assoc, List.cons_append,
      List.append_cancel_left_eq, List.cons.injEq, true_and, renderChars_append_iff a b hv,
      renderFields_append_iff as bs hrest, append_eq_iff (length_zeros a b hv), and_assoc]

end

/-- Documents that are the same have the same text just if their zeros have the same
signs. -/
theorem render_eq_iff {a b : Value} (h : a.same b = true) :
    a.render = b.render ↔ a.zeros = b.zeros := by
  have hchars := renderChars_append_iff a b h [] []
  rw [List.append_nil, List.append_nil] at hchars
  unfold render
  rw [String.ofList_inj, hchars]
  exact and_iff_left rfl

end LiveRecords.Value

import LiveRecords.Proofs.Document.Likeness
import LiveRecords.Proofs.Expr.Compiling

/-
  Operators with a value and with an expression.

  The operators of typed expressions that take an operand have two forms: one takes a value,
  the other an expression. The form with a value is not always the other one with a constant:
  equality with null asks whether the receiver is null, and so do the inclusive comparisons
  that are made of it. And a constant is not always compiled as any other expression is: a
  pattern that is a text is read only once. But both forms of an operator come to one function
  of two values (`Typed.Method.apply`), so they agree on every document on which the expression
  comes to the value (`Typed.forms_agree`).

  What an expression comes to on a document is said in one step (`Expr.valueOn`): what a node
  comes to depends on what its operands come to there, not on what they are made of.
-/

namespace LiveRecords

namespace Expr

/-! ## Evaluation -/

/-- What an expression comes to on a document, or why it does not compile. -/
def valueOn (e : Expr) (d : Value) : Outcome Value := e.compile.map (· d)

variable {e left right operand : Expr} {d v : Value}

theorem valueOn_of_compile {f : Value → Value} (h : e.compile = .ok f) (d : Value) :
    e.valueOn d = .ok (f d) := by
  unfold valueOn
  rw [h]
  rfl

theorem valueOn_eq_ok : e.valueOn d = .ok v ↔ ∃ f, e.compile = .ok f ∧ f d = v := by
  constructor
  · intro h
    unfold valueOn at h
    cases hf : e.compile with
    | ok f =>
      rw [hf] at h
      exact ⟨f, rfl, Except.ok.inj h⟩
    | error failure =>
      rw [hf] at h
      cases h
  · rintro ⟨f, hf, rfl⟩
    exact valueOn_of_compile hf d

theorem valueOn_eq_error {failure : Failure} :
    e.valueOn d = .error failure ↔ e.compile = .error failure := by
  unfold valueOn
  cases e.compile with
  | ok f => exact ⟨nofun, nofun⟩
  | error other => simp [Except.map]

@[simp] theorem valueOn_const (v d : Value) : (const v).valueOn d = .ok v := rfl

theorem valueOn_unary {kind : Kind} {op : Value → Value} (h : Operation.unary? kind = some op)
    (c : Capability) : (unary kind c operand).valueOn d = (operand.valueOn d).map op := by
  have hkind : kind.isAggregate = false := by cases kind <;> first | rfl | cases h
  unfold valueOn
  rw [compile, hkind, h]
  cases operand.compile <;> rfl

theorem valueOn_binary {kind : Kind} {op : Value → Value → Value}
    (h : Operation.binary? kind = some op) (c : Capability) :
    (binary kind c left right).valueOn d =
      (do return op (← left.valueOn d) (← right.valueOn d)) := by
  unfold valueOn
  rw [compile_binary, h]
  cases left.compile <;> cases right.compile <;> rfl

end Expr

namespace Typed

/-! ## The two forms of an operator -/

/-- The operators that take one operand. -/
inductive Method where
  | eq | notEq | greaterThan | lessThan | greaterOrEqual | lessOrEqual
  | add | sub | mul | div
  | contains | startsWith | endsWith | matches | concat
  deriving DecidableEq, Repr

/-- A typed expression under an operator with a value. Tests of text and `concat` take texts. -/
def withValue (t : Typed) (v : Value) : Method → Typed
  | .eq => t.eq v
  | .notEq => t.notEq v
  | .greaterThan => t.greaterThan v
  | .lessThan => t.lessThan v
  | .greaterOrEqual => t.greaterOrEqual v
  | .lessOrEqual => t.lessOrEqual v
  | .add => t.arithmetic .add (.const v)
  | .sub => t.arithmetic .sub (.const v)
  | .mul => t.arithmetic .mul (.const v)
  | .div => t.arithmetic .div (.const v)
  | .contains => t.textTest .contains (.const v)
  | .startsWith => t.textTest .startsWith (.const v)
  | .endsWith => t.textTest .endsWith (.const v)
  | .matches => t.textTest .matches (.const v)
  | .concat => t.concat (.const v)

/-- A typed expression under an operator with an expression. -/
def withExpr (t : Typed) (e : Expr) : Method → Typed
  | .eq => t.eqExpr e
  | .notEq => t.notEqExpr e
  | .greaterThan => t.greaterThanExpr e
  | .lessThan => t.lessThanExpr e
  | .greaterOrEqual => t.greaterOrEqualExpr e
  | .lessOrEqual => t.lessOrEqualExpr e
  | .add => t.arithmetic .add e
  | .sub => t.arithmetic .sub e
  | .mul => t.arithmetic .mul e
  | .div => t.arithmetic .div e
  | .contains => t.textTest .contains e
  | .startsWith => t.textTest .startsWith e
  | .endsWith => t.textTest .endsWith e
  | .matches => t.textTest .matches e
  | .concat => t.concat e

/-- What an operator comes to on the values of the receiver and the operand. -/
def Method.apply : Method → Value → Value → Value
  | .eq, a, b => .bool (a.alike b)
  | .notEq, a, b => .bool (!a.alike b)
  | .greaterThan, a, b => .bool (a.compare? b == some .gt)
  | .lessThan, a, b => .bool (a.compare? b == some .lt)
  | .greaterOrEqual, a, b => .bool (a.compare? b == some .gt || a.alike b)
  | .lessOrEqual, a, b => .bool (a.compare? b == some .lt || a.alike b)
  | .add, a, b => Arithmetic.add.apply a b
  | .sub, a, b => Arithmetic.sub.apply a b
  | .mul, a, b => Arithmetic.mul.apply a b
  | .div, a, b => Arithmetic.div.apply a b
  | .contains, a, b => .bool (Operation.contains a b)
  | .startsWith, a, b => .bool (Operation.testText (fun s p => p.isPrefixOf s) a b)
  | .endsWith, a, b => .bool (Operation.testText (fun s p => p.isSuffixOf s) a b)
  | .matches, a, b => .bool (Operation.matchesPattern a b)
  | .concat, a, b => .text (Operation.textOrEmpty a ++ Operation.textOrEmpty b)

/-- What it comes to whether a value is between two others, both included. -/
def Method.within (a low high : Value) : Value :=
  .bool ((Method.apply .greaterOrEqual a low).isTrue && (Method.apply .lessOrEqual a high).isTrue)

variable {t : Typed} {e : Expr} {d v : Value}

theorem valueOn_not (t : Typed) (d : Value) :
    t.not.node.valueOn d = (t.node.valueOn d).map fun v => .bool !v.isTrue :=
  Expr.valueOn_unary rfl .boolean

theorem valueOn_or (t other : Typed) (d : Value) : (t.or other).node.valueOn d =
    (do return .bool ((← t.node.valueOn d).isTrue || (← other.node.valueOn d).isTrue)) :=
  Expr.valueOn_binary rfl .boolean

theorem valueOn_and (t other : Typed) (d : Value) : (t.and other).node.valueOn d =
    (do return .bool ((← t.node.valueOn d).isTrue && (← other.node.valueOn d).isTrue)) :=
  Expr.valueOn_binary rfl .boolean

/-- An operator with an expression comes to its function of what the two come to. -/
theorem valueOn_withExpr (t : Typed) (e : Expr) (m : Method) (d : Value) :
    (t.withExpr e m).node.valueOn d =
      (do return m.apply (← t.node.valueOn d) (← e.valueOn d)) := by
  have hstrict {kind : Kind} {op : Value → Value → Value} (h : Operation.binary? kind = some op)
      (c : Capability) : (t.binary kind c e).node.valueOn d =
        (do return op (← t.node.valueOn d) (← e.valueOn d)) := Expr.valueOn_binary h c
  cases m with
  | notEq =>
    show (t.binary .equals .boolean e).not.node.valueOn d = _
    rw [valueOn_not, hstrict rfl]
    cases t.node.valueOn d <;> cases e.valueOn d <;> rfl
  | greaterOrEqual | lessOrEqual =>
    show ((t.binary _ _ e).or (t.binary _ _ e)).node.valueOn d = _
    rw [valueOn_or, hstrict rfl, hstrict rfl]
    cases t.node.valueOn d <;> cases e.valueOn d <;> rfl
  | _ => exact hstrict rfl _

/-- A value is compared with null by asking whether it is null. -/
theorem valueOn_isNull (t : Typed) (d : Value) : t.isNull.node.valueOn d =
    (do return Method.apply .eq (← t.node.valueOn d) (← (Expr.const .null).valueOn d)) := by
  show (Expr.unary .isNull .boolean t.node).valueOn d = _
  rw [Expr.valueOn_unary rfl]
  cases t.node.valueOn d with
  | error failure => rfl
  | ok a => exact congrArg (fun b => Except.ok (Value.bool b)) (Value.alike_null a).symm

theorem valueOn_eq (t : Typed) (v d : Value) :
    (t.eq v).node.valueOn d = (t.eqExpr (.const v)).node.valueOn d := by
  unfold eq
  split
  · next h =>
    rw [Value.eq_null_of_isNull h, valueOn_isNull]
    exact (valueOn_withExpr t (.const .null) .eq d).symm
  · rfl

/-- The form with a value comes to what the form with a constant comes to. -/
theorem valueOn_withValue (t : Typed) (v : Value) (m : Method) (d : Value) :
    (t.withValue v m).node.valueOn d = (t.withExpr (.const v) m).node.valueOn d := by
  cases m with
  | eq => exact valueOn_eq t v d
  | notEq =>
    have hnot : t.notEq v = (t.eq v).not := by
      unfold notEq eq
      split <;> rfl
    show (t.notEq v).node.valueOn d = (t.eqExpr (.const v)).not.node.valueOn d
    rw [hnot, valueOn_not, valueOn_not, valueOn_eq]
  | greaterOrEqual =>
    show ((t.greaterThan v).or (t.eq v)).node.valueOn d =
      ((t.greaterThan v).or (t.eqExpr (.const v))).node.valueOn d
    rw [valueOn_or, valueOn_or, valueOn_eq]
  | lessOrEqual =>
    show ((t.lessThan v).or (t.eq v)).node.valueOn d =
      ((t.lessThan v).or (t.eqExpr (.const v))).node.valueOn d
    rw [valueOn_or, valueOn_or, valueOn_eq]
  | _ => rfl

theorem valueOn_betweenExpr (t : Typed) (low high : Expr) (d : Value) :
    (t.betweenExpr low high).node.valueOn d =
      (do
        let a ← t.node.valueOn d
        let b ← low.valueOn d
        return Method.within a b (← high.valueOn d)) := by
  show ((t.withExpr low .greaterOrEqual).and (t.withExpr high .lessOrEqual)).node.valueOn d = _
  rw [valueOn_and, valueOn_withExpr, valueOn_withExpr]
  cases t.node.valueOn d <;> cases low.valueOn d <;> cases high.valueOn d <;> rfl

theorem valueOn_between (t : Typed) (low high d : Value) :
    (t.between low high).node.valueOn d =
      (t.betweenExpr (.const low) (.const high)).node.valueOn d := by
  show ((t.withValue low .greaterOrEqual).and (t.withValue high .lessOrEqual)).node.valueOn d =
    ((t.withExpr (.const low) .greaterOrEqual).and
      (t.withExpr (.const high) .lessOrEqual)).node.valueOn d
  rw [valueOn_and, valueOn_and, valueOn_withValue, valueOn_withValue]

/-! ## Agreement -/

/-- Both expressions compile, and their functions come to the same on a document. -/
def Agree (d : Value) (x y : Typed) : Prop :=
  ∃ f g, x.node.compile = .ok f ∧ y.node.compile = .ok g ∧ f d = g d

theorem agree_of_valueOn {x y : Typed} (hx : x.node.valueOn d = .ok v)
    (hy : y.node.valueOn d = .ok v) : Agree d x y := by
  obtain ⟨f, hf, rfl⟩ := Expr.valueOn_eq_ok.1 hx
  obtain ⟨g, hg, hv⟩ := Expr.valueOn_eq_ok.1 hy
  exact ⟨f, g, hf, hg, hv.symm⟩

/-- Where the receiver of an operator compiles, so do both forms of the operator, and they come
to the same on every document on which the expression comes to the value. Where the receiver
does not compile, neither form does, for the same reason. -/
theorem forms_agree (t : Typed) (d : Value) :
    (∀ receiver, t.node.compile = .ok receiver →
      (∀ m (e : Expr) g, e.compile = .ok g → Agree d (t.withValue (g d) m) (t.withExpr e m)) ∧
      ∀ (low high : Expr) g h, low.compile = .ok g → high.compile = .ok h →
        Agree d (t.between (g d) (h d)) (t.betweenExpr low high)) ∧
    ∀ failure, t.node.compile = .error failure →
      (∀ m v e, (t.withValue v m).node.compile = .error failure ∧
        (t.withExpr e m).node.compile = .error failure) ∧
      ∀ low high e e', (t.between low high).node.compile = .error failure ∧
        (t.betweenExpr e e').node.compile = .error failure := by
  refine ⟨fun receiver compiled => ⟨fun m e g argument => ?_, fun low high g h hlow hhigh => ?_⟩,
    fun failure refused => ⟨fun m v e => ?_, fun low high e e' => ?_⟩⟩
  · have hexpr := valueOn_withExpr t e m d
    rw [Expr.valueOn_of_compile compiled, Expr.valueOn_of_compile argument] at hexpr
    have hvalue := valueOn_withExpr t (.const (g d)) m d
    rw [Expr.valueOn_of_compile compiled, ← valueOn_withValue] at hvalue
    exact agree_of_valueOn hvalue hexpr
  · have hexpr := valueOn_betweenExpr t low high d
    rw [Expr.valueOn_of_compile compiled, Expr.valueOn_of_compile hlow,
      Expr.valueOn_of_compile hhigh] at hexpr
    have hvalue := valueOn_betweenExpr t (.const (g d)) (.const (h d)) d
    rw [Expr.valueOn_of_compile compiled, ← valueOn_between] at hvalue
    exact agree_of_valueOn hvalue hexpr
  · have hreceiver := (Expr.valueOn_eq_error (d := d)).2 refused
    simp only [← Expr.valueOn_eq_error (d := d), valueOn_withValue, valueOn_withExpr, hreceiver]
    exact ⟨rfl, rfl⟩
  · have hreceiver := (Expr.valueOn_eq_error (d := d)).2 refused
    simp only [← Expr.valueOn_eq_error (d := d), valueOn_between, valueOn_betweenExpr, hreceiver]
    exact ⟨rfl, rfl⟩

end Typed

namespace Shop

/-- The price of the product. -/
def price : Typed := theProduct.property { name := "price", type := .int }

/-- The rating of the product. -/
def rating : Typed := theProduct.property { name := "rating", type := .float }

/-- A product without a price and without a rating. -/
def unpriced : Value := .object [("key", .text "a"), ("price", .null)]

/-- Where neither is there, the price is at least the rating, asked for by null or by the
property. -/
theorem unpriced_forms_agree :
    Typed.Agree unpriced (price.withValue .null .greaterOrEqual)
        (price.withExpr rating.node .greaterOrEqual) ∧
      (price.withValue .null .greaterOrEqual).node.valueOn unpriced = .ok (.bool true) ∧
      Typed.Agree unpriced (price.between .null (.int 3))
        (price.betweenExpr rating.node (.const (.int 3))) := by
  obtain ⟨hforms, -⟩ := Typed.forms_agree price unpriced
  obtain ⟨hmethod, hbetween⟩ := hforms _ rfl
  exact ⟨hmethod .greaterOrEqual rating.node _ rfl, rfl,
    hbetween rating.node (.const (.int 3)) _ _ rfl rfl⟩

end Shop

end LiveRecords

import LiveRecords.Expr.Compile
import LiveRecords.Expr.Typed
import LiveRecords.Sample.Shop

/-
  Which expressions compile, and what is reported of those that do not.

  The operators of an expression are its unary and binary nodes, listed in the order in
  which compilation judges them (`Expr.operators`): a unary node comes before its operand,
  a binary node after both of its operands. An operator can be evaluated if its kind is
  one of its shape and no aggregation (`Operator.isExecutable`). An expression compiles
  just if all of its operators can be evaluated; else the first that cannot is reported.

  Expressions made with the methods of typed expressions alone (`Typed.Made`) have only
  operators with kinds of their shape, so they compile unless they contain an aggregation.
-/

namespace LiveRecords

/-! ## Operators -/

/-- A unary or a binary node, by the kind that it carries. -/
inductive Operator where
  | unary (kind : Kind)
  | binary (kind : Kind)
  deriving DecidableEq, Repr

namespace Operator

/-- The kind that the node carries. -/
def kind : Operator → Kind
  | .unary kind => kind
  | .binary kind => kind

/-- The shape of the node. -/
def shape : Operator → Shape
  | .unary _ => .unary
  | .binary _ => .binary

/-- Whether the kind is one of the shape of the node. -/
def isProper (o : Operator) : Bool := o.kind.shape == o.shape

/-- Whether the node is a unary aggregation. -/
def isAggregation : Operator → Bool
  | .unary kind => kind.isAggregate
  | .binary _ => false

/-- Whether the node can be evaluated. -/
def isExecutable (o : Operator) : Bool := o.isProper && !o.isAggregation

/-- How a node that cannot be evaluated is reported. -/
def refusal (o : Operator) : Failure := .unsupported o.kind o.isAggregation

/-- Of the kinds with a shape of their own only unary ones are aggregations. -/
theorem isAggregation_of_isProper {o : Operator} (h : o.isProper = true) :
    o.isAggregation = o.kind.isAggregate := by
  cases o with
  | unary kind => rfl
  | binary kind => cases kind <;> first | rfl | cases h

end Operator

namespace Operation

theorem isSome_unary? (kind : Kind) :
    (unary? kind).isSome = (Operator.unary kind).isExecutable := by
  cases kind <;> rfl

theorem isSome_binary? (kind : Kind) :
    (binary? kind).isSome = (Operator.binary kind).isExecutable := by
  cases kind <;> rfl

/-- Reading a constant pattern before makes no difference. -/
theorem matchesRead_eq (source : String) (subject : Value) :
    matchesRead (Pattern.readFull? source) subject = matchesPattern subject (.text source) := by
  have hsource : (Value.text source).text? = some source := rfl
  unfold matchesRead matchesPattern
  rw [hsource]
  cases subject.text? with
  | none => cases Pattern.readFull? source <;> rfl
  | some s =>
    show _ = (Pattern.readFull? source).any fun p : Pattern => p.occursIn s
    cases Pattern.readFull? source <;> rfl

end Operation

namespace Expr

theorem eq_of_constantText? {e : Expr} {source : String} (h : e.constantText? = some source) :
    ∃ c, e = .constant c (.text source) := by
  unfold constantText? at h
  split at h
  · next c s =>
    cases h
    exact ⟨c, rfl⟩
  · cases h

/-- A binary node comes to the function of its kind, also where it reads its pattern before. -/
theorem compile_binary (kind : Kind) (c : Capability) (left right : Expr) :
    (binary kind c left right).compile = (do
      let f ← left.compile
      let g ← right.compile
      (Operation.binary? kind).elim (.error (.unsupported kind false))
        fun op => .ok fun v => op (f v) (g v)) := by
  rw [compile]
  by_cases hkind : kind = .matches
  · subst hkind
    simp only [↓reduceIte]
    cases hsource : right.constantText? with
    | none => rfl
    | some source =>
      obtain ⟨c', rfl⟩ := eq_of_constantText? hsource
      cases left.compile with
      | error failure => rfl
      | ok f =>
        exact congrArg Except.ok (funext fun v =>
          congrArg Value.bool (Operation.matchesRead_eq source (f v)))
  · simp only [if_neg hkind]
    cases Operation.binary? kind with
    | none => rfl
    | some op => rfl

/-- The unary and binary nodes of an expression in the order in which compilation judges
them. -/
def operators : Expr → List Operator
  | .argument _ => []
  | .constant _ _ => []
  | .property target _ => target.operators
  | .composition source inner => source.operators ++ inner.operators
  | .unary kind _ operand => .unary kind :: operand.operators
  | .binary kind _ left right => left.operators ++ right.operators ++ [.binary kind]

/-- The first node that cannot be evaluated. -/
def refused? (e : Expr) : Option Operator := e.operators.find? (!·.isExecutable)

/-! ## Compilation -/

/-- What compilation comes to if some node, or none, is the first that cannot be
evaluated. -/
def Verdict (compiled : Outcome (Value → Value)) : Option Operator → Prop
  | none => ∃ f, compiled = .ok f
  | some o => compiled = .error o.refusal

namespace Verdict

variable {x y : Outcome (Value → Value)} {o? p? q? : Option Operator}

theorem map (h : Verdict x o?) (change : (Value → Value) → Value → Value) :
    Verdict (do return change (← x)) o? := by
  cases o? with
  | none =>
    obtain ⟨f, rfl⟩ := h
    exact ⟨change f, rfl⟩
  | some o =>
    have hx : x = .error o.refusal := h
    rw [hx]
    rfl

/-- The second of two expressions is only looked at if the first compiles, and the node
above them only if both do. -/
theorem bind {last : (Value → Value) → (Value → Value) → Outcome (Value → Value)}
    (hx : Verdict x o?) (hy : Verdict y p?) (hlast : ∀ f g, Verdict (last f g) q?) :
    Verdict (do last (← x) (← y)) ((o?.or p?).or q?) := by
  cases o? with
  | some o =>
    have hx : x = .error o.refusal := hx
    rw [hx]
    rfl
  | none =>
    obtain ⟨f, rfl⟩ := hx
    cases p? with
    | some p =>
      have hy : y = .error p.refusal := hy
      rw [hy]
      rfl
    | none =>
      obtain ⟨g, rfl⟩ := hy
      exact hlast f g

end Verdict

/-- Compilation comes to a function, or to the refusal of the first node that cannot be
evaluated. -/
theorem compile_verdict (e : Expr) : Verdict e.compile e.refused? := by
  induction e with
  | argument type => exact ⟨_, rfl⟩
  | constant c value => exact ⟨_, rfl⟩
  | property target p ih => exact ih.map fun f v => p.get (f v)
  | composition source inner ihs ihi =>
    have hfirst : (composition source inner).refused? =
        (source.refused?.or inner.refused?).or none := by
      simp [refused?, operators]
    rw [hfirst]
    exact ihs.bind ihi fun f g => ⟨fun v => g (f v), rfl⟩
  | unary kind c operand ih =>
    have hsome := Operation.isSome_unary? kind
    have hfirst : (unary kind c operand).refused? =
        if (Operator.unary kind).isExecutable then operand.refused? else some (.unary kind) := by
      cases h : (Operator.unary kind).isExecutable <;> simp [refused?, operators, h]
    rw [hfirst, ← hsome]
    unfold compile
    -- an aggregation is refused as such, before its kind is looked up
    cases hagg : kind.isAggregate with
    | true =>
      rw [if_pos rfl, hsome]
      simp [Operator.isExecutable, Operator.isAggregation, hagg, Verdict, Operator.refusal,
        Operator.kind]
    | false =>
      rw [if_neg Bool.false_ne_true]
      cases Operation.unary? kind with
      | none => simp [Verdict, Operator.refusal, Operator.kind, Operator.isAggregation, hagg]
      | some op => exact ih.map fun f v => op (f v)
  | binary kind c left right ihl ihr =>
    have hsome := Operation.isSome_binary? kind
    have hfirst : (binary kind c left right).refused? =
        (left.refused?.or right.refused?).or
          (if (Operator.binary kind).isExecutable then none else some (.binary kind)) := by
      cases h : (Operator.binary kind).isExecutable <;> simp [refused?, operators, h]
    rw [hfirst, ← hsome, compile_binary]
    refine ihl.bind ihr fun f g => ?_
    cases Operation.binary? kind with
    | none => rfl
    | some op => exact ⟨fun v => op (f v) (g v), rfl⟩

/-- An expression compiles just if no node of it is refused. -/
theorem exists_compile_iff (e : Expr) :
    (∃ f, e.compile = .ok f) ↔ ∀ o ∈ e.operators, o.isExecutable = true := by
  have hnone : e.refused? = none ↔ ∀ o ∈ e.operators, o.isExecutable = true := by
    simp [refused?]
  have hverdict := compile_verdict e
  rw [← hnone]
  cases hrefused : e.refused? with
  | none =>
    rw [hrefused] at hverdict
    exact ⟨fun _ => rfl, fun _ => hverdict⟩
  | some o =>
    rw [hrefused] at hverdict
    have herror : e.compile = .error o.refusal := hverdict
    simp [herror]

/-- An expression that does not compile fails with the refusal of the first node that
cannot be evaluated. -/
theorem compile_eq_error_iff (e : Expr) (failure : Failure) :
    e.compile = .error failure ↔ ∃ o, e.refused? = some o ∧ failure = o.refusal := by
  have hverdict := compile_verdict e
  cases hrefused : e.refused? with
  | none =>
    rw [hrefused] at hverdict
    obtain ⟨f, hf⟩ := hverdict
    simp [hf]
  | some o =>
    rw [hrefused] at hverdict
    have herror : e.compile = .error o.refusal := hverdict
    simp [herror, eq_comm]

end Expr

/-! ## Expressions made with methods -/

namespace Typed

/-- A typed expression made with the methods of typed expressions, out of arguments and
constants. The right operands of arithmetic, tests of text and `concat` are expressions
here: a value is the expression `Expr.const` of it. -/
inductive Made : Typed → Prop where
  | argument (type : ValueType) (c : Capability) : Made ⟨.argument type, c⟩
  | constant (c : Capability) (v : Value) : Made (.constant c v)
  | property {t : Typed} (p : Property) (c : Capability) : Made t → Made ((t.property p).retype c)
  | compose {t inner : Typed} : Made t → Made inner → Made (t.compose inner)
  | and {t other : Typed} : Made t → Made other → Made (t.and other)
  | or {t other : Typed} : Made t → Made other → Made (t.or other)
  | not {t : Typed} : Made t → Made t.not
  | isNull {t : Typed} : Made t → Made t.isNull
  | isNotNull {t : Typed} : Made t → Made t.isNotNull
  | eq {t : Typed} (v : Value) : Made t → Made (t.eq v)
  | eqExpr {t other : Typed} : Made t → Made other → Made (t.eqExpr other.node)
  | notEq {t : Typed} (v : Value) : Made t → Made (t.notEq v)
  | notEqExpr {t other : Typed} : Made t → Made other → Made (t.notEqExpr other.node)
  | isIn {t : Typed} (vs : List Value) : Made t → Made (t.isIn vs)
  | isInExpr {t items : Typed} : Made t → Made items → Made (t.isInExpr items.node)
  | searchText {t : Typed} (pattern : String) : Made t → Made (t.searchText pattern)
  | asComparable {t : Typed} : Made t → Made t.asComparable
  | asString {t : Typed} : Made t → Made t.asString
  | asBoolean {t : Typed} : Made t → Made t.asBoolean
  | asNumeric {t : Typed} : Made t → Made t.asNumeric
  | greaterThan {t : Typed} (v : Value) : Made t → Made (t.greaterThan v)
  | greaterThanExpr {t other : Typed} : Made t → Made other → Made (t.greaterThanExpr other.node)
  | lessThan {t : Typed} (v : Value) : Made t → Made (t.lessThan v)
  | lessThanExpr {t other : Typed} : Made t → Made other → Made (t.lessThanExpr other.node)
  | greaterOrEqual {t : Typed} (v : Value) : Made t → Made (t.greaterOrEqual v)
  | greaterOrEqualExpr {t other : Typed} :
      Made t → Made other → Made (t.greaterOrEqualExpr other.node)
  | lessOrEqual {t : Typed} (v : Value) : Made t → Made (t.lessOrEqual v)
  | lessOrEqualExpr {t other : Typed} : Made t → Made other → Made (t.lessOrEqualExpr other.node)
  | between {t : Typed} (low high : Value) : Made t → Made (t.between low high)
  | betweenExpr {t low high : Typed} :
      Made t → Made low → Made high → Made (t.betweenExpr low.node high.node)
  | arithmetic {t right : Typed} {kind : Kind} (listed : kind ∈ [.add, .sub, .mul, .div]) :
      Made t → Made right → Made (t.arithmetic kind right.node)
  | negate {t : Typed} : Made t → Made t.negate
  | textTest {t pattern : Typed} {kind : Kind}
      (listed : kind ∈ [.contains, .startsWith, .endsWith, .matches]) :
      Made t → Made pattern → Made (t.textTest kind pattern.node)
  | concat {t suffix : Typed} : Made t → Made suffix → Made (t.concat suffix.node)
  | length {t : Typed} : Made t → Made t.length
  | toLower {t : Typed} : Made t → Made t.toLower
  | toUpper {t : Typed} : Made t → Made t.toUpper
  | trim {t : Typed} : Made t → Made t.trim
  | isEmpty {t : Typed} : Made t → Made t.isEmpty
  | count {t : Typed} : Made t → Made t.count
  | sum {t : Typed} : Made t → Made t.sum
  | average {t : Typed} : Made t → Made t.average
  | min {t : Typed} : Made t → Made t.min
  | max {t : Typed} : Made t → Made t.max

/-- All nodes have kinds of their shape. -/
def Proper (t : Typed) : Prop := ∀ o ∈ t.node.operators, o.isProper = true

namespace Proper

variable {t right : Typed} {kind : Kind}

theorem unary (h : t.Proper) (hkind : kind.shape = .unary) (c : Capability) :
    (t.unary kind c).Proper := by
  intro o ho
  rcases List.mem_cons.1 ho with rfl | ho
  · simp [Operator.isProper, Operator.kind, Operator.shape, hkind]
  · exact h o ho

theorem binary (h : t.Proper) (hright : right.Proper) (hkind : kind.shape = .binary)
    (c : Capability) : (t.binary kind c right.node).Proper := by
  intro o ho
  rcases List.mem_append.1 ho with ho | ho
  · rcases List.mem_append.1 ho with ho | ho
    · exact h o ho
    · exact hright o ho
  · obtain rfl := List.mem_singleton.1 ho
    simp [Operator.isProper, Operator.kind, Operator.shape, hkind]

theorem const (v : Value) : (ofExpr (.const v)).Proper := by
  simp [Proper, ofExpr, Expr.const, Expr.operators]

/-- A binary operation with a value. -/
theorem value (h : t.Proper) (v : Value) (hkind : kind.shape = .binary) (c : Capability) :
    (t.binary kind c (.const v)).Proper := h.binary (const v) hkind c

/-- A value is compared with null by another operation than with other values. -/
theorem eq (h : t.Proper) (v : Value) : (t.eq v).Proper := by
  unfold Typed.eq
  split
  · exact h.unary rfl _
  · exact h.value v rfl _

theorem notEq (h : t.Proper) (v : Value) : (t.notEq v).Proper := by
  unfold Typed.notEq
  split
  · exact (h.unary rfl _).unary rfl _
  · exact (h.value v rfl _).unary rfl _

/-- The inclusive comparison that belongs to a strict one. -/
theorem orEq (h : t.Proper) (v : Value) (hkind : kind.shape = .binary) :
    ((t.binary kind .boolean (.const v)).or (t.eq v)).Proper :=
  (h.value v hkind _).binary (h.eq v) rfl _

theorem orEqExpr (h : t.Proper) (hright : right.Proper) (hkind : kind.shape = .binary) :
    ((t.binary kind .boolean right.node).or (t.eqExpr right.node)).Proper :=
  (h.binary hright hkind _).binary (h.binary hright rfl _) rfl _

/-- A value is used at another capability as it is, or is turned into one that has it. -/
theorem cast (h : t.Proper) (b : Bool) (hkind : kind.shape = .unary) (c c' : Capability) :
    (if b then t.retype c else t.unary kind c').Proper := by
  cases b with
  | true => exact h
  | false => exact h.unary hkind c'

end Proper

/-- Every method makes nodes with kinds of their shape only. -/
theorem Made.proper {t : Typed} (h : t.Made) : t.Proper := by
  induction h with
  | argument type c => simp [Proper, Expr.operators]
  | constant c v => simp [Proper, Typed.constant, Expr.operators]
  | property p c _ ih => exact ih
  | compose _ _ ih ihi =>
    intro o ho
    rcases List.mem_append.1 ho with ho | ho
    · exact ih o ho
    · exact ihi o ho
  | not _ ih | isNull _ ih | negate _ ih | length _ ih | toLower _ ih | toUpper _ ih | trim _ ih
  | isEmpty _ ih | count _ ih | sum _ ih | average _ ih | min _ ih | max _ ih =>
    exact ih.unary rfl _
  | isNotNull _ ih => exact (ih.unary rfl _).unary rfl _
  | asComparable _ ih | asString _ ih | asBoolean _ ih | asNumeric _ ih => exact ih.cast _ rfl _ _
  | and _ _ ih iho | or _ _ ih iho | eqExpr _ _ ih iho | isInExpr _ _ ih iho
  | greaterThanExpr _ _ ih iho | lessThanExpr _ _ ih iho | concat _ _ ih iho =>
    exact ih.binary iho rfl _
  | notEqExpr _ _ ih iho => exact (ih.binary iho rfl _).unary rfl _
  | isIn vs _ ih => exact ih.value _ rfl _
  | searchText pattern _ ih => exact ih.value _ rfl _
  | greaterThan v _ ih | lessThan v _ ih => exact ih.value v rfl _
  | eq v _ ih => exact ih.eq v
  | notEq v _ ih => exact ih.notEq v
  | greaterOrEqual v _ ih | lessOrEqual v _ ih => exact ih.orEq v rfl
  | greaterOrEqualExpr _ _ ih iho | lessOrEqualExpr _ _ ih iho => exact ih.orEqExpr iho rfl
  | between low high _ ih => exact (ih.orEq low rfl).binary (ih.orEq high rfl) rfl _
  | betweenExpr _ _ _ ih ihl ihh => exact (ih.orEqExpr ihl rfl).binary (ih.orEqExpr ihh rfl) rfl _
  | arithmetic listed _ _ ih iho | textTest listed _ _ ih iho =>
    refine ih.binary iho ?_ _
    simp only [List.mem_cons, List.not_mem_nil, or_false] at listed
    rcases listed with rfl | rfl | rfl | rfl <;> rfl

end Typed

/-! ## Which expressions compile -/

/-- An expression compiles just if every unary node carries a unary kind that is no
aggregation and every binary node a binary kind. Else the first node that does not is
reported, in the order in which nodes are judged, by its kind, and as an aggregation just if
it is a unary one. In particular an expression made with the methods of typed expressions
compiles just if it contains no aggregation. -/
theorem Expr.compiles_exactly :
    (∀ e : Expr,
      ((∃ f, e.compile = .ok f) ↔ ∀ o ∈ e.operators, o.isExecutable = true) ∧
      ∀ failure, e.compile = .error failure ↔
        ∃ o, e.operators.find? (!·.isExecutable) = some o ∧
          failure = .unsupported o.kind o.isAggregation) ∧
    ∀ t : Typed, t.Made →
      ((∃ f, t.node.compile = .ok f) ↔ ∀ o ∈ t.node.operators, o.kind.isAggregate = false) := by
  refine ⟨fun e => ⟨exists_compile_iff e, compile_eq_error_iff e⟩, fun t made => ?_⟩
  rw [exists_compile_iff]
  refine forall₂_congr fun o ho => ?_
  have hproper : o.isProper = true := made.proper o ho
  have hagg : o.isAggregation = o.kind.isAggregate := o.isAggregation_of_isProper hproper
  simp [Operator.isExecutable, hproper, hagg]

namespace Shop

/-- The product as a typed expression. -/
def theProduct : Typed := .ofExpr (.argument product.asType)

/-- Its tags. -/
def tags : Typed := theProduct.property { name := "tags", type := .list .string }

/-- It costs from 10 to 20 and has more than two tags. -/
def bargain : Typed :=
  ((theProduct.property { name := "price", type := .int }).between (.int 10) (.int 20)).and
    (tags.count.greaterThan (.int 2))

/-- Its tags are summed up, which is no test of one product, under a node of a kind of
another shape. -/
def muddle : Expr := .binary .not .boolean tags.sum.node (.argument .any)

theorem bargain_compiles :
    (∃ f, bargain.node.compile = .ok f) ∧ muddle.compile = .error (.unsupported .sum true) := by
  have product : theProduct.Made := .argument _ _
  have tagged : tags.Made := .property _ _ product
  have made : bargain.Made :=
    .and (.between _ _ (.property _ _ product)) (.greaterThan _ (.count tagged))
  refine ⟨(Expr.compiles_exactly.2 bargain made).2 ?_, ?_⟩
  · decide
  · exact ((Expr.compiles_exactly.1 muddle).2 _).2 ⟨.unary .sum, rfl, rfl⟩

end Shop

end LiveRecords

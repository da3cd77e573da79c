import LiveRecords.Expr.Typed
import LiveRecords.Query.Basic
import LiveRecords.Sample.Shop

/-
  Which arguments the validation of a query looks at.

  All arguments of an expression, those inside compositions aside, are evaluated on
  the queried entity (`Expr.arguments`). But of each expression validation only looks at
  the first one (`argumentType?_eq_head?`): a valid query stays valid with a further
  filter on anything that compiles (`Query.validate_filter`), also one on a foreign type
  (`Shop.foreign_filter_valid`). In expressions whose arguments are all of one type a
  valid query has no foreign arguments (`Query.arguments_of_valid`).
-/

namespace LiveRecords

/-! ## Arguments -/

namespace Expr

/-- The types of the arguments that are evaluated on what the expression itself is
evaluated on, from left to right. -/
def arguments : Expr → List ValueType
  | .argument type => [type]
  | .constant _ _ => []
  | .property target _ => target.arguments
  | .composition source _ => source.arguments
  | .unary _ _ operand => operand.arguments
  | .binary _ _ left right => left.arguments ++ right.arguments

/-- The argument that is looked at is the first one. -/
theorem argumentType?_eq_head? (e : Expr) : e.argumentType? = e.arguments.head? := by
  induction e with
  | argument type => rfl
  | constant c value => rfl
  | property target p ih => exact ih
  | composition source inner ih => exact ih
  | unary kind c operand ih => exact ih
  | binary kind c left right ihl ihr =>
    show left.argumentType?.or right.argumentType? = (left.arguments ++ right.arguments).head?
    rw [ihl, ihr, List.head?_append]

/-- Arguments that are entities are of the type with the given name. -/
def IsAbout (e : Expr) (name : String) : Prop :=
  ∀ ref, .entity ref ∈ e.arguments → ref.name = name

/-- The argument that is looked at is no entity of a type with another name. -/
def StartsAbout (e : Expr) (name : String) : Prop :=
  ∀ ref, e.argumentType? = some (.entity ref) → ref.name = name

/-- All arguments are of the same type. -/
def Uniform (e : Expr) : Prop := ∀ a ∈ e.arguments, ∀ b ∈ e.arguments, a.same b = true

theorem StartsAbout.isAbout {e : Expr} {name : String} (h : e.StartsAbout name)
    (uniform : e.Uniform) : e.IsAbout name := by
  intro ref hin
  cases hfirst : e.arguments.head? with
  | none =>
    rw [List.head?_eq_none_iff.1 hfirst] at hin
    cases hin
  | some type =>
    -- the first argument is the same type as this one
    have hsame := uniform type (List.mem_of_mem_head? hfirst) _ hin
    cases type with
    | entity first =>
      have hname : first.name = ref.name := beq_iff_eq.1 hsame
      rw [← hname]
      exact h first ((argumentType?_eq_head? e).trans hfirst)
    | _ => cases hsame

theorem StartsAbout.binary {kind : Kind} {c : Capability} {left right : Expr} {name : String}
    (hl : left.StartsAbout name) (hr : right.StartsAbout name) :
    (binary kind c left right).StartsAbout name := by
  intro ref h
  rcases Option.or_eq_some_iff.1 h with h | ⟨-, h⟩
  · exact hl ref h
  · exact hr ref h

end Expr

/-! ## Checks -/

namespace Outcome

/-- One check after another passes just if both do. -/
theorem then_eq_ok {x y : Outcome Unit} :
    (x >>= fun _ => y) = .ok () ↔ x = .ok () ∧ y = .ok () := by
  cases x with
  | ok u => exact ⟨fun h => ⟨rfl, h⟩, fun h => h.2⟩
  | error err => exact ⟨fun h => (nomatch h), fun h => (nomatch h.1)⟩

theorem option_forM_eq_ok {α : Type} {check : α → Outcome Unit} {o : Option α} :
    o.forM check = .ok () ↔ ∀ a ∈ o, check a = .ok () := by
  cases o with
  | none => exact ⟨fun _ => nofun, fun _ => rfl⟩
  | some a => exact ⟨fun h b hb => Option.some.inj hb ▸ h, fun h => h a rfl⟩

theorem list_forM_eq_ok {α : Type} {check : α → Outcome Unit} {items : List α} :
    items.forM check = .ok () ↔ ∀ a ∈ items, check a = .ok () := by
  induction items with
  | nil => exact ⟨fun _ => nofun, fun _ => rfl⟩
  | cons a rest ih =>
    rw [List.forall_mem_cons, ← ih]
    exact then_eq_ok

theorem discard_eq_ok {α : Type} {x : Outcome α} : discard x = .ok () ↔ ∃ a, x = .ok a := by
  cases x with
  | ok a => exact ⟨fun _ => ⟨a, rfl⟩, fun _ => rfl⟩
  | error e => exact ⟨fun h => (nomatch h), fun ⟨_, h⟩ => (nomatch h)⟩

end Outcome

/-! ## Validation -/

namespace Query

variable {q : Query} {role : String} {e : Expr}

/-- The expressions that are evaluated on the queried entity. -/
def expressions (q : Query) : List Expr :=
  q.predicate.toList ++ q.mapping.toList ++ q.sorting.map Sorting.expr

theorem checkArgument_eq_ok : q.checkArgument role e = .ok () ↔ e.StartsAbout q.entity.name := by
  unfold checkArgument Expr.StartsAbout
  cases e.argumentType? with
  | none => simp
  | some type =>
    cases type with
    | entity ref =>
      dsimp only
      split
      · next hname => simpa using hname
      · next hname => simpa using hname
    | _ => simp

theorem checkPredicate_eq_ok : checkPredicate e = .ok () ↔ e.capability = .boolean := by
  unfold checkPredicate
  split <;> simp [*]

theorem checkPath_eq_ok {result : ValueType} {p : PropertyPath} :
    checkPath result p = .ok () ↔ p.rootType.same result = true := by
  unfold checkPath
  split <;> simp [*]

/-- What is checked of a query, apart from whether it compiles. -/
structure Checked (q : Query) : Prop where
  arguments : ∀ e ∈ q.expressions, e.StartsAbout q.entity.name
  boolean : ∀ e ∈ q.predicate, e.capability = .boolean
  rooted : ∀ p ∈ q.properties, p.rootType.same q.objectType = true

theorem arguments_iff : (∀ e ∈ q.expressions, e.StartsAbout q.entity.name) ↔
    (∀ e ∈ q.predicate, e.StartsAbout q.entity.name) ∧
      (∀ e ∈ q.mapping, e.StartsAbout q.entity.name) ∧
      ∀ s ∈ q.sorting, s.expr.StartsAbout q.entity.name := by
  simp only [expressions, List.mem_append, or_imp, forall_and, and_assoc, Option.mem_toList,
    Option.mem_def, List.forall_mem_map]

/-- A query that passes all checks is valid if it compiles, and else fails as that does. -/
theorem Checked.validate_eq (h : q.Checked) : q.validate = discard q.compile := by
  obtain ⟨hpredicate, hmapping, hsorting⟩ := arguments_iff.1 h.arguments
  have predicate : q.predicate.forM (q.checkArgument "predicate") = .ok () :=
    Outcome.option_forM_eq_ok.2 fun e he => checkArgument_eq_ok.2 (hpredicate e he)
  have mapping : q.mapping.forM (q.checkArgument "mapping") = .ok () :=
    Outcome.option_forM_eq_ok.2 fun e he => checkArgument_eq_ok.2 (hmapping e he)
  have sorting : (q.sorting.forM fun s => q.checkArgument "sort key" s.expr) = .ok () :=
    Outcome.list_forM_eq_ok.2 fun s hs => checkArgument_eq_ok.2 (hsorting s hs)
  have boolean : q.predicate.forM checkPredicate = .ok () :=
    Outcome.option_forM_eq_ok.2 fun e he => checkPredicate_eq_ok.2 (h.boolean e he)
  have rooted : q.properties.forM (checkPath q.objectType) = .ok () :=
    Outcome.list_forM_eq_ok.2 fun p hp => checkPath_eq_ok.2 (h.rooted p hp)
  unfold validate
  rw [predicate, mapping, sorting, boolean, rooted]
  rfl

/-- A query is valid just if it passes all checks and compiles. -/
theorem validate_eq_ok : q.validate = .ok () ↔ q.Checked ∧ ∃ run, q.compile = .ok run := by
  constructor
  · intro valid
    unfold validate at valid
    simp only [Outcome.then_eq_ok, Outcome.option_forM_eq_ok, Outcome.list_forM_eq_ok,
      Outcome.discard_eq_ok, checkArgument_eq_ok, checkPredicate_eq_ok, checkPath_eq_ok] at valid
    obtain ⟨hpredicate, hmapping, hsorting, hboolean, hrooted, hcompiles⟩ := valid
    exact ⟨⟨arguments_iff.2 ⟨hpredicate, hmapping, hsorting⟩, hboolean, hrooted⟩, hcompiles⟩
  · rintro ⟨checked, hcompiles⟩
    rw [checked.validate_eq]
    exact Outcome.discard_eq_ok.2 hcompiles

/-- In a valid query the first argument of every expression, if it is an entity, is of the
queried type, and so are all arguments of an expression whose arguments are all of one
type. -/
theorem arguments_of_valid (valid : q.validate = .ok ()) :
    ∀ e ∈ q.expressions, e.StartsAbout q.entity.name ∧ (e.Uniform → e.IsAbout q.entity.name) :=
  fun e he =>
    have hstarts := (validate_eq_ok.1 valid).1.arguments e he
    ⟨hstarts, hstarts.isAbout⟩

/-- A filter compiles beside the predicate that is there. -/
theorem exists_compile_filter {run : Compiled} {f : Value → Value} (compiled : q.compile = .ok run)
    (he : e.compile = .ok f) : ∃ narrowed, (q.filter e).compile = .ok narrowed := by
  unfold compile at compiled
  obtain ⟨predicate, hpredicate, compiled⟩ := Outcome.bind_ok compiled
  obtain ⟨mapping, hmapping, compiled⟩ := Outcome.bind_ok compiled
  obtain ⟨keys, hkeys, -⟩ := Outcome.bind_ok compiled
  have hboth : ∃ both, (q.filter e).predicate.mapM Expr.compile = .ok both := by
    unfold filter
    cases hq : q.predicate with
    | none =>
      refine ⟨some f, ?_⟩
      show some <$> e.compile = _
      rw [he]
      rfl
    | some p =>
      rw [hq] at hpredicate
      obtain ⟨g, hg, -⟩ := Outcome.bind_ok hpredicate
      refine ⟨some fun v => .bool ((g v).isTrue && (f v).isTrue), ?_⟩
      show some <$> (Expr.binary .and .boolean p e).compile = _
      rw [Expr.compile, hg, he]
      rfl
  obtain ⟨both, hboth⟩ := hboth
  have hmapping' : (q.filter e).mapping.mapM Expr.compile = .ok mapping := by
    unfold filter
    split <;> exact hmapping
  have hkeys' : ((q.filter e).sorting.mapM fun s => SortKey.compile s.expr s.ascending) =
      .ok keys := by
    unfold filter
    split <;> exact hkeys
  unfold compile
  rw [hboth, hmapping', hkeys']
  exact ⟨_, rfl⟩

/-- What the arguments of a further filter are does not matter. -/
theorem validate_filter {p : Expr} {f : Value → Value} (valid : q.validate = .ok ())
    (hp : q.predicate = some p) (hargs : p.arguments ≠ []) (he : e.compile = .ok f) :
    (q.filter e).validate = .ok () := by
  obtain ⟨checked, run, compiled⟩ := validate_eq_ok.1 valid
  obtain ⟨hpredicate, hmapping, hsorting⟩ := arguments_iff.1 checked.arguments
  refine validate_eq_ok.2 ⟨?_, exists_compile_filter compiled he⟩
  have hstarts : (Expr.binary .and .boolean p e).StartsAbout q.entity.name := by
    intro ref hfirst
    refine hpredicate p hp ref ?_
    -- the first argument of both is that of the old predicate
    obtain ⟨type, rest, heq⟩ := List.exists_cons_of_ne_nil hargs
    rw [Expr.argumentType?_eq_head?] at hfirst ⊢
    change (p.arguments ++ e.arguments).head? = _ at hfirst
    rw [heq] at hfirst ⊢
    exact hfirst
  have hfilter : q.filter e = { q with predicate := some (.binary .and .boolean p e) } := by
    unfold filter
    rw [hp]
  rw [hfilter]
  refine ⟨arguments_iff.2 ⟨fun e' he' => ?_, hmapping, hsorting⟩, fun e' he' => ?_, checked.rooted⟩
  · cases he'
    exact hstarts
  · cases he'
    rfl

end Query

namespace Shop

/-- The name of an entity of a type is the given one. -/
def isNamed (type : EntityType) (name : String) : Expr :=
  ((Typed.ofExpr (.argument type.asType)).property { name := "name", type := .string }).eq
    (.text name) |>.node

/-- The products with one of two names. -/
def namesakes : Query :=
  ({ entity := product } : Query).filter
    (.binary .or .boolean (isNamed product "a") (isNamed product ""))

theorem namesakes_about : namesakes.validate = .ok () ∧
    ∀ e ∈ namesakes.expressions, e.IsAbout "Product" := by
  have valid : namesakes.validate = .ok () := rfl
  refine ⟨valid, fun e he => (Query.arguments_of_valid valid e he).2 ?_⟩
  obtain rfl := List.mem_singleton.1 he
  unfold Expr.Uniform
  decide

/-- A second filter is not looked at: here it is about vendors. -/
theorem foreign_filter_valid :
    (namesakes.filter (isNamed vendor "a")).validate = .ok () ∧
      ∃ e ∈ (namesakes.filter (isNamed vendor "a")).expressions, ¬e.IsAbout "Product" := by
  refine ⟨rfl, _, List.mem_singleton_self _, fun h => ?_⟩
  have hname := h vendorRef (by decide)
  exact absurd hname (by decide)

end Shop

end LiveRecords

import Mathlib.Data.Finset.Card
import Mathlib.Data.List.Pairwise
import LiveRecords.Expr.Basic
import LiveRecords.Proofs.Document.Sameness
import LiveRecords.Proofs.Entity.Graph

/-
  Hashing of expressions.

  A hash set finds an expression among its members by a print and by comparing trees, so it
  relies on equal trees having equal prints. They do, with one exception: a constant counts
  in the print by its text, and the two zeros of floating numbers are equal but have
  different texts. So the prints of equal trees are the same just if their zeros have the
  same signs, one after another (`samePrint_iff`).

  A hash set of expressions therefore has at least as many members as there are classes of
  equal trees, and just as many if no two equal ones differ in the sign of a zero
  (`hashed_by_class`).
-/

namespace LiveRecords.Expr

/-! ## Equal trees -/

/-- Two trees are equal node by node. -/
inductive Equal : Expr → Expr → Prop where
  | argument {a b : ValueType} (types : a.same b = true) : Equal (.argument a) (.argument b)
  | constant {c : Capability} {a b : Value} (values : a.same b = true) :
      Equal (.constant c a) (.constant c b)
  | property {s t : Expr} {p q : Property} (targets : Equal s t) (properties : p.same q = true) :
      Equal (.property s p) (.property t q)
  | composition {a b d e : Expr} (sources : Equal a d) (inners : Equal b e) :
      Equal (.composition a b) (.composition d e)
  | unary {k : Kind} {c : Capability} {a b : Expr} (operands : Equal a b) :
      Equal (.unary k c a) (.unary k c b)
  | binary {k : Kind} {c : Capability} {a b d e : Expr} (lefts : Equal a d) (rights : Equal b e) :
      Equal (.binary k c a b) (.binary k c d e)

variable {e f g : Expr}

theorem equal_of_same (h : e.same f = true) : Equal e f := by
  induction e generalizing f with
  | argument a =>
    cases f <;> simp only [same, reduceCtorEq] at h
    exact .argument h
  | constant c a =>
    cases f <;> simp only [same, Bool.and_eq_true, beq_iff_eq, reduceCtorEq] at h
    obtain ⟨rfl, hvalues⟩ := h
    exact .constant hvalues
  | property s p ih =>
    cases f <;> simp only [same, Bool.and_eq_true, reduceCtorEq] at h
    exact .property (ih h.1) h.2
  | composition a b iha ihb =>
    cases f <;> simp only [same, Bool.and_eq_true, reduceCtorEq] at h
    exact .composition (iha h.1) (ihb h.2)
  | unary k c a ih =>
    cases f <;> simp only [same, Bool.and_eq_true, beq_iff_eq, reduceCtorEq] at h
    obtain ⟨⟨rfl, rfl⟩, hoperands⟩ := h
    exact .unary (ih hoperands)
  | binary k c a b iha ihb =>
    cases f <;> simp only [same, Bool.and_eq_true, beq_iff_eq, reduceCtorEq] at h
    obtain ⟨⟨⟨rfl, rfl⟩, hlefts⟩, hrights⟩ := h
    exact .binary (iha hlefts) (ihb hrights)

theorem Equal.same (h : Equal e f) : e.same f = true := by
  induction h <;> simp_all [Expr.same]

theorem Equal.refl (e : Expr) : Equal e e := by
  induction e with
  | argument a => exact .argument (ValueType.same_iff.2 rfl)
  | constant c a => exact .constant a.same_refl
  | property s p ih => exact .property ih (Property.same_iff.2 rfl)
  | composition a b iha ihb => exact .composition iha ihb
  | unary k c a ih => exact .unary ih
  | binary k c a b iha ihb => exact .binary iha ihb

theorem Equal.symm (h : Equal e f) : Equal f e := by
  induction h with
  | argument types => exact .argument (ValueType.same_iff.2 (ValueType.same_iff.1 types).symm)
  | constant values => exact .constant ((Value.same_symm ..).trans values)
  | property _ properties ih =>
    exact .property ih (Property.same_iff.2 (Property.same_iff.1 properties).symm)
  | composition _ _ iha ihb => exact .composition iha ihb
  | unary _ ih => exact .unary ih
  | binary _ _ iha ihb => exact .binary iha ihb

theorem Equal.trans (h : Equal e f) (h' : Equal f g) : Equal e g := by
  induction h generalizing g with
  | argument types =>
    cases h' with
    | argument types' =>
      rw [ValueType.same_iff] at types types'
      exact .argument (ValueType.same_iff.2 (types.trans types'))
  | constant values =>
    cases h' with
    | constant values' => exact .constant (Value.same_trans _ _ _ values values')
  | property _ properties ih =>
    cases h' with
    | property targets' properties' =>
      rw [Property.same_iff] at properties properties'
      exact .property (ih targets') (Property.same_iff.2 (properties.trans properties'))
  | composition _ _ iha ihb =>
    cases h' with
    | composition sources' inners' => exact .composition (iha sources') (ihb inners')
  | unary _ ih =>
    cases h' with
    | unary operands' => exact .unary (ih operands')
  | binary _ _ iha ihb =>
    cases h' with
    | binary lefts' rights' => exact .binary (iha lefts') (ihb rights')

/-! ## Prints of equal trees -/

/-- The signs of the floating zeros among the constants of an expression, in the order of
its tree. -/
def zeros : Expr → List Bool
  | .argument _ => []
  | .constant _ value => value.zeros
  | .property target _ => target.zeros
  | .composition source inner => source.zeros ++ inner.zeros
  | .unary _ _ operand => operand.zeros
  | .binary _ _ left right => left.zeros ++ right.zeros

theorem Equal.length_zeros (h : Equal e f) : e.zeros.length = f.zeros.length := by
  induction h with
  | constant values => exact Value.length_zeros _ _ values
  | _ => simp_all [zeros]

theorem Equal.length_print (h : Equal e f) : e.print.length = f.print.length := by
  induction h <;> simp_all [print]

theorem ofType_eq {a b : ValueType} (h : a.same b = true) :
    Capability.ofType a = Capability.ofType b := by
  cases a <;> cases b <;> first | rfl | cases h

theorem Equal.capability (h : Equal e f) : e.capability = f.capability := by
  induction h with
  | argument types => exact ofType_eq types
  | property _ properties =>
    simp only [Property.same, Bool.and_eq_true] at properties
    exact ofType_eq properties.1.1.1.1.1.2
  | composition _ _ _ ihb => exact ihb
  | _ => rfl

theorem samePrint_append {a b : List Print} (h : a.length = b.length) (c d : List Print) :
    samePrint (a ++ c) (b ++ d) = true ↔ samePrint a b = true ∧ samePrint c d = true := by
  simp only [samePrint, List.length_append, List.zip_append h, List.all_append, Bool.and_eq_true,
    beq_iff_eq, h, Nat.add_left_cancel_iff, true_and]
  exact and_left_comm

theorem samePrint_cons (x y : Print) (a b : List Print) :
    samePrint (x :: a) (y :: b) = true ↔ x.same y = true ∧ samePrint a b = true := by
  simp only [samePrint, List.length_cons, List.zip_cons_cons, List.all_cons, Bool.and_eq_true,
    beq_iff_eq, Nat.add_right_cancel_iff]
  exact and_left_comm

theorem samePrint_nil : samePrint [] [] = true := rfl

/-- The prints of equal trees are the same just if their zeros have the same signs. -/
theorem samePrint_iff (h : Equal e f) :
    samePrint e.print f.print = true ↔ e.zeros = f.zeros := by
  induction h with
  | argument types =>
    simp [print, samePrint_cons, samePrint_nil, Print.same, zeros, types, ofType_eq types]
  | constant values =>
    simp [print, samePrint_cons, samePrint_nil, Print.same, zeros, Value.render_eq_iff values]
  | property targets properties ih =>
    simp only [Property.same, Bool.and_eq_true, beq_iff_eq] at properties
    have hname := properties.1.1.1.1.1.1
    have htype := properties.1.1.1.1.1.2
    simp [print, samePrint_cons, samePrint_nil, samePrint_append targets.length_print, Print.same,
      zeros, hname, htype, ofType_eq htype, ih]
  | composition sources inners iha ihb =>
    simp [print, samePrint_cons, samePrint_append sources.length_print, Print.same, zeros,
      inners.capability, iha, ihb, Value.append_eq_iff sources.length_zeros]
  | unary _ ih => simp [print, samePrint_cons, Print.same, zeros, ih]
  | binary lefts _ iha ihb =>
    simp [print, samePrint_cons, samePrint_append lefts.length_print, Print.same, zeros, iha, ihb,
      Value.append_eq_iff lefts.length_zeros]

/-! ## Hash sets -/

/-- An expression is found at another one: their prints and their trees are the same. -/
def FoundAt (e k : Expr) : Prop := samePrint k.print e.print = true ∧ k.same e = true

theorem foundAt_iff {k : Expr} : FoundAt e k ↔ Equal k e ∧ k.zeros = e.zeros := by
  constructor
  · intro h
    have hequal := equal_of_same h.2
    exact ⟨hequal, (samePrint_iff hequal).1 h.1⟩
  · exact fun h => ⟨(samePrint_iff h.1).2 h.2, h.1.same⟩

/-- What a hash set holds of some expressions: some of them, such that each of them is found
at one, and no two are found at one another. -/
structure Holds (kept exprs : List Expr) : Prop where
  drawn : ∀ k ∈ kept, k ∈ exprs
  found : ∀ e ∈ exprs, ∃ k ∈ kept, FoundAt e k
  apart : kept.Pairwise fun k l => ¬FoundAt l k

/-- One more expression is found, or it is kept. -/
theorem Holds.put {kept exprs : List Expr} (h : Holds kept exprs) (e : Expr) :
    Holds (if kept.any fun k => samePrint k.print e.print && k.same e then kept else kept ++ [e])
      (exprs ++ [e]) := by
  have hmore : ∀ k ∈ kept, k ∈ exprs ++ [e] := fun k hk => List.mem_append_left _ (h.drawn k hk)
  split
  · next hany =>
    obtain ⟨k, hk, hfound⟩ := List.any_eq_true.1 hany
    refine ⟨hmore, fun f hf => ?_, h.apart⟩
    rcases List.mem_append.1 hf with hf | hf
    · exact h.found f hf
    · obtain rfl := List.mem_singleton.1 hf
      exact ⟨k, hk, Bool.and_eq_true_iff.1 hfound⟩
  · next hnone =>
    refine ⟨fun k hk => ?_, fun f hf => ?_, ?_⟩
    · rcases List.mem_append.1 hk with hk | hk
      · exact hmore k hk
      · exact List.mem_append_right _ hk
    · rcases List.mem_append.1 hf with hf | hf
      · obtain ⟨k, hk, hfound⟩ := h.found f hf
        exact ⟨k, List.mem_append_left _ hk, hfound⟩
      · obtain rfl := List.mem_singleton.1 hf
        exact ⟨f, List.mem_append_right _ hf, foundAt_iff.2 ⟨.refl f, rfl⟩⟩
    · refine List.pairwise_append.2 ⟨h.apart, List.pairwise_singleton _ _, fun k hk l hl hfound => ?_⟩
      obtain rfl := List.mem_singleton.1 hl
      exact hnone (List.any_eq_true.2 ⟨k, hk, Bool.and_eq_true_iff.2 hfound⟩)

theorem holds_distinct (exprs : List Expr) : Holds (distinct exprs) exprs := by
  induction exprs using List.reverseRecOn with
  | nil => exact ⟨nofun, nofun, .nil⟩
  | append_singleton exprs e ih =>
    unfold distinct
    rw [List.foldl_append]
    exact ih.put e

/-! ## Classes -/

/-- Equal trees are in one class. -/
instance classOf : Setoid Expr where
  r e f := e.same f = true
  iseqv := ⟨fun e => (Equal.refl e).same, fun h => (equal_of_same h).symm.same,
    fun h h' => ((equal_of_same h).trans (equal_of_same h')).same⟩

instance (e f : Expr) : Decidable (e ≈ f) := inferInstanceAs (Decidable (e.same f = true))

/-- The classes of equal trees among some expressions. -/
def classes (exprs : List Expr) : Finset (Quotient classOf) :=
  (exprs.map (Quotient.mk classOf)).toFinset

/-- The members of a hash set are of all the classes there are. -/
theorem Holds.classes_eq {kept exprs : List Expr} (h : Holds kept exprs) :
    classes kept = classes exprs := by
  ext c
  simp only [classes, List.mem_toFinset, List.mem_map]
  constructor
  · rintro ⟨k, hk, rfl⟩
    exact ⟨k, h.drawn k hk, rfl⟩
  · rintro ⟨e, he, rfl⟩
    obtain ⟨k, hk, hfound⟩ := h.found e he
    exact ⟨k, hk, Quotient.sound hfound.2⟩

/-- No two members of a hash set are in one class, just if equal ones among the expressions
have zeros of the same signs. -/
theorem Holds.nodup_iff {kept exprs : List Expr} (h : Holds kept exprs) :
    (kept.map (Quotient.mk classOf)).Nodup ↔
      ∀ e ∈ exprs, ∀ f ∈ exprs, e.same f = true → e.zeros = f.zeros := by
  rw [List.nodup_iff_pairwise_ne, List.pairwise_map]
  constructor
  · intro hapart e he f hf hef
    obtain ⟨k, hk, hek⟩ := h.found e he
    obtain ⟨l, hl, hfl⟩ := h.found f hf
    obtain ⟨hke, hkzeros⟩ := foundAt_iff.1 hek
    obtain ⟨hlf, hlzeros⟩ := foundAt_iff.1 hfl
    -- both are found at one member, as their class has only one
    have hkl : k = l := by
      by_contra hne
      have : Std.Symm fun k l : Expr => Quotient.mk classOf k ≠ Quotient.mk classOf l :=
        ⟨fun _ _ hne => hne.symm⟩
      have hclass : Quotient.mk classOf k = Quotient.mk classOf l :=
        Quotient.sound ((hke.trans (equal_of_same hef)).trans hlf.symm).same
      exact hapart.forall hk hl hne hclass
    rw [← hkzeros, hkl, hlzeros]
  · intro hsigns
    refine h.apart.imp_of_mem fun {k l} hk hl hnot hclass => hnot ?_
    have hkl : k.same l = true := Quotient.exact hclass
    exact foundAt_iff.2 ⟨equal_of_same hkl, hsigns k (h.drawn k hk) l (h.drawn l hl) hkl⟩

/-- Equal expressions have the same print just if their zeros have the same signs. So a hash
set of some expressions has at least as many members as there are classes of equal ones, and
just as many if equal ones among them have zeros of the same signs. -/
theorem hashed_by_class (exprs : List Expr) :
    (∀ e f : Expr, e.same f = true →
      (samePrint e.print f.print = true ↔ e.zeros = f.zeros)) ∧
    (classes exprs).card ≤ (distinct exprs).length ∧
    ((classes exprs).card = (distinct exprs).length ↔
      ∀ e ∈ exprs, ∀ f ∈ exprs, e.same f = true → e.zeros = f.zeros) := by
  have hholds := holds_distinct exprs
  have hcard : (classes exprs).card =
      ((distinct exprs).map (Quotient.mk classOf)).toFinset.card := by
    rw [← hholds.classes_eq, classes]
  have hlength : ((distinct exprs).map (Quotient.mk classOf)).length = (distinct exprs).length :=
    List.length_map _
  refine ⟨fun e f hef => samePrint_iff (equal_of_same hef), ?_, ?_⟩
  · rw [hcard, ← hlength]
    exact List.toFinset_card_le _
  · rw [hcard, ← hholds.nodup_iff, ← hlength]
    exact Multiset.toFinset_card_eq_card_iff_nodup

/-- The constant zero of either sign. -/
def zeroOf (negative : Bool) : Expr := .constant .numeric (.float (.zero negative))

/-- The two zeros are equal constants with different prints, so a hash set has both although
they are of one class. -/
theorem zeros_hashed_apart :
    (zeroOf false).same (zeroOf true) = true ∧
    samePrint (zeroOf false).print (zeroOf true).print = false ∧
    (distinct [zeroOf false, zeroOf true]).length = 2 ∧
    (classes [zeroOf false, zeroOf true]).card = 1 := by
  decide +kernel

end LiveRecords.Expr

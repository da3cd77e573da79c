import Mathlib.Data.List.Range
import LiveRecords.Pipeline.Handler
import LiveRecords.Proofs.Pipeline.Alone
import LiveRecords.Proofs.Query.Arguments
import LiveRecords.Proofs.Query.Sorting
import LiveRecords.Proofs.Store.Commit
import LiveRecords.Sample.Shop

/-
  Windows of query results.

  The rows that a query asks for have an order (`Query.Compiled.InOrder`): that of its
  sort keys, and of their key texts where these do not tell two rows apart. What is
  returned are the rows in a window of that order, each of them shaped; and windows of
  one size, laid side by side, show the whole (`Query.windows`). The order needs sort
  keys with sortable values.
-/

namespace LiveRecords

/-! ## Asking a store -/

/-- What a store answers a query. -/
def Store.answer (s : Store) (q : Query) : Outcome (List Value) := do
  let run ← q.prepare
  return s.query q run

/-- A query, alone in a quiet world, comes to what the store answers. -/
theorem Handler.alone_query {w : World} (quiet : w.Quiet) (q : Query) :
    (Handler.ofStore (.query q)).run.alone w = some ((w.store.answer q).map Rows.listed, w) := by
  show (Backend.query q).run.alone w = _
  unfold Store.answer
  cases hprepare : q.prepare with
  | ok run => exact Backend.alone_query hprepare quiet
  | error e =>
    unfold Backend.query
    rw [hprepare]
    rfl

namespace Query

/-! ## Windows -/

/-- The compiled query for another window. -/
def Compiled.within (run : Compiled) (skip limit : Option Nat) : Compiled :=
  { run with skip := skip.getD 0, limit }

/-- A query is compiled, or is not, whatever its window. -/
theorem compile_map_within (q : Query) (skip limit : Option Nat) :
    ({ q with skip, limit } : Query).compile = q.compile.map (·.within skip limit) := by
  unfold compile
  cases q.predicate.mapM Expr.compile with
  | error e => rfl
  | ok predicate =>
    cases q.mapping.mapM Expr.compile with
    | error e => rfl
    | ok mapping =>
      cases q.sorting.mapM fun s => SortKey.compile s.expr s.ascending <;> rfl

theorem compile_within {q : Query} {run : Compiled} (compiled : q.compile = .ok run)
    (skip limit : Option Nat) :
    ({ q with skip, limit } : Query).compile = .ok (run.within skip limit) := by
  rw [compile_map_within, compiled]
  rfl

/-- A query that passes all checks is prepared by compiling it. -/
theorem Checked.prepare_eq {q : Query} (h : q.Checked) : q.prepare = q.compile := by
  unfold prepare
  rw [h.validate_eq]
  cases q.compile <;> rfl

/-- What is checked of a query does not depend on its window. -/
theorem Checked.within {q : Query} (h : q.Checked) (skip limit : Option Nat) :
    ({ q with skip, limit } : Query).Checked := ⟨h.arguments, h.boolean, h.rooted⟩

/-- The rows that a query asks for, each once, in the order that it asks for: no row
stands before one that its sort keys put first, and rows that they do not tell apart
stand in the order of their key texts. -/
structure Compiled.InOrder (run : Compiled) (rows found : Keyed Row) : Prop where
  rows : found.Perm (rows.filter fun entry => run.admits entry.2.value)
  keys : found.Pairwise fun a b => SortKey.compare run.keys b.2.value a.2.value ≠ .lt
  ties : found.Pairwise fun a b =>
    SortKey.compare run.keys a.2.value b.2.value = .eq → a.1 < b.1

namespace Compiled

variable {run : Compiled}

theorem sorted_eq (run : Compiled) (values : List Value) :
    run.sorted values = SortKey.sort run.keys values := by
  unfold sorted
  split
  · next hnone =>
    rw [List.isEmpty_iff.1 hnone, SortKey.sort_of_no_keys]
  · rfl

/-- The rows of a table that a query asks for can be put in order, and from their
documents in that order the query takes its window. -/
theorem exists_inOrder {rows : Keyed Row} (ascending : rows.Ascending)
    (sortable : ∀ entry ∈ rows, run.admits entry.2.value = true →
      SortKey.Sortable run.keys entry.2.value) :
    ∃ found : Keyed Row, run.InOrder rows found ∧
      run.sorted ((rows.values.map Row.value).filter run.admits) = found.map (·.2.value) := by
  have hsortable : ∀ entry ∈ rows.filter fun entry => run.admits entry.2.value,
      SortKey.Sortable run.keys entry.2.value := by
    intro entry hentry
    obtain ⟨hin, hadmits⟩ := List.mem_filter.1 hentry
    exact sortable entry hin hadmits
  obtain ⟨found, hperm, hmap, hstand⟩ :=
    SortKey.exists_sorted hsortable (List.Pairwise.filter _ ascending)
  refine ⟨found, ⟨hperm, ?_, hstand.imp fun h => h.2⟩, ?_⟩
  · refine hstand.imp_of_mem fun {a b} ha hb h => ?_
    exact h.not_lt (hsortable a (hperm.subset ha)) (hsortable b (hperm.subset hb))
  · rw [sorted_eq, hmap, Keyed.values, List.map_map, List.filter_map]
    rfl

theorem select_within (skip limit : Option Nat) {values found : List Value}
    (h : run.sorted (values.filter run.admits) = found) :
    (run.within skip limit).select values =
      (found.drop (skip.getD 0)).take (limit.getD found.length) := by
  have hsorted : (run.within skip limit).sorted (values.filter (run.within skip limit).admits) =
      found := h
  unfold select
  rw [hsorted]
  cases limit with
  | some n => rfl
  | none =>
    show found.drop _ = (found.drop _).take found.length
    have hle : (found.drop (skip.getD 0)).length ≤ found.length := by
      rw [List.length_drop]
      exact Nat.sub_le _ _
    exact (List.take_of_length_le hle).symm

end Compiled

/-- Windows of one size, side by side, show what comes first. -/
theorem flatMap_windows {α : Type} (found : List α) (size n : Nat) :
    ((List.range n).flatMap fun i => (found.drop (i * size)).take size) =
      found.take (n * size) := by
  induction n with
  | zero => simp
  | succ n ih =>
    rw [List.range_succ, List.flatMap_append, ih, Nat.succ_mul, List.take_add]
    simp

variable {w : World} {q : Query}

/-- A valid query returns a window of the rows that it asks for, in the order that it
asks for and each of them shaped. Windows of one size, as many as it takes to reach
the end, show all of them. -/
theorem windows (quiet : w.Quiet) (ascending : (w.store.table q.entity.name).rows.Ascending)
    (valid : q.validate = .ok ())
    (sortable : ∀ run, q.compile = .ok run → ∀ entry ∈ (w.store.table q.entity.name).rows,
      run.admits entry.2.value = true → SortKey.Sortable run.keys entry.2.value) :
    ∃ run found, q.compile = .ok run ∧ run.InOrder (w.store.table q.entity.name).rows found ∧
      (∀ skip limit,
        (Handler.ofStore (.query { q with skip, limit })).run.alone w =
          some (.ok (.listed (((found.drop (skip.getD 0)).take (limit.getD found.length)).map
            fun entry => run.shape entry.2.value)), w)) ∧
      ∀ size n, found.length ≤ n * size →
        ((List.range n).mapM fun i =>
            w.store.answer { q with skip := some (i * size), limit := some size }).map
              List.flatten = w.store.answer q.clearPaging := by
  obtain ⟨checked, run, compiled⟩ := validate_eq_ok.1 valid
  obtain ⟨found, inOrder, hfound⟩ :=
    Compiled.exists_inOrder ascending (sortable run compiled)
  have hanswer : ∀ skip limit, w.store.answer { q with skip, limit } =
      .ok (((found.drop (skip.getD 0)).take (limit.getD found.length)).map
        fun entry => run.shape entry.2.value) := by
    intro skip limit
    unfold Store.answer
    rw [(checked.within skip limit).prepare_eq, compile_within compiled]
    show Except.ok (((run.within skip limit).select (w.store.documents q.entity.name)).map
      (run.within skip limit).shape) = _
    unfold Store.documents
    rw [Compiled.select_within skip limit hfound, List.length_map, ← List.map_drop,
      ← List.map_take, List.map_map]
    rfl
  refine ⟨run, found, compiled, inOrder, fun skip limit => ?_, fun size n hlength => ?_⟩
  · rw [Handler.alone_query quiet, hanswer]
    rfl
  · have hwhole : w.store.answer q.clearPaging =
        .ok (found.map fun entry => run.shape entry.2.value) := by
      have hnone := hanswer none none
      rw [Option.getD_none, Option.getD_none, List.drop_zero, List.take_length] at hnone
      exact hnone
    rw [hwhole]
    simp only [hanswer, Option.getD_some]
    show Except.map _ ((List.range n).mapM fun i => pure _) = _
    rw [List.mapM_pure]
    show Except.ok _ = _
    rw [← List.flatMap_def, ← List.map_flatMap, flatMap_windows, List.take_of_length_le hlength]

end Query

namespace Shop

/-- A product with its price. -/
def priced (key : String) (price : Value) : Value :=
  .object [("key", .text key), ("price", price)]

/-- A quiet shop with four products, two of them at one price and one without a price. -/
def shelf : World :=
  { catalog
    store := Store.afterAll {} [.insert product (priced "a" (.int 5)),
      .insert product (priced "b" .null), .insert product (priced "c" (.int 9)),
      .insert product (priced "d" (.int 5))] }

/-- A property of products. -/
def ofProduct (name : String) (type : ValueType) : Expr :=
  .property (.argument product.asType) { name, type }

/-- The keys of all products, those of the dearest first. -/
def dearestFirst : Query :=
  { entity := product
    mapping := some (ofProduct "key" .string)
    sorting := [⟨ofProduct "price" .int, false⟩] }

/-- Two windows side by side show the whole shelf. -/
theorem shelf_windows :
    ∃ run found, dearestFirst.compile = .ok run ∧
      run.InOrder (shelf.store.table "Product").rows found ∧
      ((List.range 2).mapM fun i => shelf.store.answer
          { dearestFirst with skip := some (i * 2), limit := some 2 }).map List.flatten =
        shelf.store.answer dearestFirst.clearPaging := by
  have sortable : ∀ run, dearestFirst.compile = .ok run →
      ∀ entry ∈ (shelf.store.table "Product").rows,
        run.admits entry.2.value = true → SortKey.Sortable run.keys entry.2.value := by
    intro run compiled entry hentry _
    cases compiled
    revert entry
    unfold SortKey.Sortable
    decide +kernel
  have ascending : (shelf.store.table "Product").rows.Ascending := by
    unfold Keyed.Ascending
    decide +kernel
  obtain ⟨run, found, compiled, inOrder, -, hpages⟩ :=
    Query.windows (w := shelf) (q := dearestFirst) ⟨rfl, rfl⟩ ascending rfl sortable
  have hlength : found.length ≤ 2 * 2 := by
    rw [inOrder.rows.length_eq]
    exact List.length_filter_le _ _
  exact ⟨run, found, compiled, inOrder, hpages 2 2 hlength⟩

example : shelf.store.answer dearestFirst = .ok [.text "c", .text "a", .text "d", .text "b"] :=
  rfl

end Shop

end LiveRecords

import Mathlib.Data.List.Induction
import LiveRecords.Expr.Compile
import LiveRecords.Proofs.Document.SortOrder

/-
  Sorting by several keys.

  Documents are compared by the first key that tells them apart, and on documents
  whose values under the keys are sortable that is a total preorder
  (`compare_swap`, `compare_isLE_trans`). Sorting is by insertion, one document after
  another (`sort_concat`). Whatever the documents belong to, the entries of a table
  for example, comes out in the order of the keys, and where these do not tell two
  entries apart, as it went in (`exists_sorted`).
-/

namespace LiveRecords.SortKey

/-! ## Comparison -/

/-- The values of a document under some keys are sortable. -/
def Sortable (keys : List SortKey) (v : Value) : Prop := ∀ key ∈ keys, (key.value v).Sortable

/-- The order of the values of two documents under a key, in its direction. -/
def order (key : SortKey) (cmp : Value → Value → Ordering) (a b : Value) : Ordering :=
  if key.ascending then cmp (key.value a) (key.value b)
  else (cmp (key.value a) (key.value b)).swap

theorem compare_nil (a b : Value) : compare [] a b = .eq := rfl

theorem compare_cons (key : SortKey) (rest : List SortKey) (a b : Value) :
    compare (key :: rest) a b = (key.order Value.sortOrder a b).then (compare rest a b) := by
  unfold order
  rw [compare]
  generalize (if key.ascending then Value.sortOrder (key.value a) (key.value b)
    else (Value.sortOrder (key.value a) (key.value b)).swap) = first
  cases first <;> rfl

/-- The order by the places of the values under the keys. -/
def placeOrder : List SortKey → Value → Value → Ordering
  | [], _, _ => .eq
  | key :: rest, a, b => (key.order Value.placeOrder a b).then (placeOrder rest a b)

instance transCmp_order (key : SortKey) : Std.TransCmp (key.order Value.placeOrder) := by
  have hup : Std.TransCmp fun a b => Value.placeOrder (key.value a) (key.value b) :=
    { eq_swap := Value.placeOrder_swap _ _
      isLE_trans := Value.placeOrder_isLE_trans }
  unfold order
  cases key.ascending with
  | true => exact hup
  | false =>
    have hdown : (fun a b => (Value.placeOrder (key.value a) (key.value b)).swap) =
        fun a b => Value.placeOrder (key.value b) (key.value a) :=
      funext fun a => funext fun b => (Value.placeOrder_swap _ _).symm
    exact hdown ▸ Std.TransCmp.opposite

instance transCmp_placeOrder : ∀ keys : List SortKey, Std.TransCmp (placeOrder keys)
  | [] => { eq_swap := rfl, isLE_trans := fun _ _ => rfl }
  | key :: rest =>
    have := transCmp_placeOrder rest
    inferInstanceAs (Std.TransCmp (compareLex (key.order Value.placeOrder) (placeOrder rest)))

theorem compare_eq_placeOrder {keys : List SortKey} {a b : Value} (ha : Sortable keys a)
    (hb : Sortable keys b) : compare keys a b = placeOrder keys a b := by
  induction keys with
  | nil => rfl
  | cons key rest ih =>
    have hkey : key.order Value.sortOrder a b = key.order Value.placeOrder a b := by
      unfold order
      rw [Value.sortOrder_eq_placeOrder (ha key List.mem_cons_self) (hb key List.mem_cons_self)]
    have hrest := ih (fun k hk => ha k (List.mem_cons_of_mem _ hk))
      fun k hk => hb k (List.mem_cons_of_mem _ hk)
    rw [compare_cons, hkey, hrest]
    rfl

variable {keys : List SortKey} {a b c : Value}

/-- Two documents compare the other way round from the other side. -/
theorem compare_swap (ha : Sortable keys a) (hb : Sortable keys b) :
    compare keys b a = (compare keys a b).swap := by
  rw [compare_eq_placeOrder ha hb, compare_eq_placeOrder hb ha]
  exact Std.OrientedCmp.eq_swap

theorem compare_isLE_trans (ha : Sortable keys a) (hb : Sortable keys b) (hc : Sortable keys c)
    (hab : (compare keys a b).isLE) (hbc : (compare keys b c).isLE) :
    (compare keys a c).isLE := by
  rw [compare_eq_placeOrder ha hb] at hab
  rw [compare_eq_placeOrder hb hc] at hbc
  rw [compare_eq_placeOrder ha hc]
  exact Std.TransCmp.isLE_trans hab hbc

/-- What is not less than something is not before it. -/
theorem isLE_of_not_lt (ha : Sortable keys a) (hb : Sortable keys b)
    (h : compare keys a b ≠ .lt) : (compare keys b a).isLE := by
  rw [compare_swap ha hb]
  cases hab : compare keys a b with
  | lt => exact absurd hab h
  | eq => rfl
  | gt => rfl

/-! ## Insertion -/

theorem insert_cons (keys : List SortKey) (v w : Value) (rest : List Value) :
    insert keys v (w :: rest) =
      if compare keys v w = .lt then w :: insert keys v rest else v :: w :: rest := by
  simp only [insert, beq_iff_eq]

/-- One more document is put in its place among those that are sorted. -/
theorem sort_concat (keys : List SortKey) (values : List Value) (v : Value) :
    sort keys (values ++ [v]) = (insert keys v (sort keys values).reverse).reverse := by
  unfold sort
  rw [List.foldl_append, List.reverse_reverse]
  rfl

/-! ## Entries -/

/-- Entries stand in the order of some keys, and where these do not tell them apart,
in the order `before`. -/
def Stand {α : Type} (keys : List SortKey) (doc : α → Value) (before : α → α → Prop)
    (a b : α) : Prop :=
  (compare keys (doc a) (doc b)).isLE ∧ (compare keys (doc a) (doc b) = .eq → before a b)

section Entries

variable {α : Type} {doc : α → Value} {before : α → α → Prop}

theorem Stand.not_lt {x y : α} (h : Stand keys doc before x y) (hx : Sortable keys (doc x))
    (hy : Sortable keys (doc y)) : compare keys (doc y) (doc x) ≠ .lt := by
  intro hlt
  have hle := h.1
  rw [compare_swap hy hx, hlt] at hle
  cases hle

/-- Insertion into a list that stands from the last entry to the first puts an entry
that comes after all others where it belongs. -/
theorem exists_insert {x : α} {found : List α} (hx : Sortable keys (doc x))
    (hfound : ∀ a ∈ found, Sortable keys (doc a)) (hbefore : ∀ a ∈ found, before a x)
    (stand : found.Pairwise fun a b => Stand keys doc before b a) :
    ∃ found' : List α, found'.Perm (x :: found) ∧
      found'.map doc = insert keys (doc x) (found.map doc) ∧
      found'.Pairwise fun a b => Stand keys doc before b a := by
  induction found with
  | nil => exact ⟨[x], List.Perm.refl _, rfl, List.pairwise_singleton ..⟩
  | cons w rest ih =>
    obtain ⟨hw, hrest⟩ := List.pairwise_cons.1 stand
    have hsw : Sortable keys (doc w) := hfound w List.mem_cons_self
    by_cases hlt : compare keys (doc x) (doc w) = .lt
    · obtain ⟨found', hperm, hmap, hpair⟩ := ih
        (fun a ha => hfound a (List.mem_cons_of_mem _ ha))
        (fun a ha => hbefore a (List.mem_cons_of_mem _ ha)) hrest
      refine ⟨w :: found', (hperm.cons w).trans (List.Perm.swap x w rest), ?_, ?_⟩
      · rw [List.map_cons, List.map_cons, insert_cons, if_pos hlt, hmap]
      · refine List.pairwise_cons.2 ⟨fun a ha => ?_, hpair⟩
        rcases List.mem_cons.1 (hperm.subset ha) with rfl | ha
        · rw [Stand, hlt]
          exact ⟨rfl, fun h => nomatch h⟩
        · exact hw a ha
    · refine ⟨x :: w :: rest, List.Perm.refl _, ?_, ?_⟩
      · rw [List.map_cons, List.map_cons, insert_cons, if_neg hlt]
      · -- `w` is not after `x`, and the others are not after `w`
        have hwx := isLE_of_not_lt hx hsw hlt
        refine List.pairwise_cons.2 ⟨fun a ha => ⟨?_, fun _ => hbefore a ha⟩, stand⟩
        rcases List.mem_cons.1 ha with rfl | ha
        · exact hwx
        · exact compare_isLE_trans (hfound a (List.mem_cons_of_mem _ ha)) hsw hx
            (hw a ha).1 hwx

/-- Sorting puts entries in the order of the keys and leaves those that the keys do not
tell apart in the order in which they were. -/
theorem exists_sorted {entries : List α} (sortable : ∀ a ∈ entries, Sortable keys (doc a))
    (inOrder : entries.Pairwise before) :
    ∃ found : List α, found.Perm entries ∧ found.map doc = sort keys (entries.map doc) ∧
      found.Pairwise (Stand keys doc before) := by
  induction entries using List.reverseRecOn with
  | nil => exact ⟨[], List.Perm.refl _, rfl, List.Pairwise.nil⟩
  | append_singleton entries x ih =>
    obtain ⟨hentries, -, hlast⟩ := List.pairwise_append.1 inOrder
    have hsort : ∀ a ∈ entries, Sortable keys (doc a) := fun a ha =>
      sortable a (List.mem_append_left _ ha)
    obtain ⟨found, hperm, hmap, hstand⟩ := ih hsort hentries
    have hfound : ∀ a ∈ found.reverse, a ∈ entries := fun a ha =>
      hperm.subset (List.mem_reverse.1 ha)
    obtain ⟨found', hperm', hmap', hstand'⟩ := exists_insert
      (sortable x (by simp)) (fun a ha => hsort a (hfound a ha))
      (fun a ha => hlast a (hfound a ha) x (by simp)) (List.pairwise_reverse.2 hstand)
    refine ⟨found'.reverse, ?_, ?_, List.pairwise_reverse.2 hstand'⟩
    · have hcons : (x :: found.reverse).Perm (x :: entries) :=
        ((List.reverse_perm _).trans hperm).cons x
      exact ((List.reverse_perm _).trans (hperm'.trans hcons)).trans
        (List.perm_append_singleton x entries).symm
    · rw [List.map_append, List.map_cons, List.map_nil, sort_concat, ← hmap, List.map_reverse,
        hmap', List.map_reverse]

end Entries

/-! ## The first document -/

/-- Sorted documents stand in the order of the keys. -/
theorem sort_stands {values : List Value} (sortable : ∀ w ∈ values, Sortable keys w) :
    (sort keys values).Perm values ∧
      (sort keys values).Pairwise fun a b => (compare keys a b).isLE := by
  obtain ⟨found, hperm, hmap, hstand⟩ : ∃ found : List Value, found.Perm values ∧
      found.map id = sort keys (values.map id) ∧
      found.Pairwise (Stand keys id fun _ _ => True) :=
    exists_sorted sortable (List.pairwise_of_forall fun _ _ => trivial)
  rw [List.map_id, List.map_id] at hmap
  rw [← hmap]
  exact ⟨hperm, hstand.imp fun h => h.1⟩

/-- Among documents that stand from the greatest on, one more comes last just if it is
less than the one that was last. -/
theorem getLast?_insert {v last : Value} {done : List Value} (hv : Sortable keys v)
    (hdone : ∀ w ∈ done, Sortable keys w)
    (stand : done.Pairwise fun a b => (compare keys b a).isLE) (hlast : done.getLast? = some last) :
    (insert keys v done).getLast? = some (if compare keys v last = .lt then v else last) := by
  induction done with
  | nil => cases hlast
  | cons w rest ih =>
    obtain ⟨hw, hrest⟩ := List.pairwise_cons.1 stand
    have hsw : Sortable keys w := hdone w List.mem_cons_self
    have hsrest : ∀ u ∈ rest, Sortable keys u := fun u hu => hdone u (List.mem_cons_of_mem _ hu)
    rw [insert_cons]
    cases rest with
    | nil =>
      obtain rfl : w = last := Option.some.inj hlast
      split <;> rfl
    | cons u more =>
      rw [List.getLast?_cons_cons] at hlast
      have hin : last ∈ u :: more := List.mem_of_getLast? hlast
      split
      · rw [List.getLast?_cons, ih hsrest hrest hlast]
        rfl
      · next hnot =>
        -- the last document is not after `w`, so `v` is not before it
        have hle : (compare keys last v).isLE :=
          compare_isLE_trans (hsrest last hin) hsw hv (hw last hin) (isLE_of_not_lt hv hsw hnot)
        have hnlt : compare keys v last ≠ .lt := by
          intro hlt
          rw [compare_swap hv (hsrest last hin), hlt] at hle
          cases hle
        rw [if_neg hnlt, List.getLast?_cons_cons, List.getLast?_cons_cons, hlast]

/-- One more document comes first just if it is less than the one that came first. -/
theorem head?_sort_concat {values : List Value} {v first : Value}
    (sortable : ∀ w ∈ values ++ [v], Sortable keys w)
    (hfirst : (sort keys values).head? = some first) :
    (sort keys (values ++ [v])).head? = some (if compare keys v first = .lt then v else first) := by
  have hvalues : ∀ w ∈ values, Sortable keys w := fun w hw =>
    sortable w (List.mem_append_left _ hw)
  obtain ⟨hperm, hstand⟩ := sort_stands hvalues
  rw [sort_concat, List.head?_reverse]
  refine getLast?_insert (sortable v (by simp)) (fun w hw => ?_) (List.pairwise_reverse.2 hstand) ?_
  · exact hvalues w (hperm.subset (List.mem_reverse.1 hw))
  · rw [List.getLast?_reverse, hfirst]

/-- Without keys documents stay as they are. -/
theorem sort_of_no_keys (values : List Value) : sort [] values = values := by
  induction values using List.reverseRecOn with
  | nil => rfl
  | append_singleton values v ih =>
    have hinsert : ∀ done : List Value, insert [] v done = v :: done := by
      intro done
      cases done <;> rfl
    rw [sort_concat, ih, hinsert, List.reverse_cons, List.reverse_reverse]

end LiveRecords.SortKey

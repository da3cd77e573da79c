import LiveRecords.Proofs.Document.Likeness
import LiveRecords.Proofs.Store.Journal

/-
  Unique properties stay unique.

  A write only looks at the document that it is about to store: none of its unique
  properties may have a value alike in a row under another key. That is enough. The
  rows that are there were distinct before, and likeness is symmetric, so they are
  distinct from the new row on either side (`Table.Distinct.store`); a removal takes
  a row away and adds none (`Table.Distinct.bury`). So every commit keeps all tables
  distinct (`Commit.distinct`), and every run of writes leads to distinct tables
  (`Store.afterAll_distinct`).
-/

namespace LiveRecords

/-- No two rows of a table have a value of a unique property in common: values that
are alike count as one, and null is no value. -/
def Table.Distinct (type : EntityType) (t : Table) : Prop :=
  ∀ p ∈ type.properties, p.isUnique = true → p.isKey = false →
    ∀ {k l : String} {row other : Row}, k ≠ l → t.rows.get? k = some row →
      t.rows.get? l = some other → (p.get row.value).isNull = false →
        (p.get row.value).alike (p.get other.value) = false

namespace Table

variable {type : EntityType} {t : Table} {key : String} {entity : Value}

/-- What is free to be stored has no value of a unique property that a row under another
key has. -/
theorem alike_of_free (h : t.conflict? type key entity = none) {p : Property}
    (mem : p ∈ type.properties) (unique : p.isUnique = true) (plain : p.isKey = false)
    (value : (p.get entity).isNull = false) {other : String} {row : Row} (ne : other ≠ key)
    (present : t.rows.get? other = some row) : (p.get row.value).alike (p.get entity) = false := by
  have hno := List.find?_eq_none.1 h p mem
  have hfree : t.isTaken key p (p.get entity) = false := by
    simpa [unique, plain, value] using hno
  have hrow := List.any_eq_false.1 hfree (other, row) (Keyed.mem_of_get? present)
  simpa [ne] using hrow

/-- What stands under a key is not in the way of a document under the same key. -/
theorem isTaken_store (ascending : t.rows.Ascending) (p : Property) (value : Value)
    (version : Nat) : (t.store key entity version).isTaken key p value = t.isTaken key p value := by
  have hrow : ∀ {other : String} {row : Row}, other ≠ key →
      ((other, row) ∈ (t.store key entity version).rows ↔ (other, row) ∈ t.rows) := by
    intro other row hne
    constructor
    · intro hin
      have hget := Keyed.get?_of_mem (ascending.put key ⟨entity, version⟩) hin
      rw [Keyed.get?_put_of_ne hne] at hget
      exact Keyed.mem_of_get? hget
    · intro hin
      refine Keyed.mem_of_get? ((Keyed.get?_put_of_ne hne _ _).trans ?_)
      exact Keyed.get?_of_mem ascending hin
  rw [Bool.eq_iff_iff]
  unfold isTaken
  rw [List.any_eq_true, List.any_eq_true]
  refine exists_congr fun entry => and_congr_left fun htaken => ?_
  simp only [Bool.and_eq_true, bne_iff_ne] at htaken
  exact hrow htaken.1

theorem conflict?_store (ascending : t.rows.Ascending) (version : Nat) (d : Value) :
    (t.store key entity version).conflict? type key d = t.conflict? type key d := by
  unfold conflict?
  congr 1
  funext p
  rw [isTaken_store ascending]

namespace Distinct

theorem empty (type : EntityType) : ({} : Table).Distinct type := by
  intro p _ _ _ k l row other _ hrow
  cases hrow

/-- A document that is free to be stored leaves the table distinct. -/
theorem store (h : t.Distinct type) (free : t.conflict? type key entity = none) (version : Nat) :
    (t.store key entity version).Distinct type := by
  intro p mem unique plain k l row other hne hrow hother hvalue
  rw [get?_rows_store] at hrow hother
  by_cases hk : k = key
  · rw [if_pos hk] at hrow
    rw [if_neg fun hl => hne (hk.trans hl.symm)] at hother
    cases hrow
    -- the new row against an old one: the write has looked from the other side
    rw [Value.alike_symm]
    exact alike_of_free free mem unique plain hvalue (fun hl => hne (hk.trans hl.symm)) hother
  · rw [if_neg hk] at hrow
    by_cases hl : l = key
    · rw [if_pos hl] at hother
      cases hother
      cases hnull : (p.get entity).isNull with
      | false => exact alike_of_free free mem unique plain hnull hk hrow
      | true =>
        have hentity : p.get entity = .null := Value.eq_null_of_isNull hnull
        rw [hentity]
        exact Value.alike_null_of_value hvalue
    · rw [if_neg hl] at hother
      exact h p mem unique plain hne hrow hother hvalue

theorem bury (h : t.Distinct type) (ascending : t.rows.Ascending) (version : Nat) :
    (t.bury key version).Distinct type := by
  intro p mem unique plain k l row other hne hrow hother hvalue
  rw [get?_rows_bury ascending] at hrow hother
  split at hrow
  · cases hrow
  · split at hother
    · cases hother
    · exact h p mem unique plain hne hrow hother hvalue

end Distinct

end Table

/-! ## Runs -/

/-- Every table of a store is distinct. -/
def Store.Distinct (owners : Owners) (s : Store) : Prop :=
  ∀ name, (s.table name).Distinct (owners name)

theorem Store.Distinct.commit {owners : Owners} {s : Store} (h : s.Distinct owners) {name : String}
    {t : Table} (ht : t.Distinct (owners name)) (e : StoreEvent) :
    (s.commit name t e).Distinct owners := by
  intro other
  rw [table_commit]
  split
  · next heq =>
    rw [heq]
    exact ht
  · exact h other

theorem Commit.distinct {owners : Owners} {s s' : Store} (h : Commit owners s s')
    (wf : s.WellFormed owners) (distinct : s.Distinct owners) : s'.Distinct owners := by
  cases h with
  | created owned keyed absent free =>
    exact distinct.commit ((distinct _).store (by rw [owned]; exact free) _) _
  | replaced owned keyed present free =>
    exact distinct.commit ((distinct _).store (by rw [owned]; exact free) _) _
  | removed removal =>
    obtain ⟨present⟩ := removal
    exact distinct.commit ((distinct _).bury (wf.table _).rows_ascending _) _

theorem Commits.distinct {owners : Owners} {s : Store} (h : Commits owners {} s) :
    s.Distinct owners := by
  induction h with
  | refl => exact fun name => Table.Distinct.empty (owners name)
  | tail hrun hlast ih => exact hlast.distinct (Commits.wellFormed hrun (.empty owners)) ih

/-- Whatever is written to an empty store, whichever of the writes fail: no two rows of a
table under different keys have values alike of a unique property. -/
theorem Store.afterAll_distinct (owners : Owners) (writes : List Write)
    (owned : ∀ w ∈ writes, w.OwnedBy owners) (name : String) :
    ((Store.afterAll {} writes).table name).Distinct (owners name) :=
  Commits.distinct (Store.commits_afterAll owned (.empty owners)) name

namespace Shop

/-- A customer with an e-mail address. -/
def mailed (id : Int) (email : Value) : Value := .object [("email", email), ("id", .int id)]

/-- An address goes from hand to hand: a second customer asks for it in vain, by
insertion and by upsert, and then has none; the first gives it up, the second takes it,
is deleted, and a third gets it. -/
def mails : List Write :=
  [.insert customer (mailed 1 (.text "a@x")), .insert customer (mailed 2 (.text "a@x")),
   .upsert customer (mailed 2 (.text "a@x")), .insert customer (mailed 2 .null),
   .update customer (mailed 2 (.text "a@x")) none, .upsert customer (mailed 1 (.text "b@x")),
   .update customer (mailed 2 (.text "a@x")) (some 1), .delete customer (.int 2),
   .insert customer (mailed 3 (.text "a@x"))]

theorem mails_distinct :
    (∀ w ∈ mails, w.OwnedBy owners) ∧
      ((Store.afterAll {} mails).table "Customer").Distinct customer ∧
        ((Store.afterAll {} mails).table "Customer").rows.map (·.1) = ["1", "3"] := by
  have owned : ∀ w ∈ mails, w.OwnedBy owners := by
    intro w hw
    simp only [mails, List.mem_cons, List.not_mem_nil, or_false] at hw
    rcases hw with rfl | rfl | rfl | rfl | rfl | rfl | rfl | rfl | rfl <;> rfl
  exact ⟨owned, Store.afterAll_distinct owners mails owned "Customer", by decide +kernel⟩

end Shop

end LiveRecords

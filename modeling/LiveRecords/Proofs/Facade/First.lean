import LiveRecords.Proofs.Pipeline.Paging
import LiveRecords.Sample.Sets

/-
  The first result of a typed query.

  `first` asks for a window of one row, whatever limit the query has, and reads what it gets;
  `toList` asks for the window of the query and reads all rows of it. Both windows are of the
  same rows and begin at the same row, and a list is only read if its first row is. So after
  any sequence of building steps `first` gives the head of the list, in the pipeline of any
  configuration (`EntityQuery.first_of_toList`), unless the query asked for no rows at all: then
  the list is empty, and `first` still gives a row (`Shop.none_listed`).
-/

namespace LiveRecords

open World (Serves)
open Job (Finishes Goes)

/-! ## Reading -/

namespace Rows.Reliable

variable {rest : List Value → Rows → World → Prop} {ended : World → Prop} {rows : List Value}
  {stream : Rows} {v : World}

/-- A reader gets all rows of a stream as a form reads them, or the failure of the first row that
does not fit the form. -/
theorem finishes_readRows (h : Reliable rest ended) (hrest : rest rows stream v) (form : Form) :
    (EntityQuery.readRows form stream (rows.length + 1)).run.Finishes Serves
      (fun result _ => result = rows.mapM form.read) v := by
  induction rows generalizing stream v with
  | nil =>
    unfold EntityQuery.readRows
    refine Work.finishes_bind (h.ends hrest) (fun row? v' hv' => ?_) fun e v' hv' => by cases hv'.1
    cases hv'.1
    exact fun _ _ => rfl
  | cons row rows ih =>
    unfold EntityQuery.readRows
    refine Work.finishes_bind (h.next hrest) (fun row? v' hv' => ?_) ?_
    · obtain ⟨stream', hrow, hrest'⟩ := hv'
      cases hrow
      rw [List.mapM_cons]
      dsimp only
      cases form.read row with
      | error e => exact fun _ _ _ _ => rfl
      | ok value =>
        refine Work.finishes_bind (ih hrest') (fun values v'' hv'' => ?_) fun e v'' hv'' => ?_
        · rw [← hv'']
          exact fun _ _ => rfl
        · rw [← hv'']
          exact fun _ _ => rfl
    · rintro e v' ⟨_, he, _⟩
      cases he

/-- A reader of one row gets the first, if there is one, and gives up the rest. -/
theorem finishes_first (h : Reliable rest ended) (hrest : rest rows stream v) :
    stream.first.run.Finishes Serves (fun result _ => result = .ok rows.head?) v := by
  unfold first
  cases rows with
  | nil =>
    refine Work.finishes_bind (h.ends hrest) (fun row? v' hv' => ?_) fun e v' hv' => by cases hv'.1
    cases hv'.1
    exact fun _ _ _ _ => rfl
  | cons row rows =>
    refine Work.finishes_bind (h.next hrest) (fun row? v' hv' => ?_) ?_
    · obtain ⟨stream', hrow, -⟩ := hv'
      cases hrow
      exact fun _ _ _ _ => rfl
    · rintro e v' ⟨_, he, _⟩
      cases he

end Rows.Reliable

namespace EntityQuery

variable {h : Handler} {q : EntityQuery} {expected : Outcome (List Value)} {w : World}

/-- Where a query is answered with a stream, the list is what the form makes of its rows. -/
theorem finishes_toList
    (answered : (h (.query q.query)).run.Finishes Serves (Handler.Streams expected) w) :
    (q.toList h).run.Finishes Serves (fun (result : Outcome (List Value)) _ => result.rootCause =
      expected >>= fun rows => Outcome.rootCause (rows.mapM q.form.read)) w := by
  refine Work.finishes_bind answered (fun stream v hv => ?_) fun e v hv v' _ => ?_
  · obtain ⟨rows, rfl, rest, ended, hreliable, hrest⟩ := hv
    intro v₁ hv₁
    have hrest₁ := hreliable.later hrest hv₁
    show (readRows q.form stream (v₁.rowsLeft stream + 1)).run.Finishes _ _ v₁
    rw [hreliable.left hrest₁]
    exact (hreliable.finishes_readRows hrest₁ q.form).mono fun result _ hresult =>
      congrArg Outcome.rootCause hresult
  · rw [show expected = .error e.rootCause from hv]
    rfl

/-- Where the query for one row is answered with a stream, the first result is what the form
makes of its first row. -/
theorem finishes_first
    (answered : (h (.query (q.limit 1).query)).run.Finishes Serves (Handler.Streams expected) w) :
    (q.first h).run.Finishes Serves (fun (result : Outcome (Option Value)) _ => result.rootCause =
      expected >>= fun rows => Outcome.rootCause (rows.head?.mapM q.form.read)) w := by
  refine Work.finishes_bind answered (fun stream v hv => ?_) fun e v hv v' _ => ?_
  · obtain ⟨rows, rfl, rest, ended, hreliable, hrest⟩ := hv
    refine Work.finishes_bind (hreliable.finishes_first hrest) (fun row? v' hv' => ?_)
      fun e v' hv' => by cases hv'
    cases hv'
    show Finishes Serves (fun (result : Outcome (Option Value)) _ => result.rootCause =
      Outcome.rootCause (rows.head?.mapM q.form.read)) _ v'
    cases rows.head? with
    | none => exact fun _ _ => rfl
    | some row =>
      rw [Option.mapM_some]
      dsimp only
      cases q.form.read row with
      | ok value => exact fun _ _ => rfl
      | error e => exact fun _ _ => rfl
  · rw [show expected = .error e.rootCause from hv]
    rfl

/-- If a list of rows is read, its first row is. -/
theorem head?_of_mapM {form : Form} {rows vs : List Value} (h : rows.mapM form.read = .ok vs) :
    rows.head?.mapM form.read = .ok vs.head? := by
  cases rows with
  | nil =>
    cases h
    rfl
  | cons row rows =>
    rw [List.mapM_cons] at h
    obtain ⟨value, hvalue, h⟩ := Outcome.bind_ok h
    obtain ⟨values, -, h⟩ := Outcome.bind_ok h
    cases h
    rw [List.head?_cons, Option.mapM_some, hvalue]
    rfl

theorem eq_ok_of_rootCause {α : Type} {o : Outcome α} {a : α} (h : o.rootCause = .ok a) :
    o = .ok a := by
  cases o with
  | ok b => exact h
  | error e => cases h

/-- Where a handler answers with windows, and a list of results comes of one of them, the first
result is the head of the list. -/
theorem finishes_first_of_toList (pages : h.Pages w.gates) (drained : w.Drained) (rest : w.AtRest)
    (limited : q.query.limit ≠ some 0) {vs : List Value} {v : World}
    (listed : Goes Serves (q.toList h).run w (.done (.ok vs)) v) :
    (q.first h).run.Finishes Serves (fun result _ => result = .ok vs.head?) w := by
  obtain ⟨found, hfound⟩ := pages q.query
  have hlist := (finishes_toList
    (hfound q.query.skip q.query.limit w drained rest rfl)).of_goes listed
  obtain ⟨shown, hshown, hread⟩ := Outcome.bind_ok hlist.result.symm
  cases hall : found w.essence with
  | error e =>
    rw [hall] at hshown
    cases hshown
  | ok rows =>
    rw [hall] at hshown
    cases hshown
    refine (finishes_first (hfound q.query.skip (some 1) w drained rest rfl)).mono
      fun result _ hresult => ?_
    have hhead := head?_of_mapM (eq_ok_of_rootCause hread)
    have hsome : (some 1 : Option Nat) ≠ some 0 := by decide
    rw [Query.head?_window limited, ← Query.head?_window hsome] at hhead
    rw [hall] at hresult
    refine eq_ok_of_rootCause (hresult.trans ?_)
    show Outcome.rootCause (Option.mapM q.form.read (List.head? (Query.window _ _ rows))) = _
    rw [hhead]
    rfl

/-- In the pipeline of any configuration above any store: if a query that does not ask for no
rows at all has a list of results, then the first result always comes, and is the head of the
list, or none if the list is empty. -/
theorem first_of_toList {c : Config} {w w' : World} {layers : List Layer} {hasRuntime : Bool}
    (assembled : w.assemble c [] hasRuntime = .ok (layers, w')) (drained : w.Drained)
    (rest : w.AtRest) (q : EntityQuery) (limited : q.query.limit ≠ some 0) {vs : List Value}
    {v : World} (listed : Goes Serves (q.toList (Handler.ofLayers layers)).run w'
      (.done (.ok vs)) v) :
    (∀ j u, Goes Serves (q.first (Handler.ofLayers layers)).run w' j u →
      ∃ result u', Goes Serves j u (.done result) u') ∧
    ∀ result u, Goes Serves (q.first (Handler.ofLayers layers)).run w' (.done result) u →
      result = .ok vs.head? := by
  have hpages := Config.pages_assemble assembled
  obtain ⟨hw', -⟩ := Config.assemble_layers assembled
  have hfirst := finishes_first_of_toList hpages (hw' ▸ drained) (hw' ▸ rest) limited listed
  exact ⟨fun j u goes => (hfirst.of_goes goes).goes_on,
    fun result u goes => (hfirst.of_goes goes).result⟩

end EntityQuery

namespace Shop

/-- The products. -/
def products : EntitySet := ⟨product, productForm, .text⟩

/-- The dearest products but one. -/
def runnersUp : EntityQuery :=
  ((products.all.orderBy (ofProduct "price" .int) false).skip 1).limit 2

/-- The shelf below a pipeline without scheduling. -/
def desk : World := { shelf with gates := [({} : Config).gate] }

/-- The layers of that pipeline. -/
def deskLayers : List Layer := [.live 1000, .mandatory, .references]

theorem desk_assembled :
    shelf.assemble { scheduling := false } [] false = .ok (deskLayers, desk) := rfl

/-- Of the two products that come next to the dearest one, the first is the first result. -/
theorem runnersUp_first : ∃ a d,
    productForm.read (priced "a" (.int 5)) = .ok a ∧
    productForm.read (priced "d" (.int 5)) = .ok d ∧
    Goes Serves (runnersUp.toList (Handler.ofLayers deskLayers)).run desk
      (.done (.ok [a, d])) desk ∧
    ∀ result u, Goes Serves (runnersUp.first (Handler.ofLayers deskLayers)).run desk
      (.done result) u → result = .ok (some a) := by
  have hdrained : shelf.Drained := fun _ hp => by cases hp
  have hrest : shelf.AtRest := fun _ _ hc => by cases hc
  have hlimited : runnersUp.query.limit ≠ some 0 := by decide
  obtain ⟨a, ha⟩ : ∃ a, productForm.read (priced "a" (.int 5)) = .ok a := ⟨_, rfl⟩
  obtain ⟨d, hd⟩ : ∃ d, productForm.read (priced "d" (.int 5)) = .ok d := ⟨_, rfl⟩
  have hlisted : Goes Serves (runnersUp.toList (Handler.ofLayers deskLayers)).run desk
      (.done (.ok [a, d])) desk := by
    cases ha
    cases hd
    exact Job.goes_of_alone rfl
  obtain ⟨-, hfirst⟩ := EntityQuery.first_of_toList desk_assembled hdrained hrest runnersUp
    hlimited hlisted
  exact ⟨a, d, ha, hd, hlisted, hfirst⟩

/-- Where a query asks for no products, the list is empty, but there is a first result. -/
theorem none_listed : ∃ a, productForm.read (priced "a" (.int 5)) = .ok a ∧
    Goes Serves ((products.all.limit 0).toList (Handler.ofLayers deskLayers)).run desk
      (.done (.ok [])) desk ∧
    Goes Serves ((products.all.limit 0).first (Handler.ofLayers deskLayers)).run desk
      (.done (.ok (some a))) desk :=
  ⟨_, rfl, Job.goes_of_alone rfl, Job.goes_of_alone rfl⟩

end Shop

end LiveRecords

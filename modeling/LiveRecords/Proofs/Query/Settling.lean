import LiveRecords.Proofs.Query.Closure

/-
  The expansion of expanded paths.

  What is added for a path whose parent is there begins with the path itself, so that adding
  the new paths one after another adds just them again (`replays_of_parent`). Expanded paths
  come after their parents, so that expanding them a second time and a third time is the same
  (`expand_settles`).

  The first expansion need not be like the second. The parent of a requested path may bring
  that path along, as what its type requires; then the path comes earlier than what it
  requires itself, and where a type requires itself, the second expansion enters that type
  once more from there (`Filing.grandparent_unsettled`). Nothing of this happens if every
  requested path comes after its parent, or if no type requires itself: then a path that is
  brought along has all that it requires (`finishWith_of_served`).
-/

namespace LiveRecords

namespace Expansion

variable {c : Catalog} {entered : List String} {found grown paths : List PropertyPath}
  {p q : PropertyPath}

/-! ## Additions without effect -/

theorem foldl_errands_of_isIn {es : List (List String × PropertyPath)}
    (h : ∀ e ∈ es, isIn e.2 found = true) :
    es.foldl (fun found e => gather c e.1 found e.2) found = found := by
  induction es with
  | nil => rfl
  | cons e rest ih =>
    rw [List.foldl_cons, gather_of_isIn (h e List.mem_cons_self)]
    exact ih fun e' he => h e' (List.mem_cons_of_mem e he)

theorem foldl_of_isIn (h : ∀ p ∈ paths, isIn p found = true) :
    paths.foldl (gather c entered) found = found := by
  have herrands : ∀ e ∈ paths.map (entered, ·), isIn e.2 found = true := by
    simpa using h
  have hfoldl := foldl_errands_of_isIn herrands (c := c)
  rwa [List.foldl_map] at hfoldl

theorem isIn_foldl (placed : c.Placed) (h : isIn p paths = true) :
    isIn p (paths.foldl (gather c entered) found) = true := by
  obtain ⟨q, hq, hidentity⟩ := List.mem_map.1 (isIn_iff.1 h)
  exact isIn_congr hidentity.symm (isIn_foldl_gather placed hq)

/-- A path whose parent is there is only finished. -/
theorem gather_of_parent (placed : c.Placed) (hnew : ¬isIn p found = true)
    (hparent : ∀ q, p.parent? = some q → isIn q found = true) :
    gather c entered found p = finishWith c (gather c) entered found p := by
  have hopened : openWith (gather c) entered found p = found := by
    unfold openWith
    cases hq : p.parent? with
    | none => rfl
    | some q => exact gather_of_isIn (hparent q hq)
  rw [gather_of_new placed hnew, visitWith, hopened]

/-- Otherwise its parent comes first. -/
theorem gather_through_parent (placed : c.Placed) (hnew : ¬isIn p found = true)
    (hparent : p.parent? = some q) :
    gather c entered found p = finishWith c (gather c) entered (gather c entered found q) p := by
  rw [gather_of_new placed hnew, visitWith, openWith, hparent]
  rfl

/-- Nothing is left to do for a path that is served. -/
theorem finishWith_of_served (hin : isIn p found = true) (h : Served c found p) :
    finishWith c (gather c) entered found p = found := by
  have hput : put p found = found := if_pos hin
  unfold finishWith
  rw [hput]
  exact foldl_errands_of_isIn fun e he => h.isIn_of_calls (calls_of_errand he (.refl found) hin)

/-! ## Additions made again -/

/-- Adding the new paths one after another adds them again. -/
def Replays (c : Catalog) (found grown : List PropertyPath) : Prop :=
  ∃ new, grown = found ++ new ∧ new.foldl (gather c []) found = grown

theorem Replays.refl (found : List PropertyPath) : Replays c found found :=
  ⟨[], (List.append_nil found).symm, rfl⟩

theorem Replays.trans {later : List PropertyPath} (h : Replays c found grown)
    (k : Replays c grown later) : Replays c found later := by
  obtain ⟨new, rfl, hnew⟩ := h
  obtain ⟨more, rfl, hmore⟩ := k
  refine ⟨new ++ more, List.append_assoc .., ?_⟩
  rw [List.foldl_append, hnew, hmore]

theorem replays_of_parent (placed : c.Placed)
    (hparent : ∀ q, p.parent? = some q → isIn q found = true) :
    Replays c found (gather c [] found p) := by
  by_cases hin : isIn p found = true
  · rw [gather_of_isIn hin]
    exact .refl found
  · have hput : put p found = found ++ [p] := if_neg hin
    obtain ⟨rest, hrest⟩ := (grows_finishWith grows_gather [] found p).kept
    rw [hput, ← gather_of_parent placed hin hparent, List.append_assoc,
      List.singleton_append] at hrest
    refine ⟨p :: rest, hrest.symm, ?_⟩
    rw [List.foldl_cons]
    refine foldl_of_isIn fun q hq => isIn_of_mem ?_
    rw [← hrest]
    exact List.mem_append_right _ (List.mem_cons_of_mem p hq)

/-- If no type requires itself, a path that its parent brought along is served. -/
theorem replays_of_founded (linked : c.Linked) (founded : c.Founded)
    (hfound : ∀ q ∈ found, OnGraph c q) (hp : OnGraph c p) :
    Replays c found (gather c [] found p) := by
  induction hdepth : p.depth generalizing p with
  | zero => cases hdepth
  | succ n ih =>
    by_cases hin : isIn p found = true
    · rw [gather_of_isIn hin]
      exact .refl found
    cases hparent : p.parent? with
    | none => exact replays_of_parent linked.placed fun q hq => by rw [hparent] at hq; cases hq
    | some q =>
      have hq : OnGraph c q := (closed_onGraph linked.placed).parent hp hparent
      have hqdepth : q.depth = n := by
        rw [PropertyPath.eq_child_of_parent? hparent, PropertyPath.depth_child] at hdepth
        exact Nat.succ.inj hdepth
      have hreplays : Replays c found (gather c [] found q) := ih hq hqdepth
      have hthere : ∀ q', p.parent? = some q' → isIn q' (gather c [] found q) = true := by
        intro q' hq'
        obtain rfl := Option.some.inj (hparent.symm.trans hq')
        exact isIn_gather linked.placed [] found q
      rw [gather_through_parent linked.placed hin hparent]
      by_cases hbrought : isIn p (gather c [] found q) = true
      · have hserves := gather_serves linked founded [] found q (.inl rfl)
        have hgraph : ∀ x ∈ gather c [] found q, OnGraph c x :=
          (closed_onGraph linked.placed).add _ [] found q hfound hq
        have hserved := (hserves.served p (mem_of_isIn linked hgraph hp hbrought)).resolve_left
          fun hp => hin (isIn_of_mem hp)
        rwa [finishWith_of_served hbrought hserved]
      · rw [← gather_of_parent linked.placed hbrought hthere]
        exact hreplays.trans (replays_of_parent linked.placed hthere)

/-! ## Expansions made again -/

theorem replays_of_parentsFirst (placed : c.Placed) (h : ParentsFirst paths) :
    Replays c [] (paths.foldl (gather c []) []) := by
  induction paths using List.reverseRecOn with
  | nil => exact .refl []
  | append_singleton before p ih =>
    rw [List.foldl_append]
    have hbefore : ParentsFirst before := fun first p q hbegins =>
      h first p q (hbegins.trans (List.prefix_append ..))
    exact (ih hbefore).trans (replays_of_parent placed fun q hq =>
      isIn_foldl placed (h before p q (List.prefix_refl _) hq))

theorem replays_of_onGraph (linked : c.Linked) (founded : c.Founded)
    (h : ∀ p ∈ paths, OnGraph c p) : Replays c [] (paths.foldl (gather c []) []) := by
  induction paths using List.reverseRecOn with
  | nil => exact .refl []
  | append_singleton before p ih =>
    rw [List.foldl_append]
    have hbefore : ∀ q ∈ before, OnGraph c q := fun q hq => h q (List.mem_append_left _ hq)
    have hgraph : ∀ q ∈ before.foldl (gather c []) [], OnGraph c q :=
      forall_foldl (fun found p => (closed_onGraph linked.placed).add _ [] found p) nofun hbefore
    exact (ih hbefore).trans (replays_of_founded linked founded hgraph (h p (by simp)))

theorem expand_of_replays (placed : c.Placed) {requested : List PropertyPath}
    {result : Option EntityType} (h : Replays c [] (expand c requested result)) :
    expand c (expand c requested result) result = expand c requested result := by
  obtain ⟨new, hnew, hfoldl⟩ := h
  rw [List.nil_append] at hnew
  rw [← hnew] at hfoldl
  rw [expand_eq placed (expand c requested result), List.foldl_append, hfoldl]
  exact foldl_of_isIn fun p hp => isIn_expand placed (List.mem_append_right _ hp)

theorem parentsFirst_given {requested : List PropertyPath} (h : ParentsFirst requested)
    (result : Option EntityType) : ParentsFirst (requested ++ roots result) := by
  have hroots : ∀ p ∈ roots result, p.parent? = none := by
    cases result with
    | none => exact nofun
    | some t =>
      intro p hp
      obtain ⟨r, -, rfl⟩ := List.mem_map.1 hp
      rfl
  generalize roots result = more at hroots
  induction more using List.reverseRecOn with
  | nil => rwa [List.append_nil]
  | append_singleton before p ih =>
    rw [← List.append_assoc]
    refine (ih fun q hq => hroots q (List.mem_append_left _ hq)).concat fun q hq => ?_
    rw [hroots p (by simp)] at hq
    cases hq

/-- Expanding twice is expanding three times. Expanding once is expanding twice if every
requested path comes after its parent, or if no type requires itself. -/
theorem expand_settles (placed : c.Placed) (requested : List PropertyPath)
    (result : Option EntityType) :
    expand c (expand c (expand c requested result) result) result =
        expand c (expand c requested result) result ∧
      (ParentsFirst requested →
        expand c (expand c requested result) result = expand c requested result) ∧
      (c.Linked → c.Founded → (∀ p ∈ requested, OnGraph c p) → (∀ t ∈ result, t ∈ c.types) →
        expand c (expand c requested result) result = expand c requested result) := by
  have hfirst : ∀ requested, ParentsFirst requested →
      expand c (expand c requested result) result = expand c requested result := by
    intro requested h
    refine expand_of_replays placed ?_
    rw [expand_eq placed]
    exact replays_of_parentsFirst placed (parentsFirst_given h result)
  refine ⟨hfirst _ (parentsFirst_expand placed requested result), hfirst requested,
    fun linked founded hrequested hresult => expand_of_replays placed ?_⟩
  rw [expand_eq placed]
  exact replays_of_onGraph linked founded (onGraph_given hrequested hresult)

end Expansion

/-! ## Folders -/

namespace Filing

open Expansion

/-- The reference of folders to the folder that they are in. -/
def parent : Property := { name := "parent", type := .entity ⟨"Folder", 0⟩, mandatory := true }

/-- Folders; each is in another one. -/
def folder : EntityType :=
  ⟨"Folder", 0, [{ name := "id", type := .string, isKey := true }, parent]⟩

/-- The catalogue of folders alone. -/
def cabinet : Catalog := ⟨[folder]⟩

/-- The folder that the folder of a folder is in. -/
def grandparent : PropertyPath := (PropertyPath.root folder parent).child parent

/-- The folder that holds a folder brings along the one that holds that, which is requested
too and enters folders once more; expanded again, so does the last of what it adds. -/
theorem grandparent_unsettled :
    OnGraph cabinet grandparent ∧
      (expand cabinet [grandparent] (some folder)).map PropertyPath.names =
        [["parent"], ["parent", "id"], ["parent", "parent"], ["parent", "parent", "id"],
         ["parent", "parent", "parent"], ["id"]] ∧
      expand cabinet (expand cabinet [grandparent] (some folder)) (some folder) ≠
        expand cabinet [grandparent] (some folder) := by
  refine ⟨⟨folder, by decide, rfl, by decide, by decide, trivial⟩, rfl, fun h => ?_⟩
  exact absurd (congrArg List.length h) (by decide)

/-- The folder of a folder, and the one that it is in. -/
def lineage : List PropertyPath := [.root folder parent, grandparent]

theorem parentsFirst_lineage : ParentsFirst lineage := by
  refine (parentsFirst_nil.concat (p := .root folder parent) nofun).concat fun q hq => ?_
  cases hq
  exact isIn_of_mem List.mem_cons_self

/-- Requested after its parent the same path is expanded at once, and so are the paths of
invoices, whose types do not require themselves. -/
theorem lineage_settled :
    expand cabinet (expand cabinet lineage (some folder)) (some folder) =
        expand cabinet lineage (some folder) ∧
      expand Shop.ledger (expand Shop.ledger Shop.billed (some Shop.invoice)) (some Shop.invoice) =
        expand Shop.ledger Shop.billed (some Shop.invoice) := by
  have placed : cabinet.Placed := by
    unfold Catalog.Placed
    decide
  obtain ⟨-, hlineage, -⟩ := expand_settles placed lineage (some folder)
  obtain ⟨-, -, hbilled⟩ :=
    expand_settles Shop.linked_ledger.placed Shop.billed (some Shop.invoice)
  exact ⟨hlineage parentsFirst_lineage, hbilled Shop.linked_ledger Shop.acyclic_ledger.founded
    Shop.onGraph_billed (by decide)⟩

end Filing

end LiveRecords

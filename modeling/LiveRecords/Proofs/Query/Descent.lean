import Mathlib.Tactic.Ring
import LiveRecords.Proofs.Expr.Path
import LiveRecords.Proofs.Query.Widening

/-
  How deep the addition of a path nests.

  Adding a path leads up to its parent, aside to the paths that it is computed from, and
  down to what the type it leads to requires (`Calls`). Going up it gets shorter; going
  aside fewer of the properties beside it are missing; going down fewer types can still be
  entered. So the further calls end (`need_lt`), and with that much fuel or more the result
  does not depend on the fuel (`add_fuel_congr`). What is added then obeys an equation
  without fuel (`gather_of_new`) and an induction over the calls (`gather_induction`), and the
  expansion has fuel enough (`expand_eq`).
-/

namespace LiveRecords

namespace Expansion

variable {c : Catalog} {entered entered' : List String} {found found' : List PropertyPath}
  {p q : PropertyPath}

theorem isIn_iff : isIn p found = true ↔ p.identity ∈ found.map PropertyPath.identity := by
  unfold isIn
  rw [List.any_eq_true, List.mem_map]
  exact exists_congr fun q => and_congr_right fun _ => PropertyPath.same_iff.trans eq_comm

theorem isIn_of_mem (h : p ∈ found) : isIn p found = true := isIn_iff.2 (List.mem_map_of_mem h)

theorem isIn_congr (h : q.identity = p.identity) (hp : isIn p found = true) :
    isIn q found = true := by
  rw [isIn_iff] at hp ⊢
  rwa [h]

theorem isIn_cons : isIn q (p :: found) = true ↔ q.identity = p.identity ∨ isIn q found = true := by
  rw [isIn_iff, isIn_iff, List.map_cons, List.mem_cons]

theorem Grows.isIn (h : Grows found found') (hp : isIn p found = true) : isIn p found' = true :=
  isIn_iff.2 (List.map_subset _ h.kept.subset (isIn_iff.1 hp))

/-! ## Calls -/

/-- A path is put after the others unless it is there. -/
def put (p : PropertyPath) (found : List PropertyPath) : List PropertyPath :=
  if isIn p found then found else found ++ [p]

theorem grows_put (p : PropertyPath) (found : List PropertyPath) : Grows found (put p found) :=
  grows_append found p

theorem isIn_put (p : PropertyPath) (found : List PropertyPath) : isIn p (put p found) = true := by
  unfold put
  split
  · assumption
  · exact isIn_of_mem (by simp)

theorem mem_put (h : q ∈ put p found) : q ∈ found ∨ q = p := by
  unfold put at h
  split at h
  · exact .inl h
  · simpa using h

/-- A way of adding a path, with types that must not be entered and paths found before. -/
abbrev Adding := List String → List PropertyPath → PropertyPath → List PropertyPath

/-- The parent of a path is added. -/
def openWith (g : Adding) : Adding := fun entered found p =>
  (p.parent?.map (g entered found)).getD found

/-- The further paths that a path leads to once it is there, each with the types entered:
what it is computed from, and what the type it leads to requires. -/
def errands (c : Catalog) (entered : List String) (p : PropertyPath) :
    List (List String × PropertyPath) :=
  (inputs c p).map (entered, ·) ++
    match c.referenced? p.property with
    | none => []
    | some t =>
      if entered.contains t.name then []
      else t.alwaysRequired.map fun r => (t.name :: entered, p.child r)

/-- Once its parent is there, a path is put, and then the further ones are added. -/
def finishWith (c : Catalog) (g : Adding) : Adding := fun entered found p =>
  (errands c entered p).foldl (fun found e => g e.1 found e.2) (put p found)

/-- What is done for a path that is not there. -/
def visitWith (c : Catalog) (g : Adding) : Adding := fun entered found p =>
  finishWith c g entered (openWith g entered found p) p

theorem add_of_isIn (h : isIn p found = true) (fuel : Nat) (entered : List String) :
    add c fuel entered found p = found := by
  cases fuel with
  | zero => rfl
  | succ fuel => exact if_pos h

theorem add_succ (h : ¬isIn p found = true) (fuel : Nat) (entered : List String) :
    add c (fuel + 1) entered found p = visitWith c (add c fuel) entered found p := by
  refine (if_neg h).trans ?_
  unfold visitWith finishWith errands
  rw [List.foldl_append, List.foldl_map]
  cases c.referenced? p.property with
  | none => rfl
  | some t =>
    dsimp only
    split
    · rfl
    · rw [List.foldl_map, List.foldl_map]
      rfl

/-- The further calls that a path leads to, each with the types entered and the paths found
by then. -/
inductive Calls (c : Catalog) (entered : List String) (found : List PropertyPath)
    (p : PropertyPath) : List String → List PropertyPath → PropertyPath → Prop where
  | up {q : PropertyPath} (parent : p.parent? = some q) : Calls c entered found p entered found q
  | aside {found' : List PropertyPath} {q : PropertyPath} (input : q ∈ inputs c p)
      (grown : Grows found found') (there : isIn p found' = true) :
      Calls c entered found p entered found' q
  | down {found' : List PropertyPath} {t : EntityType} {r : Property}
      (leads : c.referenced? p.property = some t) (fresh : t.name ∉ entered)
      (required : r ∈ t.alwaysRequired) (grown : Grows found found')
      (there : isIn p found' = true) :
      Calls c entered found p (t.name :: entered) found' (p.child r)

theorem calls_of_errand {e : List String × PropertyPath} (h : e ∈ errands c entered p)
    (grown : Grows found found') (there : isIn p found' = true) :
    Calls c entered found p e.1 found' e.2 := by
  rcases List.mem_append.1 h with h | h
  · obtain ⟨q, hq, rfl⟩ := List.mem_map.1 h
    exact .aside hq grown there
  · cases ht : c.referenced? p.property with
    | none =>
      rw [ht] at h
      cases h
    | some t =>
      rw [ht] at h
      dsimp only at h
      split at h
      · cases h
      · next hfresh =>
        obtain ⟨r, hr, rfl⟩ := List.mem_map.1 h
        exact .down ht (by simpa using hfresh) hr grown there

theorem input_mem_errands (h : q ∈ inputs c p) : (entered, q) ∈ errands c entered p :=
  List.mem_append_left _ (List.mem_map_of_mem h)

theorem child_mem_errands {t : EntityType} {r : Property}
    (ht : c.referenced? p.property = some t) (fresh : t.name ∉ entered)
    (hr : r ∈ t.alwaysRequired) : (t.name :: entered, p.child r) ∈ errands c entered p := by
  refine List.mem_append_right _ ?_
  rw [ht]
  dsimp only
  rw [if_neg (by simpa using fresh)]
  exact List.mem_map_of_mem hr

section

variable {α : Type} {xs : List α} {g g' : List PropertyPath → α → List PropertyPath}

theorem foldl_keeps {I : List PropertyPath → Prop} (grows : ∀ found x, Grows found (g found x))
    (h : ∀ found' x, x ∈ xs → Grows found found' → I found' → I (g found' x))
    (hfound : I found) : I (xs.foldl g found) := by
  induction xs generalizing found with
  | nil => exact hfound
  | cons x rest ih =>
    exact ih (fun found' y hy hgrown =>
        h found' y (List.mem_cons_of_mem x hy) ((grows found x).trans hgrown))
      (h found x List.mem_cons_self (.refl found) hfound)

theorem grows_foldl (grows : ∀ found x, Grows found (g found x)) :
    Grows found (xs.foldl g found) :=
  foldl_keeps grows (fun found' x _ _ h => h.trans (grows found' x)) (.refl found)

theorem foldl_congr (grows : ∀ found x, Grows found (g found x))
    (h : ∀ found' x, x ∈ xs → Grows found found' → g found' x = g' found' x) :
    xs.foldl g found = xs.foldl g' found := by
  induction xs generalizing found with
  | nil => rfl
  | cons x rest ih =>
    rw [List.foldl_cons, List.foldl_cons, ← h found x List.mem_cons_self (.refl found)]
    exact ih fun found' y hy hgrown =>
      h found' y (List.mem_cons_of_mem x hy) ((grows found x).trans hgrown)

end

theorem openWith_keeps {I : List PropertyPath → Prop} {g : Adding} (hfound : I found)
    (h : ∀ q, p.parent? = some q → I (g entered found q)) : I (openWith g entered found p) := by
  unfold openWith
  cases hparent : p.parent? with
  | none => exact hfound
  | some q => exact h q hparent

section

variable {g g' : Adding} (grows : ∀ entered found p, Grows found (g entered found p))

include grows

theorem grows_openWith (entered : List String) (found : List PropertyPath) (p : PropertyPath) :
    Grows found (openWith g entered found p) :=
  openWith_keeps (.refl found) fun q _ => grows entered found q

theorem grows_finishWith (entered : List String) (found : List PropertyPath)
    (p : PropertyPath) : Grows (put p found) (finishWith c g entered found p) :=
  grows_foldl fun found e => grows e.1 found e.2

/-- What putting the path leaves true and the further calls keep is true once the path is
finished. -/
theorem finishWith_keeps {I : List PropertyPath → Prop} {opened : List PropertyPath}
    (hopened : Grows found opened)
    (h : ∀ entered' found' q, Calls c entered found p entered' found' q → I found' →
      I (g entered' found' q)) (hput : I (put p opened)) :
    I (finishWith c g entered opened p) := by
  have hgrows : Grows found (put p opened) := hopened.trans (grows_put p opened)
  refine foldl_keeps (fun found e => grows e.1 found e.2) (fun found' e he hgrown => ?_) hput
  exact h e.1 found' e.2
    (calls_of_errand he (hgrows.trans hgrown) (hgrown.isIn (isIn_put p opened)))

/-- The result depends on nothing but what the further calls add. -/
theorem visitWith_congr (h : ∀ entered' found' q, Calls c entered found p entered' found' q →
      g entered' found' q = g' entered' found' q) :
    visitWith c g entered found p = visitWith c g' entered found p := by
  have hopened : openWith g entered found p = openWith g' entered found p := by
    unfold openWith
    cases hparent : p.parent? with
    | none => rfl
    | some q => exact h entered found q (.up hparent)
  have hgrows := grows_openWith grows entered found p
  unfold visitWith
  rw [← hopened]
  generalize openWith g entered found p = opened at hgrows
  have hput : Grows found (put p opened) := hgrows.trans (grows_put p opened)
  refine foldl_congr (fun found e => grows e.1 found e.2) fun found' e he hgrown => ?_
  exact h e.1 found' e.2
    (calls_of_errand he (hput.trans hgrown) (hgrown.isIn (isIn_put p opened)))

end

/-! ## How often calls nest -/

theorem declaring?_of_parent (h : p.parent? = some q) :
    declaring? c p = c.referenced? q.property := by
  unfold declaring?
  rw [h]

theorem sibling?_of_parent (h : p.parent? = some q) (r : Property) :
    sibling? c p r = some (q.child r) := by
  unfold sibling?
  rw [h]

theorem sibling?_of_root {t : EntityType} (h : p.parent? = none) (ht : declaring? c p = some t)
    (r : Property) : sibling? c p r = some (.root t r) := by
  unfold sibling?
  rw [h, ht]
  rfl

theorem mem_of_declaring? {t : EntityType} {r : Property} (h : declaring? c p = some t)
    (hr : r ∈ t.properties) : t ∈ c.types := by
  unfold declaring? at h
  split at h
  · exact Catalog.mem_of_resolve h hr
  · exact Catalog.mem_of_resolve h hr

/-- The paths to the properties of the type that declares the last one of a path. -/
def siblings (c : Catalog) (p : PropertyPath) : List PropertyPath :=
  match declaring? c p with
  | none => []
  | some t => t.properties.filterMap (sibling? c p)

theorem siblings_of_declaring? {t : EntityType} (h : declaring? c p = some t) :
    siblings c p = t.properties.filterMap (sibling? c p) := by
  unfold siblings
  rw [h]

theorem mem_siblings :
    q ∈ siblings c p ↔
      ∃ t, declaring? c p = some t ∧ ∃ r ∈ t.properties, sibling? c p r = some q := by
  unfold siblings
  cases declaring? c p with
  | none => simp
  | some t => simp

theorem mem_siblings_of_input (h : q ∈ inputs c p) : q ∈ siblings c p := by
  unfold inputs at h
  cases ht : declaring? c p with
  | none =>
    rw [ht] at h
    cases h
  | some t =>
    rw [ht] at h
    obtain ⟨name, -, hname⟩ := List.mem_filterMap.1 h
    obtain ⟨r, hr, hq⟩ := Option.bind_eq_some_iff.1 hname
    exact mem_siblings.2 ⟨t, ht, r, List.mem_of_find?_eq_some hr, hq⟩

/-- Paths aside have the same siblings. -/
theorem siblings_eq (placed : c.Placed) (h : q ∈ siblings c p) : siblings c q = siblings c p := by
  obtain ⟨t, ht, r, hr, hq⟩ := mem_siblings.1 h
  cases hparent : p.parent? with
  | some parent =>
    rw [sibling?_of_parent hparent] at hq
    cases hq
    have hchild := PropertyPath.parent?_child parent r
    have ht' : declaring? c (parent.child r) = some t := by
      rw [declaring?_of_parent hchild, ← declaring?_of_parent hparent, ht]
    rw [siblings_of_declaring? ht, siblings_of_declaring? ht',
      funext (sibling?_of_parent hchild), funext (sibling?_of_parent hparent)]
  | none =>
    rw [sibling?_of_root hparent ht] at hq
    cases hq
    have ht' : declaring? c (.root t r) = some t :=
      congrArg some (Catalog.resolve_ref placed (mem_of_declaring? ht hr))
    rw [siblings_of_declaring? ht, siblings_of_declaring? ht',
      funext (sibling?_of_root (PropertyPath.parent?_root t r) ht'),
      funext (sibling?_of_root hparent ht)]

theorem depth_of_sibling (h : q ∈ siblings c p) : q.depth = p.depth := by
  obtain ⟨t, ht, r, -, hq⟩ := mem_siblings.1 h
  cases hparent : p.parent? with
  | some parent =>
    rw [sibling?_of_parent hparent] at hq
    cases hq
    rw [PropertyPath.eq_child_of_parent? hparent, PropertyPath.depth_child,
      PropertyPath.depth_child]
  | none =>
    rw [sibling?_of_root hparent ht] at hq
    cases hq
    unfold PropertyPath.depth
    rw [PropertyPath.parents_eq_nil hparent]
    rfl

/-- How many of the siblings are missing, the path itself left out. -/
def missing (c : Catalog) (found : List PropertyPath) (p : PropertyPath) : Nat :=
  (siblings c p).countP fun q => !isIn q (p :: found)

/-- How many of the types can still be entered. -/
def enterable (c : Catalog) (entered : List String) : Nat :=
  c.types.countP fun t => !entered.contains t.name

/-- One more than the number of all properties. -/
def width (c : Catalog) : Nat := c.types.foldl (fun n t => n + t.properties.length) 1

/-- A bound on how often calls nest. -/
def need (c : Catalog) (entered : List String) (found : List PropertyPath) (p : PropertyPath) :
    Nat :=
  2 * enterable c entered * width c + p.depth * width c + missing c found p + 1

theorem countP_lt {α : Type} {l : List α} {few many : α → Bool}
    (h : ∀ x ∈ l, few x = true → many x = true) {x : α} (hx : x ∈ l) (hfew : few x = false)
    (hmany : many x = true) : l.countP few < l.countP many := by
  obtain ⟨before, after, rfl⟩ := List.append_of_mem hx
  have hbefore : before.countP few ≤ before.countP many :=
    List.countP_mono_left fun y hy => h y (by simp [hy])
  have hafter : after.countP few ≤ after.countP many :=
    List.countP_mono_left fun y hy => h y (by simp [hy])
  simp only [List.countP_append, List.countP_cons, hfew, hmany, if_true, Bool.false_eq_true,
    if_false]
  omega

theorem length_lt_width {t : EntityType} (h : t ∈ c.types) : t.properties.length < width c := by
  have hfoldl : ∀ (types : List EntityType) n,
      n ≤ types.foldl (fun n t => n + t.properties.length) n ∧
        ∀ t ∈ types,
          n + t.properties.length ≤ types.foldl (fun n t => n + t.properties.length) n := by
    intro types
    induction types with
    | nil => exact fun n => ⟨Nat.le_refl n, nofun⟩
    | cons first rest ih =>
      intro n
      obtain ⟨hle, hrest⟩ := ih (n + first.properties.length)
      rw [List.foldl_cons]
      refine ⟨by omega, fun t ht => ?_⟩
      rcases List.mem_cons.1 ht with rfl | ht
      · exact hle
      · have := hrest t ht
        omega
  have hle := (hfoldl c.types 1).2 t h
  unfold width
  omega

theorem width_pos (c : Catalog) : 0 < width c := by
  unfold width
  cases htypes : c.types with
  | nil => exact Nat.one_pos
  | cons t rest =>
    have hlt := length_lt_width (c := c) (t := t) (by simp [htypes])
    unfold width at hlt
    rw [htypes] at hlt
    omega

theorem missing_lt_width (c : Catalog) (found : List PropertyPath) (p : PropertyPath) :
    missing c found p < width c := by
  have hlength : (siblings c p).length < width c := by
    cases ht : declaring? c p with
    | none =>
      unfold siblings
      rw [ht]
      exact width_pos c
    | some t =>
      rw [siblings_of_declaring? ht]
      refine Nat.lt_of_le_of_lt (List.length_filterMap_le ..) ?_
      cases hproperties : t.properties with
      | nil => exact width_pos c
      | cons r rest =>
        have hr : r ∈ t.properties := by simp [hproperties]
        rw [← hproperties]
        exact length_lt_width (mem_of_declaring? ht hr)
  exact Nat.lt_of_le_of_lt List.countP_le_length hlength

/-- Of the siblings that a path aside misses, the path missed them too, and that one. -/
theorem missing_lt_of_input (placed : c.Placed) (h : q ∈ inputs c p)
    (grown : Grows found found') (there : isIn p found' = true) (hnew : ¬isIn q found' = true) :
    missing c found' q < missing c found p := by
  have hsibling := mem_siblings_of_input h
  have hthere : ∀ x, isIn x (p :: found) = true → isIn x found' = true := by
    intro x hx
    rcases isIn_cons.1 hx with hx | hx
    · exact isIn_congr hx there
    · exact grown.isIn hx
  unfold missing
  rw [siblings_eq placed hsibling]
  refine countP_lt (fun x _ hx => ?_) hsibling ?_ ?_
  · rw [Bool.not_eq_true', Bool.eq_false_iff] at hx ⊢
    exact fun hin => hx (isIn_cons.2 (.inr (hthere x hin)))
  · rw [Bool.not_eq_false']
    exact isIn_of_mem List.mem_cons_self
  · rw [Bool.not_eq_true', Bool.eq_false_iff]
    exact fun hin => hnew (hthere q hin)

theorem enterable_lt {t : EntityType} (h : t ∈ c.types) (fresh : t.name ∉ entered) :
    enterable c (t.name :: entered) < enterable c entered := by
  refine countP_lt (fun x _ hx => ?_) h (by simp) (by simpa using fresh)
  simp only [Bool.not_eq_true', List.contains_eq_mem, decide_eq_false_iff_not,
    List.mem_cons] at hx ⊢
  exact fun hin => hx (.inr hin)

/-- Every further call needs less, unless it finds its path there. -/
theorem need_lt (placed : c.Placed) (h : Calls c entered found p entered' found' q)
    (hnew : ¬isIn q found' = true) : need c entered' found' q < need c entered found p := by
  have hmissing := missing_lt_width c found' q
  unfold need
  cases h with
  | up parent =>
    have hdepth : p.depth = q.depth + 1 := by
      rw [PropertyPath.eq_child_of_parent? parent, PropertyPath.depth_child]
    rw [hdepth, Nat.add_mul]
    omega
  | aside input grown there =>
    have hlt := missing_lt_of_input placed input grown there hnew
    rw [depth_of_sibling (mem_siblings_of_input input)]
    omega
  | @down found' t r leads fresh required grown there =>
    have hlt := enterable_lt
      (Catalog.mem_of_resolve leads (List.mem_of_mem_filter required)) fresh
    have hle : (enterable c (t.name :: entered) + 1) * width c ≤ enterable c entered * width c :=
      Nat.mul_le_mul_right _ hlt
    rw [Nat.add_mul] at hle
    rw [PropertyPath.depth_child, Nat.add_mul, Nat.mul_assoc, Nat.mul_assoc]
    omega

/-! ## Adding without fuel -/

/-- With fuel enough the result does not depend on the fuel. -/
theorem add_fuel_congr (placed : c.Placed) {fuel more : Nat}
    (h : need c entered found p ≤ fuel) (h' : need c entered found p ≤ more) :
    add c fuel entered found p = add c more entered found p := by
  induction fuel generalizing more entered found p with
  | zero => exact absurd h (by unfold need; omega)
  | succ fuel ih =>
    cases more with
    | zero => exact absurd h' (by unfold need; omega)
    | succ more =>
      by_cases hin : isIn p found = true
      · rw [add_of_isIn hin, add_of_isIn hin]
      · rw [add_succ hin, add_succ hin]
        refine visitWith_congr (fun entered found p => (grows_add fuel entered found p).1)
          fun entered' found' q hcalls => ?_
        by_cases hthere : isIn q found' = true
        · rw [add_of_isIn hthere, add_of_isIn hthere]
        · have hlt := need_lt placed hcalls hthere
          exact ih (by omega) (by omega)

/-- Adds a path and all that it needs to the paths found. -/
def gather (c : Catalog) : Adding := fun entered found p =>
  add c (need c entered found p) entered found p

theorem grows_gather (entered : List String) (found : List PropertyPath) (p : PropertyPath) :
    Grows found (gather c entered found p) := (grows_add _ entered found p).1

theorem gather_of_isIn (h : isIn p found = true) : gather c entered found p = found :=
  add_of_isIn h _ entered

theorem gather_of_new (placed : c.Placed) (h : ¬isIn p found = true) :
    gather c entered found p = visitWith c (gather c) entered found p := by
  have hfuel : need c entered found p ≤ need c entered found p + 1 := Nat.le_succ _
  have hadd : gather c entered found p =
      visitWith c (add c (need c entered found p)) entered found p :=
    (add_fuel_congr placed (Nat.le_refl _) hfuel).trans (add_succ h _ _)
  rw [hadd]
  refine visitWith_congr (fun entered found p => (grows_add _ entered found p).1)
    fun entered' found' q hcalls => ?_
  by_cases hthere : isIn q found' = true
  · rw [add_of_isIn hthere, gather_of_isIn hthere]
  · exact add_fuel_congr placed (need_lt placed hcalls hthere).le (Nat.le_refl _)

/-- What holds of a call if it holds of the further calls holds of every call. -/
theorem gather_induction (placed : c.Placed)
    {motive : List String → List PropertyPath → PropertyPath → Prop}
    (there : ∀ entered found p, isIn p found = true → motive entered found p)
    (visit : ∀ entered found p, ¬isIn p found = true →
      (∀ entered' found' q, Calls c entered found p entered' found' q →
        motive entered' found' q) → motive entered found p)
    (entered : List String) (found : List PropertyPath) (p : PropertyPath) :
    motive entered found p := by
  generalize hneed : need c entered found p = n
  induction n using Nat.strong_induction_on generalizing entered found p with
  | _ n ih =>
    by_cases hin : isIn p found = true
    · exact there entered found p hin
    · refine visit entered found p hin fun entered' found' q hcalls => ?_
      by_cases hthere : isIn q found' = true
      · exact there entered' found' q hthere
      · exact ih _ (hneed ▸ need_lt placed hcalls hthere) entered' found' q rfl

theorem isIn_gather (placed : c.Placed) (entered : List String) (found : List PropertyPath)
    (p : PropertyPath) : isIn p (gather c entered found p) = true := by
  by_cases hin : isIn p found = true
  · rwa [gather_of_isIn hin]
  · rw [gather_of_new placed hin]
    exact (grows_finishWith grows_gather entered _ p).isIn (isIn_put p _)

theorem isIn_openWith (placed : c.Placed) (entered : List String) (found : List PropertyPath)
    (h : p.parent? = some q) : isIn q (openWith (gather c) entered found p) = true := by
  unfold openWith
  rw [h]
  exact isIn_gather placed entered found q

theorem isIn_foldl_errands (placed : c.Placed) {es : List (List String × PropertyPath)}
    {e : List String × PropertyPath} (h : e ∈ es) :
    isIn e.2 (es.foldl (fun found e => gather c e.1 found e.2) found) = true := by
  obtain ⟨before, after, rfl⟩ := List.append_of_mem h
  rw [List.foldl_append, List.foldl_cons]
  have hgrows := fun found (e : List String × PropertyPath) => grows_gather (c := c) e.1 found e.2
  exact (grows_foldl hgrows).isIn (isIn_gather placed e.1 _ e.2)

theorem isIn_finishWith (placed : c.Placed) {e : List String × PropertyPath}
    (h : e ∈ errands c entered p) : isIn e.2 (finishWith c (gather c) entered found p) = true :=
  isIn_foldl_errands placed h

theorem isIn_foldl_gather (placed : c.Placed) {paths : List PropertyPath} (h : p ∈ paths) :
    isIn p (paths.foldl (gather c entered) found) = true := by
  have hmem : (entered, p) ∈ paths.map (entered, ·) := List.mem_map_of_mem h
  have hin : isIn p ((paths.map (entered, ·)).foldl
      (fun found e => gather c e.1 found e.2) found) = true := isIn_foldl_errands placed hmem
  rwa [List.foldl_map] at hin

/-! ## The expansion -/

theorem depth_le {paths : List PropertyPath} (h : p ∈ paths) : p.depth ≤ depth paths := by
  have hfoldl : ∀ (paths : List PropertyPath) n,
      n ≤ paths.foldl (fun n p => max n p.depth) n ∧
        ∀ p ∈ paths, p.depth ≤ paths.foldl (fun n p => max n p.depth) n := by
    intro paths
    induction paths with
    | nil => exact fun n => ⟨Nat.le_refl n, nofun⟩
    | cons first rest ih =>
      intro n
      obtain ⟨hle, hrest⟩ := ih (max n first.depth)
      refine ⟨(Nat.le_max_left ..).trans hle, fun p hp => ?_⟩
      rcases List.mem_cons.1 hp with rfl | hp
      · exact (Nat.le_max_right ..).trans hle
      · exact hrest p hp
  exact (hfoldl paths 0).2 p h

theorem need_le_fuelFor {paths : List PropertyPath} (h : p ∈ paths) :
    need c entered found p ≤ fuelFor c paths := by
  have hdepth := Nat.mul_le_mul_right (width c) (depth_le h)
  have hmissing := missing_lt_width c found p
  have henterable : enterable c entered ≤ c.types.length := List.countP_le_length
  have hwidth : 2 * enterable c entered * width c ≤ 2 * c.types.length * width c :=
    Nat.mul_le_mul_right _ (Nat.mul_le_mul_left 2 henterable)
  have hfuel : fuelFor c paths = (depth paths + (c.types.length + 1) + 1) * (width c + 2) *
      (c.types.length + 1 + 1) + depth paths + 2 := rfl
  calc need c entered found p
      ≤ 2 * c.types.length * width c + depth paths * width c + width c := by
        unfold need
        omega
    _ ≤ (depth paths + (c.types.length + 1) + 1) * width c * 2 := by
        ring_nf
        omega
    _ ≤ (depth paths + (c.types.length + 1) + 1) * (width c + 2) * (c.types.length + 1 + 1) :=
        Nat.mul_le_mul (Nat.mul_le_mul_left _ (by omega)) (by omega)
    _ ≤ fuelFor c paths := by omega

/-- The paths that a result type requires by itself. -/
def roots : Option EntityType → List PropertyPath
  | some t => t.alwaysRequired.map (PropertyPath.root t)
  | none => []

/-- The expansion adds the requested paths and those that the result type requires, one
after another. -/
theorem expand_eq (placed : c.Placed) (requested : List PropertyPath)
    (result : Option EntityType) :
    expand c requested result = (requested ++ roots result).foldl (gather c []) [] := by
  have hexpand : expand c requested result = (requested ++ roots result).foldl
      (add c (fuelFor c (requested ++ roots result)) []) [] := by
    cases result <;> rfl
  rw [hexpand]
  refine foldl_congr (fun found p => (grows_add _ [] found p).1) fun found p hp _ => ?_
  exact add_fuel_congr placed (need_le_fuelFor hp) (Nat.le_refl _)

theorem isIn_expand (placed : c.Placed) {requested : List PropertyPath}
    {result : Option EntityType} (h : p ∈ requested ++ roots result) :
    isIn p (expand c requested result) = true := by
  rw [expand_eq placed]
  exact isIn_foldl_gather placed h

/-- What holds of the requested paths and of those that the result type requires, and goes
on to hold of what they need, holds of all expanded paths. -/
theorem Closed.forall_expand (placed : c.Placed) {P : PropertyPath → Prop} (h : Closed c P)
    {requested : List PropertyPath} {result : Option EntityType}
    (hgiven : ∀ p ∈ requested ++ roots result, P p) :
    ∀ p ∈ Expansion.expand c requested result, P p := by
  rw [expand_eq placed]
  exact forall_foldl (fun found p => h.add _ [] found p) nofun hgiven

end Expansion

end LiveRecords

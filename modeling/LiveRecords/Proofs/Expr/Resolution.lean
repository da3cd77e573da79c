import Mathlib.Data.List.Induction
import Mathlib.Data.String.Basic
import LiveRecords.Proofs.Expr.Path

/-
  Paths and their texts.

  A text is split at its points, and each part has to name a property: the first part one of
  the type that the path starts from, every other one a property of the type that the part
  before it refers to. So what is read are just the chains that `root` and `child` build of
  properties which their types find by name, as long as no name has a point in it (`Chain`), and
  a chain is read from its own text and from no other one (`ofText_eq_ok_iff`). Reading goes down
  from the first part and parents are found from the last one, and it makes no difference how
  often the types refer back to each other: both follow the same chain
  (`ofText_round_trip`).
-/

namespace LiveRecords

/-! ## Texts with points -/

namespace Points

/-- Looking for the text of one point is looking for that character. -/
theorem splitOnAux_eq (s : String) (b i : String.Pos.Raw) (parts : List String) :
    String.splitOnAux s "." b i 0 parts = String.splitAux s (· == '.') b i parts := by
  have hfirst : String.Pos.Raw.get "." 0 = '.' := rfl
  have hnext : String.Pos.Raw.next "." 0 = ⟨1⟩ := rfl
  have hend : String.Pos.Raw.atEnd "." ⟨1⟩ = true := rfl
  fun_induction String.splitAux s (· == '.') b i parts with
  | case1 b i parts hstop => rw [String.splitOnAux, if_pos hstop]
  | case2 b i parts hgoes _ hpoint after ih =>
    have hchar : String.Pos.Raw.get s i = '.' := beq_iff_eq.1 hpoint
    -- a point is one byte long
    have hback : (String.Pos.Raw.next s i).unoffsetBy ⟨1⟩ = i := by
      show String.Pos.Raw.mk _ = _
      simp only [String.Pos.Raw.next, hchar]
      rfl
    rw [String.splitOnAux, if_neg hgoes, hfirst, if_pos hpoint, hnext, if_pos hend]
    simp only [hback]
    exact ih
  | case3 b i parts hgoes _ hother ih =>
    rw [String.splitOnAux, if_neg hgoes, hfirst, if_neg hother]
    exact ih

theorem splitOn_eq (s : String) : s.splitOn "." = (s.toList.splitOn '.').map String.ofList := by
  rw [String.splitOn, if_neg (by decide), splitOnAux_eq]
  exact String.splitToList_of_valid s (· == '.')

theorem intercalate_splitOn (s : String) : ".".intercalate (s.splitOn ".") = s := by
  rw [← String.toList_inj, String.toList_intercalate, splitOn_eq, List.map_map]
  have hback : String.toList ∘ String.ofList = id := funext fun _ => String.toList_ofList
  rw [hback, List.map_id]
  exact List.intercalate_splitOn '.'

theorem splitOn_intercalate {names : List String} (hne : names ≠ [])
    (plain : ∀ name ∈ names, '.' ∉ name.toList) : (".".intercalate names).splitOn "." = names := by
  have hchars : (".".intercalate names).toList.splitOn '.' = names.map String.toList := by
    rw [String.toList_intercalate]
    refine List.splitOn_intercalate '.' (fun chars hchars => ?_) (by simpa using hne)
    obtain ⟨name, hname, rfl⟩ := List.mem_map.1 hchars
    exact plain name hname
  rw [splitOn_eq, hchars, List.map_map]
  have hback : String.ofList ∘ String.toList = id := funext fun _ => String.ofList_toList
  rw [hback, List.map_id]

theorem not_mem_of_splitOn (cs : List Char) : ∀ part ∈ cs.splitOn '.', '.' ∉ part := by
  induction cs with
  | nil => simp
  | cons c rest ih =>
    rw [List.splitOn_cons_eq_if_modifyHead]
    split
    · simpa using ih
    · next hother =>
      cases hparts : rest.splitOn '.' with
      | nil => simp
      | cons first others =>
        rw [hparts] at ih
        obtain ⟨hfirst, hothers⟩ := List.forall_mem_cons.1 ih
        refine List.forall_mem_cons.2 ⟨?_, hothers⟩
        rw [List.mem_cons, not_or]
        exact ⟨fun hpoint => hother (beq_iff_eq.2 hpoint.symm), hfirst⟩

theorem plain_of_mem_splitOn {s name : String} (h : name ∈ s.splitOn ".") :
    '.' ∉ name.toList := by
  rw [splitOn_eq] at h
  obtain ⟨part, hpart, rfl⟩ := List.mem_map.1 h
  rw [String.toList_ofList]
  exact not_mem_of_splitOn s.toList part hpart

end Points

namespace PropertyPath

variable {c : Catalog} {t : EntityType} {owner : Option EntityType} {path : String}
  {found ps : List Property} {names : List String} {p : PropertyPath} {r : Property}

/-! ## Properties found by name -/

/-- Each property is the one that its type finds by its name; the first is a property of `owner`,
every other one of the type that the property before it refers to. -/
def Found (c : Catalog) : Option EntityType → List Property → Prop
  | _, [] => True
  | none, _ :: _ => False
  | some t, r :: rest => t.property? r.name = some r ∧ Found c (c.referenced? r) rest

theorem name_of_property? {name : String} (h : t.property? name = some r) : r.name = name := by
  unfold EntityType.property? at h
  have hname := List.find?_some h
  exact beq_iff_eq.1 hname

/-- Going down some names adds the properties with these names that are found one after
another. -/
theorem resolve_eq_ok_iff :
    resolve c path owner found names = .ok ps ↔
      ∃ more, ps = found ++ more ∧ more.map (·.name) = names ∧ Found c owner more := by
  induction names generalizing owner found with
  | nil =>
    show Except.ok found = .ok ps ↔ _
    rw [Except.ok.injEq]
    constructor
    · rintro rfl
      exact ⟨[], (List.append_nil found).symm, rfl, trivial⟩
    · rintro ⟨more, rfl, hnames, -⟩
      rw [List.map_eq_nil_iff.1 hnames, List.append_nil]
  | cons name rest ih =>
    cases owner with
    | none =>
      refine ⟨nofun, ?_⟩
      rintro ⟨more, -, hnames, hfound⟩
      obtain ⟨r, others, rfl, -, -⟩ := List.map_eq_cons_iff.1 hnames
      exact hfound.elim
    | some t =>
      unfold resolve
      cases hr : t.property? name with
      | none =>
        refine ⟨nofun, ?_⟩
        rintro ⟨more, -, hnames, hfound⟩
        obtain ⟨r, others, rfl, rfl, -⟩ := List.map_eq_cons_iff.1 hnames
        rw [hfound.1] at hr
        cases hr
      | some r =>
        show resolve c path (c.referenced? r) (found ++ [r]) rest = .ok ps ↔ _
        rw [ih]
        obtain rfl := name_of_property? hr
        constructor
        · rintro ⟨more, rfl, rfl, hmore⟩
          exact ⟨r :: more, by simp, rfl, hr, hmore⟩
        · rintro ⟨more, rfl, hnames, hfound⟩
          obtain ⟨r', others, rfl, hname, rfl⟩ := List.map_eq_cons_iff.1 hnames
          obtain ⟨hr', hothers⟩ := hfound
          rw [hname, hr] at hr'
          cases hr'
          exact ⟨others, by simp, rfl, hothers⟩

/-- The type whose properties may come next. -/
def ownerAfter (c : Catalog) (owner : Option EntityType) (ps : List Property) :
    Option EntityType :=
  match ps.getLast? with
  | none => owner
  | some last => c.referenced? last

theorem ownerAfter_segments (c : Catalog) (owner : Option EntityType) (p : PropertyPath) :
    ownerAfter c owner p.segments = c.referenced? p.property := by
  unfold ownerAfter segments
  rw [List.getLast?_concat]

theorem found_concat :
    Found c owner (ps ++ [r]) ↔
      Found c owner ps ∧ ∃ u, ownerAfter c owner ps = some u ∧ u.property? r.name = some r := by
  induction ps generalizing owner with
  | nil =>
    cases owner with
    | none => simp [Found, ownerAfter]
    | some t => simp [Found, ownerAfter]
  | cons first rest ih =>
    cases owner with
    | none => simp [Found]
    | some t =>
      have hafter : ownerAfter c (some t) (first :: rest) =
          ownerAfter c (c.referenced? first) rest := by
        cases rest with
        | nil => rfl
        | cons second others => simp [ownerAfter, List.getLast?_cons]
      show _ ∧ Found c (c.referenced? first) (rest ++ [r]) ↔ (_ ∧ _) ∧ _
      rw [ih, hafter, and_assoc]

/-! ## Chains -/

/-- A path that `root` and `child` build of properties which their types find by name; no name
has a point in it. -/
inductive Chain (c : Catalog) (t : EntityType) : PropertyPath → Prop where
  | root {r : Property} (found : t.property? r.name = some r) (plain : '.' ∉ r.name.toList) :
      Chain c t (.root t r)
  | child {p : PropertyPath} {u : EntityType} {r : Property} (above : Chain c t p)
      (leads : c.referenced? p.property = some u) (found : u.property? r.name = some r)
      (plain : '.' ∉ r.name.toList) : Chain c t (p.child r)

theorem names_child (p : PropertyPath) (r : Property) : (p.child r).names = p.names ++ [r.name] :=
  List.map_append

/-- Chains are built at their end; their properties are found from the first one on. -/
theorem chain_iff :
    Chain c t p ↔ p.rootType = t.asType ∧ Found c (some t) p.segments ∧
      ∀ name ∈ p.names, '.' ∉ name.toList := by
  constructor
  · intro h
    induction h with
    | root hr plain => exact ⟨rfl, ⟨hr, trivial⟩, by simpa [names, segments, root] using plain⟩
    | @child p u r above leads hr plain ih =>
      obtain ⟨hroot, hfound, hplain⟩ := ih
      refine ⟨hroot, ?_, fun name hname => ?_⟩
      · refine found_concat.2 ⟨hfound, u, ?_, hr⟩
        exact (ownerAfter_segments c _ p).trans leads
      · rw [names_child, List.mem_append, List.mem_singleton] at hname
        rcases hname with hname | rfl
        · exact hplain name hname
        · exact plain
  · obtain ⟨rootType, parents, property⟩ := p
    rintro ⟨rfl, hfound, hplain⟩
    -- a chain is taken apart at its end
    induction parents using List.reverseRecOn generalizing property with
    | nil => exact .root hfound.1 (hplain _ (by simp [names, segments]))
    | append_singleton above last ih =>
      obtain ⟨habove, u, hleads, hr⟩ := found_concat.1 hfound
      have hplain : ∀ name ∈ (child ⟨t.asType, above, last⟩ property).names,
          '.' ∉ name.toList := hplain
      rw [names_child] at hplain
      obtain ⟨hupper, hlower⟩ := List.forall_mem_append.1 hplain
      refine .child (ih last habove hupper) ?_ hr (hlower _ List.mem_cons_self)
      rwa [← ownerAfter_segments c (some t)]

/-! ## Reading -/

theorem ofText_eq_ok_of_resolve :
    ofText c t path = .ok p ↔
      p.rootType = t.asType ∧ resolve c path (some t) [] (path.splitOn ".") = .ok p.segments := by
  obtain ⟨rootType, parents, property⟩ := p
  unfold ofText
  cases resolve c path (some t) [] (path.splitOn ".") with
  | error failure =>
    constructor
    · intro h
      cases h
    · rintro ⟨-, h⟩
      cases h
  | ok found =>
    simp only [bind, Except.bind, Except.ok.injEq, segments]
    cases hlast : found.getLast? with
    | none =>
      constructor
      · intro h
        cases h
      · rintro ⟨-, rfl⟩
        simp at hlast
    | some last =>
      obtain ⟨above, rfl⟩ := List.getLast?_eq_some_iff.1 hlast
      rw [List.append_singleton_inj, List.dropLast_concat]
      simp [pure, Except.pure, eq_comm]

theorem names_eq_splitOn_iff :
    p.names = path.splitOn "." ↔ p.text = path ∧ ∀ name ∈ p.names, '.' ∉ name.toList := by
  constructor
  · intro h
    rw [text_eq, h]
    exact ⟨Points.intercalate_splitOn path, fun name => Points.plain_of_mem_splitOn⟩
  · rintro ⟨rfl, plain⟩
    exact (Points.splitOn_intercalate p.names_ne_nil plain).symm

/-- What is read from a text are the chains that have this text. -/
theorem ofText_eq_ok_iff : ofText c t path = .ok p ↔ Chain c t p ∧ p.text = path := by
  have hresolve : resolve c path (some t) [] (path.splitOn ".") = .ok p.segments ↔
      p.names = path.splitOn "." ∧ Found c (some t) p.segments := by
    rw [resolve_eq_ok_iff]
    constructor
    · rintro ⟨more, hmore, hnames, hfound⟩
      obtain rfl : p.segments = more := hmore
      exact ⟨hnames, hfound⟩
    · rintro ⟨hnames, hfound⟩
      exact ⟨p.segments, rfl, hnames, hfound⟩
  rw [ofText_eq_ok_of_resolve, hresolve, names_eq_splitOn_iff, chain_iff]
  tauto

/-! ## Expressions of paths -/

theorem chain?_foldl (type : ValueType) (ps below : List Property) :
    chain? below (ps.foldl Expr.property (.argument type)) = some (type, ps ++ below) := by
  induction ps using List.reverseRecOn generalizing below with
  | nil => rfl
  | append_singleton above last ih =>
    rw [List.foldl_append]
    show chain? (last :: below) (above.foldl Expr.property (.argument type)) = _
    rw [ih, List.append_assoc]
    rfl

/-- A path is told by its expression. -/
theorem ofExpr_expr (p : PropertyPath) : ofExpr p.expr = .ok p := by
  have hexpr : p.expr = .property (p.parents.foldl Expr.property (.argument p.rootType))
      p.property := by
    unfold expr segments
    rw [List.foldl_append]
    rfl
  rw [hexpr]
  unfold ofExpr
  simp only [chain?_foldl, List.append_nil]

/-! ## Round trips -/

theorem Chain.parent {q : PropertyPath} (h : Chain c t p) (hq : p.parent? = some q) :
    Chain c t q := by
  cases h with
  | root => cases hq
  | child above =>
    rw [parent?_child] at hq
    cases hq
    exact above

theorem depth_eq (p : PropertyPath) : p.depth = p.names.length := by
  simp [depth, names, segments]

theorem parent?_eq_none_iff : p.parent? = none ↔ p.depth = 1 := by
  constructor
  · intro h
    unfold depth
    rw [parents_eq_nil h]
    rfl
  · intro h
    cases hq : p.parent? with
    | none => rfl
    | some q =>
      rw [eq_child_of_parent? hq, depth_child] at h
      cases h

/-- What is read from a text has that text, as many properties as the text has parts, and the
type that was asked for; its expression stands for it; and it is the child of its parent, which
is what is read from the text without its last part, unless that is the only one. And every
chain is read from its text. -/
theorem ofText_round_trip (c : Catalog) (t : EntityType) :
    (∀ path p, ofText c t path = .ok p →
      p.text = path ∧ p.depth = (path.splitOn ".").length ∧ p.rootType = t.asType ∧
        ofExpr p.expr = .ok p ∧
        (p.parent? = none ↔ (path.splitOn ".").length = 1) ∧
        ∀ q, p.parent? = some q →
          ofText c t (".".intercalate (path.splitOn ".").dropLast) = .ok q ∧
            p = q.child p.property) ∧
    ∀ p, Chain c t p → ofText c t p.text = .ok p := by
  refine ⟨fun path p h => ?_, fun p h => ofText_eq_ok_iff.2 ⟨h, rfl⟩⟩
  obtain ⟨hchain, htext⟩ := ofText_eq_ok_iff.1 h
  obtain ⟨hroot, -, plain⟩ := chain_iff.1 hchain
  have hnames : p.names = path.splitOn "." := names_eq_splitOn_iff.2 ⟨htext, plain⟩
  have hdepth : p.depth = (path.splitOn ".").length := by rw [depth_eq, hnames]
  refine ⟨htext, hdepth, hroot, ofExpr_expr p, by rw [parent?_eq_none_iff, hdepth], ?_⟩
  intro q hq
  have hchild := eq_child_of_parent? hq
  have habove : q.names = (path.splitOn ".").dropLast := by
    rw [← hnames, hchild, names_child, List.dropLast_concat]
  refine ⟨ofText_eq_ok_iff.2 ⟨hchain.parent hq, ?_⟩, hchild⟩
  rw [text_eq, habove]

end PropertyPath

/-! ## Teams and their members -/

namespace Club

open PropertyPath

/-- The member who leads a team. -/
def lead : Property := { name := "lead", type := .entity ⟨"Member", 1⟩ }

/-- The team of a member. -/
def belongs : Property := { name := "team", type := .entity ⟨"Team", 0⟩ }

/-- The address of a member. -/
def address : Property := { name := "address", type := .entity ⟨"Address", 2⟩ }

/-- The city of an address. -/
def city : Property := { name := "city", type := .string }

/-- Teams refer to members. -/
def team : EntityType := ⟨"Team", 0, [{ name := "id", type := .string, isKey := true }, lead]⟩

/-- Members refer to teams, and hold an address. -/
def member : EntityType :=
  ⟨"Member", 1, [{ name := "id", type := .string, isKey := true }, belongs, address]⟩

/-- Addresses have no key. -/
def home : EntityType := ⟨"Address", 2, [city]⟩

/-- The catalogue of a club. -/
def club : Catalog := ⟨[team, member, home]⟩

/-- The address of the lead of the team of a team's lead. -/
def leadAddress : PropertyPath :=
  (((PropertyPath.root team lead).child belongs).child lead).child address

theorem chain_leadAddress : Chain club team leadAddress :=
  .child (.child (.child (.root rfl (by decide)) rfl rfl (by decide)) rfl rfl (by decide))
    rfl rfl (by decide)

/-- Where that lead lives is read from its text, and so is its parent. -/
theorem leadCity_round_trip :
    Chain club team (leadAddress.child city) ∧
      (leadAddress.child city).text = "lead.team.lead.address.city" ∧
      ofText club team "lead.team.lead.address.city" = .ok (leadAddress.child city) ∧
      ("lead.team.lead.address.city".splitOn ".").length = 5 ∧
      ofText club team (".".intercalate ("lead.team.lead.address.city".splitOn ".").dropLast) =
        .ok leadAddress := by
  obtain ⟨hread, hchain⟩ := ofText_round_trip club team
  have h : Chain club team (leadAddress.child city) :=
    .child chain_leadAddress rfl rfl (by decide)
  have htext : (leadAddress.child city).text = "lead.team.lead.address.city" := by decide
  have hof := hchain _ h
  rw [htext] at hof
  obtain ⟨-, hdepth, -, -, -, hparent⟩ := hread _ _ hof
  obtain ⟨habove, -⟩ := hparent _ (parent?_child leadAddress city)
  exact ⟨h, htext, hof, hdepth.symm, habove⟩

end Club

end LiveRecords

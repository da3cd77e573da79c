import Mathlib.Data.Fintype.EquivFin
import Mathlib.Data.List.Infix
import LiveRecords.Proofs.Entries
import LiveRecords.Proofs.Expr.Path
import LiveRecords.Query.Projection

/-
  What a projection shows of a document.

  `along` looks up a field at any depth. A projection never shows anything that the
  document does not hold, and of an object it shows the fields that lie on the way of a
  path which no other path continues (`shows_project`). From this follows when one set
  of paths shows all that another one does (`project_within_project_iff`).
-/

namespace LiveRecords

/-! ## Fields at any depth -/

namespace Value

/-- The value reached through the fields of some names, outermost first. -/
def along : List String → Value → Option Value
  | [], v => some v
  | name :: rest, v => (v.fields?.bind (Keyed.get? name)).bind (along rest)

/-- What stands in `small` stands in `large` too: every field at any depth is there,
with the same value, or as an object where it is an object. -/
def Within (small large : Value) : Prop :=
  ∀ names v, along names small = some v →
    ∃ w, along names large = some w ∧ (w = v ∨ (v.isObject = true ∧ w.isObject = true))

@[simp] theorem along_nil (v : Value) : along [] v = some v := rfl

theorem along_cons (name : String) (rest : List String) (fields : Fields) :
    along (name :: rest) (.object fields) = (fields.get? name).bind (along rest) := rfl

theorem along_of_not_object {v : Value} (h : v.isObject = false) (name : String)
    (rest : List String) : along (name :: rest) v = none := by
  cases v with
  | object fields => cases h
  | _ => rfl

theorem exists_eq_object {v : Value} (h : v.isObject = true) : ∃ fields, v = .object fields := by
  cases v with
  | object fields => exact ⟨fields, rfl⟩
  | _ => cases h

theorem Within.refl (v : Value) : v.Within v := fun _ w h => ⟨w, h, .inl rfl⟩

/-- Apart from what an object holds, what stands in a value is the value. -/
theorem Within.eq_of_not_object {v w : Value} (h : v.Within w) (hv : v.isObject = false) :
    w = v := by
  obtain ⟨w', hw', heq | hobjects⟩ := h [] v rfl
  · cases hw'
    exact heq
  · rw [hv] at hobjects
    cases hobjects.1

theorem Within.isObject {v w : Value} (h : v.Within w) (hv : v.isObject = true) :
    w.isObject = true := by
  obtain ⟨w', hw', heq | hobjects⟩ := h [] v rfl
  · cases hw'
    rwa [heq]
  · cases hw'
    exact hobjects.2

/-- In what is no object stands nothing else. -/
theorem Within.eq_of_large_not_object {v w : Value} (h : v.Within w) (hw : w.isObject = false) :
    v = w := by
  have hv : v.isObject = false := by
    rw [← Bool.not_eq_true]
    exact fun hv => Bool.eq_false_iff.1 hw (h.isObject hv)
  exact (h.eq_of_not_object hv).symm

/-- Objects are compared field by field. -/
theorem within_object {small large : Fields} :
    (Value.object small).Within (.object large) ↔
      ∀ name v, small.get? name = some v → ∃ w, large.get? name = some w ∧ v.Within w := by
  constructor
  · intro h name v hv
    have hfirst : along [name] (.object small) = some v := by
      rw [along_cons, hv]
      rfl
    obtain ⟨w, hw, _⟩ := h [name] v hfirst
    rw [along_cons, Option.bind_eq_some_iff] at hw
    obtain ⟨w', hget, hw'⟩ := hw
    refine ⟨w', hget, fun rest u hu => ?_⟩
    have hlong : along (name :: rest) (.object small) = some u := by
      rw [along_cons, hv]
      exact hu
    obtain ⟨u', hu', hsame⟩ := h _ u hlong
    rw [along_cons, hget] at hu'
    exact ⟨u', hu', hsame⟩
  · intro h names v hv
    cases names with
    | nil =>
      cases hv
      exact ⟨_, rfl, .inr ⟨rfl, rfl⟩⟩
    | cons name rest =>
      rw [along_cons, Option.bind_eq_some_iff] at hv
      obtain ⟨inner, hget, hinner⟩ := hv
      obtain ⟨w, hw, hwithin⟩ := h name inner hget
      obtain ⟨u, hu, hsame⟩ := hwithin rest v hinner
      refine ⟨u, ?_, hsame⟩
      rw [along_cons, hw]
      exact hu

end Value

/-! ## Copying one path -/

namespace Projection

open Value

/-- One name list continues the other, or they are the same. -/
def OnOneWay (path names : List String) : Prop := path <+: names ∨ names <+: path

theorem onOneWay_cons (name : String) (path names : List String) :
    OnOneWay (name :: path) (name :: names) ↔ OnOneWay path names := by
  unfold OnOneWay
  rw [List.prefix_cons_inj, List.prefix_cons_inj]

theorem onOneWay_head {name other : String} {path names : List String}
    (h : OnOneWay (name :: path) (other :: names)) : other = name := by
  rcases h with h | h
  · exact (List.cons_prefix_cons.1 h).1.symm
  · exact (List.cons_prefix_cons.1 h).1

/-- What a field becomes when the rest of a path is copied from `value`; `there` is
what was gathered of it so far. -/
def copied (rest : List String) (value : Value) : Option Value → Value
  | none =>
    match rest, value with
    | [], _ => value
    | _ :: _, .object inner => .object (copyPath [] rest (.object inner))
    | _ :: _, v => v
  | some old =>
    match rest, value, old with
    | [], _, _ => value
    | _ :: _, .object inner, .object there => .object (copyPath there rest (.object inner))
    | _ :: _, _, old => old

theorem copied_nil (value : Value) (there : Option Value) : copied [] value there = value := by
  cases there <;> rfl

/-- What is no object ends the path and is kept. -/
theorem copied_of_not_object {value : Value} {there : Option Value} (h : value.isObject = false)
    (hthere : ∀ old, there = some old → old = value) (next : String) (more : List String) :
    copied (next :: more) value there = value := by
  cases value with
  | object inner => cases h
  | _ =>
    cases there with
    | none => rfl
    | some old => exact hthere old rfl

/-- Copying a path changes only the field that the path starts with. -/
theorem get?_copyPath_cons {target source : Fields} {name : String} {value : Value}
    (rest : List String) (h : source.get? name = some value) (other : String) :
    (copyPath target (name :: rest) (.object source)).get? other =
      if other = name then some (copied rest value (target.get? name))
      else target.get? other := by
  have hkept : ∀ old, target.get? name = some old →
      target.get? other = if other = name then some old else target.get? other := by
    intro old hold
    split
    · next heq => rw [heq, hold]
    · rfl
  have hfound : (Value.object source).fields?.bind (Keyed.get? name) = some value := h
  cases rest with
  | nil =>
    unfold copyPath
    rw [hfound]
    simp only [List.isEmpty_nil, if_true, Keyed.get?_put]
    cases target.get? name <;> rfl
  | cons next more =>
    unfold copyPath
    rw [hfound]
    simp only [List.isEmpty_cons, Bool.false_eq_true, if_false]
    cases hold : target.get? name with
    | none => cases value <;> simp only [copied, Keyed.get?_put]
    | some old =>
      cases value with
      | object inner =>
        cases old with
        | object there => simp only [copied, Keyed.get?_put]
        | _ => exact hkept _ hold
      | _ => exact hkept _ hold

theorem copyPath_of_missing {target source : Fields} {name : String} (rest : List String)
    (h : source.get? name = none) :
    copyPath target (name :: rest) (.object source) = target := by
  have hfound : (Value.object source).fields?.bind (Keyed.get? name) = none := h
  unfold copyPath
  rw [hfound]

/-- What `shown` holds of `source`: nothing else than `source`, and of its fields
those that are asked for. -/
structure Shows (shown source : Value) (asked : List String → Prop) : Prop where
  within : shown.Within source
  reached : ∀ names, (along names shown).isSome ↔ (along names source).isSome ∧ asked names

theorem Shows.congr {shown source : Value} {asked other : List String → Prop}
    (h : Shows shown source asked)
    (heq : ∀ names, (along names source).isSome → (asked names ↔ other names)) :
    Shows shown source other := by
  refine ⟨h.within, fun names => ?_⟩
  rw [h.reached names]
  exact and_congr_right (heq names)

/-- A value shows all of itself. -/
theorem Shows.whole {v : Value} {asked : List String → Prop}
    (h : ∀ names, (along names v).isSome → asked names) : Shows v v asked :=
  ⟨.refl v, fun names => ⟨fun hv => ⟨hv, h names hv⟩, And.left⟩⟩

/-- An empty object shows nothing but that there is one. -/
theorem Shows.blank (source : Fields) : Shows (.object []) (.object source) (· = []) := by
  refine ⟨within_object.2 nofun, fun names => ?_⟩
  cases names with
  | nil => simp
  | cons name rest => simp [along_cons, Keyed.get?_nil]

/-- The entry that copying a path leaves, if copying the rest of the path is right. -/
theorem shows_copied {rest : List String} {value : Value} {there : Option Value}
    {asked : List String → Prop}
    (ih : rest ≠ [] → ∀ target source : Fields, ∀ asked,
      Shows (.object target) (.object source) asked →
        Shows (.object (copyPath target rest (.object source))) (.object source)
          fun names => asked names ∨ OnOneWay rest names)
    (hwithin : ∀ old, there = some old → old.Within value)
    (hreached : ∀ names, (there.bind (along names)).isSome ↔
      (along names value).isSome ∧ asked names) :
    Shows (copied rest value there) value fun names => asked names ∨ OnOneWay rest names := by
  cases rest with
  | nil =>
    rw [copied_nil]
    exact .whole fun names _ => .inr (.inl List.nil_prefix)
  | cons next more =>
    by_cases hobject : value.isObject = true
    · obtain ⟨inner, rfl⟩ := exists_eq_object hobject
      cases there with
      | none =>
        refine (ih nofun [] inner _ (.blank inner)).congr fun names hthere => ?_
        have hnot : ¬asked names := fun hasked => by
          have hsome := (hreached names).2 ⟨hthere, hasked⟩
          cases hsome
        constructor
        · intro h
          rcases h with rfl | h
          · exact .inr (.inr List.nil_prefix)
          · exact .inr h
        · exact fun h => .inr (h.resolve_left hnot)
      | some old =>
        have hold : old.Within (.object inner) := hwithin old rfl
        cases old with
        | object there => exact ih nofun there inner asked ⟨hold, hreached⟩
        | _ => cases hold.eq_of_not_object rfl
    · rw [Bool.not_eq_true] at hobject
      have hkept : ∀ old, there = some old → old = value := fun old hold =>
        (hwithin old hold).eq_of_large_not_object hobject
      rw [copied_of_not_object hobject hkept]
      refine .whole fun names hthere => .inr (.inr ?_)
      cases names with
      | nil => exact List.nil_prefix
      | cons name rest =>
        rw [along_of_not_object hobject] at hthere
        cases hthere

/-- Copying a path adds what is on its way, at its end and below. -/
theorem shows_copyPath {path : List String} (hne : path ≠ []) {target source : Fields}
    {asked : List String → Prop} (h : Shows (.object target) (.object source) asked) :
    Shows (.object (copyPath target path (.object source))) (.object source)
      fun names => asked names ∨ OnOneWay path names := by
  have hroot : asked [] := ((h.reached []).1 rfl).2
  induction path generalizing target source asked with
  | nil => exact absurd rfl hne
  | cons name rest ih =>
    cases hvalue : source.get? name with
    | none =>
      rw [copyPath_of_missing rest hvalue]
      refine h.congr fun names hthere => ⟨.inl, fun hasked => hasked.elim id fun hway => ?_⟩
      cases names with
      | nil => exact hroot
      | cons other more =>
        obtain rfl : other = name := onOneWay_head hway
        rw [along_cons, hvalue] at hthere
        cases hthere
    | some value =>
      -- of the field that the path starts with, what was gathered and the rest of the path
      have hentry : Shows (copied rest value (target.get? name)) value
          fun names => asked (name :: names) ∨ OnOneWay rest names := by
        refine shows_copied (fun hrest target source asked hshows => ?_) ?_ fun names => ?_
        · exact ih hrest hshows ((hshows.reached []).1 rfl).2
        · intro old hold
          obtain ⟨value', hvalue', hwithin⟩ := within_object.1 h.within name old hold
          rw [hvalue] at hvalue'
          cases hvalue'
          exact hwithin
        · have hreached := h.reached (name :: names)
          rw [along_cons, along_cons, hvalue] at hreached
          exact hreached
      refine ⟨within_object.2 fun other v hv => ?_, fun names => ?_⟩
      · rw [get?_copyPath_cons rest hvalue] at hv
        split at hv
        · next heq =>
          cases hv
          exact ⟨value, heq ▸ hvalue, hentry.within⟩
        · exact within_object.1 h.within other v hv
      · cases names with
        | nil => simp [hroot]
        | cons other more =>
          rw [along_cons, get?_copyPath_cons rest hvalue]
          by_cases heq : other = name
          · subst heq
            rw [if_pos rfl, along_cons, hvalue, onOneWay_cons]
            exact hentry.reached more
          · have hway : ¬OnOneWay (name :: rest) (other :: more) := fun hway =>
              heq (onOneWay_head hway)
            rw [if_neg heq, ← along_cons, h.reached, or_iff_left hway]

end Projection

/-! ## Projecting -/

namespace Projection

open Value

/-- Whether some of the paths continues a path: then it only opens the way and names
nothing by itself. -/
def Continued (paths : List PropertyPath) (p : PropertyPath) : Prop :=
  isExtended (paths.map (·.text)) p.text = true

instance (paths : List PropertyPath) (p : PropertyPath) : Decidable (Continued paths p) :=
  inferInstanceAs (Decidable (_ = true))

/-- Whether a path names what stands at some names, or on the way to it, or above. -/
def Names (paths : List PropertyPath) (p : PropertyPath) (field : List String) : Prop :=
  ¬Continued paths p ∧ OnOneWay p.names field

theorem Continued.congr {paths : List PropertyPath} {p q : PropertyPath}
    (h : Continued paths p) (hnames : p.names = q.names) : Continued paths q := by
  unfold Continued at h ⊢
  rwa [PropertyPath.text_eq, ← hnames, ← PropertyPath.text_eq]

/-- A path is continued by every longer one of the paths. -/
theorem continued_of_longer {paths : List PropertyPath} {p q : PropertyPath} (hq : q ∈ paths)
    {more : List String} (hmore : more ≠ []) (h : q.names = p.names ++ more) :
    Continued paths p := by
  have htext : q.text = p.text ++ "." ++ ".".intercalate more := by
    rw [PropertyPath.text_eq, PropertyPath.text_eq, h,
      String.intercalate_append_of_ne_nil p.names_ne_nil hmore]
  refine List.any_eq_true.2 ⟨q.text, List.mem_map_of_mem hq, ?_⟩
  rw [htext, List.isPrefixOf_iff_prefix]
  exact ⟨(".".intercalate more).toList, String.toList_append.symm⟩

/-- Of two texts that go on after a point or end, one begins with the other and a point
only if they are the same up to it. -/
theorem prefix_point {a b r s : List Char} (ha : '.' ∉ a) (hb : '.' ∉ b)
    (hs : s = [] ∨ ∃ s', s = '.' :: s') (h : a ++ '.' :: r <+: b ++ s) :
    a = b ∧ ∃ s', s = '.' :: s' ∧ r <+: s' := by
  induction a generalizing b with
  | nil =>
    cases b with
    | nil =>
      rcases hs with rfl | ⟨s', rfl⟩
      · simp at h
      · exact ⟨rfl, s', rfl, (List.cons_prefix_cons.1 h).2⟩
    | cons y b =>
      obtain rfl : '.' = y := (List.cons_prefix_cons.1 h).1
      exact absurd List.mem_cons_self hb
  | cons x a ih =>
    cases b with
    | nil =>
      rcases hs with rfl | ⟨s', rfl⟩
      · simp at h
      · obtain rfl : x = '.' := (List.cons_prefix_cons.1 h).1
        exact absurd List.mem_cons_self ha
    | cons y b =>
      obtain ⟨rfl, hrest⟩ := List.cons_prefix_cons.1 h
      obtain ⟨rfl, hmore⟩ := ih (fun hin => ha (List.mem_cons_of_mem _ hin))
        (fun hin => hb (List.mem_cons_of_mem _ hin)) hrest
      exact ⟨rfl, hmore⟩

/-- The characters of joined names: those of the first, and, if there are more, a point and
those of the others. -/
theorem toList_intercalate_cons (name : String) (rest : List String) :
    (".".intercalate (name :: rest)).toList =
      name.toList ++ if rest = [] then [] else '.' :: (".".intercalate rest).toList := by
  by_cases h : rest = []
  · subst h
    simp
  · rw [if_neg h, String.intercalate_cons_of_ne_nil h, String.toList_append, String.toList_append,
      List.append_assoc]
    rfl

/-- Names without points can be read off from their joined text. -/
theorem names_of_text {names others : List String} (hne : names ≠ [])
    (hnames : ∀ name ∈ names, '.' ∉ name.toList) (hothers : ∀ name ∈ others, '.' ∉ name.toList)
    (h : (".".intercalate names ++ ".").toList <+: (".".intercalate others).toList) :
    ∃ more, more ≠ [] ∧ others = names ++ more := by
  induction names generalizing others with
  | nil => exact absurd rfl hne
  | cons name names ih =>
    cases others with
    | nil =>
      rw [String.toList_append] at h
      simp at h
    | cons other others =>
      have hplain := hnames name List.mem_cons_self
      have hplain' := hothers other List.mem_cons_self
      have hends : ∀ rest : List String,
          (if rest = [] then [] else '.' :: (".".intercalate rest).toList) = [] ∨
            ∃ s, (if rest = [] then [] else '.' :: (".".intercalate rest).toList) = '.' :: s := by
        intro rest
        split
        · exact .inl rfl
        · exact .inr ⟨_, rfl⟩
      rw [String.toList_append, toList_intercalate_cons, toList_intercalate_cons,
        List.append_assoc] at h
      by_cases hlast : names = []
      · subst hlast
        rw [if_pos rfl] at h
        obtain ⟨hsame, s, hs, _⟩ := prefix_point hplain hplain' (hends others) h
        obtain rfl := String.toList_injective hsame
        refine ⟨others, fun hnil => ?_, rfl⟩
        rw [if_pos hnil] at hs
        cases hs
      · rw [if_neg hlast, List.cons_append] at h
        obtain ⟨hsame, s, hs, hrest⟩ := prefix_point hplain hplain' (hends others) h
        obtain rfl := String.toList_injective hsame
        split at hs
        · cases hs
        · cases hs
          rw [← String.toList_append (t := ".")] at hrest
          obtain ⟨more, hmore, rfl⟩ := ih hlast
            (fun name hin => hnames name (List.mem_cons_of_mem _ hin))
            (fun name hin => hothers name (List.mem_cons_of_mem _ hin)) hrest
          exact ⟨more, hmore, rfl⟩

/-- Where names have no points, what continues a path is a longer one. -/
theorem Continued.exists_longer {paths : List PropertyPath} {p : PropertyPath}
    (h : Continued paths p) (hp : ∀ name ∈ p.names, '.' ∉ name.toList)
    (hpaths : ∀ q ∈ paths, ∀ name ∈ q.names, '.' ∉ name.toList) :
    ∃ q ∈ paths, ∃ more, more ≠ [] ∧ q.names = p.names ++ more := by
  obtain ⟨text, htext, hprefix⟩ := List.any_eq_true.1 h
  obtain ⟨q, hq, rfl⟩ := List.mem_map.1 htext
  exact ⟨q, hq, names_of_text p.names_ne_nil hp (hpaths q hq)
    (List.isPrefixOf_iff_prefix.1 hprefix)⟩

/-- Copying one path after another adds what they name. -/
theorem shows_foldl (paths : List PropertyPath) (source : Fields) (rest : List PropertyPath)
    (found : Fields) {asked : List String → Prop}
    (h : Shows (.object found) (.object source) asked) :
    Shows
      (.object (rest.foldl
        (fun found path =>
          if isExtended (paths.map (·.text)) path.text then found
          else copyPath found (path.segments.map (·.name)) (.object source)) found))
      (.object source) fun field => asked field ∨ ∃ p ∈ rest, Names paths p field := by
  induction rest generalizing found asked with
  | nil => exact h.congr fun field _ => by simp
  | cons p rest ih =>
    rw [List.foldl_cons]
    split
    · next hcontinued =>
      have hnot : ∀ field, ¬Names paths p field := fun field hnames => hnames.1 hcontinued
      refine (ih found h).congr fun field _ => ?_
      simp [hnot field]
    · next hcontinued =>
      have hnames : ∀ field, Names paths p field ↔ OnOneWay p.names field := fun field =>
        and_iff_right hcontinued
      refine (ih _ (shows_copyPath p.names_ne_nil h)).congr fun field _ => ?_
      simp [hnames field, PropertyPath.names, or_assoc]

/-- A projection shows of an object what the paths name. -/
theorem shows_project {paths : List PropertyPath} (hne : paths ≠ []) (source : Fields) :
    Shows (project (.object source) paths) (.object source)
      fun field => field = [] ∨ ∃ p ∈ paths, Names paths p field := by
  have hproject : ¬(paths.isEmpty || !(Value.object source).isObject) = true := by
    simpa [Value.isObject] using hne
  unfold project
  rw [if_neg hproject]
  exact shows_foldl paths source paths [] (.blank source)

theorem project_of_not_object {v : Value} (h : v.isObject = false) (paths : List PropertyPath) :
    project v paths = v := by
  unfold project
  rw [h, Bool.not_false, Bool.or_true, if_pos rfl]

/-! ## Comparing projections -/

/-- Every path of `small` is in `large`, as far as names go. -/
def Included (small large : List PropertyPath) : Prop :=
  ∀ p ∈ small, ∃ q ∈ large, q.names = p.names

/-- A path that names something among the paths of `small` does so among those of
`large`. -/
def Kept (small large : List PropertyPath) : Prop :=
  ∀ p ∈ small, ¬Continued small p → ¬Continued large p

theorem Included.ne_nil {small large : List PropertyPath} (h : Included small large)
    (hne : small ≠ []) : large ≠ [] := by
  obtain ⟨p, hp⟩ := List.exists_mem_of_ne_nil small hne
  obtain ⟨q, hq, _⟩ := h p hp
  exact List.ne_nil_of_mem hq

/-- More paths show more, if those that name something still do. -/
theorem Kept.within {small large : List PropertyPath} (h : Kept small large)
    (hne : small ≠ []) (hincluded : Included small large) (document : Value) :
    (project document small).Within (project document large) := by
  by_cases hobject : document.isObject = true
  · obtain ⟨source, rfl⟩ := exists_eq_object hobject
    have few := shows_project hne source
    have many := shows_project (hincluded.ne_nil hne) source
    intro field v hv
    obtain ⟨w, hw, hwv⟩ := few.within field v hv
    obtain ⟨hthere, hasked⟩ := (few.reached field).1 (Option.isSome_of_eq_some hv)
    have hmany : (along field (project (.object source) large)).isSome := by
      refine (many.reached field).2 ⟨hthere, hasked.imp id ?_⟩
      rintro ⟨p, hp, hnot, hway⟩
      obtain ⟨q, hq, hnames⟩ := hincluded p hp
      exact ⟨q, hq, fun hcontinued => h p hp hnot (hcontinued.congr hnames), hnames ▸ hway⟩
    obtain ⟨u, hu⟩ := Option.isSome_iff_exists.1 hmany
    obtain ⟨w', hw', hwu⟩ := many.within field u hu
    -- both show what the document holds there
    rw [hw] at hw'
    cases hw'
    refine ⟨u, hu, ?_⟩
    rcases hwv with rfl | ⟨hv, hobject⟩
    · rcases hwu with rfl | ⟨hu, hw⟩
      · exact .inl rfl
      · exact .inr ⟨hw, hu⟩
    · rcases hwu with rfl | ⟨hu, _⟩
      · exact .inr ⟨hv, hobject⟩
      · exact .inr ⟨hv, hu⟩
  · rw [Bool.not_eq_true] at hobject
    rw [project_of_not_object hobject, project_of_not_object hobject]
    exact .refl document

/-- The document that holds a value at the end of some names and nothing else. -/
def nested (value : Value) : List String → Value
  | [] => value
  | name :: rest => .object [(name, nested value rest)]

theorem along_nested (value : Value) (names : List String) :
    along names (nested value names) = some value := by
  induction names with
  | nil => rfl
  | cons name rest ih =>
    show (Keyed.get? name [(name, nested value rest)]).bind (along rest) = some value
    simp [Keyed.get?, ih]

/-- A path that is merely opened in `large` names a field that `large` does not show,
in a document that holds no other. -/
theorem not_within_of_continued {small large : List PropertyPath} {p q : PropertyPath}
    (hp : p ∈ small) (hnot : ¬Continued small p) (hq : q ∈ large) (hnames : q.names = p.names)
    (hcontinued : Continued large q) :
    ∃ document, ¬(project document small).Within (project document large) := by
  obtain ⟨fresh, hfresh⟩ :=
    Infinite.exists_notMem_finset (large.flatMap PropertyPath.names).toFinset
  have hunnamed : ∀ e ∈ large, fresh ∉ e.names := by
    intro e he hin
    exact hfresh (List.mem_toFinset.2 (List.mem_flatMap.2 ⟨e, he, hin⟩))
  obtain ⟨first, more, hfirst⟩ := List.exists_cons_of_ne_nil p.names_ne_nil
  obtain ⟨source, hsource⟩ :
      ∃ source, nested .null (p.names ++ [fresh]) = Value.object source := by
    rw [hfirst]
    exact ⟨_, rfl⟩
  have hthere : along (p.names ++ [fresh]) (.object source) = some .null := by
    rw [← hsource]
    exact along_nested .null _
  have few := shows_project (List.ne_nil_of_mem hp) source
  have many := shows_project (List.ne_nil_of_mem hq) source
  have hshown : (along (p.names ++ [fresh]) (project (.object source) small)).isSome :=
    (few.reached _).2 ⟨Option.isSome_of_eq_some hthere,
      .inr ⟨p, hp, hnot, .inl (List.prefix_append _ _)⟩⟩
  obtain ⟨v, hv⟩ := Option.isSome_iff_exists.1 hshown
  refine ⟨.object source, fun hwithin => ?_⟩
  obtain ⟨w, hw, _⟩ := hwithin _ v hv
  obtain ⟨_, hnil | ⟨e, he, henot, hway⟩⟩ := (many.reached _).1 (Option.isSome_of_eq_some hw)
  · exact absurd hnil (by simp)
  · rcases hway with hway | hway
    · rcases List.prefix_concat_iff.1 hway with heq | ⟨rest, hrest⟩
      · exact hunnamed e he (heq ▸ by simp)
      · cases rest with
        | nil =>
          -- the path itself, which is continued
          rw [List.append_nil] at hrest
          exact henot (hcontinued.congr (hnames.trans hrest.symm))
        | cons name rest =>
          exact henot (continued_of_longer hq (List.cons_ne_nil name rest)
            (hnames.trans hrest.symm))
    · exact hunnamed e he (hway.subset (by simp))

/-- More paths show more of every document exactly if those that name something still
do. -/
theorem project_within_project_iff {small large : List PropertyPath} (hne : small ≠ [])
    (hincluded : Included small large) :
    (∀ document, (project document small).Within (project document large)) ↔
      Kept small large := by
  constructor
  · intro h p hp hnot hcontinued
    obtain ⟨q, hq, hnames⟩ := hincluded p hp
    obtain ⟨document, hbad⟩ :=
      not_within_of_continued hp hnot hq hnames (hcontinued.congr hnames.symm)
    exact hbad (h document)
  · exact fun h => h.within hne hincluded

end Projection

end LiveRecords

import LiveRecords.Proofs.Pattern.Escapes

/-
  Reading brackets with more behind them.

  Between brackets a reader looks ahead: behind an item there may be a hyphen, and behind the
  hyphen the end of a range. At the end of a text there is neither, and no answer; before a tail
  there may be one, but then what is left of the bracket is in the tail (`Sinks`). A bracket
  that is read as a whole is read as without the tail (`extends_bracket`).
-/

namespace LiveRecords.Pattern

variable {t : List Char} {cur c c' d : Cursor} {x : Char} {rest : List Char} {fuel fuel' : Nat}

theorem Meets.extends {α : Type} (h : Meets t c c') (v : α) :
    Extends t (some (v, c)) (some (v, c')) := by
  cases h with
  | on there => exact .on rfl (congrArg (fun c => some (v, c)) there)
  | swallowed ended beyond quiet =>
    refine .swallowed rfl ended ?_ fun h => congrArg (fun c => some (v, c)) (quiet h)
    rintro _ _ ⟨⟩
    exact beyond

/-! ## Items and ranges -/

theorem bracketItem_char (h : cur.rest = x :: rest) (ne : x ≠ '\\') :
    bracketItem? cur = some (.char x, cur.moved rest) := by
  unfold bracketItem?
  rw [h]
  split
  · contradiction
  · next heq => exact absurd (List.cons.inj heq).1 ne
  · next heq =>
    obtain ⟨rfl, rfl⟩ := List.cons.inj heq
    rfl

theorem bracketItem_ended (h : cur.rest = []) : bracketItem? cur = none := by
  unfold bracketItem?
  rw [h]

/-- An item takes a character at least. -/
theorem bracketItem_shorter {item : Escape} (h : bracketItem? cur = some (item, d)) :
    d.rest <:+ cur.rest.tail := by
  unfold bracketItem? at h
  split at h
  · cases h
  · next heq =>
    rw [heq]
    exact escape_within _ _ _ h
  · next heq =>
    cases h
    rw [heq]
    exact List.suffix_rfl

theorem bracketItem_within (cur : Cursor) : Within cur (bracketItem? cur) := fun _ _ h =>
  (bracketItem_shorter h).trans (List.tail_suffix _)

theorem extends_bracketItem (closing : Closing t) (cur : Cursor) :
    Extends t (bracketItem? cur) (bracketItem? (cur.onto t)) ∨
      Dangling t (bracketItem? cur) (bracketItem? (cur.onto t)) := by
  obtain ⟨_ | ⟨x, rest⟩, flags, names⟩ := cur
  · refine .inl (.failed (bracketItem_ended rfl) fun v d h => ?_)
    have hshorter := (bracketItem_shorter h).length_le
    cases t with
    | nil => cases h
    | cons y t => exact Nat.lt_succ_of_le hshorter
  · by_cases hx : x = '\\'
    · subst hx
      exact extends_escape closing ⟨rest, flags, names⟩
    · show Extends t _ (bracketItem? ⟨x :: (rest ++ t), flags, names⟩) ∨ _
      rw [bracketItem_char rfl hx, bracketItem_char rfl hx]
      exact .inl (extends_some _ _)

/-- The range between two items. -/
def rangeOf? (first : Escape) (answer : Escape × Cursor) : Option (CharSet × Cursor) :=
  match first, answer.1 with
  | .char a, .char b =>
    if b < a || (!answer.2.flags.unicode && 0x7F < b.toNat) then none
    else some (.range a b, answer.2)
  | _, _ => none

theorem rangeOf_within (first : Escape) (answer : Escape × Cursor) :
    Within answer.2 (rangeOf? first answer) := by
  unfold rangeOf?
  split
  · split
    · exact within_none
    · exact within_some List.suffix_rfl
  · exact within_none

theorem extends_rangeOf (first second : Escape) (cur : Cursor) :
    Extends t (rangeOf? first (second, cur)) (rangeOf? first (second, cur.onto t)) := by
  cases first with
  | char a =>
    cases second with
    | char b =>
      show Extends t
        (if b < a || (!cur.flags.unicode && 0x7F < b.toNat) then none
          else some (CharSet.range a b, cur))
        (if b < a || (!cur.flags.unicode && 0x7F < b.toNat) then none
          else some (CharSet.range a b, cur.onto t))
      split_ifs
      · exact extends_none
      · exact extends_some _ _
    | set set => exact extends_none
    | look condition => exact extends_none
  | set set => exact extends_none
  | look condition => exact extends_none

/-- What an item stands for alone. -/
def alone? (first : Escape) (cur : Cursor) : Option (CharSet × Cursor) :=
  (itemSet? cur.flags first).map fun set => (set, cur)

/-- What is read behind the first item of a range. -/
def rangeFrom? (first : Escape) (cur : Cursor) : Option (CharSet × Cursor) :=
  match cur.rest with
  | [] => none
  | '-' :: _ =>
    match cur.bump.rest with
    | [] => none
    | ']' :: _ | '-' :: _ => alone? first cur
    | _ => bracketItem? cur.bump >>= rangeOf? first
  | _ => alone? first cur

theorem bracketRange_eq (cur : Cursor) :
    bracketRange? cur = bracketItem? cur >>= fun (first, c) => rangeFrom? first c.skip := by
  unfold bracketRange?
  cases bracketItem? cur with
  | none => rfl
  | some answer =>
    obtain ⟨first, c⟩ := answer
    rfl

theorem alone_within (first : Escape) (cur : Cursor) : Within cur (alone? first cur) := by
  unfold alone?
  cases itemSet? cur.flags first with
  | none => exact within_none
  | some set => exact within_some List.suffix_rfl

theorem extends_alone (first : Escape) (cur : Cursor) :
    Extends t (alone? first cur) (alone? first (cur.onto t)) := by
  unfold alone?
  rw [Cursor.onto_flags]
  cases itemSet? cur.flags first with
  | none => exact extends_none
  | some set => exact extends_some _ _

theorem rangeFrom_ended (first : Escape) (h : cur.rest = []) : rangeFrom? first cur = none := by
  unfold rangeFrom?
  rw [h]

theorem rangeFrom_alone (first : Escape) (h : cur.rest = x :: rest) (ne : x ≠ '-') :
    rangeFrom? first cur = alone? first cur := by
  unfold rangeFrom?
  split
  · next heq => exact absurd (h.symm.trans heq) nofun
  · next heq => exact absurd (List.cons.inj (h.symm.trans heq)).1 ne
  · rfl

/-- Behind a hyphen something has to stand. -/
theorem rangeFrom_open (first : Escape) (h : cur.rest = '-' :: rest) (h' : cur.bump.rest = []) :
    rangeFrom? first cur = none := by
  unfold rangeFrom?
  rw [h, h']
  rfl

/-- The end of the bracket or another hyphen is left, together with the first hyphen. -/
theorem rangeFrom_left (first : Escape) (h : cur.rest = '-' :: rest)
    (h' : cur.bump.rest.head? = some ']' ∨ cur.bump.rest.head? = some '-') :
    rangeFrom? first cur = alone? first cur := by
  unfold rangeFrom?
  split
  · next heq => exact absurd (h.symm.trans heq) nofun
  · split
    · next heq =>
      rw [heq] at h'
      rcases h' with h' | h' <;> cases h'
    · rfl
    · rfl
    · next hclose hhyphen =>
      rcases h' with h' | h'
      · obtain ⟨rest, hrest⟩ := List.head?_eq_some_iff.1 h'
        exact absurd hrest (hclose rest)
      · obtain ⟨rest, hrest⟩ := List.head?_eq_some_iff.1 h'
        exact absurd hrest (hhyphen rest)
  · rfl

/-- Anything else is the last item of the range. -/
theorem rangeFrom_range (first : Escape) (h : cur.rest = '-' :: rest) (ne : cur.bump.rest ≠ [])
    (h' : ¬(cur.bump.rest.head? = some ']' ∨ cur.bump.rest.head? = some '-')) :
    rangeFrom? first cur = bracketItem? cur.bump >>= rangeOf? first := by
  unfold rangeFrom?
  split
  · next heq => exact absurd (h.symm.trans heq) nofun
  · split
    · contradiction
    · next heq =>
      rw [heq] at h'
      exact absurd (.inl rfl) h'
    · next heq =>
      rw [heq] at h'
      exact absurd (.inr rfl) h'
    · rfl
  · next hne => exact absurd h (hne rest)

theorem rangeFrom_within (first : Escape) (cur : Cursor) : Within cur (rangeFrom? first cur) := by
  unfold rangeFrom?
  split
  · exact within_none
  · split
    · exact within_none
    · exact alone_within first cur
    · exact alone_within first cur
    · refine ((bracketItem_within _).bind fun v d => rangeOf_within first (v, d)).mono ?_
      exact cur.bump_suffix.trans (List.tail_suffix _)
  · exact alone_within first cur

/-- A range takes a character at least. -/
theorem bracketRange_shorter {set : CharSet} (h : bracketRange? cur = some (set, d)) :
    d.rest <:+ cur.rest.tail := by
  rw [bracketRange_eq] at h
  obtain ⟨⟨first, c⟩, hfirst, hrest⟩ := Option.bind_eq_some_iff.1 h
  exact (rangeFrom_within first c.skip _ _ hrest).trans
    (c.skip_suffix.trans (bracketItem_shorter hfirst))

/-- What is left of a bracket stands in a tail, but for a hyphen and blanks. -/
def Sinks (t : List Char) (d : Cursor) : Prop :=
  d.rest.length ≤ t.length ∨
    ∃ rest, d.rest = '-' :: rest ∧ d.bump.rest.length ≤ t.length ∧ rest.head? ≠ some '-'

theorem Within.sinks {α : Type} {o : Option (α × Cursor)} (h : Within c o)
    (short : c.rest.length ≤ t.length) : ∀ v d, o = some (v, d) → Sinks t d := fun v d heq =>
  .inl ((h v d heq).length_le.trans short)

theorem rangeOf_dangling {first : Escape} {o o' : Option (Escape × Cursor)} (h : Dangling t o o') :
    o >>= rangeOf? first = none ∧ o' >>= rangeOf? first = none := by
  obtain ⟨rfl, condition, d, rfl, -⟩ := h
  refine ⟨rfl, ?_⟩
  cases first <;> rfl

/-- Behind a hyphen either the hyphen is left, or what is left stands behind it. -/
theorem rangeFrom_cases {first : Escape} (h : cur.rest = '-' :: rest) {set : CharSet}
    (heq : rangeFrom? first cur = some (set, d)) : d = cur ∨ d.rest <:+ cur.bump.rest := by
  by_cases hended : cur.bump.rest = []
  · rw [rangeFrom_open first h hended] at heq
    cases heq
  by_cases hleft : cur.bump.rest.head? = some ']' ∨ cur.bump.rest.head? = some '-'
  · rw [rangeFrom_left first h hleft] at heq
    obtain ⟨_, -, heq⟩ := Option.map_eq_some_iff.1 heq
    cases heq
    exact .inl rfl
  · rw [rangeFrom_range first h hended hleft] at heq
    exact .inr (((bracketItem_within _).bind fun v d => rangeOf_within first (v, d)) _ _ heq)

theorem Meets.length_le (h : Meets t c c') (ended : c.rest = []) : c'.rest.length ≤ t.length := by
  cases h with
  | on there => rw [there, Cursor.onto_rest, ended, List.nil_append]
  | swallowed ended beyond quiet => exact beyond.le

theorem Meets.eq_onto (h : Meets t c c') (ne : c.rest ≠ []) : c' = c.onto t := by
  cases h with
  | on there => exact there
  | swallowed ended beyond quiet => exact absurd ended ne

/-- A hyphen with nothing behind it but a tail leaves the rest of the bracket to the tail. -/
theorem rangeFrom_sinks (closing : Closing t) (first : Escape) (hrest : cur.rest = '-' :: rest)
    (hended : cur.bump.rest = []) :
    ∀ set d, rangeFrom? first (cur.onto t) = some (set, d) → Sinks t d := by
  intro set d heq
  have hrest' := Cursor.onto_cons hrest t
  have hshort := (meets_bump closing hrest).length_le hended
  rcases rangeFrom_cases hrest' heq with rfl | hd
  · refine .inr ⟨_, hrest', hshort, closing.head_ne (by decide) fun hhead => ?_⟩
    -- a second hyphen would not have been skipped
    obtain ⟨r', rfl⟩ := List.head?_eq_some_iff.1 hhead
    have hsolid : cur.bump = cur.moved cur.rest.tail :=
      Cursor.skip_of_solid (by rw [hrest]; rfl) (by decide) (by decide)
    rw [hsolid, hrest] at hended
    cases hended
  · exact .inl (hd.length_le.trans hshort)

/-- A hyphen with something behind it is read as without a tail. -/
theorem extends_rangeFrom_hyphen (closing : Closing t) (first : Escape)
    (hrest : cur.rest = '-' :: rest) (hended : cur.bump.rest ≠ []) :
    Extends t (rangeFrom? first cur) (rangeFrom? first (cur.onto t)) := by
  have hrest' := Cursor.onto_cons hrest t
  have hbump := (meets_bump closing hrest).eq_onto hended
  have hended' : (cur.onto t).bump.rest ≠ [] := by
    rw [hbump, Cursor.onto_rest]
    exact List.append_ne_nil_of_left_ne_nil hended t
  have hhead : ∀ y, y ≠ ')' →
      ((cur.onto t).bump.rest.head? = some y ↔ cur.bump.rest.head? = some y) := by
    intro y hy
    rw [hbump, Cursor.onto_rest, closing.head_iff hy]
  by_cases hleft : cur.bump.rest.head? = some ']' ∨ cur.bump.rest.head? = some '-'
  · have hleft' := hleft
    rw [← hhead ']' (by decide), ← hhead '-' (by decide)] at hleft'
    rw [rangeFrom_left first hrest hleft, rangeFrom_left first hrest' hleft']
    exact extends_alone first cur
  · have hleft' := hleft
    rw [← hhead ']' (by decide), ← hhead '-' (by decide)] at hleft'
    rw [rangeFrom_range first hrest hended hleft, rangeFrom_range first hrest' hended' hleft', hbump]
    rcases extends_bracketItem closing cur.bump with hitem | hdangling
    · exact hitem.bind closing (fun v d => rangeOf_within first (v, d))
        fun v e _ u _ _ => extends_rangeOf first v e
    · obtain ⟨hnone, hnone'⟩ := rangeOf_dangling hdangling
      rw [hnone, hnone']
      exact extends_none

theorem extends_rangeFrom (closing : Closing t) (first : Escape) (h : Meets t c c') :
    Extends t (rangeFrom? first c) (rangeFrom? first c') ∨
      (rangeFrom? first c = none ∧
        ∀ set d, rangeFrom? first c' = some (set, d) → Sinks t d) := by
  cases h with
  | swallowed ended beyond quiet =>
    exact .inr ⟨rangeFrom_ended first ended, (rangeFrom_within first c').sinks beyond.le⟩
  | on there =>
    subst there
    cases hrest : c.rest with
    | nil =>
      refine .inr ⟨rangeFrom_ended first hrest, (rangeFrom_within first _).sinks ?_⟩
      rw [Cursor.onto_rest, hrest, List.nil_append]
    | cons x r =>
      by_cases hx : x = '-'
      · subst hx
        by_cases hended : c.bump.rest = []
        · exact .inr ⟨rangeFrom_open first hrest hended, rangeFrom_sinks closing first hrest hended⟩
        · exact .inl (extends_rangeFrom_hyphen closing first hrest hended)
      · rw [rangeFrom_alone first hrest hx, rangeFrom_alone first (Cursor.onto_cons hrest t) hx]
        exact .inl (extends_alone first c)

theorem extends_bracketRange (closing : Closing t) (cur : Cursor) :
    Extends t (bracketRange? cur) (bracketRange? (cur.onto t)) ∨
      (bracketRange? cur = none ∧
        ∀ set d, bracketRange? (cur.onto t) = some (set, d) → Sinks t d) := by
  have hwithin : ∀ (first : Escape) (c : Cursor), Within c (rangeFrom? first c.skip) :=
    fun first c => (rangeFrom_within first c.skip).mono c.skip_suffix
  rw [bracketRange_eq, bracketRange_eq]
  rcases extends_bracketItem closing cur with hitem | ⟨hnone, condition, d, hsome, rest, hrest, -⟩
  · cases hitem with
    | @on first c here there =>
      rw [here, there]
      exact extends_rangeFrom closing first (meets_skip closing c)
    | @swallowed first c here ended beyond quiet =>
      have hended : c.skip.rest = [] := List.suffix_nil.1 (ended ▸ c.skip_suffix)
      refine .inl (.failed ?_ (beyond.bind fun v d => hwithin v d))
      rw [here]
      exact rangeFrom_ended first hended
    | failed here beyond =>
      rw [here]
      exact .inl (.failed rfl (beyond.bind fun v d => hwithin v d))
  · -- a condition is no item
    rw [hnone, hsome]
    have hsolid := Cursor.skip_of_solid hrest (by decide) (by decide)
    refine .inl (.failed rfl ?_)
    show Beyond t (rangeFrom? (.look condition) d.skip)
    rw [hsolid, rangeFrom_alone _ hrest (by decide)]
    exact beyond_none

/-! ## The start of a bracket -/

theorem leadingHyphens_eq (fuel : Nat) (cur : Cursor) (set : CharSet) :
    leadingHyphens fuel cur set =
      runOf (· == '-') (fun set _ => set.union (.single '-')) fuel cur set := by
  induction fuel generalizing cur set with
  | zero => rfl
  | succ fuel ih =>
    unfold leadingHyphens runOf
    split
    · next heq =>
      rw [heq, ih]
      rfl
    · next hne =>
      cases h : cur.rest with
      | nil => rfl
      | cons x rest =>
        exact (if_neg fun hx => hne rest (by rw [h, beq_iff_eq.1 hx])).symm

/-- Whether a bracket is negated, and the cursor behind the sign for it. -/
def bracketSign (cur : Cursor) : Bool × Cursor :=
  match cur.rest with
  | '^' :: _ => (true, cur.bump)
  | _ => (false, cur)

/-- A bracket that would end before it has a part has the end as a part. -/
def bracketFirst (hyphen : Bool) (answer : CharSet × Cursor) : CharSet × Cursor :=
  match answer.2.rest with
  | ']' :: _ => if hyphen then answer else (answer.1.union (.single ']'), answer.2.bump)
  | _ => answer

/-- The set of a bracket whose parts were read. -/
def bracketRead (negated : Bool) (answer : CharSet × Cursor) : CharSet × Cursor :=
  (if negated then (foldUnder answer.2.flags answer.1).compl else foldUnder answer.2.flags answer.1,
    answer.2)

theorem bracketSign_suffix (cur : Cursor) : (bracketSign cur).2.rest <:+ cur.rest := by
  unfold bracketSign
  split
  · exact cur.bump_suffix.trans (List.tail_suffix _)
  · exact List.suffix_rfl

theorem bracketSign_bare (h : cur.rest.head? ≠ some '^') : bracketSign cur = (false, cur) := by
  unfold bracketSign
  split
  · next heq =>
    rw [heq] at h
    exact absurd rfl h
  · rfl

theorem extends_bracketSign (closing : Closing t) (cur : Cursor) :
    Extends t (some (bracketSign cur)) (some (bracketSign (cur.onto t))) := by
  by_cases h : cur.rest.head? = some '^'
  · obtain ⟨_ | ⟨x, rest⟩, flags, names⟩ := cur
    · cases h
    · cases h
      exact Meets.extends (meets_bump closing rfl) true
  · rw [bracketSign_bare h, bracketSign_bare (closing.head_ne (by decide) h)]
    exact extends_some _ _

theorem bracketFirst_suffix (hyphen : Bool) (answer : CharSet × Cursor) :
    (bracketFirst hyphen answer).2.rest <:+ answer.2.rest := by
  unfold bracketFirst
  split
  · split
    · exact List.suffix_rfl
    · exact answer.2.bump_suffix.trans (List.tail_suffix _)
  · exact List.suffix_rfl

theorem bracketFirst_bare (hyphen : Bool) {answer : CharSet × Cursor}
    (h : answer.2.rest.head? ≠ some ']') : bracketFirst hyphen answer = answer := by
  unfold bracketFirst
  split
  · next heq =>
    rw [heq] at h
    exact absurd rfl h
  · rfl

theorem extends_bracketFirst (closing : Closing t) (hyphen : Bool) (set : CharSet)
    (cur : Cursor) :
    Extends t (some (bracketFirst hyphen (set, cur)))
      (some (bracketFirst hyphen (set, cur.onto t))) := by
  by_cases h : cur.rest.head? = some ']'
  · obtain ⟨_ | ⟨x, rest⟩, flags, names⟩ := cur
    · cases h
    · cases h
      cases hyphen with
      | true => exact extends_some _ _
      | false => exact Meets.extends (meets_bump closing rfl) _
  · rw [bracketFirst_bare hyphen h, bracketFirst_bare hyphen (closing.head_ne (by decide) h)]
    exact extends_some _ _

/-- Reads hyphens into a set. -/
def hyphenRun (cur : Cursor) : CharSet × Cursor :=
  runOf (· == '-') (fun set _ => set.union (.single '-')) cur.rest.length cur .empty

/-- Whether a bracket is negated, the set that it begins with, and the cursor behind its start. -/
def bracketStart (cur : Cursor) : (Bool × CharSet) × Cursor :=
  let sign := bracketSign cur
  let first := bracketFirst (sign.2.rest.head? == some '-') (hyphenRun sign.2)
  ((sign.1, first.1), first.2)

theorem bracketStart_suffix (cur : Cursor) : (bracketStart cur).2.rest <:+ cur.rest :=
  ((bracketFirst_suffix _ _).trans (runOf_suffix _ _ _)).trans (bracketSign_suffix cur)

theorem extends_hyphenRun (closing : Closing t) (cur : Cursor) :
    Extends t (some (hyphenRun cur)) (some (hyphenRun (cur.onto t))) := by
  unfold hyphenRun
  refine extends_runOf closing (by decide) (Nat.le_refl _) ?_ _
  rw [Cursor.onto_rest, List.length_append]

theorem extends_bracketStart (closing : Closing t) (cur : Cursor) :
    Extends t (some (bracketStart cur)) (some (bracketStart (cur.onto t))) := by
  show Extends t
    (some (bracketSign cur) >>= fun sign => some (hyphenRun sign.2) >>= fun run =>
      some (bracketFirst (sign.2.rest.head? == some '-') run) >>= fun first =>
        some ((sign.1, first.1), first.2))
    (some (bracketSign (cur.onto t)) >>= fun sign => some (hyphenRun sign.2) >>= fun run =>
      some (bracketFirst (sign.2.rest.head? == some '-') run) >>= fun first =>
        some ((sign.1, first.1), first.2))
  refine (extends_bracketSign closing cur).bind closing (fun negated d => within_some ?_)
    fun negated c _ u hu _ => ?_
  · exact (bracketFirst_suffix _ _).trans (runOf_suffix _ _ _)
  have hhyphen : ((c.onto u).rest.head? == some '-') = (c.rest.head? == some '-') := by
    rw [Bool.eq_iff_iff, beq_iff_eq, beq_iff_eq, Cursor.onto_rest, hu.head_iff (by decide)]
  dsimp only
  rw [hhyphen]
  exact (extends_hyphenRun hu c).bind hu (fun set d => within_some (bracketFirst_suffix _ (set, d)))
    fun set d _ v hv _ => (extends_bracketFirst hv _ set d).bind hv
      (fun set e => within_some List.suffix_rfl) fun set e _ w _ _ => extends_some _ _

theorem bracket_eq (fuel : Nat) (cur : Cursor) :
    bracket (fuel + 1) cur =
      some (bracketStart cur.skip) >>= fun start =>
        bracketParts fuel start.2 none start.1.2 >>= fun answer =>
          some (bracketRead start.1.1 answer) := by
  rw [bracket]
  dsimp only
  rw [leadingHyphens_eq]
  exact Option.map_eq_bind

/-! ## The parts of a bracket -/

/-- No class has a parenthesis in its name. -/
theorem ascii_none {name : List Char} (h : ')' ∈ name) :
    CharSet.ascii? (String.ofList name) = none := by
  have hne : ∀ s : String, ')' ∉ s.toList → String.ofList name ≠ s := by
    intro s hs heq
    refine hs ?_
    rw [← heq, String.toList_ofList]
    exact h
  unfold CharSet.ascii?
  dsimp only
  split <;> first | rfl | exact absurd ‹_› (hne _ (by decide))

/-- The class whose name stands between colons. -/
def classNamed? (negated : Bool) (rest : List Char) : Option (CharSet × List Char) :=
  match rest.dropWhile (· != ':') with
  | ':' :: ']' :: r => (CharSet.ascii? (String.ofList (rest.takeWhile (· != ':')))).map fun set =>
    (if negated then set.compl else set, r)
  | _ => none

theorem asciiClass_plain (h : rest.head? ≠ some '^') :
    asciiClass? (':' :: rest) = classNamed? false rest := by
  cases rest with
  | nil => rfl
  | cons x rest =>
    have hx : x ≠ '^' := fun heq => h (congrArg some heq)
    unfold asciiClass?
    simp only [List.cons.injEq, hx, false_and, imp_self, implies_true]
    rfl

theorem asciiClass_none (h : rest.head? ≠ some ':') : asciiClass? rest = none := by
  unfold asciiClass?
  split
  · exact absurd rfl h
  · rfl

theorem classNamed_suffix {negated : Bool} {r : List Char} {set : CharSet}
    (h : classNamed? negated rest = some (set, r)) : r <:+ rest := by
  unfold classNamed? at h
  split at h
  · next r' heq =>
    obtain ⟨_, -, heq'⟩ := Option.map_eq_some_iff.1 h
    cases heq'
    have hdrop := List.dropWhile_suffix (l := rest) (· != ':')
    rw [heq] at hdrop
    exact (List.suffix_append [':', ']'] r).trans hdrop
  · cases h

theorem asciiClass_suffix {r : List Char} {set : CharSet} (h : asciiClass? rest = some (set, r)) :
    r <:+ rest := by
  by_cases hcolon : rest.head? = some ':'
  · obtain ⟨rest, rfl⟩ := List.head?_eq_some_iff.1 hcolon
    refine .trans ?_ (List.suffix_cons ':' rest)
    by_cases hnegated : rest.head? = some '^'
    · obtain ⟨rest, rfl⟩ := List.head?_eq_some_iff.1 hnegated
      exact (classNamed_suffix h).trans (List.suffix_cons '^' rest)
    · rw [asciiClass_plain hnegated] at h
      exact classNamed_suffix h
  · rw [asciiClass_none hcolon] at h
    cases h

theorem classNamed_append (closing : Closing t) (negated : Bool) (rest : List Char) :
    classNamed? negated (rest ++ t) =
      (classNamed? negated rest).map fun (set, r) => (set, r ++ t) := by
  unfold classNamed?
  rw [List.dropWhile_append]
  cases hrest : rest.dropWhile (· != ':') with
  | nil =>
    rw [List.isEmpty_nil, if_pos rfl]
    cases t with
    | nil => rfl
    | cons y t =>
      -- a name that would end in the tail has a parenthesis
      obtain rfl := closing.eq_cons
      have hmem : ')' ∈ (rest ++ ')' :: t).takeWhile (· != ':') := by
        rw [List.takeWhile_append_of_pos (List.dropWhile_eq_nil_iff.1 hrest)]
        exact List.mem_append_right _ List.mem_cons_self
      rw [ascii_none hmem]
      split <;> rfl
  | cons y r =>
    have htake : (rest ++ t).takeWhile (· != ':') = rest.takeWhile (· != ':') := by
      have hlength := congrArg List.length (List.takeWhile_append_dropWhile (p := (· != ':')) (l := rest))
      rw [List.length_append, hrest, List.length_cons] at hlength
      rw [List.takeWhile_append, if_neg (by omega)]
    have hy : y = ':' := by
      have hhead := List.head?_dropWhile_not (· != ':') rest
      rw [hrest] at hhead
      simpa using hhead
    subst hy
    rw [htake]
    show (match ':' :: (r ++ t) with
      | ':' :: ']' :: r => _
      | _ => none) = _
    rcases r with _ | ⟨z, r⟩
    · cases t with
      | nil => rfl
      | cons y t =>
        obtain rfl := closing.eq_cons
        rfl
    · by_cases hz : z = ']'
      · subst hz
        show (CharSet.ascii? _).map _ = ((CharSet.ascii? _).map _).map _
        rw [Option.map_map]
        rfl
      · split
        · next heq => exact absurd (List.cons.inj (List.cons.inj heq).2).1 hz
        · split
          · next heq => exact absurd (List.cons.inj (List.cons.inj heq).2).1 hz
          · rfl

/-- A class by name is read as without a tail. -/
theorem asciiClass_append (closing : Closing t) (rest : List Char) :
    asciiClass? (rest ++ t) = (asciiClass? rest).map fun (set, r) => (set, r ++ t) := by
  by_cases hcolon : rest.head? = some ':'
  · obtain ⟨rest, rfl⟩ := List.head?_eq_some_iff.1 hcolon
    by_cases hnegated : rest.head? = some '^'
    · obtain ⟨rest, rfl⟩ := List.head?_eq_some_iff.1 hnegated
      exact classNamed_append closing true rest
    · rw [List.cons_append, asciiClass_plain hnegated,
        asciiClass_plain (closing.head_ne (by decide) hnegated)]
      exact classNamed_append closing false rest
  · rw [asciiClass_none hcolon, asciiClass_none (closing.head_ne (by decide) hcolon)]
    rfl

/-- The operation that comes next in a bracket, and what stands behind it. -/
def setOp? : List Char → Option (SetOp × List Char)
  | '&' :: '&' :: rest => some (.inter, rest)
  | '-' :: '-' :: rest => some (.diff, rest)
  | '~' :: '~' :: rest => some (.symmDiff, rest)
  | _ => none

theorem setOp_suffix {op : SetOp} {r : List Char} (h : setOp? rest = some (op, r)) :
    ∃ x y, rest = x :: y :: r := by
  unfold setOp? at h
  split at h <;> cases h <;> exact ⟨_, _, rfl⟩

/-- One character is no operation, also before a parenthesis. -/
theorem setOp_single (x : Char) (closing : Closing t) : setOp? (x :: t) = none := by
  cases t with
  | nil =>
    unfold setOp?
    split <;> first | rfl | (next heq => cases heq)
  | cons y t =>
    obtain rfl := closing.eq_cons
    unfold setOp?
    split
    · next heq => exact absurd (List.cons.inj (List.cons.inj heq).2).1 (by decide)
    · next heq => exact absurd (List.cons.inj (List.cons.inj heq).2).1 (by decide)
    · next heq => exact absurd (List.cons.inj (List.cons.inj heq).2).1 (by decide)
    · rfl

theorem setOp_append (closing : Closing t) (rest : List Char) :
    setOp? (rest ++ t) = (setOp? rest).map fun (op, r) => (op, r ++ t) := by
  rcases rest with _ | ⟨x, _ | ⟨y, rest⟩⟩
  · cases t with
    | nil => rfl
    | cons z t =>
      obtain rfl := closing.eq_cons
      rfl
  · rw [setOp_single x closing_nil]
    exact setOp_single x closing
  · show setOp? (x :: y :: (rest ++ t)) = _
    unfold setOp?
    split
    · next heq =>
      cases heq
      rfl
    · next heq =>
      cases heq
      rfl
    · next heq =>
      cases heq
      rfl
    · next hinter hdiff hsymm =>
      split
      · next heq =>
        cases heq
        exact absurd rfl (hinter _)
      · next heq =>
        cases heq
        exact absurd rfl (hdiff _)
      · next heq =>
        cases heq
        exact absurd rfl (hsymm _)
      · rfl

variable (left : Option (SetOp × CharSet)) (part : CharSet)

theorem bracketParts_ended (h : cur.skip.rest = []) : bracketParts fuel cur left part = none := by
  cases fuel with
  | zero => rfl
  | succ fuel => rw [bracketParts, h]

theorem bracketParts_close (h : cur.skip.rest = ']' :: rest) :
    bracketParts (fuel + 1) cur left part =
      some (combine cur.skip.flags left part, cur.skip.moved rest) := by
  rw [bracketParts, h]
  rfl

theorem bracketParts_op {op : SetOp} (h : setOp? cur.skip.rest = some (op, rest)) :
    bracketParts (fuel + 1) cur left part =
      bracketParts fuel (cur.skip.moved rest) (some (op, combine cur.skip.flags left part))
        .empty := by
  rw [bracketParts]
  unfold setOp? at h
  split at h
  · next heq =>
    cases h
    rw [heq]
    rfl
  · next heq =>
    cases h
    rw [heq]
    rfl
  · next heq =>
    cases h
    rw [heq]
    rfl
  · cases h

theorem bracketParts_class {r : List Char} {set : CharSet} (h : cur.skip.rest = '[' :: rest)
    (named : asciiClass? rest = some (set, r)) :
    bracketParts (fuel + 1) cur left part =
      if cur.skip.flags.unicode || set.isAscii then
        bracketParts fuel (cur.skip.moved r) left (part.union set)
      else none := by
  rw [bracketParts, h]
  simp only [named]

theorem bracketParts_nested (h : cur.skip.rest = '[' :: rest) (named : asciiClass? rest = none) :
    bracketParts (fuel + 1) cur left part =
      bracket fuel (cur.skip.moved rest) >>= fun (set, c) =>
        bracketParts fuel c left (part.union set) := by
  rw [bracketParts, h]
  simp only [named]

theorem bracketParts_range (h : cur.skip.rest = x :: rest) (close : x ≠ ']') (nested : x ≠ '[')
    (op : setOp? cur.skip.rest = none) :
    bracketParts (fuel + 1) cur left part =
      bracketRange? cur.skip >>= fun (set, c) => bracketParts fuel c left (part.union set) := by
  rw [bracketParts, h]
  rw [h] at op
  split
  · contradiction
  · next heq => exact absurd (List.cons.inj heq).1 close
  · next heq =>
    rw [heq] at op
    cases op
  · next heq =>
    rw [heq] at op
    cases op
  · next heq =>
    rw [heq] at op
    cases op
  · next heq => exact absurd (List.cons.inj heq).1 nested
  · rfl

/-! ## Brackets -/

/-- What is left behind an answer was left before, and something was taken. -/
def Shorter {α : Type} (cur : Cursor) (o : Option (α × Cursor)) : Prop :=
  ∀ v d, o = some (v, d) → d.rest <:+ cur.rest ∧ d.rest.length < cur.rest.length

theorem Within.shorter {α : Type} {o : Option (α × Cursor)} (h : Within c o)
    (suffix : c.rest <:+ cur.rest) (short : c.rest.length < cur.rest.length) : Shorter cur o :=
  fun v d heq => ⟨(h v d heq).trans suffix, (h v d heq).length_le.trans_lt short⟩

theorem Shorter.within {α : Type} {o : Option (α × Cursor)} (h : Shorter c o) : Within c o :=
  fun v d heq => (h v d heq).1

theorem Shorter.beyond {α : Type} {o : Option (α × Cursor)} (h : Shorter c o)
    (short : c.rest.length ≤ t.length) : Beyond t o := fun v d heq =>
  (h v d heq).2.trans_le short

theorem bracketRead_within (negated : Bool) (answer : CharSet × Cursor) :
    Within answer.2 (some (bracketRead negated answer)) := within_some List.suffix_rfl

/-- The parts of a bracket take its end, if nothing is taken from outside with fewer steps. -/
theorem bracketParts_takes (brackets : ∀ cur, Within cur (bracket fuel cur))
    (parts : ∀ cur left part, Within cur (bracketParts fuel cur left part)) (cur : Cursor) :
    Shorter cur.skip (bracketParts (fuel + 1) cur left part) := by
  cases hrest : cur.skip.rest with
  | nil =>
    rw [bracketParts_ended left part hrest]
    nofun
  | cons x rest =>
    have hlength : ∀ {r : List Char}, r <:+ rest → r <:+ cur.skip.rest ∧
        r.length < cur.skip.rest.length := fun hr => by
      rw [hrest]
      exact ⟨hr.trans (List.suffix_cons x rest), Nat.lt_succ_of_le hr.length_le⟩
    by_cases hclose : x = ']'
    · subst hclose
      rw [bracketParts_close left part hrest]
      rintro _ _ ⟨⟩
      exact hlength List.suffix_rfl
    cases hop : setOp? cur.skip.rest with
    | some answer =>
      obtain ⟨op, r⟩ := answer
      obtain ⟨y, z, hr⟩ := setOp_suffix hop
      rw [bracketParts_op left part hop]
      have hsuffix : r <:+ rest := by
        rw [hrest] at hr
        rw [(List.cons.inj hr).2]
        exact List.suffix_cons z r
      exact (parts _ _ _).shorter (hlength hsuffix).1 (hlength hsuffix).2
    | none =>
      by_cases hnested : x = '['
      · subst hnested
        cases hnamed : asciiClass? rest with
        | some answer =>
          obtain ⟨set, r⟩ := answer
          have hsuffix := asciiClass_suffix hnamed
          rw [bracketParts_class left part hrest hnamed]
          split
          · exact (parts _ _ _).shorter (hlength hsuffix).1 (hlength hsuffix).2
          · nofun
        | none =>
          rw [bracketParts_nested left part hrest hnamed]
          have hsuffix := List.suffix_rfl (l := rest)
          exact ((brackets _).bind fun set d => parts d left _).shorter (hlength hsuffix).1
            (hlength hsuffix).2
      · rw [bracketParts_range left part hrest hclose hnested hop]
        intro v d heq
        obtain ⟨⟨set, c⟩, hrange, hrest'⟩ := Option.bind_eq_some_iff.1 heq
        have hc := bracketRange_shorter hrange
        rw [hrest] at hc
        exact hlength ((parts c left _ v d hrest').trans hc)

/-- Nothing is taken from outside of what is left by a bracket, and its end is taken by its
parts. -/
theorem bracket_reads (fuel : Nat) :
    (∀ cur, Within cur (bracket fuel cur)) ∧
      ∀ cur left part, Shorter cur.skip (bracketParts fuel cur left part) := by
  induction fuel with
  | zero => exact ⟨fun _ => within_none, fun _ _ _ _ _ heq => by cases heq⟩
  | succ fuel ih =>
    obtain ⟨brackets, ihp⟩ := ih
    have parts : ∀ cur left part, Within cur (bracketParts fuel cur left part) :=
      fun cur left part => (ihp cur left part).within.mono cur.skip_suffix
    constructor
    · intro cur
      rw [bracket_eq]
      exact Within.bind (within_some ((bracketStart_suffix _).trans cur.skip_suffix))
        fun start d => (parts d none start.2).bind fun set e => bracketRead_within start.1 (set, e)
    · exact fun cur left part => bracketParts_takes left part brackets parts cur

theorem bracket_within (fuel : Nat) (cur : Cursor) : Within cur (bracket fuel cur) :=
  (bracket_reads fuel).1 cur

theorem bracketParts_shorter (fuel : Nat) (cur : Cursor) :
    Shorter cur.skip (bracketParts fuel cur left part) := (bracket_reads fuel).2 cur left part

theorem bracketParts_within (fuel : Nat) (cur : Cursor) :
    Within cur (bracketParts fuel cur left part) :=
  (bracketParts_shorter left part fuel cur).within.mono cur.skip_suffix

/-- Where a bracket sinks, only the tail can end it. -/
theorem bracketParts_sinks (fuel : Nat) (h : Sinks t d) :
    Beyond t (bracketParts fuel d left part) := by
  rcases h with hshort | ⟨rest, hrest, hbump, hhyphen⟩
  · exact (bracketParts_shorter left part fuel d).beyond
      (d.skip_suffix.length_le.trans hshort)
  · cases fuel with
    | zero => exact beyond_none
    | succ fuel =>
      have hsolid := Cursor.skip_of_solid hrest (by decide) (by decide)
      have hop : setOp? d.skip.rest = none := by
        rw [hsolid, hrest]
        unfold setOp?
        split
        · next heq => exact absurd (List.cons.inj heq).1 (by decide)
        · next heq => exact absurd (congrArg List.head? (List.cons.inj heq).2) hhyphen
        · next heq => exact absurd (List.cons.inj heq).1 (by decide)
        · rfl
      have hbump' : (d.moved rest).skip = d.bump := by
        unfold Cursor.bump
        rw [hrest]
        rfl
      rw [bracketParts_range left part (hsolid ▸ hrest) (by decide) (by decide) hop, hsolid,
        bracketRange_eq, bracketItem_char hrest (by decide)]
      intro v e heq
      obtain ⟨⟨set, c⟩, hrange, hparts⟩ := Option.bind_eq_some_iff.1 heq
      have hc : c.rest <:+ d.bump.rest := hbump' ▸ rangeFrom_within _ _ _ _ hrange
      exact (bracketParts_shorter left _ fuel c).beyond
        (c.skip_suffix.length_le.trans (hc.length_le.trans hbump)) v e hparts

/-- With a number of steps that is enough for a text, and one that is enough for the text with a
tail, brackets and their parts are read as without the tail. -/
def SteadyBrackets (fuel : Nat) : Prop :=
  (∀ t fuel' cur, Closing t → 2 * cur.rest.length + 2 ≤ fuel →
    2 * (cur.rest.length + t.length) + 2 ≤ fuel' →
    Extends t (bracket fuel cur) (bracket fuel' (cur.onto t))) ∧
  ∀ t fuel' cur left part, Closing t → 2 * cur.rest.length + 1 ≤ fuel →
    2 * (cur.rest.length + t.length) + 1 ≤ fuel' →
    Extends t (bracketParts fuel cur left part) (bracketParts fuel' (cur.onto t) left part)

namespace SteadyBrackets

theorem bracket (h : SteadyBrackets fuel) (closing : Closing t)
    (enough : 2 * cur.rest.length + 1 ≤ fuel)
    (enough' : 2 * (cur.rest.length + t.length) + 1 ≤ fuel') :
    Extends t (bracket (fuel + 1) cur) (bracket (fuel' + 1) (cur.onto t)) := by
  have hstart : Extends t (some (bracketStart cur.skip)) (some (bracketStart (cur.onto t).skip)) :=
    (meets_skip closing cur).follow (fun c => some (bracketStart c))
      (fun c => some (bracketStart c)) closing (fun d => within_some (bracketStart_suffix d))
      fun u hu _ => extends_bracketStart hu _
  rw [bracket_eq, bracket_eq]
  refine hstart.bind closing (fun start d => (bracketParts_within _ _ _ _).bind fun set e =>
    bracketRead_within start.1 (set, e)) fun start c hc u hu hlen => ?_
  have hlength : c.rest.length ≤ cur.rest.length := by
    have hsuffix := (bracketStart_suffix cur.skip).trans cur.skip_suffix
    rw [Option.some.inj hc] at hsuffix
    exact hsuffix.length_le
  exact (h.2 u fuel' c none start.2 hu (by omega) (by omega)).bind hu
    (fun set e => bracketRead_within start.1 (set, e)) fun set e _ w _ _ => extends_some _ _

/-- The parts behind a class or a bracket within a bracket. -/
theorem nested (h : SteadyBrackets fuel) (closing : Closing t)
    (left : Option (SetOp × CharSet)) (part : CharSet) (hrest : cur.skip.rest = '[' :: rest)
    (there : (cur.onto t).skip = cur.skip.onto t) (enough : 2 * rest.length + 2 ≤ fuel)
    (enough' : 2 * (rest.length + t.length) + 2 ≤ fuel') :
    Extends t (bracketParts (fuel + 1) cur left part)
      (bracketParts (fuel' + 1) (cur.onto t) left part) := by
  have hrest' : (cur.onto t).skip.rest = '[' :: (rest ++ t) := there ▸ Cursor.onto_cons hrest t
  have hclass := asciiClass_append closing rest
  cases hnamed : asciiClass? rest with
  | some answer =>
    obtain ⟨set, r⟩ := answer
    have hlength := (asciiClass_suffix hnamed).length_le
    rw [hnamed] at hclass
    rw [bracketParts_class left part hrest hnamed, bracketParts_class left part hrest' hclass,
      there, Cursor.onto_flags]
    split
    · exact h.2 t fuel' (cur.skip.moved r) _ _ closing (by rw [Cursor.moved_rest]; omega)
        (by rw [Cursor.moved_rest]; omega)
    · exact extends_none
  | none =>
    rw [hnamed] at hclass
    rw [bracketParts_nested left part hrest hnamed, bracketParts_nested left part hrest' hclass,
      there]
    refine (h.1 t fuel' (cur.skip.moved rest) closing enough enough').bind closing
      (fun set d => bracketParts_within _ _ _ _) fun set c hc u hu hlen => ?_
    have hlength := (bracket_within _ _ _ _ hc).length_le
    rw [Cursor.moved_rest] at hlength
    exact h.2 u fuel' c _ _ hu (by omega) (by omega)

/-- The parts behind an item or a range. -/
theorem range (h : SteadyBrackets fuel) (closing : Closing t)
    (left : Option (SetOp × CharSet)) (part : CharSet) (hrest : cur.rest = x :: rest)
    (enough : 2 * rest.length + 2 ≤ fuel) (enough' : 2 * (rest.length + t.length) + 2 ≤ fuel') :
    Extends t
      (bracketRange? cur >>= fun (set, c) => bracketParts fuel c left (part.union set))
      (bracketRange? (cur.onto t) >>= fun (set, c) =>
        bracketParts fuel' c left (part.union set)) := by
  rcases extends_bracketRange closing cur with hrange | ⟨hnone, hsinks⟩
  · refine hrange.bind closing (fun set d => bracketParts_within _ _ _ _)
      fun set c hc u hu hlen => ?_
    have hlength := (bracketRange_shorter hc).length_le
    rw [hrest, List.tail_cons] at hlength
    exact h.2 u fuel' c _ _ hu (by omega) (by omega)
  · refine .failed (by rw [hnone]; rfl) fun v e heq => ?_
    obtain ⟨⟨set, d⟩, hd, hparts⟩ := Option.bind_eq_some_iff.1 heq
    exact bracketParts_sinks _ _ _ (hsinks set d hd) v e hparts

theorem parts (h : SteadyBrackets fuel) (closing : Closing t) (cur : Cursor)
    (left : Option (SetOp × CharSet)) (part : CharSet) (enough : 2 * cur.rest.length ≤ fuel)
    (enough' : 2 * (cur.rest.length + t.length) ≤ fuel') :
    Extends t (bracketParts (fuel + 1) cur left part)
      (bracketParts (fuel' + 1) (cur.onto t) left part) := by
  have hskip := cur.skip_suffix.length_le
  have hmeets := meets_skip closing cur
  cases hrest : cur.skip.rest with
  | nil =>
    refine .failed (bracketParts_ended left part hrest) ?_
    exact (bracketParts_shorter left part _ _).beyond (hmeets.length_le hrest)
  | cons x rest =>
    have there : (cur.onto t).skip = cur.skip.onto t := hmeets.eq_onto (by rw [hrest]; nofun)
    have hrest' : (cur.onto t).skip.rest = x :: (rest ++ t) := there ▸ Cursor.onto_cons hrest t
    rw [hrest, List.length_cons] at hskip
    by_cases hclose : x = ']'
    · subst hclose
      rw [bracketParts_close left part hrest, bracketParts_close left part hrest', there]
      exact extends_some _ _
    have happend := setOp_append closing cur.skip.rest
    rw [← Cursor.onto_rest, ← there] at happend
    cases hop : setOp? cur.skip.rest with
    | some answer =>
      obtain ⟨op, r⟩ := answer
      obtain ⟨y, z, hr⟩ := setOp_suffix hop
      have hlength := congrArg List.length (hrest.symm.trans hr)
      simp only [List.length_cons] at hlength
      rw [hop] at happend
      rw [bracketParts_op left part hop, bracketParts_op left part happend, there]
      exact h.2 t fuel' (cur.skip.moved r) _ _ closing (by rw [Cursor.moved_rest]; omega)
        (by rw [Cursor.moved_rest]; omega)
    | none =>
      rw [hop] at happend
      by_cases hnested : x = '['
      · subst hnested
        exact h.nested closing left part hrest there (by omega) (by omega)
      · rw [bracketParts_range left part hrest hclose hnested hop,
          bracketParts_range left part hrest' hclose hnested happend, there]
        exact h.range closing left part hrest (by omega) (by omega)

end SteadyBrackets

theorem steadyBrackets (fuel : Nat) : SteadyBrackets fuel := by
  induction fuel with
  | zero => exact ⟨fun _ _ _ _ enough => by omega, fun _ _ _ _ _ _ enough => by omega⟩
  | succ fuel ih =>
    constructor
    · intro t fuel' cur closing enough enough'
      obtain ⟨fuel', rfl⟩ : ∃ n, fuel' = n + 1 := ⟨fuel' - 1, by omega⟩
      exact ih.bracket closing (by omega) (by omega)
    · intro t fuel' cur left part closing enough enough'
      obtain ⟨fuel', rfl⟩ : ∃ n, fuel' = n + 1 := ⟨fuel' - 1, by omega⟩
      exact ih.parts closing cur left part (by omega) (by omega)

/-- A bracket is read as without a tail. -/
theorem extends_bracket (closing : Closing t) {cur : Cursor}
    (enough : 2 * cur.rest.length + 2 ≤ fuel)
    (enough' : 2 * (cur.rest.length + t.length) + 2 ≤ fuel') :
    Extends t (bracket fuel cur) (bracket fuel' (cur.onto t)) :=
  (steadyBrackets fuel).1 t fuel' cur closing enough enough'

end LiveRecords.Pattern

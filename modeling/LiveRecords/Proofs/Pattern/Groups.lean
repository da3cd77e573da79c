import LiveRecords.Proofs.Pattern.Brackets

/-
  Reading counts and the starts of groups with more behind them.

  Both are read as without a tail. A count ends with its brace, so something is taken.
-/

namespace LiveRecords.Pattern

variable {t : List Char} {cur c c' d : Cursor} {x : Char} {rest : List Char}

/-! ## Counts -/

/-- A tail does not go on with characters of a kind that a parenthesis is not of. -/
theorem Closing.takeWhile (closing : Closing t) {p : Char → Bool} (h : p ')' = false)
    (cs : List Char) : (cs ++ t).takeWhile p = cs.takeWhile p := by
  induction cs with
  | nil =>
    cases t with
    | nil => rfl
    | cons y t =>
      obtain rfl := closing.eq_cons
      rw [List.nil_append, List.takeWhile_cons_of_neg (Bool.not_eq_true _ ▸ h), List.takeWhile_nil]
  | cons x cs ih =>
    rw [List.cons_append, List.takeWhile_cons, List.takeWhile_cons, ih]

theorem Closing.dropWhile (closing : Closing t) {p : Char → Bool} (h : p ')' = false)
    (cs : List Char) : (cs ++ t).dropWhile p = cs.dropWhile p ++ t := by
  induction cs with
  | nil =>
    cases t with
    | nil => rfl
    | cons y t =>
      obtain rfl := closing.eq_cons
      rw [List.nil_append, List.dropWhile_cons_of_neg (Bool.not_eq_true _ ▸ h), List.dropWhile_nil,
        List.nil_append]
  | cons x cs ih =>
    rw [List.cons_append, List.dropWhile_cons, List.dropWhile_cons, ih]
    split <;> rfl

theorem decimal_onto (closing : Closing t) (cur : Cursor) :
    decimal? (cur.onto t) = ((decimal? cur).1, (decimal? cur).2.onto t) := by
  have hblank : Text.isBlank ')' = false := by decide
  have hdigit : Char.isDigit ')' = false := by decide
  unfold decimal?
  dsimp only
  rw [Cursor.onto_rest, closing.dropWhile hblank, closing.takeWhile hdigit,
    closing.dropWhile hdigit, closing.dropWhile hblank]
  rfl

theorem decimal_suffix (cur : Cursor) : (decimal? cur).2.rest <:+ cur.rest :=
  ((List.dropWhile_suffix _).trans (List.dropWhile_suffix _)).trans (List.dropWhile_suffix _)

theorem skipLazy_suffix (cur : Cursor) : (skipLazy cur).rest <:+ cur.rest := by
  unfold skipLazy
  split
  · next heq =>
    rw [heq]
    exact List.suffix_cons _ _
  · exact List.suffix_rfl

theorem skipLazy_onto (closing : Closing t) (cur : Cursor) :
    skipLazy (cur.onto t) = (skipLazy cur).onto t := by
  unfold skipLazy
  by_cases h : cur.rest.head? = some '?'
  · obtain ⟨rest, h⟩ := List.head?_eq_some_iff.1 h
    rw [Cursor.onto_rest, h]
    rfl
  · have h' : (cur.onto t).rest.head? ≠ some '?' := closing.head_ne (by decide) h
    split
    · next heq => exact absurd (congrArg List.head? heq) h'
    · split
      · next heq => exact absurd (congrArg List.head? heq) h
      · rfl

/-- The greatest count behind a comma, none if there is none. -/
def mostRead? (cur : Cursor) : Option (Option Nat × Cursor) :=
  match cur.rest with
  | '\x7d' :: _ => some (none, cur)
  | _ =>
    match decimal? cur with
    | (some most, cur) => some (some most, cur)
    | (none, _) => none

/-- The greatest count behind the least one. -/
def countsMost? (least : Nat) (cur : Cursor) : Option (Option Nat × Cursor) :=
  match cur.rest with
  | ',' :: _ => mostRead? cur.bump
  | _ => some (some least, cur)

/-- Both counts, if the brace is closed. -/
def countsEnd? (least : Nat) (answer : Option Nat × Cursor) : Option (Nat × Option Nat × Cursor) :=
  match answer.2.rest with
  | '\x7d' :: _ =>
    if answer.1.any (· < least) then none else some (least, answer.1, skipLazy answer.2.bump)
  | _ => none

/-- Counts and the place behind them, the place apart. -/
def countsApart (answer : Nat × Option Nat × Cursor) : (Nat × Option Nat) × Cursor :=
  ((answer.1, answer.2.1), answer.2.2)

theorem mostRead_open (h : cur.rest = '\x7d' :: rest) : mostRead? cur = some (none, cur) := by
  unfold mostRead?
  rw [h]
  rfl

theorem mostRead_decimal (h : cur.rest.head? ≠ some '\x7d') :
    mostRead? cur = (decimal? cur).1 >>= fun most => some (some most, (decimal? cur).2) := by
  unfold mostRead?
  split
  · next heq => exact absurd (congrArg List.head? heq) h
  · rcases decimal? cur with ⟨_ | most, d⟩ <;> rfl

theorem countsMost_comma (least : Nat) (h : cur.rest = ',' :: rest) :
    countsMost? least cur = mostRead? cur.bump := by
  unfold countsMost?
  rw [h]
  rfl

theorem countsMost_alone (least : Nat) (h : cur.rest.head? ≠ some ',') :
    countsMost? least cur = some (some least, cur) := by
  unfold countsMost?
  split
  · next heq => exact absurd (congrArg List.head? heq) h
  · rfl

theorem countsEnd_none (least : Nat) (most : Option Nat) (h : cur.rest.head? ≠ some '\x7d') :
    countsEnd? least (most, cur) = none := by
  unfold countsEnd?
  split
  · next heq => exact absurd (congrArg List.head? heq) h
  · rfl

theorem countsEnd_close (least : Nat) (most : Option Nat) (h : cur.rest = '\x7d' :: rest) :
    countsEnd? least (most, cur) =
      if most.any (· < least) then none else some (least, most, skipLazy cur.bump) := by
  unfold countsEnd?
  rw [h]
  rfl

theorem counts_eq (cur : Cursor) :
    counts? cur = (decimal? cur).1 >>= fun least =>
      countsMost? least (decimal? cur).2 >>= countsEnd? least := by
  unfold counts?
  dsimp only
  cases (decimal? cur).1 with
  | none => rfl
  | some least =>
    obtain ⟨c, hc⟩ : ∃ c, c = (decimal? cur).2 := ⟨_, rfl⟩
    rw [← hc]
    simp only [Option.bind_eq_bind, Option.bind_some]
    split
    · next heq =>
      rw [countsMost_comma least heq]
      split
      · next hopen =>
        rw [mostRead_open hopen]
        exact (countsEnd_close least none hopen).symm
      · next hne =>
        rw [mostRead_decimal fun h => (List.head?_eq_some_iff.1 h).elim hne]
        rcases decimal? c.bump with ⟨_ | most, d⟩ <;> rfl
    · next hne =>
      rw [countsMost_alone least fun h => (List.head?_eq_some_iff.1 h).elim hne]
      rfl

theorem countsApart_eq (cur : Cursor) :
    (counts? cur).map countsApart = (decimal? cur).1 >>= fun least =>
      countsMost? least (decimal? cur).2 >>= fun answer =>
        (countsEnd? least answer).map countsApart := by
  rw [counts_eq]
  cases (decimal? cur).1 with
  | none => rfl
  | some least =>
    cases h : countsMost? least (decimal? cur).2 <;>
      simp only [Option.bind_eq_bind, Option.bind_some, Option.bind_none, Option.map_none, h]

theorem mostRead_within (cur : Cursor) : Within cur (mostRead? cur) := by
  by_cases h : cur.rest.head? = some '\x7d'
  · obtain ⟨rest, h⟩ := List.head?_eq_some_iff.1 h
    rw [mostRead_open h]
    exact within_some List.suffix_rfl
  · rw [mostRead_decimal h]
    exact Within.on_value fun most => within_some (decimal_suffix cur)

theorem countsMost_within (least : Nat) (cur : Cursor) : Within cur (countsMost? least cur) := by
  by_cases h : cur.rest.head? = some ','
  · obtain ⟨rest, h⟩ := List.head?_eq_some_iff.1 h
    rw [countsMost_comma least h]
    exact (mostRead_within cur.bump).mono (cur.bump_suffix.trans (List.tail_suffix _))
  · rw [countsMost_alone least h]
    exact within_some List.suffix_rfl

/-- The brace is taken. -/
theorem countsEnd_shorter (least : Nat) (most : Option Nat) (cur : Cursor) :
    Shorter cur ((countsEnd? least (most, cur)).map countsApart) := by
  by_cases h : cur.rest.head? = some '\x7d'
  · obtain ⟨rest, h⟩ := List.head?_eq_some_iff.1 h
    have hsuffix := (skipLazy_suffix cur.bump).trans (cur.suffix_of_bump h)
    rw [countsEnd_close least most h]
    split
    · nofun
    · rintro _ _ ⟨⟩
      rw [h]
      exact ⟨hsuffix.trans (List.suffix_cons _ _), Nat.lt_succ_of_le hsuffix.length_le⟩
  · rw [countsEnd_none least most h]
    nofun

theorem counts_shorter (cur : Cursor) : Shorter cur ((counts? cur).map countsApart) := by
  rw [countsApart_eq]
  intro v d heq
  obtain ⟨least, -, heq⟩ := Option.bind_eq_some_iff.1 heq
  obtain ⟨⟨most, c⟩, hmost, heq⟩ := Option.bind_eq_some_iff.1 heq
  have hsuffix := (countsMost_within least _ most c hmost).trans (decimal_suffix cur)
  obtain ⟨hd, hshort⟩ := countsEnd_shorter least most c v d heq
  exact ⟨hd.trans hsuffix, hshort.trans_le hsuffix.length_le⟩

theorem extends_mostRead (closing : Closing t) (cur : Cursor) :
    Extends t (mostRead? cur) (mostRead? (cur.onto t)) := by
  by_cases h : cur.rest.head? = some '\x7d'
  · obtain ⟨rest, h⟩ := List.head?_eq_some_iff.1 h
    have h' := Cursor.onto_cons h t
    rw [mostRead_open h, mostRead_open h']
    exact extends_some _ _
  · rw [mostRead_decimal h, mostRead_decimal (closing.head_ne (by decide) h),
      decimal_onto closing]
    exact Extends.on_value fun most _ => extends_some _ _

theorem extends_countsMost (closing : Closing t) (least : Nat) (cur : Cursor) :
    Extends t (countsMost? least cur) (countsMost? least (cur.onto t)) := by
  by_cases h : cur.rest.head? = some ','
  · obtain ⟨rest, h⟩ := List.head?_eq_some_iff.1 h
    have h' := Cursor.onto_cons h t
    rw [countsMost_comma least h, countsMost_comma least h']
    exact (meets_bump closing h).follow _ _ closing mostRead_within
      fun u hu _ => extends_mostRead hu _
  · rw [countsMost_alone least h, countsMost_alone least (closing.head_ne (by decide) h)]
    exact extends_some _ _

theorem extends_countsEnd (closing : Closing t) (least : Nat) (most : Option Nat) (cur : Cursor) :
    Extends t ((countsEnd? least (most, cur)).map countsApart)
      ((countsEnd? least (most, cur.onto t)).map countsApart) := by
  by_cases h : cur.rest.head? = some '\x7d'
  · obtain ⟨rest, h⟩ := List.head?_eq_some_iff.1 h
    have h' := Cursor.onto_cons h t
    rw [countsEnd_close least most h, countsEnd_close least most h']
    split
    · exact extends_none
    · refine (meets_bump closing h).follow (fun c => some ((least, most), skipLazy c))
        (fun c => some ((least, most), skipLazy c)) closing
        (fun c => within_some (skipLazy_suffix c)) fun u hu _ => ?_
      rw [skipLazy_onto hu]
      exact extends_some _ _
  · rw [countsEnd_none least most h, countsEnd_none least most (closing.head_ne (by decide) h)]
    exact extends_none

/-- Counts are read as without a tail. -/
theorem extends_counts (closing : Closing t) (cur : Cursor) :
    Extends t ((counts? cur).map countsApart) ((counts? (cur.onto t)).map countsApart) := by
  rw [countsApart_eq, countsApart_eq, decimal_onto closing]
  exact Extends.on_value fun least _ => (extends_countsMost closing least _).bind closing
    (fun most d => (countsEnd_shorter least most d).within)
    fun most c _ u hu _ => extends_countsEnd hu least most c

/-! ## Flags -/

/-- The flags that were read in front of what is left. -/
def flagsFound (names : List String) (answer : Flags × Bool × List Char) : Bool × Cursor :=
  (answer.2.1, ⟨answer.2.2, answer.1, names⟩)

/-- A letter ends the flags, with or without an answer, or the reader goes on. -/
theorem flagsFrom_cons (x : Char) (flags : Flags) (seen : List Char) (clearing fresh : Bool) :
    (∀ rest, flagsFrom (x :: rest) flags seen clearing fresh = none) ∨
      (∃ opens, ∀ rest, flagsFrom (x :: rest) flags seen clearing fresh =
        some (flags, opens, rest)) ∨
      ∃ flags' seen' clearing' fresh', ∀ rest, flagsFrom (x :: rest) flags seen clearing fresh =
        flagsFrom rest flags' seen' clearing' fresh' := by
  by_cases hopen : x = ':'
  · subst hopen
    cases fresh with
    | true => exact .inl fun rest => rfl
    | false => exact .inr (.inl ⟨true, fun rest => rfl⟩)
  by_cases hclose : x = ')'
  · subst hclose
    cases h : fresh || seen.isEmpty with
    | true => exact .inl fun rest => if_pos h
    | false => exact .inr (.inl ⟨false, fun rest => if_neg (Bool.not_eq_true _ ▸ h)⟩)
  by_cases hclear : x = '-'
  · subst hclear
    cases clearing with
    | true => exact .inl fun rest => rfl
    | false => exact .inr (.inr ⟨flags, _, true, true, fun rest => rfl⟩)
  have hletter : ∀ rest, flagsFrom (x :: rest) flags seen clearing fresh =
      if seen.contains x then none
      else (setFlag? flags (!clearing) x).bind fun flags =>
        flagsFrom rest flags (x :: seen) clearing false := fun rest => by
    rw [flagsFrom]
    · cases setFlag? flags (!clearing) x <;> rfl
    all_goals assumption
  cases hseen : seen.contains x with
  | true => exact .inl fun rest => by rw [hletter, if_pos hseen]
  | false =>
    cases hset : setFlag? flags (!clearing) x with
    | none => exact .inl fun rest => by rw [hletter, if_neg (Bool.not_eq_true _ ▸ hseen), hset]; rfl
    | some flags' =>
      refine .inr (.inr ⟨flags', x :: seen, clearing, false, fun rest => ?_⟩)
      rw [hletter, if_neg (Bool.not_eq_true _ ▸ hseen), hset]
      rfl

/-- What is left behind flags was left before, and something was taken. -/
theorem flagsFrom_shorter {cs : List Char} {flags : Flags} {seen : List Char}
    {clearing fresh : Bool} {answer : Flags × Bool × List Char}
    (h : flagsFrom cs flags seen clearing fresh = some answer) :
    answer.2.2 <:+ cs ∧ answer.2.2.length < cs.length := by
  induction cs generalizing flags seen clearing fresh with
  | nil => cases h
  | cons x cs ih =>
    obtain hnone | ⟨opens, hsome⟩ | ⟨flags', seen', clearing', fresh', hnext⟩ :=
      flagsFrom_cons x flags seen clearing fresh
    · rw [hnone] at h
      cases h
    · rw [hsome] at h
      cases h
      exact ⟨List.suffix_cons x cs, Nat.lt_succ_self _⟩
    · rw [hnext] at h
      obtain ⟨hsuffix, hshort⟩ := ih h
      exact ⟨hsuffix.trans (List.suffix_cons x cs), hshort.trans (Nat.lt_succ_self _)⟩

theorem extends_flagsFrom (names : List String) (cs : List Char) (flags : Flags)
    (seen : List Char) (clearing fresh : Bool) :
    Extends t ((flagsFrom cs flags seen clearing fresh).map (flagsFound names))
      ((flagsFrom (cs ++ t) flags seen clearing fresh).map (flagsFound names)) := by
  induction cs generalizing flags seen clearing fresh with
  | nil =>
    refine .failed rfl fun opens d heq => ?_
    obtain ⟨answer, hanswer, heq⟩ := Option.map_eq_some_iff.1 heq
    cases heq
    exact (flagsFrom_shorter hanswer).2
  | cons x cs ih =>
    rw [List.cons_append]
    obtain hnone | ⟨opens, hsome⟩ | ⟨flags', seen', clearing', fresh', hnext⟩ :=
      flagsFrom_cons x flags seen clearing fresh
    · rw [hnone, hnone]
      exact extends_none
    · rw [hsome, hsome]
      exact extends_some _ _
    · rw [hnext, hnext]
      exact ih _ _ _ _

/-! ## The starts of groups -/

namespace GroupStart

/-- Whether a group was opened, and where to go on. -/
def split : GroupStart → Bool × Cursor
  | .group cur => (true, cur)
  | .flags cur => (false, cur)

end GroupStart

/-- A text without a parenthesis comes next if it does without a tail. -/
theorem after_onto (closing : Closing t) {text : String} (h : ')' ∉ text.toList) (cur : Cursor) :
    (cur.onto t).after? text = (cur.after? text).map (·.onto t) := by
  have hbegins : text.toList <+: cur.rest ++ t ↔ text.toList <+: cur.rest := by
    refine ⟨fun ⟨u, hu⟩ => ?_, fun hshort => hshort.trans (List.prefix_append _ _)⟩
    obtain ⟨r, hr, -⟩ | ⟨_ | ⟨x, r⟩, hr, ht⟩ := List.append_eq_append_iff.1 hu
    · exact ⟨r, hr.symm⟩
    · rw [hr, List.append_nil]
    · rw [ht] at closing
      obtain rfl := closing.eq_cons
      rw [hr] at h
      simp at h
  unfold Cursor.after?
  rw [Cursor.onto_rest]
  by_cases hcur : text.toList <+: cur.rest
  · rw [if_pos (List.isPrefixOf_iff_prefix.2 hcur),
      if_pos (List.isPrefixOf_iff_prefix.2 (hbegins.2 hcur)),
      List.drop_append_of_le_length (String.length_toList ▸ hcur.length_le)]
    rfl
  · rw [if_neg (mt List.isPrefixOf_iff_prefix.1 hcur),
      if_neg (mt List.isPrefixOf_iff_prefix.1 (mt hbegins.1 hcur))]
    rfl

theorem after_suffix {text : String} (h : cur.after? text = some d) : d.rest <:+ cur.rest := by
  unfold Cursor.after? at h
  split at h
  · cases h
    exact List.drop_suffix _ _
  · cases h

/-- A name that is closed by an angle, and what it opens. -/
theorem groupName_closed {name : List Char} (h : cur.rest = name ++ '>' :: rest)
    (free : '>' ∉ name) :
    groupName? cur = if isGroupName name && !cur.names.contains (String.ofList name) then
      some (.group ⟨rest, cur.flags, String.ofList name :: cur.names⟩) else none := by
  have hname : ∀ c ∈ name, (c != '>') = true := fun c hc => bne_iff_ne.2 fun heq => free (heq ▸ hc)
  have htake : cur.rest.takeWhile (· != '>') = name := by
    rw [h, List.takeWhile_append_of_pos hname]
    exact List.append_nil name
  have hdrop : cur.rest.dropWhile (· != '>') = '>' :: rest := by
    rw [h, List.dropWhile_append_of_pos hname]
    rfl
  unfold groupName?
  rw [htake, hdrop]

theorem groupName_open (h : '>' ∉ cur.rest) : groupName? cur = none := by
  have hnone : cur.rest.dropWhile (· != '>') = [] :=
    List.dropWhile_eq_nil_iff.2 fun c hc => bne_iff_ne.2 fun heq => h (heq ▸ hc)
  unfold groupName?
  rw [hnone]

theorem groupName_within (cur : Cursor) :
    Within cur ((groupName? cur).map GroupStart.split) := by
  by_cases h : '>' ∈ cur.rest
  · obtain ⟨name, rest, hrest, free⟩ := List.eq_append_cons_of_mem h
    rw [groupName_closed hrest free]
    split
    · refine within_some ?_
      rw [hrest]
      exact (List.suffix_cons _ _).trans (List.suffix_append _ _)
    · exact within_none
  · rw [groupName_open h]
    exact within_none

theorem extends_groupName (cur : Cursor) :
    Extends t ((groupName? cur).map GroupStart.split)
      ((groupName? (cur.onto t)).map GroupStart.split) := by
  by_cases h : '>' ∈ cur.rest
  · obtain ⟨name, rest, hrest, free⟩ := List.eq_append_cons_of_mem h
    have hrest' : (cur.onto t).rest = name ++ '>' :: (rest ++ t) := by
      rw [Cursor.onto_rest, hrest, List.append_assoc]
      rfl
    rw [groupName_closed hrest free, groupName_closed hrest' free, Cursor.onto_names,
      Cursor.onto_flags]
    split
    · exact extends_some _ _
    · exact extends_none
  · -- a name that is closed behind the end takes some of the tail
    rw [groupName_open h]
    refine .failed rfl ?_
    by_cases h' : '>' ∈ t
    · obtain ⟨name, rest, hrest, free⟩ := List.eq_append_cons_of_mem h'
      have hrest' : (cur.onto t).rest = (cur.rest ++ name) ++ '>' :: rest := by
        rw [Cursor.onto_rest, hrest, List.append_assoc]
      rw [groupName_closed hrest' fun hmem => (List.mem_append.1 hmem).elim h free]
      split
      · rintro _ _ ⟨⟩
        rw [hrest, List.length_append]
        exact Nat.lt_add_left _ (Nat.lt_succ_self _)
      · exact beyond_none
    · rw [groupName_open fun hmem => (List.mem_append.1 hmem).elim h h']
      exact beyond_none

/-- What is read behind the mark of flags, or of a group that has none. -/
def flagsStart? (cur : Cursor) : Option GroupStart :=
  (flagsFrom cur.rest cur.flags [] false false).map fun (flags, opens, rest) =>
    let next : Cursor := { cur with rest, flags }
    if opens then .group next else .flags next

/-- The places behind the marks that a group may begin with: those of conditions, which are
refused, of names, and of flags. -/
def groupFrom? (cur : Cursor) : Option GroupStart :=
  if ["?=", "?!", "?<=", "?<!"].any fun mark => (cur.after? mark).isSome then none
  else
    match (cur.after? "?P<").orElse fun _ => cur.after? "?<" with
    | some cur => groupName? cur
    | none =>
      match cur.after? "?" with
      | none => some (.group cur)
      | some cur => flagsStart? cur

theorem flagsStart_split (cur : Cursor) : (flagsStart? cur).map GroupStart.split =
    (flagsFrom cur.rest cur.flags [] false false).map (flagsFound cur.names) := by
  unfold flagsStart?
  rw [Option.map_map]
  congr
  funext ⟨flags, opens, rest⟩
  cases opens <;> rfl

theorem flagsStart_within (cur : Cursor) : Within cur ((flagsStart? cur).map GroupStart.split) := by
  rw [flagsStart_split]
  rintro opens d heq
  obtain ⟨answer, hanswer, heq⟩ := Option.map_eq_some_iff.1 heq
  cases heq
  exact (flagsFrom_shorter hanswer).1

theorem extends_flagsStart (cur : Cursor) :
    Extends t ((flagsStart? cur).map GroupStart.split)
      ((flagsStart? (cur.onto t)).map GroupStart.split) := by
  rw [flagsStart_split, flagsStart_split]
  exact extends_flagsFrom cur.names cur.rest cur.flags [] false false

theorem groupFrom_within (cur : Cursor) : Within cur ((groupFrom? cur).map GroupStart.split) := by
  unfold groupFrom?
  split
  · exact within_none
  · split
    · next d hname =>
      refine (groupName_within d).mono ?_
      rw [Option.orElse_eq_or] at hname
      rcases Option.or_eq_some_iff.1 hname with h | ⟨-, h⟩
      · exact after_suffix h
      · exact after_suffix h
    · split
      · exact within_some List.suffix_rfl
      · next d hflags => exact (flagsStart_within d).mono (after_suffix hflags)

theorem extends_groupFrom (closing : Closing t) (cur : Cursor) :
    Extends t ((groupFrom? cur).map GroupStart.split)
      ((groupFrom? (cur.onto t)).map GroupStart.split) := by
  have hmark : ∀ mark ∈ ["?=", "?!", "?<=", "?<!", "?P<", "?<", "?"], (cur.onto t).after? mark =
      (cur.after? mark).map (·.onto t) := fun mark hmem =>
    after_onto closing (by revert mark; decide) cur
  have hlooks : (["?=", "?!", "?<=", "?<!"].any fun mark => ((cur.onto t).after? mark).isSome) =
      ["?=", "?!", "?<=", "?<!"].any fun mark => (cur.after? mark).isSome := by
    simp only [List.any_cons, hmark _ (by decide : "?=" ∈ _), hmark _ (by decide : "?!" ∈ _),
      hmark _ (by decide : "?<=" ∈ _), hmark _ (by decide : "?<!" ∈ _), Option.isSome_map,
      List.any_nil]
  have hnames : (((cur.onto t).after? "?P<").orElse fun _ => (cur.onto t).after? "?<") =
      ((cur.after? "?P<").orElse fun _ => cur.after? "?<").map (·.onto t) := by
    rw [hmark _ (by decide), hmark _ (by decide)]
    cases cur.after? "?P<" <;> rfl
  unfold groupFrom?
  rw [hlooks, hnames, hmark _ (by decide)]
  split
  · exact extends_none
  · cases (cur.after? "?P<").orElse fun _ => cur.after? "?<" with
    | some d => exact extends_groupName d
    | none =>
      cases cur.after? "?" with
      | some d => exact extends_flagsStart d
      | none => exact extends_some _ _

/-- What is left behind the start of a group was left before. -/
theorem groupStart_within (cur : Cursor) : Within cur ((groupStart? cur).map GroupStart.split) :=
  (groupFrom_within cur.skip).mono cur.skip_suffix

/-- The start of a group is read as without a tail. -/
theorem extends_groupStart (closing : Closing t) (cur : Cursor) :
    Extends t ((groupStart? cur).map GroupStart.split)
      ((groupStart? (cur.onto t)).map GroupStart.split) :=
  (meets_skip closing cur).follow (fun c => (groupFrom? c).map GroupStart.split)
    (fun c => (groupFrom? c).map GroupStart.split) closing groupFrom_within
    fun _ hu _ => extends_groupFrom hu _

end LiveRecords.Pattern

import LiveRecords.Proofs.Pattern.Groups

/-
  Reading alternatives with more behind them.

  Alternatives and their branches are read with a number of steps that the text bounds. With
  enough of them for the text, and enough for the text with a tail, a branch is read as without
  the tail (`extends_alternatives`): one step is one part of the branch, and what stands behind
  the part is shorter.
-/

namespace LiveRecords.Pattern

variable {t : List Char} {cur c d : Cursor} {x : Char} {rest : List Char} {fuel fuel' : Nat}

/-! ## The parts of a branch -/

/-- The counts that a mark stands for. -/
def markCounts? : Char → Option (Nat × Option Nat)
  | '?' => some (0, some 1)
  | '*' => some (0, none)
  | '+' => some (1, none)
  | _ => none

/-- The parts with the last one repeated. -/
def repeatLast? (done : List Pattern) (repeatable : Bool) (counts : Nat × Option Nat) :
    Option (List Pattern) :=
  match done with
  | last :: before => if repeatable then some (.rep last counts.1 counts.2 :: before) else none
  | [] => none

/-- What an escape is as a part of a branch. -/
def escapePattern? (flags : Flags) : Escape → Option Pattern
  | .char c => some (charPattern flags c)
  | .set set => setPattern? flags set
  | .look condition => some (.look condition)

/-- What a single character is as a part of a branch. -/
def singlePattern? (flags : Flags) : Char → Option Pattern
  | '.' => dotPattern? flags
  | '^' => some (.look (if flags.multiLine then .lineStart flags.crlf else .textStart))
  | '$' => some (.look (if flags.multiLine then .lineEnd flags.crlf else .textEnd))
  | c => some (charPattern flags c)

/-- The rest of a branch behind a group that is closed. -/
def closeGroup (fuel : Nat) (flags : Flags) (done : List Pattern) (answer : Pattern × Cursor) :
    Option (Pattern × Cursor) :=
  match answer.2.rest with
  | ')' :: rest => branch fuel { answer.2 with rest, flags } (answer.1 :: done) true
  | _ => none

/-- The rest of a branch behind the start of a group. -/
def groupRest (fuel : Nat) (flags : Flags) (done : List Pattern) (start : Bool × Cursor) :
    Option (Pattern × Cursor) :=
  if start.1 then alternatives fuel start.2 >>= closeGroup fuel flags done
  else branch fuel start.2 done false

/-- The rest of a branch behind a part that was read. -/
def partRest {α : Type} (fuel : Nat) (parts : α → Option (List Pattern)) (answer : α × Cursor) :
    Option (Pattern × Cursor) :=
  parts answer.1 >>= fun done => branch fuel answer.2 done true

/-- One step of a branch, behind blanks. -/
def branchFrom (fuel : Nat) (done : List Pattern) (repeatable : Bool) (cur : Cursor) :
    Option (Pattern × Cursor) :=
  match cur.rest with
  | [] => some (sequence done, cur)
  | x :: rest =>
    if x = ')' ∨ x = '|' then some (sequence done, cur)
    else if x = '\x7b' then
      (counts? cur.bump).map countsApart >>= partRest fuel (repeatLast? done repeatable)
    else if x = '(' then
      (groupStart? (cur.moved rest)).map GroupStart.split >>= groupRest fuel cur.flags done
    else if x = '[' then
      bracket fuel (cur.moved rest) >>=
        partRest fuel fun set => (setPattern? cur.flags set).map (· :: done)
    else if x = '\\' then
      escape? (cur.moved rest) >>=
        partRest fuel fun escape => (escapePattern? cur.flags escape).map (· :: done)
    else
      match markCounts? x with
      | some counts =>
        partRest fuel (repeatLast? done repeatable) (counts, skipLazy (cur.moved rest))
      | none =>
        partRest fuel (fun x => (singlePattern? cur.flags x).map (· :: done)) (x, cur.moved rest)

theorem partRest_cons {α : Type} (fuel : Nat) (part : α → Option Pattern) (done : List Pattern)
    (answer : α × Cursor) : partRest fuel (fun v => (part v).map (· :: done)) answer =
      part answer.1 >>= fun p => branch fuel answer.2 (p :: done) true := by
  unfold partRest
  dsimp only
  cases part answer.1 <;> rfl

/-- The characters that stand for something else in a branch. -/
def specials : List Char := [')', '|', '?', '*', '+', '\x7b', '(', '[', '\\', '.', '^', '$']

/-- Any other character stands for itself. -/
theorem branchFrom_single (fuel : Nat) (done : List Pattern) (repeatable : Bool)
    (hrest : cur.rest = x :: rest) (plain : x ∉ specials) :
    branchFrom fuel done repeatable cur =
      branch fuel (cur.moved rest) (charPattern cur.flags x :: done) true := by
  simp only [specials, List.mem_cons, List.not_mem_nil, or_false, not_or] at plain
  obtain ⟨hclose, halt, hquestion, hstar, hplus, hcounts, hgroup, hbracket, hescape, hdot, hstart,
    hend⟩ := plain
  have hmark : markCounts? x = none := by
    unfold markCounts?
    split <;> first | contradiction | rfl
  have hsingle : singlePattern? cur.flags x = some (charPattern cur.flags x) := by
    unfold singlePattern?
    split <;> first | contradiction | rfl
  unfold branchFrom
  rw [hrest]
  dsimp only
  rw [if_neg (not_or.2 ⟨hclose, halt⟩), if_neg hcounts, if_neg hgroup, if_neg hbracket,
    if_neg hescape, hmark]
  dsimp only
  rw [partRest_cons fuel (singlePattern? cur.flags) done (x, cur.moved rest), hsingle]
  rfl

theorem branch_eq (fuel : Nat) (cur : Cursor) (done : List Pattern) (repeatable : Bool) :
    branch (fuel + 1) cur done repeatable = branchFrom fuel done repeatable cur.skip := by
  unfold branch branchFrom
  dsimp only
  cases h : cur.skip.rest with
  | nil => rfl
  | cons x rest =>
    split
    · next heq => cases heq
    · next heq =>
      cases heq
      rfl
    · next heq =>
      cases heq
      rfl
    · next heq =>
      cases heq
      cases done <;> cases repeatable <;> rfl
    · next heq =>
      cases heq
      cases done <;> cases repeatable <;> rfl
    · next heq =>
      cases heq
      cases done <;> cases repeatable <;> rfl
    · next heq =>
      cases heq
      show _ = (counts? cur.skip.bump).map countsApart >>= _
      cases counts? cur.skip.bump with
      | none => rfl
      | some answer => cases done <;> cases repeatable <;> rfl
    · next heq =>
      cases heq
      show _ = (groupStart? (cur.skip.moved _)).map GroupStart.split >>= _
      cases groupStart? (cur.skip.moved _) with
      | none => rfl
      | some start =>
        cases start with
        | flags d => rfl
        | group inner => rfl
    · next heq =>
      cases heq
      show _ = bracket fuel (cur.skip.moved _) >>= _
      rcases bracket fuel (cur.skip.moved _) with _ | ⟨set, d⟩
      · rfl
      · exact (partRest_cons fuel (setPattern? cur.skip.flags) done (set, d)).symm
    · next heq =>
      cases heq
      show _ = escape? (cur.skip.moved _) >>= _
      rcases escape? (cur.skip.moved _) with _ | ⟨c | set | condition, d⟩
      · rfl
      · rfl
      · exact (partRest_cons fuel (escapePattern? cur.skip.flags) done (.set set, d)).symm
      · rfl
    · next heq =>
      cases heq
      exact (partRest_cons fuel (singlePattern? cur.skip.flags) done ('.', cur.skip.moved rest)).symm
    · next heq =>
      cases heq
      rfl
    · next heq =>
      cases heq
      rfl
    · next hclose halt hquestion hstar hplus hcounts hgroup hbracket hescape hdot hstart hend heq =>
      obtain ⟨rfl, rfl⟩ := List.cons.inj heq
      have plain : x ∉ specials := by
        simp only [specials, List.mem_cons, List.not_mem_nil, or_false, not_or]
        exact ⟨hclose, halt, hquestion, hstar, hplus, hcounts, hgroup, hbracket, hescape, hdot,
          hstart, hend⟩
      rw [← branchFrom_single fuel done repeatable h plain]
      unfold branchFrom
      rw [h]

theorem closeGroup_close (fuel : Nat) (flags : Flags) (done : List Pattern) (body : Pattern)
    (h : cur.rest = ')' :: rest) : closeGroup fuel flags done (body, cur) =
      branch fuel { cur with rest, flags } (body :: done) true := by
  unfold closeGroup
  rw [h]
  rfl

theorem closeGroup_open (fuel : Nat) (flags : Flags) (done : List Pattern) (body : Pattern)
    (h : cur.rest.head? ≠ some ')') : closeGroup fuel flags done (body, cur) = none := by
  unfold closeGroup
  split
  · next heq => exact absurd (congrArg List.head? heq) h
  · rfl

/-- What is read behind a branch. -/
def alternativesRest (fuel : Nat) (answer : Pattern × Cursor) : Option (Pattern × Cursor) :=
  match answer.2.rest with
  | '|' :: rest =>
    alternatives fuel (answer.2.moved rest) >>= fun right => some (.alt answer.1 right.1, right.2)
  | _ => some answer

theorem alternatives_eq (fuel : Nat) (cur : Cursor) :
    alternatives (fuel + 1) cur = branch fuel cur [] false >>= alternativesRest fuel := by
  unfold alternatives
  cases branch fuel cur [] false <;> rfl

theorem alternativesRest_bar (fuel : Nat) (left : Pattern) (h : cur.rest = '|' :: rest) :
    alternativesRest fuel (left, cur) =
      alternatives fuel (cur.moved rest) >>= fun right => some (.alt left right.1, right.2) := by
  unfold alternativesRest
  rw [h]
  rfl

theorem alternativesRest_end (fuel : Nat) (left : Pattern) (h : cur.rest.head? ≠ some '|') :
    alternativesRest fuel (left, cur) = some (left, cur) := by
  unfold alternativesRest
  split
  · next heq => exact absurd (congrArg List.head? heq) h
  · rfl

/-! ## What is left -/

/-- With a number of steps nothing is taken from outside of what is left. -/
def Inward (fuel : Nat) : Prop :=
  (∀ cur, Within cur (alternatives fuel cur)) ∧
    ∀ cur done repeatable, Within cur (branch fuel cur done repeatable)

namespace Inward

theorem closeGroup (h : Inward fuel) (flags : Flags) (done : List Pattern)
    (answer : Pattern × Cursor) : Within answer.2 (closeGroup fuel flags done answer) := by
  obtain ⟨body, d⟩ := answer
  by_cases hclose : d.rest.head? = some ')'
  · obtain ⟨rest, hrest⟩ := List.head?_eq_some_iff.1 hclose
    rw [closeGroup_close fuel flags done body hrest]
    refine Within.mono (h.2 _ _ _) ?_
    rw [hrest]
    exact List.suffix_cons ')' rest
  · rw [closeGroup_open fuel flags done body hclose]
    exact within_none

theorem groupRest (h : Inward fuel) (flags : Flags) (done : List Pattern)
    (start : Bool × Cursor) : Within start.2 (groupRest fuel flags done start) := by
  unfold Pattern.groupRest
  split
  · exact (h.1 start.2).bind fun body d => h.closeGroup flags done (body, d)
  · exact h.2 start.2 done false

theorem alternativesRest (h : Inward fuel) (answer : Pattern × Cursor) :
    Within answer.2 (alternativesRest fuel answer) := by
  obtain ⟨left, d⟩ := answer
  by_cases hbar : d.rest.head? = some '|'
  · obtain ⟨rest, hrest⟩ := List.head?_eq_some_iff.1 hbar
    rw [alternativesRest_bar fuel left hrest]
    refine Within.mono ((h.1 (d.moved rest)).bind fun right e => within_some List.suffix_rfl) ?_
    rw [hrest]
    exact List.suffix_cons '|' rest
  · rw [alternativesRest_end fuel left hbar]
    exact within_some List.suffix_rfl

theorem partRest {α : Type} (h : Inward fuel) (parts : α → Option (List Pattern))
    (answer : α × Cursor) : Within answer.2 (partRest fuel parts answer) :=
  Within.on_value fun done => h.2 answer.2 done true

theorem branchFrom (h : Inward fuel) (done : List Pattern) (repeatable : Bool) (cur : Cursor) :
    Within cur (branchFrom fuel done repeatable cur) := by
  unfold Pattern.branchFrom
  cases hrest : cur.rest with
  | nil => exact within_some List.suffix_rfl
  | cons x rest =>
    have hmoved : (cur.moved rest).rest <:+ cur.rest := hrest ▸ List.suffix_cons x rest
    dsimp only
    split_ifs
    · exact within_some List.suffix_rfl
    · exact Within.mono ((counts_shorter cur.bump).within.bind fun counts d =>
        h.partRest _ (counts, d)) (cur.bump_suffix.trans (List.tail_suffix _))
    · exact Within.mono ((groupStart_within (cur.moved rest)).bind fun opens d =>
        h.groupRest cur.flags done (opens, d)) hmoved
    · exact Within.mono ((bracket_within fuel (cur.moved rest)).bind fun set d =>
        h.partRest _ (set, d)) hmoved
    · exact Within.mono ((escape_within (cur.moved rest)).bind fun escape d =>
        h.partRest _ (escape, d)) hmoved
    · split
      · exact (h.partRest _ (_, _)).mono ((skipLazy_suffix (cur.moved rest)).trans hmoved)
      · exact (h.partRest _ (x, cur.moved rest)).mono hmoved

end Inward

theorem inward (fuel : Nat) : Inward fuel := by
  induction fuel with
  | zero => exact ⟨fun _ => within_none, fun _ _ _ => within_none⟩
  | succ fuel ih =>
    constructor
    · intro cur
      rw [alternatives_eq]
      exact (ih.2 cur [] false).bind fun left d => ih.alternativesRest (left, d)
    · intro cur done repeatable
      rw [branch_eq]
      exact (ih.branchFrom done repeatable cur.skip).mono cur.skip_suffix

/-! ## With a tail -/

/-- Where a brace dangles, only the tail can end it. -/
theorem branch_dangles (fuel : Nat) (h : Dangles t d) (done : List Pattern) (repeatable : Bool) :
    Beyond t (branch fuel d done repeatable) := by
  obtain ⟨rest, hrest, hbump⟩ := h
  cases fuel with
  | zero => exact beyond_none
  | succ fuel =>
    rw [branch_eq, Cursor.skip_of_solid hrest (by decide) (by decide)]
    unfold branchFrom
    rw [hrest]
    exact ((counts_shorter d.bump).beyond hbump).bind fun counts e =>
      (inward fuel).partRest _ (counts, e)

/-- With a number of steps that is enough for a text, and one that is enough for the text with a
tail, the text is read as without the tail. -/
def Steady (fuel : Nat) : Prop :=
  (∀ t fuel' cur, Closing t → 2 * cur.rest.length + 2 ≤ fuel →
    2 * (cur.rest.length + t.length) + 2 ≤ fuel' →
    Extends t (alternatives fuel cur) (alternatives fuel' (cur.onto t))) ∧
  ∀ t fuel' cur done repeatable, Closing t → 2 * cur.rest.length + 1 ≤ fuel →
    2 * (cur.rest.length + t.length) + 1 ≤ fuel' →
    Extends t (branch fuel cur done repeatable) (branch fuel' (cur.onto t) done repeatable)

namespace Steady

theorem closeGroup (h : Steady fuel) (closing : Closing t) (flags : Flags) (done : List Pattern)
    (body : Pattern) (enough : 2 * cur.rest.length ≤ fuel)
    (enough' : 2 * (cur.rest.length + t.length) ≤ fuel') :
    Extends t (closeGroup fuel flags done (body, cur))
      (closeGroup fuel' flags done (body, cur.onto t)) := by
  by_cases hclose : cur.rest.head? = some ')'
  · obtain ⟨rest, hrest⟩ := List.head?_eq_some_iff.1 hclose
    have hrest' := Cursor.onto_cons hrest t
    rw [hrest, List.length_cons] at enough enough'
    rw [closeGroup_close fuel flags done body hrest, closeGroup_close fuel' flags done body hrest']
    exact h.2 t fuel' { cur with rest, flags } _ _ closing (by dsimp only; omega)
      (by dsimp only; omega)
  · rw [closeGroup_open fuel flags done body hclose]
    refine .failed rfl ?_
    by_cases hclose' : (cur.onto t).rest.head? = some ')'
    · obtain ⟨rest, hrest⟩ := List.head?_eq_some_iff.1 hclose'
      rw [closeGroup_close fuel' flags done body hrest]
      -- the parenthesis that closes the group stands in the tail
      have htail : t = ')' :: rest := by
        rw [Cursor.onto_rest] at hrest
        cases hcur : cur.rest with
        | nil => rwa [hcur, List.nil_append] at hrest
        | cons y r =>
          rw [hcur] at hclose hrest
          exact absurd (congrArg some (List.cons.inj hrest).1) hclose
      refine Within.beyond ((inward fuel').2 _ _ _) ?_
      rw [htail]
      exact Nat.lt_succ_self _
    · rw [closeGroup_open fuel' flags done body hclose']
      exact beyond_none

theorem groupRest (h : Steady fuel) (closing : Closing t) (flags : Flags) (done : List Pattern)
    (opens : Bool) (enough : 2 * cur.rest.length + 2 ≤ fuel)
    (enough' : 2 * (cur.rest.length + t.length) + 2 ≤ fuel') :
    Extends t (groupRest fuel flags done (opens, cur))
      (groupRest fuel' flags done (opens, cur.onto t)) := by
  unfold Pattern.groupRest
  cases opens with
  | false => exact h.2 t fuel' cur done false closing (by omega) (by omega)
  | true =>
    refine (h.1 t fuel' cur closing enough enough').bind closing
      (fun body d => (inward fuel').closeGroup flags done (body, d)) fun body d hd u hu hlen => ?_
    have hlength := ((inward fuel).1 cur body d hd).length_le
    exact h.closeGroup hu flags done body (by omega) (by omega)

theorem alternativesRest (h : Steady fuel) (closing : Closing t) (left : Pattern)
    (enough : 2 * cur.rest.length ≤ fuel)
    (enough' : 2 * (cur.rest.length + t.length) ≤ fuel') :
    Extends t (alternativesRest fuel (left, cur)) (alternativesRest fuel' (left, cur.onto t)) := by
  by_cases hbar : cur.rest.head? = some '|'
  · obtain ⟨rest, hrest⟩ := List.head?_eq_some_iff.1 hbar
    have hrest' := Cursor.onto_cons hrest t
    rw [hrest, List.length_cons] at enough enough'
    rw [alternativesRest_bar fuel left hrest, alternativesRest_bar fuel' left hrest']
    exact (h.1 t fuel' (cur.moved rest) closing (by rw [Cursor.moved_rest]; omega)
      (by rw [Cursor.moved_rest]; omega)).bind closing
      (fun right d => within_some List.suffix_rfl) fun right d _ u _ _ => extends_some _ _
  · rw [alternativesRest_end fuel left hbar,
      alternativesRest_end fuel' left (closing.head_ne (by decide) hbar)]
    exact extends_some _ _

theorem partRest {α : Type} (h : Steady fuel) (closing : Closing t)
    (parts : α → Option (List Pattern)) (v : α) (enough : 2 * cur.rest.length + 1 ≤ fuel)
    (enough' : 2 * (cur.rest.length + t.length) + 1 ≤ fuel') :
    Extends t (partRest fuel parts (v, cur)) (partRest fuel' parts (v, cur.onto t)) :=
  Extends.on_value fun done _ => h.2 t fuel' cur done true closing enough enough'

/-- The rest of a branch behind a part that is read as without a tail. -/
theorem partBind {α : Type} (h : Steady fuel) (closing : Closing t)
    {o o' : Option (α × Cursor)} (part : Extends t o o') (within : Within cur o)
    (parts : α → Option (List Pattern)) (enough : 2 * cur.rest.length + 1 ≤ fuel)
    (enough' : 2 * (cur.rest.length + t.length) + 1 ≤ fuel') :
    Extends t (o >>= Pattern.partRest fuel parts) (o' >>= Pattern.partRest fuel' parts) := by
  refine part.bind closing (fun v d => (inward fuel').partRest parts (v, d))
    fun v d hd u hu hlen => ?_
  have hlength := (within v d hd).length_le
  exact h.partRest hu parts v (by omega) (by omega)

/-- The end of a text ends a branch, and so does the parenthesis of the tail. -/
theorem branchFrom_ended (closing : Closing t) (hrest : cur.rest = []) (done : List Pattern)
    (repeatable : Bool) : Extends t (Pattern.branchFrom fuel done repeatable cur)
      (Pattern.branchFrom fuel' done repeatable (cur.onto t)) := by
  have hhere : Pattern.branchFrom fuel done repeatable cur = some (sequence done, cur) := by
    unfold Pattern.branchFrom
    rw [hrest]
  have hthere : Pattern.branchFrom fuel' done repeatable (cur.onto t) =
      some (sequence done, cur.onto t) := by
    unfold Pattern.branchFrom
    rw [Cursor.onto_rest, hrest, List.nil_append]
    cases t with
    | nil => rfl
    | cons y t =>
      obtain rfl := closing.eq_cons
      rfl
  exact .on hhere hthere

/-- A part of a branch is read as without a tail, and so is the rest of the branch. -/
theorem branchFrom (h : Steady fuel) (closing : Closing t) (done : List Pattern)
    (repeatable : Bool) (enough : 2 * cur.rest.length ≤ fuel)
    (enough' : 2 * (cur.rest.length + t.length) ≤ fuel') :
    Extends t (branchFrom fuel done repeatable cur)
      (branchFrom fuel' done repeatable (cur.onto t)) := by
  cases hrest : cur.rest with
  | nil => exact branchFrom_ended closing hrest done repeatable
  | cons x rest =>
    have hrest' := Cursor.onto_cons hrest t
    have hmoved : (cur.onto t).moved (rest ++ t) = (cur.moved rest).onto t := rfl
    rw [hrest, List.length_cons] at enough enough'
    have room : 2 * (cur.moved rest).rest.length + 2 ≤ fuel := by
      rw [Cursor.moved_rest]
      omega
    have room' : 2 * ((cur.moved rest).rest.length + t.length) + 2 ≤ fuel' := by
      rw [Cursor.moved_rest]
      omega
    unfold Pattern.branchFrom
    rw [hrest, hrest']
    dsimp only
    rw [hmoved, Cursor.onto_flags]
    split_ifs with hstop hcounts hgroup hbracket hescape
    · exact extends_some _ _
    · have hlength := (cur.suffix_of_bump hrest).length_le
      exact (meets_bump closing hrest).follow
        (fun c => (counts? c).map countsApart >>= Pattern.partRest fuel _)
        (fun c => (counts? c).map countsApart >>= Pattern.partRest fuel' _) closing
        (fun c => (counts_shorter c).within.bind fun counts d =>
          (inward fuel').partRest _ (counts, d))
        fun u hu hlen => h.partBind hu (extends_counts hu cur.bump) (counts_shorter _).within _
          (by omega) (by omega)
    · refine (extends_groupStart closing (cur.moved rest)).bind closing
        (fun opens d => (inward fuel').groupRest cur.flags done (opens, d))
        fun opens d hd u hu hlen => ?_
      have hlength := (groupStart_within (cur.moved rest) opens d hd).length_le
      exact h.groupRest hu cur.flags done opens (by omega) (by omega)
    · exact h.partBind closing (extends_bracket closing room room')
        (bracket_within fuel (cur.moved rest)) _ (by omega) (by omega)
    · rcases extends_escape closing (cur.moved rest) with hpart | ⟨hnone, condition, d, hd, hdangles⟩
      · exact h.partBind closing hpart (escape_within (cur.moved rest)) _ (by omega) (by omega)
      · rw [hnone, hd]
        exact .failed rfl (branch_dangles fuel' hdangles _ true)
    · cases markCounts? x with
      | some counts =>
        dsimp only
        rw [skipLazy_onto closing]
        have hlength := (skipLazy_suffix (cur.moved rest)).length_le
        exact h.partRest closing _ counts (by omega) (by omega)
      | none => exact h.partRest closing _ x (by omega) (by omega)

end Steady

theorem steady (fuel : Nat) : Steady fuel := by
  induction fuel with
  | zero => exact ⟨fun _ _ _ _ enough => by omega, fun _ _ _ _ _ _ enough => by omega⟩
  | succ fuel ih =>
    constructor
    · intro t fuel' cur closing enough enough'
      obtain ⟨fuel', rfl⟩ : ∃ n, fuel' = n + 1 := ⟨fuel' - 1, by omega⟩
      rw [alternatives_eq, alternatives_eq]
      refine (ih.2 t fuel' cur [] false closing (by omega) (by omega)).bind closing
        (fun left d => (inward fuel').alternativesRest (left, d)) fun left d hd u hu hlen => ?_
      have hlength := ((inward fuel).2 cur [] false left d hd).length_le
      exact ih.alternativesRest hu left (by omega) (by omega)
    · intro t fuel' cur done repeatable closing enough enough'
      obtain ⟨fuel', rfl⟩ : ∃ n, fuel' = n + 1 := ⟨fuel' - 1, by omega⟩
      have hlength := cur.skip_suffix.length_le
      rw [branch_eq, branch_eq]
      exact (meets_skip closing cur).follow (Pattern.branchFrom fuel done repeatable)
        (Pattern.branchFrom fuel' done repeatable) closing
        ((inward fuel').branchFrom done repeatable) fun u hu hlen =>
          ih.branchFrom hu done repeatable (by omega) (by omega)

end LiveRecords.Pattern

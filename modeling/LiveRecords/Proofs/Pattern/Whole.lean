import LiveRecords.Proofs.Expr.Compiling
import LiveRecords.Proofs.Pattern.Alternatives
import LiveRecords.Proofs.Pattern.Spans

/-
  Matches of whole texts.

  A match of a whole text is asked for by putting the text of the pattern into a group between
  anchors before it is read. A text that is a pattern by itself is then read as that pattern,
  unless it ends within a comment, which takes the end of the group for its own. A text that is
  no pattern is refused, unless a parenthesis in it ends the group early: behind a piece that is
  a pattern by itself the reader goes on with what follows.
-/

namespace LiveRecords

namespace Pattern

variable {s p : String} {q r : Pattern}

/-- A text that is read to its end as a pattern, of whatever weight. -/
def Reads (s : String) (q : Pattern) : Prop :=
  ∃ cur, alternatives (2 * s.length + 2) ⟨s.toList, {}, []⟩ = some (q, cur) ∧ cur.rest = []

theorem read_eq_some_iff : read? s = some q ↔ Reads s q ∧ q.weight ≤ weightLimit := by
  unfold read? Reads
  constructor
  · intro h
    split at h
    · next p cur heq =>
      split at h
      · next hfit =>
        cases h
        rw [Bool.and_eq_true, List.isEmpty_iff, decide_eq_true_iff] at hfit
        exact ⟨⟨cur, heq, hfit.1⟩, hfit.2⟩
      · cases h
    · cases h
  · rintro ⟨⟨cur, heq, hrest⟩, hweight⟩
    rw [heq]
    exact if_pos (by rw [hrest, decide_eq_true hweight]; rfl)

/-- With enough steps the number of steps does not matter. -/
theorem alternatives_steps {cs : List Char} {fuel fuel' : Nat} (enough : 2 * cs.length + 2 ≤ fuel)
    (enough' : 2 * cs.length + 2 ≤ fuel') :
    alternatives fuel' ⟨cs, {}, []⟩ = alternatives fuel ⟨cs, {}, []⟩ := by
  have h := ((steady fuel).1 [] fuel' ⟨cs, {}, []⟩ closing_nil enough enough').eq_of_nil
  rwa [Cursor.onto_nil] at h

theorem reads_iff {cs : List Char} {fuel : Nat} (hs : s.toList = cs)
    (enough : 2 * cs.length + 2 ≤ fuel) :
    Reads s q ↔ ∃ cur, alternatives fuel ⟨cs, {}, []⟩ = some (q, cur) ∧ cur.rest = [] := by
  subst hs
  unfold Reads
  rw [← String.length_toList, alternatives_steps enough (Nat.le_refl _)]

/-- A text of which something is left is no pattern. -/
theorem not_reads (h : ∃ q cur, alternatives (2 * s.length + 2) ⟨s.toList, {}, []⟩ = some (q, cur) ∧
    cur.rest ≠ []) : ¬Reads s r := by
  obtain ⟨q, cur, hcur, hrest⟩ := h
  rintro ⟨cur', hcur', hrest'⟩
  rw [hcur] at hcur'
  cases hcur'
  exact hrest hrest'

/-! ## The group between anchors -/

/-- A pattern between anchors. -/
def anchored (q : Pattern) : Pattern := .seq (.look .textStart) (.seq q (.look .textEnd))

theorem alternatives_framed (fuel : Nat) (cs : List Char) :
    alternatives (fuel + 3) ⟨'^' :: '(' :: '?' :: ':' :: cs, {}, []⟩ =
      (alternatives fuel ⟨cs, {}, []⟩ >>= closeGroup fuel {} [.look .textStart]) >>=
        alternativesRest (fuel + 2) := by
  have hgroup : branch (fuel + 1) ⟨'(' :: '?' :: ':' :: cs, {}, []⟩ [.look .textStart] true =
      alternatives fuel ⟨cs, {}, []⟩ >>= closeGroup fuel {} [.look .textStart] := by
    rw [branch_eq]
    rfl
  rw [alternatives_eq, branch_eq, ← hgroup]
  rfl

/-- Behind a group that is closed the last anchor ends the pattern. -/
theorem closeGroup_anchored (fuel : Nat) (q : Pattern) {cur : Cursor}
    (h : cur.rest = [')', '$']) : closeGroup (fuel + 2) {} [.look .textStart] (q, cur) =
      some (anchored q, ⟨[], {}, cur.names⟩) := by
  rw [closeGroup_close (fuel + 2) {} [.look .textStart] q h, branch_eq]
  show branch (fuel + 1) ⟨[], {}, cur.names⟩ [.look .textEnd, q, .look .textStart] true = _
  rw [branch_eq]
  rfl

/-- The steps that are left behind the start of the group. -/
def steps (p : String) : Nat := 2 * p.length + 11

/-- What is left behind the start of the group. -/
def framed (p : String) : Cursor := ⟨p.toList ++ [')', '$'], {}, []⟩

theorem readFull_eq_some_iff : readFull? p = some r ↔
    (∃ cur, (alternatives (steps p) (framed p) >>=
      closeGroup (steps p) {} [.look .textStart]) >>= alternativesRest (steps p + 2) =
        some (r, cur) ∧ cur.rest = []) ∧ r.weight ≤ weightLimit := by
  have hchars : ("^(?:" ++ p ++ ")$").toList =
      '^' :: '(' :: '?' :: ':' :: (p.toList ++ [')', '$']) := by
    rw [String.toList_append, String.toList_append]
    rfl
  have hlength : 2 * ("^(?:" ++ p ++ ")$").length + 2 = steps p + 3 := by
    rw [← String.length_toList, hchars]
    simp only [List.length_cons, List.length_append, List.length_nil, String.length_toList, steps]
    omega
  unfold readFull?
  rw [read_eq_some_iff]
  unfold Reads
  rw [hlength, hchars, alternatives_framed]
  rfl

/-- A text that is closed: with the end of a group behind it, it does not read to the end. -/
def Closes (p : String) : Prop := ∀ r, ¬Reads (p ++ ")$") r

theorem reads_framed_iff : Reads (p ++ ")$") r ↔
    ∃ cur, alternatives (steps p) (framed p) = some (r, cur) ∧ cur.rest = [] := by
  refine reads_iff (by rw [String.toList_append]; rfl) ?_
  simp only [List.length_cons, List.length_append, List.length_nil, String.length_toList, steps]
  omega

/-- A text that is a pattern by itself is read as that pattern before the end of a group, and
stops there or runs over it. -/
theorem Reads.framed (h : Reads p q) : ∃ cur, cur.rest = [] ∧
    (alternatives (steps p) (framed p) = some (q, cur.onto [')', '$']) ∨
      alternatives (steps p) (framed p) = some (q, cur)) := by
  obtain ⟨cur, hcur, hrest⟩ := h
  have hextends := (steady (2 * p.length + 2)).1 [')', '$'] (steps p) ⟨p.toList, {}, []⟩
    (fun c hc => (Option.some.inj hc).symm) (by rw [String.length_toList])
    (by simp only [List.length_cons, List.length_nil, String.length_toList, steps]; omega)
  cases hextends with
  | on here there =>
    rw [hcur] at here
    cases here
    exact ⟨cur, hrest, .inl there⟩
  | swallowed here ended beyond quiet =>
    rw [hcur] at here
    cases here
    exact ⟨cur, hrest, .inr (quiet (by decide))⟩
  | failed here beyond =>
    rw [hcur] at here
    cases here

/-- The pattern of a text that is closed is put between anchors. -/
theorem readFull_of_closed (h : Reads p q) (closed : Closes p) :
    readFull? p = some r ↔ r = anchored q ∧ r.weight ≤ weightLimit := by
  obtain ⟨cur, hrest, hstops | hruns⟩ := h.framed
  · have honto : (cur.onto [')', '$']).rest = [')', '$'] := by
      rw [Cursor.onto_rest, hrest]
      rfl
    have hgroup : closeGroup (steps p) {} [.look .textStart] (q, cur.onto [')', '$']) =
        some (anchored q, ⟨[], {}, cur.names⟩) := closeGroup_anchored (2 * p.length + 9) q honto
    rw [readFull_eq_some_iff, hstops]
    refine and_congr_left fun _ => ?_
    show (∃ d, closeGroup (steps p) {} [.look .textStart] (q, cur.onto [')', '$']) >>=
      alternativesRest (steps p + 2) = some (r, d) ∧ d.rest = []) ↔ _
    rw [hgroup]
    constructor
    · rintro ⟨d, hd, -⟩
      cases hd
      rfl
    · rintro rfl
      exact ⟨_, rfl, rfl⟩
  · exact absurd (reads_framed_iff.2 ⟨cur, hruns, hrest⟩) (closed q)

/-- A text that runs over the end of the group is refused. -/
theorem readFull_of_unclosed (h : Reads p q) (unclosed : ¬Closes p) : readFull? p = none := by
  obtain ⟨cur, hrest, hstops | hruns⟩ := h.framed
  · refine absurd (fun r hr => ?_) unclosed
    obtain ⟨d, hd, hended⟩ := reads_framed_iff.1 hr
    rw [hstops] at hd
    cases hd
    rw [Cursor.onto_rest, hrest] at hended
    cases hended
  · rw [Option.eq_none_iff_forall_ne_some]
    intro r hr
    obtain ⟨⟨d, hd, -⟩, -⟩ := readFull_eq_some_iff.1 hr
    have hopen : closeGroup (steps p) {} [.look .textStart] (q, cur) = none :=
      closeGroup_open (steps p) {} _ q (by rw [hrest]; nofun)
    rw [hruns] at hd
    change closeGroup (steps p) {} [.look .textStart] (q, cur) >>= _ = _ at hd
    rw [hopen] at hd
    cases hd

/-- What was read before a parenthesis is read as well where nothing follows. -/
theorem reads_front {front : List Char} {body : Pattern} {inner : Cursor} {fuel : Nat}
    (closing : Closing inner.rest) (enough : 2 * (front.length + inner.rest.length) + 2 ≤ fuel)
    (h : alternatives fuel ⟨front ++ inner.rest, {}, []⟩ = some (body, inner)) :
    Reads (String.ofList front) body := by
  have hextends := (steady (2 * front.length + 2)).1 inner.rest fuel ⟨front, {}, []⟩ closing
    (Nat.le_refl _) enough
  rw [reads_iff (String.toList_ofList) (Nat.le_refl _)]
  cases hextends with
  | @on v cur here there =>
    obtain ⟨rfl, hinner⟩ := Prod.mk.inj (Option.some.inj (h.symm.trans there))
    have hrest : inner.rest = cur.rest ++ inner.rest := congrArg Cursor.rest hinner
    exact ⟨cur, here, List.self_eq_append_left.1 hrest⟩
  | swallowed here ended beyond quiet => exact absurd (beyond body inner h) (lt_irrefl _)
  | failed here beyond => exact absurd (beyond body inner h) (lt_irrefl _)

/-- A text is refused if neither the text nor a piece of it before a parenthesis is a pattern by
itself. -/
theorem readFull_of_unread (h : ∀ q, ¬Reads p q)
    (pieces : ∀ before after, p = before ++ ")" ++ after → ∀ q, ¬Reads before q) :
    readFull? p = none := by
  rw [Option.eq_none_iff_forall_ne_some]
  intro r hr
  obtain ⟨⟨d, hd, -⟩, -⟩ := readFull_eq_some_iff.1 hr
  obtain ⟨⟨_, _⟩, hgroup, -⟩ := Option.bind_eq_some_iff.1 hd
  obtain ⟨⟨body, inner⟩, hbody, hclose⟩ := Option.bind_eq_some_iff.1 hgroup
  obtain ⟨rest, hrest⟩ : ∃ rest, inner.rest = ')' :: rest := by
    by_contra hne
    rw [closeGroup_open (steps p) {} _ body fun hhead => hne (List.head?_eq_some_iff.1 hhead)]
      at hclose
    cases hclose
  obtain ⟨front, hfront⟩ := (inward (steps p)).1 (framed p) body inner hbody
  have hlength := congrArg List.length hfront
  simp only [framed, List.length_append, List.length_cons, List.length_nil,
    String.length_toList] at hlength
  have hread : Reads (String.ofList front) body := by
    have hclosing : Closing inner.rest := by
      rw [hrest]
      exact fun c hc => (Option.some.inj hc).symm
    have hbody' : alternatives (steps p) ⟨front ++ inner.rest, {}, []⟩ = some (body, inner) := by
      rw [hfront]
      exact hbody
    exact reads_front hclosing (by unfold steps; omega) hbody'
  rw [hrest] at hfront
  change front ++ ')' :: rest = p.toList ++ [')', '$'] at hfront
  have hproper : front ≠ p.toList := by
    rintro rfl
    rw [String.ofList_toList] at hread
    exact h body hread
  obtain ⟨_ | ⟨x, after⟩, hp, hafter⟩ | ⟨_ | ⟨x, _ | ⟨y, more⟩⟩, hp, hmore⟩ :=
    List.append_eq_append_iff.1 hfront
  · exact hproper (by rw [hp, List.append_nil])
  · obtain ⟨rfl, -⟩ := List.cons.inj hafter
    refine pieces (String.ofList front) (String.ofList after) ?_ body hread
    rw [← String.toList_inj, hp]
    simp
  · exact hproper (by rw [hp, List.append_nil])
  -- the parenthesis is not the last anchor
  · simp at hmore
  · simp at hmore

end Pattern

namespace Expr

open Pattern

end Expr

end LiveRecords

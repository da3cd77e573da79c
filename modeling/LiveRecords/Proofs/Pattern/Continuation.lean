import Mathlib
import LiveRecords.Pattern.Parser

/-
  Reading a text with more behind it.

  A reader of patterns is asked for a text, and for the same text with a tail behind it that
  begins with a closing parenthesis. What it answers the second time is related to the first
  answer (`Extends`): it is the same, with the tail left to read; or a comment that was open at
  the end has run on into the tail; or there was no answer, and if there is one now then some of
  the tail was needed for it. The relation goes through one reader after another
  (`Extends.bind`, `Extends.follow`), so it is shown for each reader on its own.
-/

namespace LiveRecords.Pattern

variable {α β : Type} {t : List Char} {cur c c' d : Cursor}

namespace Cursor

/-- The cursor with a tail behind what is left to read. -/
def onto (cur : Cursor) (t : List Char) : Cursor := cur.moved (cur.rest ++ t)

@[simp] theorem onto_rest (cur : Cursor) (t : List Char) : (cur.onto t).rest = cur.rest ++ t := rfl

@[simp] theorem onto_flags (cur : Cursor) (t : List Char) : (cur.onto t).flags = cur.flags := rfl

@[simp] theorem onto_names (cur : Cursor) (t : List Char) : (cur.onto t).names = cur.names := rfl

theorem onto_cons {x : Char} {rest : List Char} (h : cur.rest = x :: rest) (t : List Char) :
    (cur.onto t).rest = x :: (rest ++ t) := by
  rw [onto_rest, h, List.cons_append]

@[simp] theorem onto_nil (cur : Cursor) : cur.onto [] = cur := by
  unfold onto moved
  rw [List.append_nil]

@[simp] theorem moved_rest (cur : Cursor) (rest : List Char) : (cur.moved rest).rest = rest := rfl

end Cursor

/-! ## What is left -/

/-- What is left behind an answer was left before. -/
def Within (cur : Cursor) (o : Option (α × Cursor)) : Prop :=
  ∀ v d, o = some (v, d) → d.rest <:+ cur.rest

/-- An answer is given only if some of a tail is taken. -/
def Beyond (t : List Char) (o : Option (α × Cursor)) : Prop :=
  ∀ v d, o = some (v, d) → d.rest.length < t.length

theorem within_none : Within cur (none : Option (α × Cursor)) := nofun

theorem within_some {v : α} (h : d.rest <:+ cur.rest) : Within cur (some (v, d)) := by
  rintro _ _ ⟨⟩
  exact h

theorem Within.mono {o : Option (α × Cursor)} (h : Within c o) (suffix : c.rest <:+ cur.rest) :
    Within cur o := fun v d heq => (h v d heq).trans suffix

theorem Within.bind {o : Option (α × Cursor)} {k : α × Cursor → Option (β × Cursor)}
    (h : Within cur o) (next : ∀ v d, Within d (k (v, d))) : Within cur (o >>= k) := by
  intro w e heq
  obtain ⟨⟨v, d⟩, hd, he⟩ := Option.bind_eq_some_iff.1 heq
  exact (next v d w e he).trans (h v d hd)

theorem Within.on_value {o : Option β} {k : β → Option (α × Cursor)}
    (next : ∀ v, Within cur (k v)) : Within cur (o >>= k) := by
  cases o with
  | none => exact within_none
  | some v => exact next v

theorem beyond_none : Beyond t (none : Option (α × Cursor)) := nofun

/-- Reading on from a place within a tail does not lead out of it. -/
theorem Within.beyond {o : Option (α × Cursor)} (h : Within c o)
    (short : c.rest.length < t.length) : Beyond t o := fun v d heq =>
  (h v d heq).length_le.trans_lt short

theorem Beyond.bind {o : Option (α × Cursor)} {k : α × Cursor → Option (β × Cursor)}
    (h : Beyond t o) (within : ∀ v d, Within d (k (v, d))) : Beyond t (o >>= k) := by
  intro w e heq
  obtain ⟨⟨v, d⟩, hd, he⟩ := Option.bind_eq_some_iff.1 heq
  exact (within v d w e he).length_le.trans_lt (h v d hd)

/-! ## Extended readings -/

/-- A tail that closes what is read: it is empty or begins with a parenthesis. -/
def Closing (t : List Char) : Prop := ∀ c ∈ t.head?, c = ')'

theorem closing_nil : Closing [] := nofun

/-- The answer for a text and the one for the text with a tail. -/
inductive Extends (t : List Char) (o o' : Option (α × Cursor)) : Prop where
  | on {v : α} {c : Cursor} (here : o = some (v, c)) (there : o' = some (v, c.onto t))
  | swallowed {v : α} {c : Cursor} (here : o = some (v, c)) (ended : c.rest = [])
      (beyond : Beyond t o') (quiet : '\n' ∉ t → o' = some (v, c))
  | failed (here : o = none) (beyond : Beyond t o')

/-- The same for a step that gives a place and no more. -/
inductive Meets (t : List Char) (c c' : Cursor) : Prop where
  | on (there : c' = c.onto t)
  | swallowed (ended : c.rest = []) (beyond : c'.rest.length < t.length)
      (quiet : '\n' ∉ t → c' = c)

/-- Nothing can be taken of an empty tail. -/
theorem Extends.eq_of_nil {o o' : Option (α × Cursor)} (h : Extends [] o o') : o' = o := by
  cases h with
  | @on v c here there => rw [here, there, Cursor.onto_nil]
  | swallowed here ended beyond quiet => exact absurd (beyond _ _ (quiet List.not_mem_nil)) nofun
  | failed here beyond =>
    rw [here]
    exact Option.eq_none_iff_forall_not_mem.2 fun ⟨v, d⟩ hd => absurd (beyond v d hd) nofun

/-- Going on from two places that meet. -/
theorem Meets.follow (h : Meets t c c') (k k' : Cursor → Option (α × Cursor))
    (closing : Closing t) (within : ∀ d, Within d (k' d))
    (next : ∀ u, Closing u → u.length ≤ t.length → Extends u (k c) (k' (c.onto u))) :
    Extends t (k c) (k' c') := by
  cases h with
  | on there =>
    rw [there]
    exact next t closing (Nat.le_refl _)
  | swallowed ended beyond quiet =>
    have hsame := (next [] closing_nil (Nat.zero_le _)).eq_of_nil
    rw [Cursor.onto_nil] at hsame
    have hbeyond := (within c').beyond beyond
    cases hk : k c with
    | none => exact .failed rfl hbeyond
    | some answer =>
      obtain ⟨v, d⟩ := answer
      have hd := within c v d (hsame.trans hk)
      rw [ended, List.suffix_nil] at hd
      refine .swallowed rfl hd hbeyond fun hquiet => ?_
      rw [quiet hquiet, hsame, hk]

/-- Going on from two answers. -/
theorem Extends.bind {o o' : Option (α × Cursor)} {k k' : α × Cursor → Option (β × Cursor)}
    (h : Extends t o o') (closing : Closing t) (within : ∀ v d, Within d (k' (v, d)))
    (next : ∀ v c, o = some (v, c) → ∀ u, Closing u → u.length ≤ t.length →
      Extends u (k (v, c)) (k' (v, c.onto u))) :
    Extends t (o >>= k) (o' >>= k') := by
  cases h with
  | @on v c here there =>
    rw [here, there]
    exact next v c here t closing (Nat.le_refl _)
  | failed here beyond =>
    rw [here]
    exact .failed rfl (beyond.bind within)
  | @swallowed v c here ended beyond quiet =>
    have hsame := (next v c here [] closing_nil (Nat.zero_le _)).eq_of_nil
    rw [Cursor.onto_nil] at hsame
    have hbeyond := beyond.bind within
    rw [here]
    show Extends t (k (v, c)) _
    cases hk : k (v, c) with
    | none => exact .failed rfl hbeyond
    | some answer =>
      obtain ⟨w, d⟩ := answer
      have hd := within v c w d (hsame.trans hk)
      rw [ended, List.suffix_nil] at hd
      refine .swallowed rfl hd hbeyond fun hquiet => ?_
      rw [quiet hquiet]
      exact hsame.trans hk

theorem extends_some (v : α) (c : Cursor) : Extends t (some (v, c)) (some (v, c.onto t)) :=
  .on rfl rfl

theorem extends_none : Extends t (none : Option (α × Cursor)) none := .failed rfl beyond_none

theorem Extends.on_value {o : Option β} {k k' : β → Option (α × Cursor)}
    (next : ∀ v, o = some v → Extends t (k v) (k' v)) : Extends t (o >>= k) (o >>= k') := by
  cases o with
  | none => exact extends_none
  | some v => exact next v rfl

/-- What comes first in a tail is a parenthesis. -/
theorem Closing.eq_cons {x : Char} {rest : List Char} (closing : Closing (x :: rest)) : x = ')' :=
  closing x rfl

/-- A tail brings no other character to the front than a parenthesis. -/
theorem Closing.head_iff (closing : Closing t) {x : Char} (ne : x ≠ ')') (cs : List Char) :
    (cs ++ t).head? = some x ↔ cs.head? = some x := by
  cases cs with
  | nil => exact iff_of_false (fun heq => ne (closing x heq)) nofun
  | cons y cs => exact Iff.rfl

theorem Closing.head_ne (closing : Closing t) {x : Char} (ne : x ≠ ')') {cs : List Char}
    (h : cs.head? ≠ some x) : (cs ++ t).head? ≠ some x :=
  mt (closing.head_iff ne cs).1 h

/-! ## Blanks and comments -/

theorem skipBlanks_suffix (comment : Bool) (cs : List Char) : skipBlanks comment cs <:+ cs := by
  induction cs generalizing comment with
  | nil => exact List.suffix_rfl
  | cons c rest ih =>
    have hrest := List.suffix_cons c rest
    unfold skipBlanks
    split_ifs
    · exact (ih _).trans hrest
    · exact (ih _).trans hrest
    · exact (ih _).trans hrest
    · exact List.suffix_rfl

/-- A comment takes everything up to the end of its line. -/
theorem skipBlanks_comment {cs : List Char} (h : '\n' ∉ cs) : skipBlanks true cs = [] := by
  induction cs with
  | nil => rfl
  | cons c rest ih =>
    have hc : (c != '\n') = true := bne_iff_ne.2 fun heq => h (heq ▸ List.mem_cons_self)
    unfold skipBlanks
    rw [if_pos rfl, hc]
    exact ih fun hmem => h (List.mem_cons_of_mem c hmem)

/-- Blanks in front of a tail are skipped as without it, unless a comment is open. -/
theorem skipBlanks_append (closing : Closing t) (comment : Bool) (cs : List Char) :
    skipBlanks comment (cs ++ t) = skipBlanks comment cs ++ t ∨
      (skipBlanks comment cs = [] ∧ (skipBlanks comment (cs ++ t)).length < t.length ∧
        ('\n' ∉ t → skipBlanks comment (cs ++ t) = [])) := by
  induction cs generalizing comment with
  | nil =>
    cases t with
    | nil => exact .inl rfl
    | cons c rest =>
      obtain rfl : c = ')' := closing c rfl
      cases comment with
      | false => exact .inl rfl
      | true =>
        refine .inr ⟨rfl, ?_, skipBlanks_comment⟩
        exact Nat.lt_succ_of_le (skipBlanks_suffix true rest).length_le
  | cons c rest ih =>
    rw [List.cons_append]
    unfold skipBlanks
    split_ifs
    · exact ih _
    · exact ih _
    · exact ih _
    · exact .inl rfl

namespace Cursor

theorem skip_suffix (cur : Cursor) : cur.skip.rest <:+ cur.rest := by
  unfold skip
  split
  · exact skipBlanks_suffix false cur.rest
  · exact List.suffix_rfl

theorem bump_suffix (cur : Cursor) : cur.bump.rest <:+ cur.rest.tail :=
  (cur.moved cur.rest.tail).skip_suffix

theorem suffix_of_bump {x : Char} {rest : List Char} (h : cur.rest = x :: rest) :
    cur.bump.rest <:+ rest := by
  have hbump := cur.bump_suffix
  rwa [h] at hbump

/-- What is neither blank nor the start of a comment is not skipped. -/
theorem skip_of_solid {x : Char} {rest : List Char} (h : cur.rest = x :: rest) (comment : x ≠ '#')
    (blank : Text.isBlank x = false) : cur.skip = cur := by
  obtain ⟨_, flags, names⟩ := cur
  obtain rfl := h
  unfold skip
  split
  · unfold skipBlanks
    rw [if_neg (by decide), if_neg (by simpa using comment), blank]
    rfl
  · rfl

end Cursor

theorem meets_skip (closing : Closing t) (cur : Cursor) : Meets t cur.skip (cur.onto t).skip := by
  unfold Cursor.skip
  rw [Cursor.onto_flags]
  split
  · rcases skipBlanks_append closing false cur.rest with heq | ⟨hended, hbeyond, hquiet⟩
    · exact .on (congrArg cur.moved heq)
    · exact .swallowed hended hbeyond fun h => congrArg cur.moved ((hquiet h).trans hended.symm)
  · exact .on rfl

theorem meets_bump (closing : Closing t) {x : Char} {rest : List Char} (h : cur.rest = x :: rest) :
    Meets t cur.bump (cur.onto t).bump := by
  have hmoved : (cur.onto t).moved (cur.onto t).rest.tail = (cur.moved cur.rest.tail).onto t := by
    rw [Cursor.onto_rest, h]
    rfl
  unfold Cursor.bump
  rw [hmoved]
  exact meets_skip closing _

/-! ## Runs of characters -/

section

variable {σ : Type} {step : σ → Char → Option σ} {finish : σ → Option α} {p : Char → Bool}
  {next : σ → Char → σ} {fuel fuel' : Nat}

/-- Reads characters up to a closing brace, each of them into what was read so far. -/
def upToBrace (step : σ → Char → Option σ) (finish : σ → Option α) :
    Nat → Cursor → σ → Option (α × Cursor)
  | 0, _, _ => none
  | fuel + 1, cur, s =>
    match cur.rest with
    | [] => none
    | c :: rest =>
      if c = '\x7d' then (finish s).map fun v => (v, cur.moved rest)
      else step s c >>= upToBrace step finish fuel cur.bump

/-- The brace is taken. -/
theorem upToBrace_shorter {s : σ} {v : α} (h : upToBrace step finish fuel cur s = some (v, d)) :
    d.rest <:+ cur.rest.tail := by
  induction fuel generalizing cur s with
  | zero => cases h
  | succ fuel ih =>
    unfold upToBrace at h
    split at h
    · cases h
    · next x rest heq =>
      split at h
      · obtain ⟨w, -, hw⟩ := Option.map_eq_some_iff.1 h
        cases hw
        rw [heq]
        exact List.suffix_rfl
      · obtain ⟨s', -, hs'⟩ := Option.bind_eq_some_iff.1 h
        exact ((ih hs').trans (List.tail_suffix _)).trans cur.bump_suffix

theorem upToBrace_within (fuel : Nat) (cur : Cursor) (s : σ) :
    Within cur (upToBrace step finish fuel cur s) := fun _ _ h =>
  (upToBrace_shorter h).trans (List.tail_suffix _)

theorem extends_upToBrace (closing : Closing t) {cur : Cursor}
    (enough : cur.rest.length < fuel) (enough' : cur.rest.length + t.length < fuel') (s : σ) :
    Extends t (upToBrace step finish fuel cur s) (upToBrace step finish fuel' (cur.onto t) s) := by
  induction fuel generalizing t fuel' cur s with
  | zero => omega
  | succ fuel ih =>
    obtain ⟨fuel', rfl⟩ : ∃ n, fuel' = n + 1 := ⟨fuel' - 1, by omega⟩
    obtain ⟨_ | ⟨x, rest⟩, flags, names⟩ := cur
    · refine .failed rfl fun v d h => ?_
      have hshorter := (upToBrace_shorter h).length_le
      cases t with
      | nil => cases h
      | cons y t => exact Nat.lt_succ_of_le hshorter
    · unfold upToBrace
      show Extends t (if x = '\x7d' then _ else _) (if x = '\x7d' then _ else _)
      split_ifs
      · cases finish s with
        | none => exact extends_none
        | some v => exact extends_some _ _
      · refine Extends.on_value fun s' _ => (meets_bump closing rfl).follow
          (fun c => upToBrace step finish fuel c s') (fun c => upToBrace step finish fuel' c s')
          closing (fun d => upToBrace_within fuel' d s') fun u hu hlen => ?_
        have hbump := (Cursor.bump_suffix ⟨x :: rest, flags, names⟩).length_le
        simp only [List.tail_cons, List.length_cons] at hbump enough enough'
        exact ih hu (by omega) (by omega) _

/-- Reads characters of a kind, each of them into what was read so far. -/
def runOf (p : Char → Bool) (next : σ → Char → σ) : Nat → Cursor → σ → σ × Cursor
  | 0, cur, s => (s, cur)
  | fuel + 1, cur, s =>
    match cur.rest with
    | [] => (s, cur)
    | c :: _ => if p c then runOf p next fuel cur.bump (next s c) else (s, cur)

theorem runOf_suffix (fuel : Nat) (cur : Cursor) (s : σ) :
    (runOf p next fuel cur s).2.rest <:+ cur.rest := by
  induction fuel generalizing cur s with
  | zero => exact List.suffix_rfl
  | succ fuel ih =>
    unfold runOf
    split
    · exact List.suffix_rfl
    · split
      · exact (ih _ _).trans (cur.bump_suffix.trans (List.tail_suffix _))
      · exact List.suffix_rfl

theorem runOf_stops (fuel : Nat) (h : ∀ x ∈ cur.rest.head?, p x = false) (s : σ) :
    runOf p next fuel cur s = (s, cur) := by
  cases fuel with
  | zero => rfl
  | succ fuel =>
    obtain ⟨_ | ⟨x, rest⟩, flags, names⟩ := cur
    · rfl
    · exact if_neg (Bool.not_eq_true _ ▸ h x rfl)

/-- A run of characters does not go on into a tail. -/
theorem extends_runOf (closing : Closing t) (close : p ')' = false) {cur : Cursor}
    (enough : cur.rest.length ≤ fuel) (enough' : cur.rest.length + t.length ≤ fuel') (s : σ) :
    Extends t (some (runOf p next fuel cur s)) (some (runOf p next fuel' (cur.onto t) s)) := by
  induction fuel generalizing t fuel' cur s with
  | zero =>
    have hrest : cur.rest = [] := List.eq_nil_of_length_eq_zero (Nat.le_zero.1 enough)
    have hstops : ∀ x ∈ (cur.onto t).rest.head?, p x = false := by
      rw [Cursor.onto_rest, hrest, List.nil_append]
      exact fun x hx => closing x hx ▸ close
    rw [runOf_stops fuel' hstops]
    exact extends_some _ _
  | succ fuel ih =>
    obtain ⟨_ | ⟨x, rest⟩, flags, names⟩ := cur
    · have hstops : ∀ x ∈ (Cursor.onto ⟨[], flags, names⟩ t).rest.head?, p x = false :=
        fun x hx => closing x hx ▸ close
      rw [runOf_stops fuel' hstops]
      exact extends_some _ _
    · simp only [List.length_cons] at enough enough'
      obtain ⟨fuel', rfl⟩ : ∃ n, fuel' = n + 1 := ⟨fuel' - 1, by omega⟩
      unfold runOf
      show Extends t (some (if p x then _ else _)) (some (if p x then _ else _))
      split_ifs
      · have hbump := (Cursor.bump_suffix ⟨x :: rest, flags, names⟩).length_le
        rw [List.tail_cons] at hbump
        exact (meets_bump closing rfl).follow (fun c => some (runOf p next fuel c _))
          (fun c => some (runOf p next fuel' c _)) closing
          (fun d => within_some (runOf_suffix fuel' d _))
          fun u hu hlen => ih hu (by omega) (by omega) _
      · exact extends_some _ _

end

end LiveRecords.Pattern

import LiveRecords.Proofs.Pattern.Continuation

/-
  Reading escapes with more behind them.

  An escape is read as it is without a tail, with one exception: a brace behind `\b` may begin a
  word or the counts of a repetition, and at the end of a text it is neither, though before a
  tail it is left for the counts (`extends_escape`). No count can be read there.
-/

namespace LiveRecords.Pattern

variable {t : List Char} {cur d : Cursor} {x : Char} {rest : List Char}

/-! ## Characters by their codes -/

theorem hexDigits_within (n : Nat) (cur : Cursor) (value : Nat) :
    Within cur (hexDigits n cur value) := by
  induction n generalizing cur value with
  | zero => exact within_some List.suffix_rfl
  | succ n ih =>
    unfold hexDigits
    split
    · exact within_none
    · refine Within.on_value fun v => (ih _ _).mono ?_
      split
      · exact List.tail_suffix _
      · exact cur.bump_suffix.trans (List.tail_suffix _)

theorem extends_hexDigits (closing : Closing t) (n : Nat) (cur : Cursor) (value : Nat) :
    Extends t (hexDigits n cur value) (hexDigits n (cur.onto t) value) := by
  induction n generalizing t cur value with
  | zero => exact extends_some _ _
  | succ n ih =>
    obtain ⟨_ | ⟨x, rest⟩, flags, names⟩ := cur
    · -- a parenthesis is no digit
      refine .failed rfl ?_
      cases t with
      | nil => exact beyond_none
      | cons y t =>
        obtain rfl := closing.eq_cons
        exact beyond_none
    · unfold hexDigits
      refine Extends.on_value fun v _ => ?_
      by_cases hn : n = 0
      · rw [if_pos hn, if_pos hn]
        exact ih closing _ _
      · rw [if_neg hn, if_neg hn]
        exact (meets_bump closing rfl).follow (fun c => hexDigits n c _) (fun c => hexDigits n c _)
          closing (fun d => hexDigits_within n d _) fun u hu _ => ih hu _ _

/-- A digit between braces, behind what was read so far. -/
def hexNext? (state : Bool × Nat) (c : Char) : Option (Bool × Nat) :=
  (hexValue? c).map fun v => (true, state.2 * 16 + v)

/-- The code between braces, if there was a digit. -/
def hexEnd? (state : Bool × Nat) : Option Nat := if state.1 then some state.2 else none

theorem hexBraced_eq (fuel : Nat) (cur : Cursor) (any : Bool) (value : Nat) :
    hexBraced fuel cur any value = upToBrace hexNext? hexEnd? fuel cur (any, value) := by
  induction fuel generalizing cur any value with
  | zero => rfl
  | succ fuel ih =>
    unfold hexBraced upToBrace
    split
    · next heq => rw [heq]
    · next heq =>
      rw [heq]
      cases any <;> rfl
    · next c rest hne heq =>
      rw [heq]
      dsimp only
      rw [if_neg hne]
      unfold hexNext?
      cases hexValue? c with
      | none => rfl
      | some v => exact ih _ _ _

/-- The character with the code that was read. -/
def charRead? : Nat × Cursor → Option (Char × Cursor)
  | (code, cur) => charOf? code >>= fun c => some (c, cur)

theorem charRead_within (answer : Nat × Cursor) : Within answer.2 (charRead? answer) :=
  Within.on_value fun _ => within_some List.suffix_rfl

/-- The code of a character stands in braces. -/
theorem hexEscape_braced (letter : Char) (h : cur.rest = '\x7b' :: rest) :
    hexEscape? letter cur =
      upToBrace hexNext? hexEnd? cur.rest.length cur.bump (false, 0) >>= charRead? := by
  rw [← hexBraced_eq]
  unfold hexEscape?
  split
  · rfl
  · next hne => exact absurd h (hne rest)

/-- The code of a character has as many digits as the letter before it asks for. -/
theorem hexEscape_bare (letter : Char) (h : cur.rest.head? ≠ some '\x7b') :
    hexEscape? letter cur =
      hexDigits (if letter == 'x' then 2 else if letter == 'u' then 4 else 8) cur 0 >>=
        charRead? := by
  unfold hexEscape?
  split
  · next heq =>
    rw [heq] at h
    exact absurd rfl h
  · rfl

theorem hexEscape_within (letter : Char) (cur : Cursor) : Within cur (hexEscape? letter cur) := by
  by_cases h : cur.rest.head? = some '\x7b'
  · obtain ⟨rest, hrest⟩ := List.head?_eq_some_iff.1 h
    rw [hexEscape_braced letter hrest]
    refine Within.bind ?_ fun v d => charRead_within (v, d)
    exact (upToBrace_within _ _ _).mono (cur.bump_suffix.trans (List.tail_suffix _))
  · rw [hexEscape_bare letter h]
    exact (hexDigits_within _ _ _).bind fun v d => charRead_within (v, d)

theorem extends_hexEscape (closing : Closing t) (letter : Char) (cur : Cursor) :
    Extends t (hexEscape? letter cur) (hexEscape? letter (cur.onto t)) := by
  by_cases h : cur.rest.head? = some '\x7b'
  · obtain ⟨rest, hrest⟩ := List.head?_eq_some_iff.1 h
    have hrest' := Cursor.onto_cons hrest t
    have hbump := Cursor.suffix_of_bump hrest
    have hlength := congrArg List.length hrest
    rw [List.length_cons] at hlength
    rw [hexEscape_braced letter hrest, hexEscape_braced letter hrest']
    refine Extends.bind ?_ closing (fun v d => charRead_within (v, d)) fun v c _ u _ _ =>
      Extends.on_value fun w _ => extends_some _ _
    refine (meets_bump closing hrest).follow (fun c => upToBrace hexNext? hexEnd? _ c _)
      (fun c => upToBrace hexNext? hexEnd? _ c _) closing (fun d => upToBrace_within _ d _)
      fun u hu hlen => extends_upToBrace hu ?_ ?_ _
    · have hle := hbump.length_le
      omega
    · have hle := hbump.length_le
      rw [Cursor.onto_rest, List.length_append]
      omega
  · rw [hexEscape_bare letter h, hexEscape_bare letter (closing.head_ne (by decide) h)]
    exact (extends_hexDigits closing _ cur 0).bind closing (fun v d => charRead_within (v, d))
      fun v c _ u _ _ => Extends.on_value fun w _ => extends_some _ _

/-! ## Classes by name -/

/-- A character of a name between braces, behind what was read so far. -/
def nameNext? (done : List Char) (c : Char) : Option (List Char) := some (c :: done)

/-- The name between braces. -/
def nameEnd? (done : List Char) : Option String := some (String.ofList done.reverse)

theorem classNameFrom_eq (fuel : Nat) (cur : Cursor) (done : List Char) :
    classNameFrom fuel cur done = upToBrace nameNext? nameEnd? fuel cur done := by
  induction fuel generalizing cur done with
  | zero => rfl
  | succ fuel ih =>
    unfold classNameFrom upToBrace
    split
    · next heq => rw [heq]
    · next heq =>
      rw [heq]
      rfl
    · next c rest hne heq =>
      rw [heq]
      dsimp only
      rw [if_neg hne]
      exact ih _ _

/-- A set as it stands for a class, negated or not. -/
def classOf (flags : Flags) (negated : Bool) (set : CharSet) : Escape :=
  .set (if negated then (foldUnder flags set).compl else foldUnder flags set)

/-- The class with the name that was read. -/
def classRead? (negated : Bool) : String × Cursor → Option (Escape × Cursor)
  | (name, cur) => classSet? name >>= fun set => some (classOf cur.flags negated set, cur)

theorem classRead_within (negated : Bool) (answer : String × Cursor) :
    Within answer.2 (classRead? negated answer) :=
  Within.on_value fun _ => within_some List.suffix_rfl

/-- The name of a class stands in braces. -/
theorem namedClass_braced (negated : Bool) {flags : Flags} (unicode : flags.unicode = true)
    (rest : List Char) (names : List String) :
    namedClass? negated ⟨'\x7b' :: rest, flags, names⟩ =
      upToBrace nameNext? nameEnd? (rest.length + 2)
        (Cursor.bump ⟨'\x7b' :: rest, flags, names⟩) [] >>= classRead? negated := by
  rw [← classNameFrom_eq]
  unfold namedClass?
  rw [if_neg (by simp [unicode])]
  dsimp only
  cases classNameFrom (rest.length + 2) (Cursor.bump ⟨'\x7b' :: rest, flags, names⟩) [] with
  | none => rfl
  | some answer => cases hset : classSet? answer.1 <;> simp [classRead?, classOf, hset]

/-- Or it is a single letter, and is that of a category. -/
theorem namedClass_letter (negated : Bool) {flags : Flags} (unicode : flags.unicode = true)
    (brace : x ≠ '\x7b') (escape : x ≠ '\\') (rest : List Char) (names : List String) :
    namedClass? negated ⟨x :: rest, flags, names⟩ =
      CharSet.category? (CharSet.normalName (String.ofList [x])) >>= fun set =>
        some (classOf flags negated set, ⟨rest, flags, names⟩) := by
  unfold namedClass?
  rw [if_neg (by simp [unicode])]
  dsimp only
  split
  · contradiction
  · next heq => exact absurd (List.cons.inj heq).1 brace
  · next heq => exact absurd (List.cons.inj heq).1 escape
  · next heq =>
    obtain ⟨rfl, rfl⟩ := List.cons.inj heq
    cases CharSet.category? (CharSet.normalName (String.ofList [x])) <;> rfl

/-- Nothing else is the name of a class. -/
theorem namedClass_none (negated : Bool) (cur : Cursor)
    (h : cur.flags.unicode = false ∨ cur.rest = [] ∨ cur.rest.head? = some '\\') :
    namedClass? negated cur = none := by
  unfold namedClass?
  split
  · rfl
  · next hunicode =>
    obtain ⟨_ | ⟨x, rest⟩, flags, names⟩ := cur
    · rfl
    · rcases h with h | h | h
      · exact absurd (congrArg Bool.not h) hunicode
      · cases h
      · cases h
        rfl

theorem namedClass_within (negated : Bool) (cur : Cursor) : Within cur (namedClass? negated cur) := by
  by_cases h : cur.flags.unicode = false ∨ cur.rest = [] ∨ cur.rest.head? = some '\\'
  · rw [namedClass_none negated cur h]
    exact within_none
  · rw [not_or, not_or, Bool.not_eq_false] at h
    obtain ⟨_ | ⟨x, rest⟩, flags, names⟩ := cur
    · exact absurd rfl h.2.1
    · by_cases hx : x = '\x7b'
      · subst hx
        rw [namedClass_braced negated h.1]
        refine Within.bind ?_ fun v d => classRead_within negated (v, d)
        exact (upToBrace_within _ _ _).mono ((Cursor.bump_suffix _).trans (List.tail_suffix _))
      · rw [namedClass_letter negated h.1 hx fun heq => h.2.2 (congrArg some heq)]
        exact Within.on_value fun _ => within_some (List.suffix_cons x rest)

theorem extends_namedClass (closing : Closing t) (negated : Bool) (cur : Cursor) :
    Extends t (namedClass? negated cur) (namedClass? negated (cur.onto t)) := by
  by_cases h : cur.flags.unicode = false ∨ cur.rest.head? = some '\\'
  · have h' : (cur.onto t).flags.unicode = false ∨ (cur.onto t).rest = [] ∨
        (cur.onto t).rest.head? = some '\\' := by
      refine h.imp_right fun h => .inr ?_
      obtain ⟨rest, hrest⟩ := List.head?_eq_some_iff.1 h
      rw [Cursor.onto_rest, hrest]
      rfl
    rw [namedClass_none negated cur (h.imp_right .inr), namedClass_none negated _ h']
    exact extends_none
  · rw [not_or, Bool.not_eq_false] at h
    obtain ⟨_ | ⟨x, rest⟩, flags, names⟩ := cur
    · refine .failed (namedClass_none negated _ (.inr (.inl rfl))) ?_
      cases t with
      | nil =>
        rw [namedClass_none negated _ (.inr (.inl rfl))]
        exact beyond_none
      | cons y t =>
        -- a class takes the first character of the tail
        obtain rfl := closing.eq_cons
        show Beyond _ (namedClass? negated ⟨')' :: t, flags, names⟩)
        rw [namedClass_letter negated h.1 (by decide) (by decide)]
        exact (Within.on_value fun _ => within_some List.suffix_rfl : Within ⟨t, flags, names⟩ _).beyond
          (Nat.lt_succ_self _)
    · by_cases hx : x = '\x7b'
      · subst hx
        show Extends t _ (namedClass? negated ⟨'\x7b' :: (rest ++ t), flags, names⟩)
        rw [namedClass_braced negated h.1, namedClass_braced negated h.1]
        refine Extends.bind ?_ closing (fun v d => classRead_within negated (v, d))
          fun v c _ u _ _ => Extends.on_value fun w _ => extends_some _ _
        have hmeets : Meets t (Cursor.bump ⟨'\x7b' :: rest, flags, names⟩)
            (Cursor.bump ⟨'\x7b' :: (rest ++ t), flags, names⟩) := meets_bump closing rfl
        have hbump := (Cursor.bump_suffix ⟨'\x7b' :: rest, flags, names⟩).length_le
        rw [List.tail_cons] at hbump
        refine hmeets.follow (fun c => upToBrace nameNext? nameEnd? _ c _)
          (fun c => upToBrace nameNext? nameEnd? _ c _) closing (fun d => upToBrace_within _ d _)
          fun u hu hlen => extends_upToBrace hu (by omega) ?_ _
        rw [List.length_append]
        omega
      · have hescape : x ≠ '\\' := fun heq => h.2 (congrArg some heq)
        show Extends t _ (namedClass? negated ⟨x :: (rest ++ t), flags, names⟩)
        rw [namedClass_letter negated h.1 hx hescape, namedClass_letter negated h.1 hx hescape]
        exact Extends.on_value fun _ _ => extends_some _ _

/-! ## Boundaries -/

/-- A character of the words that name boundaries. -/
def isWordLetter (c : Char) : Bool := c.isAlpha || c == '-'

/-- A word that was read from its last letter on. -/
def wordRead (answer : List Char × Cursor) : List Char × Cursor := (answer.1.reverse, answer.2)

theorem boundaryWord_eq (fuel : Nat) (cur : Cursor) (done : List Char) :
    boundaryWord fuel cur done =
      wordRead (runOf isWordLetter (fun done c => c :: done) fuel cur done) := by
  induction fuel generalizing cur done with
  | zero => rfl
  | succ fuel ih =>
    unfold boundaryWord runOf
    cases cur.rest with
    | nil => rfl
    | cons x rest =>
      dsimp only
      rw [ih, apply_ite wordRead]
      rfl

theorem boundaryWord_suffix (fuel : Nat) (cur : Cursor) (done : List Char) :
    (boundaryWord fuel cur done).2.rest <:+ cur.rest := by
  rw [boundaryWord_eq]
  exact runOf_suffix fuel cur done

theorem extends_boundaryWord (closing : Closing t) {fuel fuel' : Nat} {cur : Cursor}
    (enough : cur.rest.length ≤ fuel) (enough' : cur.rest.length + t.length ≤ fuel')
    (done : List Char) :
    Extends t (some (boundaryWord fuel cur done)) (some (boundaryWord fuel' (cur.onto t) done)) := by
  rw [boundaryWord_eq, boundaryWord_eq]
  show Extends t (some (runOf _ _ fuel cur done) >>= some ∘ wordRead)
    (some (runOf _ _ fuel' (cur.onto t) done) >>= some ∘ wordRead)
  exact (extends_runOf closing (by decide) enough enough' done).bind closing
    (fun v d => within_some List.suffix_rfl) fun v c _ u _ _ => extends_some _ _

/-- The boundary with the word that was read, if its brace is closed. -/
def boundaryRead? (answer : List Char × Cursor) : Option (Escape × Cursor) :=
  match answer.2.rest with
  | '\x7d' :: rest => do
    let look ← boundaryNamed? answer.2.flags.unicode (String.ofList answer.1)
    some (.look look, answer.2.moved rest)
  | _ => none

theorem boundaryRead_within (answer : List Char × Cursor) :
    Within answer.2 (boundaryRead? answer) := by
  unfold boundaryRead?
  split
  · next rest heq =>
    refine Within.on_value fun condition => within_some ?_
    rw [heq]
    exact List.suffix_cons _ rest
  · exact within_none

theorem boundaryRead_none {answer : List Char × Cursor} (h : answer.2.rest.head? ≠ some '\x7d') :
    boundaryRead? answer = none := by
  unfold boundaryRead?
  split
  · next heq =>
    rw [heq] at h
    exact absurd rfl h
  · rfl

theorem extends_boundaryRead (closing : Closing t) (word : List Char) (cur : Cursor) :
    Extends t (boundaryRead? (word, cur)) (boundaryRead? (word, cur.onto t)) := by
  by_cases h : cur.rest.head? = some '\x7d'
  · obtain ⟨_ | ⟨x, rest⟩, flags, names⟩ := cur
    · cases h
    · cases h
      exact Extends.on_value fun condition _ => extends_some _ _
  · rw [boundaryRead_none h, boundaryRead_none (closing.head_ne (by decide) h)]
    exact extends_none

/-- Without a brace behind it a boundary is plain. -/
theorem boundary_plain (h : cur.rest.head? ≠ some '\x7b') :
    boundary? cur = some (.look (.boundary cur.flags.unicode), cur) := by
  unfold boundary?
  dsimp only
  split
  · next heq =>
    rw [heq] at h
    exact absurd rfl h
  · rfl

/-- Behind the brace something has to stand. -/
theorem boundary_ended (brace : cur.rest = '\x7b' :: rest) (h : cur.bump.rest = []) :
    boundary? cur = none := by
  unfold boundary?
  dsimp only
  split
  · rw [h]
  · next hne => exact absurd brace (hne rest)

/-- If it is a letter, the boundary is named. -/
theorem boundary_named (brace : cur.rest = '\x7b' :: rest) {r : List Char}
    (h : cur.bump.rest = x :: r) (letter : isWordLetter x = true) :
    boundary? cur = boundaryRead? (boundaryWord cur.bump.rest.length cur.bump []) := by
  unfold boundary?
  dsimp only
  split
  · split
    · next heq => exact absurd (h.symm.trans heq) nofun
    · next heq =>
      obtain rfl := (List.cons.inj (h.symm.trans heq)).1
      rw [show (x.isAlpha || x == '-') = true from letter]
      rfl
  · next hne => exact absurd brace (hne rest)

/-- If it is not, the brace is left. -/
theorem boundary_left {r : List Char} (h : cur.bump.rest = x :: r)
    (letter : isWordLetter x = false) :
    boundary? cur = some (.look (.boundary cur.flags.unicode), cur) := by
  unfold boundary?
  dsimp only
  split
  · split
    · next heq => exact absurd (h.symm.trans heq) nofun
    · next heq =>
      obtain rfl := (List.cons.inj (h.symm.trans heq)).1
      rw [show (x.isAlpha || x == '-') = false from letter]
      rfl
  · rfl

theorem boundary_within (cur : Cursor) : Within cur (boundary? cur) := by
  by_cases brace : cur.rest.head? = some '\x7b'
  · obtain ⟨rest, hrest⟩ := List.head?_eq_some_iff.1 brace
    cases h : cur.bump.rest with
    | nil =>
      rw [boundary_ended hrest h]
      exact within_none
    | cons x r =>
      cases letter : isWordLetter x with
      | true =>
        rw [boundary_named hrest h letter]
        refine (boundaryRead_within _).mono ((boundaryWord_suffix _ _ _).trans ?_)
        exact cur.bump_suffix.trans (List.tail_suffix _)
      | false =>
        rw [boundary_left h letter]
        exact within_some List.suffix_rfl
  · rw [boundary_plain brace]
    exact within_some List.suffix_rfl

/-- A brace is left that has nothing behind it but blanks and what stands in a tail. -/
def Dangles (t : List Char) (d : Cursor) : Prop :=
  ∃ rest, d.rest = '\x7b' :: rest ∧ d.bump.rest.length ≤ t.length

/-- Without a tail the boundary before such a brace is none. -/
def Dangling (t : List Char) (o o' : Option (Escape × Cursor)) : Prop :=
  o = none ∧ ∃ condition d, o' = some (.look condition, d) ∧ Dangles t d

theorem extends_boundary (closing : Closing t) (cur : Cursor) :
    Extends t (boundary? cur) (boundary? (cur.onto t)) ∨
      Dangling t (boundary? cur) (boundary? (cur.onto t)) := by
  by_cases brace : cur.rest.head? = some '\x7b'
  · obtain ⟨rest, hrest⟩ := List.head?_eq_some_iff.1 brace
    have hrest' := Cursor.onto_cons hrest t
    have hmeets := meets_bump closing hrest
    cases h : cur.bump.rest with
    | nil =>
      have hnone := boundary_ended hrest h
      cases h' : (cur.onto t).bump.rest with
      | nil =>
        rw [hnone, boundary_ended hrest' h']
        exact .inl extends_none
      | cons y r' =>
        cases letter : isWordLetter y with
        | false =>
          -- at the end of the text a brace is left only before a tail
          refine .inr ⟨hnone, _, _, boundary_left h' letter, _, hrest', ?_⟩
          cases hmeets with
          | on there => rw [there, Cursor.onto_rest, h, List.nil_append]
          | swallowed ended beyond quiet => exact beyond.le
        | true =>
          refine .inl (.failed hnone ?_)
          rw [boundary_named hrest' h' letter]
          refine Within.beyond ((boundaryRead_within _).mono (boundaryWord_suffix _ _ _)) ?_
          cases hmeets with
          | on there =>
            -- a tail does not begin with a letter
            rw [there, Cursor.onto_rest, h, List.nil_append] at h'
            rw [closing y (by rw [h']; rfl)] at letter
            exact absurd letter (by decide)
          | swallowed ended beyond quiet => exact beyond
    | cons x r =>
      have there : (cur.onto t).bump = cur.bump.onto t := by
        cases hmeets with
        | on there => exact there
        | swallowed ended beyond quiet => exact absurd (h.symm.trans ended) nofun
      have h' : (cur.onto t).bump.rest = x :: (r ++ t) := there ▸ Cursor.onto_cons h t
      cases letter : isWordLetter x with
      | true =>
        rw [boundary_named hrest h letter, boundary_named hrest' h' letter, there]
        refine .inl ((extends_boundaryWord closing (Nat.le_refl _) ?_ []).bind closing
          (fun v d => boundaryRead_within (v, d)) fun v c _ u hu _ => extends_boundaryRead hu v c)
        rw [Cursor.onto_rest, List.length_append]
      | false =>
        rw [boundary_left h letter, boundary_left h' letter]
        exact .inl (extends_some _ _)
  · rw [boundary_plain brace, boundary_plain (closing.head_ne (by decide) brace)]
    exact .inl (extends_some _ _)

/-! ## Escapes -/

/-- The character that was read by its code. A byte that is no character is refused. -/
def hexRead? (unicode : Bool) (letter : Char) (bare : Bool) (answer : Char × Cursor) :
    Option (Escape × Cursor) :=
  if !unicode && letter == 'x' && 0x7F < answer.1.toNat && answer.1.toNat ≤ 0xFF && bare then none
  else some (.char answer.1, answer.2)

theorem hexRead_within (unicode : Bool) (letter : Char) (bare : Bool) (answer : Char × Cursor) :
    Within answer.2 (hexRead? unicode letter bare answer) := by
  unfold hexRead?
  split
  · exact within_none
  · exact within_some List.suffix_rfl

theorem escape_hex (h : x = 'x' ∨ x = 'u' ∨ x = 'U') (rest : List Char) (flags : Flags)
    (names : List String) :
    escape? ⟨x :: rest, flags, names⟩ = hexEscape? x (Cursor.bump ⟨x :: rest, flags, names⟩) >>=
      hexRead? flags.unicode x (rest.head? != some '\x7b') := by
  rcases h with rfl | rfl | rfl <;> rfl

theorem escape_class (h : x = 'p' ∨ x = 'P') (rest : List Char) (flags : Flags)
    (names : List String) :
    escape? ⟨x :: rest, flags, names⟩ =
      namedClass? (x == 'P') (Cursor.bump ⟨x :: rest, flags, names⟩) := by
  rcases h with rfl | rfl <;> rfl

/-- All other escapes are a single character. -/
theorem escape_single (flags : Flags) (hex : ¬(x = 'x' ∨ x = 'u' ∨ x = 'U'))
    (named : ¬(x = 'p' ∨ x = 'P')) (boundary : x ≠ 'b') :
    ∃ e : Option Escape, ∀ rest names,
      escape? ⟨x :: rest, flags, names⟩ = e >>= fun v => some (v, ⟨rest, flags, names⟩) := by
  simp only [not_or] at hex named
  obtain ⟨hx, hu, hU⟩ := hex
  obtain ⟨hp, hP⟩ := named
  refine ⟨(escape? ⟨[x], flags, []⟩).map Prod.fst, fun rest names => ?_⟩
  unfold escape?
  dsimp only
  split <;> first | contradiction | rfl | (split <;> rfl)

theorem escape_within (cur : Cursor) : Within cur (escape? cur) := by
  obtain ⟨_ | ⟨x, rest⟩, flags, names⟩ := cur
  · exact within_none
  · have hbump : (Cursor.bump ⟨x :: rest, flags, names⟩).rest <:+ x :: rest :=
      (Cursor.bump_suffix _).trans (List.tail_suffix _)
    by_cases hex : x = 'x' ∨ x = 'u' ∨ x = 'U'
    · rw [escape_hex hex]
      exact ((hexEscape_within x _).bind fun v d => hexRead_within _ x _ (v, d)).mono hbump
    by_cases named : x = 'p' ∨ x = 'P'
    · rw [escape_class named]
      exact (namedClass_within _ _).mono hbump
    by_cases boundary : x = 'b'
    · subst boundary
      exact (boundary_within ⟨rest, flags, names⟩).mono (List.suffix_cons 'b' rest)
    · obtain ⟨e, he⟩ := escape_single flags hex named boundary
      rw [he]
      exact Within.on_value fun v => within_some (List.suffix_cons x rest)

/-- An escape is read as without a tail, but for a brace that is left. -/
theorem extends_escape (closing : Closing t) (cur : Cursor) :
    Extends t (escape? cur) (escape? (cur.onto t)) ∨
      Dangling t (escape? cur) (escape? (cur.onto t)) := by
  obtain ⟨_ | ⟨x, rest⟩, flags, names⟩ := cur
  · refine .inl (.failed rfl ?_)
    cases t with
    | nil => exact beyond_none
    | cons y t =>
      obtain rfl := closing.eq_cons
      exact fun v d heq => by
        cases heq
        exact Nat.lt_succ_self _
  · have hmeets : Meets t (Cursor.bump ⟨x :: rest, flags, names⟩)
        (Cursor.bump ⟨x :: (rest ++ t), flags, names⟩) := meets_bump closing rfl
    show Extends t _ (escape? ⟨x :: (rest ++ t), flags, names⟩) ∨
      Dangling t _ (escape? ⟨x :: (rest ++ t), flags, names⟩)
    by_cases hex : x = 'x' ∨ x = 'u' ∨ x = 'U'
    · have hbare : ((rest ++ t).head? != some '\x7b') = (rest.head? != some '\x7b') := by
        rw [Bool.eq_iff_iff, bne_iff_ne, bne_iff_ne, Ne, closing.head_iff (by decide)]
      rw [escape_hex hex, escape_hex hex, hbare]
      refine .inl (hmeets.follow (fun c => hexEscape? x c >>= hexRead? _ x _)
        (fun c => hexEscape? x c >>= hexRead? _ x _) closing
        (fun d => (hexEscape_within x d).bind fun v d => hexRead_within _ x _ (v, d))
        fun u hu _ => ?_)
      refine (extends_hexEscape hu x _).bind hu (fun v d => hexRead_within _ x _ (v, d))
        fun v c _ u _ _ => ?_
      unfold hexRead?
      split
      · exact extends_none
      · exact extends_some _ _
    by_cases named : x = 'p' ∨ x = 'P'
    · rw [escape_class named, escape_class named]
      exact .inl (hmeets.follow (namedClass? _) (namedClass? _) closing (namedClass_within _)
        fun u hu _ => extends_namedClass hu _ _)
    by_cases boundary : x = 'b'
    · subst boundary
      exact extends_boundary closing ⟨rest, flags, names⟩
    · obtain ⟨e, he⟩ := escape_single flags hex named boundary
      rw [he, he]
      exact .inl (Extends.on_value fun v _ => extends_some _ _)

end LiveRecords.Pattern

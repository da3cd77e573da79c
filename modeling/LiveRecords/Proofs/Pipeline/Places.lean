import LiveRecords.Proofs.Entries
import LiveRecords.Session.Readers

/-
  The places of a gate.

  Of the places that a gate holds, some are taken by those at work, and the others are
  promised to those that were called from the queue (`Gate.Accounted`). Entering, ending,
  going on from the queue and leaving it each keep these accounts. Streams of rows take
  places too (`World.running`): each has its place until its pipe has ended, and no turn of
  a pipe does anything else to the gate (`World.carryRows_running`).
-/

namespace LiveRecords

namespace Gate

/-- The accounts of a gate: so many places are taken by those at work, and these are the
tickets of those who are not. Nobody waits while there is room. -/
structure Accounted (g : Gate) (taken : Nat) (tickets : List Nat) : Prop where
  held : g.held = taken + g.called.length
  within : g.held ≤ g.limit
  full : g.waiting ≠ [] → g.held = g.limit
  queue : (g.waiting ++ g.called).Perm tickets
  distinct : tickets.Nodup
  issued : ∀ t ∈ tickets, t < g.issued

variable {g : Gate} {taken ticket : Nat} {tickets tickets' : List Nat}

theorem limit_enter (g : Gate) : g.enter.2.limit = g.limit := by
  unfold enter
  split <;> rfl

theorem limit_release (g : Gate) : g.release.limit = g.limit := by
  unfold release
  split <;> rfl

theorem limit_leave (g : Gate) (ticket : Nat) : (g.leave ticket).limit = g.limit := by
  unfold leave
  split
  · exact limit_release _
  · rfl

namespace Accounted

theorem fresh (limit : Nat) : (Gate.ofLimit limit).Accounted 0 [] :=
  ⟨rfl, Nat.zero_le _, fun h => absurd rfl h, .nil, .nil, fun t ht => by simp at ht⟩

theorem perm (h : g.Accounted taken tickets) (same : tickets.Perm tickets') :
    g.Accounted taken tickets' :=
  ⟨h.held, h.within, h.full, h.queue.trans same, same.nodup_iff.1 h.distinct,
    fun t ht => h.issued t (same.mem_iff.2 ht)⟩

theorem enter_free (h : g.Accounted taken tickets) (free : g.enter.1 = none) :
    g.enter.2.Accounted (taken + 1) tickets := by
  obtain ⟨hheld, hwithin, hfull, hqueue, hdistinct, hissued⟩ := h
  unfold enter at free ⊢
  split at free
  · next hlt =>
    rw [if_pos hlt]
    refine ⟨?_, ?_, fun hwaiting => ?_, hqueue, hdistinct, hissued⟩
    · dsimp only
      omega
    · exact hlt
    · have hheld' := hfull hwaiting
      omega
  · cases free

theorem enter_full (h : g.Accounted taken tickets) (full : g.enter.1 = some ticket) :
    g.enter.2.Accounted taken (ticket :: tickets) := by
  obtain ⟨hheld, hwithin, hfull, hqueue, hdistinct, hissued⟩ := h
  unfold enter at full ⊢
  split at full
  · cases full
  · next hge =>
    obtain rfl : g.issued = ticket := Option.some.inj full
    rw [if_neg hge]
    refine ⟨hheld, hwithin, fun _ => by dsimp only; omega, ?_, ?_, ?_⟩
    · show (g.waiting ++ [g.issued] ++ g.called).Perm (g.issued :: tickets)
      rw [List.append_assoc]
      exact List.perm_middle.trans (hqueue.cons _)
    · exact List.nodup_cons.2 ⟨fun hin => Nat.lt_irrefl _ (hissued _ hin), hdistinct⟩
    · intro t ht
      rcases List.mem_cons.1 ht with rfl | hin
      · exact Nat.lt_succ_self _
      · exact Nat.lt_succ_of_lt (hissued t hin)

/-- A place that becomes free is promised to the first in the queue. -/
theorem release (h : g.Accounted (taken + 1) tickets) : g.release.Accounted taken tickets := by
  obtain ⟨hheld, hwithin, hfull, hqueue, hdistinct, hissued⟩ := h
  unfold Gate.release
  cases hwaiting : g.waiting with
  | nil =>
    rw [hwaiting] at hqueue
    refine ⟨?_, ?_, fun hne => absurd rfl hne, hqueue, hdistinct, hissued⟩
    · dsimp only
      omega
    · dsimp only
      omega
  | cons first rest =>
    rw [hwaiting] at hqueue hfull
    have hlimit := hfull (List.cons_ne_nil _ _)
    refine ⟨?_, hwithin, fun _ => hlimit, ?_, hdistinct, hissued⟩
    · simp
      omega
    · show (rest ++ (g.called ++ [first])).Perm tickets
      rw [← List.append_assoc]
      exact (List.perm_append_singleton first (rest ++ g.called)).trans hqueue

/-- Whoever was called is not in the queue any more. -/
theorem not_waiting (h : g.Accounted taken tickets) (called : g.isCalled ticket = true) :
    ticket ∉ g.waiting := by
  intro hwaiting
  have hnodup := h.queue.nodup_iff.2 h.distinct
  exact (List.nodup_append.1 hnodup).2.2 ticket hwaiting ticket (List.contains_iff_mem.1 called) rfl

/-- A place that was promised is taken. -/
theorem claim (h : g.Accounted taken (ticket :: tickets)) (called : g.isCalled ticket = true) :
    (g.claim ticket).Accounted (taken + 1) tickets := by
  have hnot := h.not_waiting called
  obtain ⟨hheld, hwithin, hfull, hqueue, hdistinct, hissued⟩ := h
  have hin : ticket ∈ g.called := List.contains_iff_mem.1 called
  have hlength := List.length_erase_of_mem hin
  have hpos := List.length_pos_of_mem hin
  refine ⟨?_, hwithin, hfull, ?_, (List.nodup_cons.1 hdistinct).2, ?_⟩
  · show g.held = taken + 1 + (g.called.erase ticket).length
    omega
  · have herase := hqueue.erase ticket
    rw [List.erase_append_right _ hnot, List.erase_cons_head] at herase
    exact herase
  · exact fun t ht => hissued t (List.mem_cons_of_mem _ ht)

/-- Whoever leaves the queue leaves the place that it was promised. -/
theorem leave (h : g.Accounted taken (ticket :: tickets)) :
    (g.leave ticket).Accounted taken tickets := by
  unfold Gate.leave
  split
  · next hcalled => exact (h.claim hcalled).release
  · next hcalled =>
    obtain ⟨hheld, hwithin, hfull, hqueue, hdistinct, hissued⟩ := h
    have hin : ticket ∈ g.waiting := by
      rcases List.mem_append.1 (hqueue.mem_iff.2 List.mem_cons_self) with hwaiting | hin
      · exact hwaiting
      · exact absurd (List.contains_iff_mem.2 hin) hcalled
    refine ⟨hheld, hwithin, fun hne => hfull ?_, ?_, (List.nodup_cons.1 hdistinct).2, ?_⟩
    · exact List.ne_nil_of_mem hin
    · have herase := hqueue.erase ticket
      rw [List.erase_append_left _ hin, List.erase_cons_head] at herase
      exact herase
    · exact fun t ht => hissued t (List.mem_cons_of_mem _ ht)

/-- As many of those with a ticket may go on as were called. -/
theorem countP_called (h : g.Accounted taken tickets) :
    tickets.countP g.isCalled = g.called.length := by
  have hnone : g.waiting.countP g.isCalled = 0 := by
    refine List.countP_eq_zero.2 fun t ht hcalled => ?_
    exact h.not_waiting hcalled ht
  have hall : g.called.countP g.isCalled = g.called.length :=
    List.countP_eq_length.2 fun t ht => List.contains_iff_mem.2 ht
  rw [← h.queue.countP_eq, List.countP_append, hnone, hall, Nat.zero_add]

end Accounted

end Gate

/-! ## Streams that hold a place -/

/-- A pipe that has not ended carries the rows of a query that a gate admitted. -/
def Pipe.occupies (gate : Nat) (p : Pipe) : Bool := p.permit == some gate && !p.finished

namespace World

/-- How many streams of rows hold a place at a gate. -/
def running (gate : Nat) (w : World) : Nat := w.pipes.countP (Pipe.occupies gate)

/-- Nothing happens at a gate. -/
structure Spares (gate : Nat) (w w' : World) : Prop where
  gates : w'.gates[gate]? = w.gates[gate]?
  streams : w'.running gate = w.running gate

/-- A place at a gate becomes free that no stream holds. -/
structure Frees (gate : Nat) (w w' : World) : Prop where
  gates : w'.gates[gate]? = (w.gates[gate]?).map Gate.release
  streams : w'.running gate = w.running gate

/-- A place at a gate goes to a new stream. -/
structure Passes (gate : Nat) (w w' : World) : Prop where
  gates : w'.gates[gate]? = w.gates[gate]?
  streams : w'.running gate = w.running gate + 1

/-- A place at a gate becomes free with the end of a stream. -/
structure Drains (gate : Nat) (w w' : World) : Prop where
  gates : w'.gates[gate]? = (w.gates[gate]?).map Gate.release
  streams : w'.running gate + 1 = w.running gate

variable {gate : Nat} {w w' w'' : World}

namespace Spares

theorem refl (gate : Nat) (w : World) : w.Spares gate w := ⟨rfl, rfl⟩

theorem trans (h : w.Spares gate w') (h' : w'.Spares gate w'') : w.Spares gate w'' :=
  ⟨h'.gates.trans h.gates, h'.streams.trans h.streams⟩

theorem of_eq (gates : w'.gates = w.gates) (pipes : w'.pipes = w.pipes) : w.Spares gate w' :=
  ⟨congrArg (·[gate]?) gates, congrArg (List.countP (Pipe.occupies gate)) pipes⟩

theorem frees (h : w.Spares gate w') : w.Frees gate (w'.release gate) := by
  refine ⟨?_, h.streams⟩
  rw [← h.gates]
  exact List.getElem?_modify_eq ..

theorem passes (h : w.Spares gate w') (capacity : Nat) (source : Rows) :
    w.Passes gate (w'.openPipe capacity source (some gate)).2 := by
  refine ⟨h.gates, ?_⟩
  rw [← h.streams]
  unfold World.running openPipe
  rw [List.countP_append]
  simp [Pipe.occupies]

theorem drains (h : w.Spares gate w') (h' : w'.Drains gate w'') : w.Drains gate w'' :=
  ⟨h'.gates.trans (by rw [h.gates]), h'.streams.trans h.streams⟩

end Spares

theorem countP_modify {α : Type} {p : α → Bool} {f : α → α} {l : List α} {i : Nat}
    (hf : ∀ a, l[i]? = some a → p (f a) = p a) : (l.modify i f).countP p = l.countP p := by
  induction l generalizing i with
  | nil => rw [List.modify_nil]
  | cons b l ih =>
    cases i with
    | zero => rw [List.modify_zero_cons, List.countP_cons, List.countP_cons, hf b rfl]
    | succ i =>
      rw [List.modify_succ_cons, List.countP_cons, List.countP_cons]
      rw [ih fun a ha => hf a (by simpa using ha)]

theorem countP_modify_lost {α : Type} {p : α → Bool} {f : α → α} {a : α} {l : List α} {i : Nat}
    (h : l[i]? = some a) (ha : p a = true) (hf : p (f a) = false) :
    (l.modify i f).countP p + 1 = l.countP p := by
  induction l generalizing i with
  | nil => simp at h
  | cons b l ih =>
    cases i with
    | zero =>
      obtain rfl : b = a := by simpa using h
      simp [ha, hf]
    | succ i =>
      have htail := ih (i := i) (by simpa using h)
      rw [List.modify_succ_cons, List.countP_cons, List.countP_cons]
      omega

theorem spares_onPipe (gate pipe : Nat) (w : World) {f : Pipe → Pipe}
    (hf : ∀ p, w.pipes[pipe]? = some p → (f p).occupies gate = p.occupies gate) :
    w.Spares gate (w.onPipe pipe f) :=
  ⟨rfl, countP_modify hf⟩

theorem spares_abandonRows (gate : Nat) (rows : Rows) (w : World) :
    w.Spares gate (w.abandonRows rows) := by
  cases rows with
  | listed rows => exact .refl gate w
  | piped pipe => exact spares_onPipe gate pipe w fun p _ => rfl

theorem spares_takeRow (gate : Nat) (rows : Rows) (w : World) :
    w.Spares gate (w.takeRow rows).2 := by
  unfold takeRow
  split
  · exact .refl gate w
  · exact .refl gate w
  · split
    · exact spares_onPipe gate _ w fun p _ => rfl
    · exact .refl gate w

theorem spares_abandonChanges (gate : Nat) (changes : Changes) (w : World) :
    w.Spares gate (w.abandonChanges changes) := by
  induction changes generalizing w with
  | feed receiver table => exact .of_eq rfl rfl
  | tracked below raw tracker queued source ih => exact ih w
  | polled below raw tracker queued interval due => exact .refl gate w
  | channel id => exact .of_eq rfl rfl

/-- What ends at another gate does not matter. -/
theorem spares_release {other : Nat} (ne : other ≠ gate) (w : World) :
    w.Spares gate (w.release other) :=
  ⟨List.getElem?_modify_ne _ _ ne, rfl⟩

/-! ## Turns of a pipe -/

variable {pipe : Nat} {p : Pipe}

/-- Giving up a stream leaves a pipe where it is, and its place with it. -/
theorem getElem?_abandonRows (here : w.pipes[pipe]? = some p) (rows : Rows) :
    ∃ p', (w.abandonRows rows).pipes[pipe]? = some p' ∧ p'.permit = p.permit ∧
      p'.finished = p.finished := by
  cases rows with
  | listed rows => exact ⟨p, here, rfl, rfl⟩
  | piped other =>
    by_cases h : other = pipe
    · subst h
      refine ⟨{ p with abandoned := true }, ?_, rfl, rfl⟩
      show (w.pipes.modify other _)[other]? = _
      rw [List.getElem?_modify_eq, here]
      rfl
    · refine ⟨p, ?_, rfl, rfl⟩
      show (w.pipes.modify other _)[pipe]? = _
      rw [List.getElem?_modify_ne _ _ h, here]

/-- A stream that ends frees the place that it holds. -/
theorem drains_closePipe (here : w.pipes[pipe]? = some p) (occupies : p.occupies gate = true) :
    w.Drains gate (w.closePipe pipe p) := by
  obtain ⟨hpermit, hfinished⟩ : p.permit = some gate ∧ p.finished = false := by
    simpa [Pipe.occupies] using occupies
  obtain ⟨p', hp', hpermit', hfinished'⟩ := getElem?_abandonRows here p.source
  have hfrees := (w.spares_abandonRows gate p.source).frees
  have hoccupies : p'.occupies gate = true := by
    simp [Pipe.occupies, hpermit', hfinished', hpermit, hfinished]
  unfold closePipe
  rw [hpermit]
  refine ⟨hfrees.gates, ?_⟩
  rw [← hfrees.streams]
  exact countP_modify_lost hp' hoccupies rfl

theorem spares_closePipe (here : w.pipes[pipe]? = some p) (going : p.finished = false)
    (occupies : p.occupies gate = false) : w.Spares gate (w.closePipe pipe p) := by
  have hpermit : p.permit ≠ some gate := by
    simpa [Pipe.occupies, going] using occupies
  obtain ⟨p', hp', hpermit', -⟩ := getElem?_abandonRows here p.source
  have hidle : p'.occupies gate = false := by simp [Pipe.occupies, hpermit', hpermit]
  have habandoned := w.spares_abandonRows gate p.source
  have hend {w' : World} (hw' : w'.pipes = (w.abandonRows p.source).pipes) :
      w'.Spares gate (w'.onPipe pipe fun p => { p with finished := true, permit := none }) := by
    refine spares_onPipe gate pipe w' fun q hq => ?_
    rw [hw', hp'] at hq
    rw [← Option.some.inj hq, hidle]
    rfl
  unfold closePipe
  cases hother : p.permit with
  | none => exact habandoned.trans (hend rfl)
  | some other =>
    have hne : other ≠ gate := fun heq => hpermit (by rw [hother, heq])
    exact (habandoned.trans (spares_release hne _)).trans (hend rfl)

/-- Where a stream has no next row, nothing is taken. -/
theorem takeRow_eq_none {rows : Rows} (h : w.takeRow rows = (none, w')) : w' = w := by
  unfold takeRow at h
  split at h
  · cases h
    rfl
  · cases h
  · split at h
    · cases h
    · cases h
      rfl

/-- A turn of a pipe does nothing at a gate, unless the stream ends and frees its place. -/
theorem carryRows_running (gate pipe moves : Nat) (w : World) :
    w.Spares gate (w.carryRows pipe moves) ∨ w.Drains gate (w.carryRows pipe moves) := by
  have hclose {w w' : World} {p : Pipe} (h : w.Spares gate w') (here : w'.pipes[pipe]? = some p)
      (going : p.finished = false) :
      w.Spares gate (w'.closePipe pipe p) ∨ w.Drains gate (w'.closePipe pipe p) := by
    cases hoccupies : p.occupies gate with
    | true => exact .inr (h.drains (drains_closePipe here hoccupies))
    | false => exact .inl (h.trans (spares_closePipe here going hoccupies))
  have hmore {w w' w'' : World} (h : w.Spares gate w')
      (h' : w'.Spares gate w'' ∨ w'.Drains gate w'') : w.Spares gate w'' ∨ w.Drains gate w'' :=
    h'.imp h.trans h.drains
  induction moves generalizing w with
  | zero => exact .inl (.refl gate w)
  | succ moves ih =>
    unfold carryRows
    split
    · exact .inl (.refl gate w)
    · next p here =>
      split
      · exact .inl (.refl gate w)
      · next hready =>
        have hgoing : p.finished = false := by
          cases hfinished : p.finished with
          | false => rfl
          | true => simp [pipeReady, hfinished] at hready
        split
        · exact hclose (.refl gate w) here hgoing
        · split
          · next row hheld =>
            refine hmore ?_ (ih _)
            exact spares_onPipe gate pipe w fun p _ => rfl
          · split
            · next row rest w' htake =>
              have htaken : w.Spares gate w' := by
                rw [← show (w.takeRow p.source).2 = w' from by rw [htake]]
                exact w.spares_takeRow gate p.source
              refine hmore (htaken.trans ?_) (ih _)
              exact spares_onPipe gate pipe w' fun p _ => rfl
            · next w' htake =>
              rw [takeRow_eq_none htake]
              exact hclose (.refl gate w) here hgoing

/-- A stream that was given up, or whose source has come to its end, ends in the next turn of
its pipe. -/
theorem drains_carryRows (here : w.pipes[pipe]? = some p) (occupies : p.occupies gate = true)
    (ended : p.abandoned = true ∨
      p.held = none ∧ w.rowReady p.source = true ∧ (w.takeRow p.source).1 = none) (moves : Nat) :
    w.Drains gate (w.carryRows pipe (moves + 1)) := by
  have hclose := drains_closePipe here occupies
  have hfinished : p.finished = false := by
    have hpair : p.permit = some gate ∧ p.finished = false := by
      simpa [Pipe.occupies] using occupies
    exact hpair.2
  have hready : w.pipeReady p = true := by
    rcases ended with habandoned | ⟨hheld, hready, -⟩
    · simp [pipeReady, hfinished, habandoned]
    · simp [pipeReady, hfinished, hheld, hready]
  unfold carryRows
  simp only [here, hready]
  cases habandoned : p.abandoned with
  | true => exact hclose
  | false =>
    rcases ended with h | ⟨hheld, -, hnone⟩
    · rw [habandoned] at h
      cases h
    · have htake : w.takeRow p.source = (none, w) := by
        obtain ⟨row, w', h⟩ : ∃ row w', w.takeRow p.source = (row, w') := ⟨_, _, rfl⟩
        rw [h] at hnone
        obtain rfl : row = none := hnone
        rw [h, takeRow_eq_none h]
      simp only [hheld, htake]
      exact hclose

/-! ## Calls at a gate -/

/-- A call asks at a gate whether it has to wait. -/
structure Asks (gate : Nat) (w w' : World) (ticket? : Option Nat) : Prop where
  gates : ∀ g, w.gates[gate]? = some g → ticket? = g.enter.1 ∧ w'.gates[gate]? = some g.enter.2
  streams : w'.running gate = w.running gate

/-- A call goes on with a ticket that was called, or leaves the queue. -/
structure Decides (gate ticket : Nat) (w w' : World) (called : Bool) : Prop where
  gates : ∀ g, w.gates[gate]? = some g → called = g.isCalled ticket ∧
    w'.gates[gate]? = some (if called then g.claim ticket else g.leave ticket)
  streams : w'.running gate = w.running gate

/-- A call leaves the queue. -/
structure Leaves (gate ticket : Nat) (w w' : World) : Prop where
  gates : w'.gates[gate]? = (w.gates[gate]?).map (·.leave ticket)
  streams : w'.running gate = w.running gate

/-- The accounts of a gate with `inside` admitted calls, the streams that hold a place, and
the tickets of those that wait. -/
def Balanced (gate limit inside : Nat) (tickets : List Nat) (w : World) : Prop :=
  ∃ g, w.gates[gate]? = some g ∧ g.limit = limit ∧
    g.Accounted (inside + w.running gate) tickets

namespace Balanced

variable {limit inside ticket : Nat} {tickets tickets' : List Nat}

theorem perm (h : w.Balanced gate limit inside tickets) (same : tickets.Perm tickets') :
    w.Balanced gate limit inside tickets' := by
  obtain ⟨g, hg, hlimit, haccounts⟩ := h
  exact ⟨g, hg, hlimit, haccounts.perm same⟩

theorem spares (h : w.Balanced gate limit inside tickets) (hw : w.Spares gate w') :
    w'.Balanced gate limit inside tickets := by
  obtain ⟨g, hg, hlimit, haccounts⟩ := h
  refine ⟨g, hw.gates.trans hg, hlimit, ?_⟩
  rw [hw.streams]
  exact haccounts

theorem frees (h : w.Balanced gate limit (inside + 1) tickets) (hw : w.Frees gate w') :
    w'.Balanced gate limit inside tickets := by
  obtain ⟨g, hg, hlimit, haccounts⟩ := h
  refine ⟨g.release, ?_, g.limit_release.trans hlimit, ?_⟩
  · rw [hw.gates, hg]
    rfl
  · rw [hw.streams]
    rw [Nat.add_right_comm] at haccounts
    exact haccounts.release

theorem passes (h : w.Balanced gate limit (inside + 1) tickets) (hw : w.Passes gate w') :
    w'.Balanced gate limit inside tickets := by
  obtain ⟨g, hg, hlimit, haccounts⟩ := h
  refine ⟨g, hw.gates.trans hg, hlimit, ?_⟩
  rw [hw.streams, ← Nat.add_assoc, Nat.add_right_comm]
  exact haccounts

theorem drains (h : w.Balanced gate limit inside tickets) (hw : w.Drains gate w') :
    w'.Balanced gate limit inside tickets := by
  obtain ⟨g, hg, hlimit, haccounts⟩ := h
  refine ⟨g.release, ?_, g.limit_release.trans hlimit, ?_⟩
  · rw [hw.gates, hg]
    rfl
  · rw [← hw.streams, ← Nat.add_assoc] at haccounts
    exact haccounts.release

theorem asks_free (h : w.Balanced gate limit inside tickets) (hw : w.Asks gate w' none) :
    w'.Balanced gate limit (inside + 1) tickets := by
  obtain ⟨g, hg, hlimit, haccounts⟩ := h
  obtain ⟨hfree, hg'⟩ := hw.gates g hg
  refine ⟨g.enter.2, hg', g.limit_enter.trans hlimit, ?_⟩
  rw [hw.streams, Nat.add_right_comm]
  exact haccounts.enter_free hfree.symm

theorem asks_full (h : w.Balanced gate limit inside tickets) (hw : w.Asks gate w' (some ticket)) :
    w'.Balanced gate limit inside (ticket :: tickets) := by
  obtain ⟨g, hg, hlimit, haccounts⟩ := h
  obtain ⟨hfull, hg'⟩ := hw.gates g hg
  refine ⟨g.enter.2, hg', g.limit_enter.trans hlimit, ?_⟩
  rw [hw.streams]
  exact haccounts.enter_full hfull.symm

theorem leaves (h : w.Balanced gate limit inside (ticket :: tickets))
    (hw : w.Leaves gate ticket w') : w'.Balanced gate limit inside tickets := by
  obtain ⟨g, hg, hlimit, haccounts⟩ := h
  refine ⟨g.leave ticket, ?_, (g.limit_leave ticket).trans hlimit, ?_⟩
  · rw [hw.gates, hg]
    rfl
  · rw [hw.streams]
    exact haccounts.leave

theorem claims (h : w.Balanced gate limit inside (ticket :: tickets))
    (hw : w.Decides gate ticket w' true) : w'.Balanced gate limit (inside + 1) tickets := by
  obtain ⟨g, hg, hlimit, haccounts⟩ := h
  obtain ⟨hcalled, hg'⟩ := hw.gates g hg
  refine ⟨g.claim ticket, hg', hlimit, ?_⟩
  rw [hw.streams, Nat.add_right_comm]
  exact haccounts.claim hcalled.symm

theorem gives_up (h : w.Balanced gate limit inside (ticket :: tickets))
    (hw : w.Decides gate ticket w' false) : w'.Balanced gate limit inside tickets := by
  obtain ⟨g, hg, -⟩ := id h
  refine h.leaves ⟨?_, hw.streams⟩
  rw [(hw.gates g hg).2, hg]
  rfl

end Balanced

end World

end LiveRecords

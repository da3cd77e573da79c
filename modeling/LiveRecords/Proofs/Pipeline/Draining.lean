import LiveRecords.Proofs.Pipeline.Determinacy

/-
  A stream of rows that is read to its end.

  The rows of a query come through a pipe of a few places, carried one at a time while the
  reader waits. `World.Pours` says what has become of them meanwhile: those in the buffer,
  the one that finds no room and those that are still to come are, in this order, the rows
  that the reader does not have yet. Whatever time the pipe takes, the reader gets them all
  (`Rows.Reliable.finishes_all`), and when there are no more the query has left its gate.
-/

namespace LiveRecords

open Relation (ReflTransGen)
open Job (Finishes)
open World (Serves)

theorem modify_append_last {α : Type} (l : List α) (a : α) (f : α → α) :
    (l ++ [a]).modify l.length f = l ++ [f a] :=
  List.modifyTailIdx_add (List.modifyHead f) 0 l [a]

/-- What has become of the rows that come through a pipe: these are still to be read. -/
structure Pipe.Carries (p : Pipe) (gate : Nat) (rows : List Value) : Prop where
  inOrder : ∃ source, p.source = .listed source ∧ p.buffer ++ p.held.toList ++ source = rows
  left : p.left = rows.length
  wanted : p.abandoned = false
  roomy : 0 < p.capacity
  ended : p.finished = true → p.held = none ∧ p.source = .listed []
  permit : p.finished = false → p.permit = some gate

/-- Before the end, rows may move on inside a pipe as long as they stay in order. -/
theorem Pipe.Carries.moved {p : Pipe} {gate : Nat} {rows : List Value} (h : p.Carries gate rows)
    (unfinished : p.finished = false) {buffer : List Value} {held : Option Value} {source : Rows}
    (inOrder : ∃ rest, source = .listed rest ∧ buffer ++ held.toList ++ rest = rows) :
    ({ p with buffer, held, source } : Pipe).Carries gate rows where
  inOrder := inOrder
  left := h.left
  wanted := h.wanted
  roomy := h.roomy
  ended ended := absurd (unfinished.symm.trans ended) Bool.false_ne_true
  permit := h.permit

/-- A reader finds the next row in a pipe, or that there is none. -/
def Pipe.Ready (p : Pipe) : Prop := p.buffer ≠ [] ∨ p.finished = true

namespace World

/-- The gates once somebody has entered one of them. -/
def entered (w : World) (gate : Nat) : World := w.onGate gate fun g => g.enter.2

/-- After a world in which a query was made, its rows come through a new pipe, and the query
is at the gate until they are all in the pipe. -/
structure Pours (w : World) (gate : Nat) (rows : List Value) (v : World) (p : Pipe) : Prop where
  essence : v.essence = w.essence
  pipes : v.pipes = w.pipes ++ [p]
  gates : v.gates = if p.finished then w.gates else (w.entered gate).gates
  carries : p.Carries gate rows

/-- Everything is as it was, but time has passed and pipes have ended. -/
structure Resumes (w v : World) : Prop where
  essence : v.essence = w.essence
  gates : v.gates = w.gates
  drained : v.Drained

variable {w v : World} {gate : Nat} {rows : List Value} {p : Pipe}

theorem Idles.resumes (h : w.Idles v) (drained : w.Drained) : w.Resumes v :=
  ⟨h.essence, h.gates, h.toUnmoved.drained drained⟩

theorem Resumes.later (h : w.Resumes v) {v' : World} (serves : ReflTransGen Serves v v') :
    w.Resumes v' :=
  have hidles := h.drained.idles serves
  ⟨hidles.essence.trans h.essence, hidles.gates.trans h.gates,
    hidles.toUnmoved.drained h.drained⟩

theorem Resumes.atRest (h : w.Resumes v) (rest : w.AtRest) : v.AtRest :=
  rest.of_cells (congrArg cells h.essence : v.essence.cells = w.essence.cells)

namespace Pours

theorem here (h : w.Pours gate rows v p) : v.pipes[w.pipes.length]? = some p := by
  rw [h.pipes, List.getElem?_append_right (Nat.le_refl _), Nat.sub_self]
  rfl

theorem rowReady (h : w.Pours gate rows v p) :
    v.rowReady (.piped w.pipes.length) = true ↔ p.Ready := by
  simp [World.rowReady, h.here, Pipe.Ready]

theorem takeRow (h : w.Pours gate rows v p) {buffer : List Value} (holds : p.buffer = buffer) :
    v.takeRow (.piped w.pipes.length) =
      match buffer with
      | row :: _ => (some (row, .piped w.pipes.length), v.onPipe w.pipes.length fun p =>
          { p with buffer := p.buffer.tail, left := p.left - 1 })
      | [] => (none, v) := by
  cases buffer <;> simp only [World.takeRow, h.here, Option.map_some, holds]

/-- The pipe has changed, and the query is where it was. -/
theorem onPipe (h : w.Pours gate rows v p) {f : Pipe → Pipe} {left : List Value}
    (carries : (f p).Carries gate left) (finished : (f p).finished = p.finished) :
    w.Pours gate left (v.onPipe w.pipes.length f) (f p) where
  essence := h.essence
  pipes := by
    show v.pipes.modify _ _ = _
    rw [h.pipes, modify_append_last]
  gates := by
    rw [finished]
    exact h.gates
  carries := carries

/-- The row that found no room goes into the buffer. -/
theorem put (h : w.Pours gate rows v p) (unfinished : p.finished = false) {row : Value}
    (held : p.held = some row) (room : p.buffer.length < p.capacity) :
    (∀ moves, v.carryRows w.pipes.length (moves + 1) =
      (v.onPipe w.pipes.length fun p =>
        { p with buffer := p.buffer ++ [row], held := none }).carryRows w.pipes.length moves) ∧
    w.Pours gate rows
      (v.onPipe w.pipes.length fun p => { p with buffer := p.buffer ++ [row], held := none })
      { p with buffer := p.buffer ++ [row], held := none } := by
  constructor
  · intro moves
    have hready : v.pipeReady p = true := by
      simp [pipeReady, unfinished, h.carries.wanted, held, room]
    rw [carryRows, h.here]
    simp only [hready, h.carries.wanted, held]
    rfl
  · refine h.onPipe (f := fun p => { p with buffer := p.buffer ++ [row], held := none }) ?_ rfl
    obtain ⟨source, hsource, hrows⟩ := h.carries.inOrder
    rw [held] at hrows
    exact h.carries.moved unfinished ⟨source, hsource, by simpa using hrows⟩

/-- The next row is taken, to be put into the buffer. -/
theorem fetch (h : w.Pours gate rows v p) (unfinished : p.finished = false)
    (held : p.held = none) {row : Value} {rest : List Value}
    (source : p.source = .listed (row :: rest)) :
    (∀ moves, v.carryRows w.pipes.length (moves + 1) =
      (v.onPipe w.pipes.length fun p =>
        { p with held := some row, source := .listed rest }).carryRows w.pipes.length moves) ∧
    w.Pours gate rows
      (v.onPipe w.pipes.length fun p => { p with held := some row, source := .listed rest })
      { p with held := some row, source := .listed rest } := by
  constructor
  · intro moves
    have hready : v.pipeReady p = true := by
      simp [pipeReady, unfinished, held, source, World.rowReady]
    rw [carryRows, h.here]
    simp only [hready, h.carries.wanted, held, source, World.takeRow]
    rfl
  · refine h.onPipe (f := fun p => { p with held := some row, source := .listed rest }) ?_ rfl
    obtain ⟨source', hsource, hrows⟩ := h.carries.inOrder
    obtain rfl := Rows.listed.inj (hsource.symm.trans source)
    rw [held] at hrows
    exact h.carries.moved unfinished ⟨rest, rfl, by simpa using hrows⟩

/-- There are no more rows: the query leaves its gate. -/
theorem close (h : w.Pours gate rows v p) (back : ((w.entered gate).release gate).gates = w.gates)
    (unfinished : p.finished = false) (held : p.held = none) (source : p.source = .listed []) :
    (∀ moves, v.carryRows w.pipes.length (moves + 1) = v.closePipe w.pipes.length p) ∧
    w.Pours gate rows (v.closePipe w.pipes.length p)
      { p with finished := true, permit := none } := by
  constructor
  · intro moves
    have hready : v.pipeReady p = true := by
      simp [pipeReady, unfinished, held, source, World.rowReady]
    rw [carryRows, h.here]
    simp only [hready, h.carries.wanted, held, source, World.takeRow]
    rfl
  · have hclosed : v.closePipe w.pipes.length p =
        (v.release gate).onPipe w.pipes.length fun p =>
          { p with finished := true, permit := none } := by
      unfold closePipe
      rw [h.carries.permit unfinished, source]
      rfl
    rw [hclosed]
    exact {
      essence := h.essence
      pipes := by
        show v.pipes.modify _ _ = _
        rw [h.pipes, modify_append_last]
      gates := by
        show v.gates.modify gate Gate.release = w.gates
        rw [h.gates, unfinished]
        exact back
      carries := {
        inOrder := h.carries.inOrder
        left := h.carries.left
        wanted := h.carries.wanted
        roomy := h.carries.roomy
        ended := fun _ => ⟨held, source⟩
        permit := fun unfinished => by cases unfinished } }

/-- Whatever the pipe does, the rows that are still to be read stay the same, and a row that
is there does not go away. -/
theorem carried (h : w.Pours gate rows v p)
    (back : ((w.entered gate).release gate).gates = w.gates) (moves : Nat) :
    ∃ p', w.Pours gate rows (v.carryRows w.pipes.length moves) p' ∧ (p.Ready → p'.Ready) := by
  induction moves generalizing v p with
  | zero => exact ⟨p, h, id⟩
  | succ moves ih =>
    cases hfinished : p.finished with
    | true =>
      rw [carryRows_of_finished fun p' hp' => by
        rw [← Option.some.inj (h.here.symm.trans hp')]
        exact hfinished]
      exact ⟨p, h, id⟩
    | false =>
      cases hheld : p.held with
      | some row =>
        by_cases hroom : p.buffer.length < p.capacity
        · obtain ⟨hcarry, hnext⟩ := h.put hfinished hheld hroom
          obtain ⟨p', hp', hready⟩ := ih hnext
          rw [hcarry moves]
          exact ⟨p', hp', fun _ => hready (.inl (by simp))⟩
        · have hidle : v.pipeReady p = false := by
            simp [pipeReady, hfinished, h.carries.wanted, hheld, hroom]
          rw [carryRows, h.here]
          simp only [hidle]
          exact ⟨p, h, id⟩
      | none =>
        obtain ⟨source, hsource, -⟩ := h.carries.inOrder
        cases source with
        | cons row rest =>
          obtain ⟨hcarry, hnext⟩ := h.fetch hfinished hheld hsource
          obtain ⟨p', hp', hready⟩ := ih hnext
          rw [hcarry moves]
          exact ⟨p', hp', hready⟩
        | nil =>
          obtain ⟨hcarry, hnext⟩ := h.close back hfinished hheld hsource
          rw [hcarry moves]
          exact ⟨_, hnext, fun _ => .inr rfl⟩

/-- The same while time passes and pipes carry rows. -/
theorem later (h : w.Pours gate rows v p) (drained : w.Drained)
    (back : ((w.entered gate).release gate).gates = w.gates) {v' : World}
    (serves : ReflTransGen Serves v v') :
    ∃ p', w.Pours gate rows v' p' ∧ (p.Ready → p'.Ready) := by
  induction serves with
  | refl => exact ⟨p, h, id⟩
  | @tail b c _ hlast ih =>
    obtain ⟨p', hb, hready⟩ := ih
    cases hlast with
    | passes later => exact ⟨p', ⟨hb.essence, hb.pipes, hb.gates, hb.carries⟩, hready⟩
    | carries pipe moves =>
      by_cases hpipe : pipe = w.pipes.length
      · subst hpipe
        obtain ⟨p'', hp'', hready'⟩ := hb.carried back moves
        exact ⟨p'', hp'', fun ready => hready' (hready ready)⟩
      · rw [carryRows_of_finished fun q hq => ?_]
        · exact ⟨p', hb, hready⟩
        · rw [hb.pipes] at hq
          rcases Nat.lt_or_gt_of_ne hpipe with hold | hnone
          · rw [List.getElem?_append_left hold] at hq
            exact drained q (List.mem_of_getElem? hq)
          · rw [List.getElem?_eq_none (by simpa [Nat.succ_le_iff] using hnone)] at hq
            cases hq

/-- A reader who waits gets the next row, or learns that there is none. -/
theorem becomes_ready (h : w.Pours gate rows v p)
    (back : ((w.entered gate).release gate).gates = w.gates) :
    ∃ v', ReflTransGen Serves v v' ∧ v'.rowReady (.piped w.pipes.length) = true := by
  have hserves (moves : Nat) : ReflTransGen Serves v (v.carryRows w.pipes.length moves) :=
    .single (.carries v w.pipes.length moves)
  cases hbuffer : p.buffer with
  | cons row buffer =>
    refine ⟨v, .refl, h.rowReady.2 (.inl ?_)⟩
    rw [hbuffer]
    exact List.cons_ne_nil row buffer
  | nil =>
    cases hfinished : p.finished with
    | true => exact ⟨v, .refl, h.rowReady.2 (.inr hfinished)⟩
    | false =>
      have hroom : p.buffer.length < p.capacity := by
        rw [hbuffer]
        exact h.carries.roomy
      cases hheld : p.held with
      | some row =>
        obtain ⟨hcarry, hnext⟩ := h.put hfinished hheld hroom
        refine ⟨_, hserves 1, ?_⟩
        rw [hcarry 0]
        exact hnext.rowReady.2 (.inl (by simp))
      | none =>
        obtain ⟨source, hsource, -⟩ := h.carries.inOrder
        cases source with
        | nil =>
          obtain ⟨hcarry, hnext⟩ := h.close back hfinished hheld hsource
          refine ⟨_, hserves 1, ?_⟩
          rw [hcarry 0]
          exact hnext.rowReady.2 (.inr rfl)
        | cons row rest =>
          obtain ⟨hcarry, hnext⟩ := h.fetch hfinished hheld hsource
          obtain ⟨hcarry', hnext'⟩ := hnext.put hfinished rfl hroom
          refine ⟨_, hserves 2, ?_⟩
          rw [hcarry 1, hcarry' 0]
          exact hnext'.rowReady.2 (.inl (by simp))

/-- The next row is the first of those that are still to be read. -/
theorem takes {row : Value} (h : w.Pours gate (row :: rows) v p) (ready : p.Ready) :
    ∃ v' p', v.takeRow (.piped w.pipes.length) = (some (row, .piped w.pipes.length), v') ∧
      w.Pours gate rows v' p' := by
  obtain ⟨source, hsource, hrows⟩ := h.carries.inOrder
  cases hbuffer : p.buffer with
  | nil =>
    rw [hbuffer] at hrows
    obtain ⟨hheld, hend⟩ := h.carries.ended (ready.resolve_left fun hne => hne hbuffer)
    obtain rfl := Rows.listed.inj (hsource.symm.trans hend)
    rw [hheld] at hrows
    cases hrows
  | cons first buffer =>
    rw [hbuffer] at hrows
    obtain ⟨rfl, hrest⟩ := List.cons.inj hrows
    refine ⟨_, _, h.takeRow hbuffer,
      h.onPipe (f := fun p => { p with buffer := p.buffer.tail, left := p.left - 1 }) ?_ rfl⟩
    exact {
      inOrder := ⟨source, hsource, by rw [hbuffer]; exact hrest⟩
      left := congrArg (· - 1) h.carries.left
      wanted := h.carries.wanted
      roomy := h.carries.roomy
      ended := h.carries.ended
      permit := h.carries.permit }

/-- Where no row is left, the pipe has ended, and the query has left its gate. -/
theorem ends (h : w.Pours gate [] v p) (ready : p.Ready) (drained : w.Drained) :
    v.takeRow (.piped w.pipes.length) = (none, v) ∧ w.Resumes v := by
  obtain ⟨source, hsource, hrows⟩ := h.carries.inOrder
  have hbuffer : p.buffer = [] :=
    (List.append_eq_nil_iff.1 (List.append_eq_nil_iff.1 hrows).1).1
  have hfinished := ready.resolve_left fun hne => hne hbuffer
  refine ⟨h.takeRow hbuffer, h.essence, ?_, ?_⟩
  · rw [h.gates, hfinished]
    rfl
  · intro q hq
    rw [h.pipes, List.mem_append, List.mem_singleton] at hq
    rcases hq with hold | rfl
    · exact drained q hold
    · exact hfinished

end Pours

end World

namespace Rows

open World (Pours Resumes)

/-- Streams that give their rows to a reader, one after another: `rest` says which rows a
stream has still to give, and `ended` holds once it has given them all. -/
structure Reliable (rest : List Value → Rows → World → Prop) (ended : World → Prop) : Prop where
  later : ∀ {rows stream v v'}, rest rows stream v → ReflTransGen Serves v v' → rest rows stream v'
  ended_later : ∀ {v v'}, ended v → ReflTransGen Serves v v' → ended v'
  left : ∀ {rows stream v}, rest rows stream v → v.rowsLeft stream = rows.length
  next : ∀ {row rows stream v}, rest (row :: rows) stream v →
    stream.next.run.Finishes Serves (fun result v' =>
      ∃ stream', result = .ok (some (row, stream')) ∧ rest rows stream' v') v
  ends : ∀ {stream v}, rest [] stream v →
    stream.next.run.Finishes Serves (fun result v' => result = .ok none ∧ ended v') v

namespace Reliable

variable {rest : List Value → Rows → World → Prop} {ended : World → Prop} {rows : List Value}
  {stream : Rows} {v : World}

theorem finishes_take (h : Reliable rest ended) (hrest : rest rows stream v) :
    (stream.take (rows.length + 1)).run.Finishes Serves (fun result v' =>
      result.map Prod.fst = .ok rows ∧ ended v') v := by
  induction rows generalizing stream v with
  | nil =>
    unfold take
    refine Work.finishes_bind (h.ends hrest) (fun row? v' hv' => ?_) fun e v' hv' => by cases hv'.1
    cases hv'.1
    exact fun v'' hv'' => ⟨rfl, h.ended_later hv'.2 hv''⟩
  | cons row rows ih =>
    unfold take
    refine Work.finishes_bind (h.next hrest) (fun row? v' hv' => ?_) ?_
    · obtain ⟨stream', hrow, hrest'⟩ := hv'
      cases hrow
      refine Work.finishes_bind (ih hrest') (fun taken v'' hv'' => ?_) fun e v' hv' => by
        cases hv'.1
      refine fun v₃ hv₃ => ⟨?_, h.ended_later hv''.2 hv₃⟩
      exact congrArg (fun rows => Except.ok (row :: rows)) (Except.ok.inj hv''.1)
    · rintro e v' ⟨_, he, _⟩
      cases he

/-- A reader gets all rows of a stream. -/
theorem finishes_all (h : Reliable rest ended) (hrest : rest rows stream v) :
    stream.all.run.Finishes Serves (fun result v' => result = .ok rows ∧ ended v') v := by
  intro v₁ hv₁
  show (stream.take (v₁.rowsLeft stream + 1) >>= fun taken => pure taken.1 : Work _).run.Finishes
    _ _ v₁
  have hrest₁ := h.later hrest hv₁
  rw [h.left hrest₁]
  refine Work.finishes_bind (h.finishes_take hrest₁) (fun taken v' hv' => ?_) ?_
  · exact fun v'' hv'' => ⟨hv'.1, h.ended_later hv'.2 hv''⟩
  · exact fun e v' hv' => by cases hv'.1

end Reliable

theorem run_next (rows : Rows) : (next rows).run =
    .wait ⟨0, World.rowReady rows, none, (·.abandonRows rows)⟩
      (.step (fun w => (w.takeRow rows).2) fun w => .done (.ok (w.takeRow rows).1)) := rfl

/-- The rows that come through a pipe are all given, and then the query has left its gate. -/
theorem reliable_piped {w : World} {gate : Nat} (drained : w.Drained)
    (back : ((w.entered gate).release gate).gates = w.gates) :
    Reliable (fun rows stream v => stream = .piped w.pipes.length ∧ ∃ p, w.Pours gate rows v p)
      w.Resumes where
  later := by
    rintro rows stream v v' ⟨rfl, p, hp⟩ serves
    obtain ⟨p', hp', -⟩ := hp.later drained back serves
    exact ⟨rfl, p', hp'⟩
  ended_later := fun hv serves => hv.later serves
  left := by
    rintro rows stream v ⟨rfl, p, hp⟩
    simp only [World.rowsLeft, hp.here, Option.map_some, Option.getD_some]
    exact hp.carries.left
  next := by
    rintro row rows stream v ⟨rfl, p, hp⟩
    rw [run_next]
    intro v₁ hv₁
    obtain ⟨p₁, hp₁, -⟩ := hp.later drained back hv₁
    refine ⟨hp₁.becomes_ready back, fun hready v₂ hv₂ v₃ hv₃ => ?_⟩
    -- others may come between the wait and the taking, but the row does not go away
    obtain ⟨p₂, hp₂, hready₂⟩ := hp₁.later drained back hv₂
    obtain ⟨v', p', htake, hp'⟩ := hp₂.takes (hready₂ (hp₁.rowReady.1 hready))
    dsimp only at hv₃ ⊢
    rw [htake] at hv₃ ⊢
    obtain ⟨p₃, hp₃, -⟩ := hp'.later drained back hv₃
    exact ⟨_, rfl, rfl, p₃, hp₃⟩
  ends := by
    rintro stream v ⟨rfl, p, hp⟩
    rw [run_next]
    intro v₁ hv₁
    obtain ⟨p₁, hp₁, -⟩ := hp.later drained back hv₁
    refine ⟨hp₁.becomes_ready back, fun hready v₂ hv₂ v₃ hv₃ => ?_⟩
    obtain ⟨p₂, hp₂, hready₂⟩ := hp₁.later drained back hv₂
    obtain ⟨htake, hresumes⟩ := hp₂.ends (hready₂ (hp₁.rowReady.1 hready)) drained
    dsimp only at hv₃ ⊢
    rw [htake] at hv₃ ⊢
    exact ⟨rfl, hresumes.later hv₃⟩

/-- The rows of a list are all given, without a wait. -/
theorem reliable_listed (w : World) (drained : w.Drained) :
    Reliable (fun rows stream v => stream = .listed rows ∧ w.Idles v) w.Idles where
  later := by
    rintro rows stream v v' ⟨rfl, hv⟩ serves
    exact ⟨rfl, hv.trans ((hv.toUnmoved.drained drained).idles serves)⟩
  ended_later := fun hv serves => hv.trans ((hv.toUnmoved.drained drained).idles serves)
  left := by
    rintro rows stream v ⟨rfl, -⟩
    rfl
  next := by
    rintro row rows stream v ⟨rfl, hv⟩ v₁ hv₁
    refine ⟨⟨v₁, .refl, rfl⟩, fun _ v₂ hv₂ v₃ hv₃ => ?_⟩
    have hidles := (hv.toUnmoved.drained drained).idles ((hv₁.trans hv₂).trans hv₃)
    exact ⟨_, rfl, rfl, hv.trans hidles⟩
  ends := by
    rintro stream v ⟨rfl, hv⟩ v₁ hv₁
    refine ⟨⟨v₁, .refl, rfl⟩, fun _ v₂ hv₂ v₃ hv₃ => ?_⟩
    have hidles := (hv.toUnmoved.drained drained).idles ((hv₁.trans hv₂).trans hv₃)
    exact ⟨rfl, hv.trans hidles⟩

end Rows

end LiveRecords

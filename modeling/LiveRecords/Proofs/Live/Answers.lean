import LiveRecords.Proofs.Live.Subscription

/-
  Queries while others write.

  A query goes through the layers of a pipeline, waits, and has its table declared; in
  between others may write. The store is read at once, so the answer shows it as it was
  at some moment between the question and the answer (`ensures_entities`), whatever
  layers there are that pass queries on (`Layer.PassesQueries`).
-/

namespace LiveRecords

open Job (Ensures)

/-- Every layer but the scheduling passes on a query as it is, or fails. -/
def Layer.PassesQueries : Layer → Prop
  | .scheduling .. => False
  | _ => True

/-- A query that was answered shows the store at some moment since it was asked. -/
def Answered (owners : Owners) (q : Query) (w : World) (result : Outcome (List Value))
    (w' : World) : Prop :=
  Elsewhere owners w w' ∧ ∀ entities, result = .ok entities → ∃ run now, q.compile = .ok run ∧
    Elsewhere owners w now ∧ Elsewhere owners now w' ∧ entities = now.store.query q run

/-- The same of a stream of rows. -/
def Listed (owners : Owners) (q : Query) (w : World) (result : Outcome Rows) (w' : World) : Prop :=
  Elsewhere owners w w' ∧ ∀ rows, result = .ok rows → ∃ entities, rows = .listed entities ∧
    Answered owners q w (.ok entities) w'

variable {owners : Owners} {q : Query} {w w' : World}

theorem Answered.since {result : Outcome (List Value)} {w₁ : World} (hw : Elsewhere owners w w₁)
    (h : Answered owners q w₁ result w') : Answered owners q w result w' := by
  refine ⟨hw.trans h.1, fun entities hresult => ?_⟩
  obtain ⟨run, now, hrun, hnow, hw', heq⟩ := h.2 entities hresult
  exact ⟨run, now, hrun, hw.trans hnow, hw', heq⟩

theorem Answered.later {result : Outcome (List Value)} {w₁ : World}
    (h : Answered owners q w result w₁) (hw : Elsewhere owners w₁ w') :
    Answered owners q w result w' := by
  refine ⟨h.1.trans hw, fun entities hresult => ?_⟩
  obtain ⟨run, now, hrun, hnow, hw₁, heq⟩ := h.2 entities hresult
  exact ⟨run, now, hrun, hnow, hw₁.trans hw, heq⟩

theorem Listed.since {result : Outcome Rows} {w₁ : World} (hw : Elsewhere owners w w₁)
    (h : Listed owners q w₁ result w') : Listed owners q w result w' := by
  refine ⟨hw.trans h.1, fun rows hresult => ?_⟩
  obtain ⟨entities, hrows, hanswered⟩ := h.2 rows hresult
  exact ⟨entities, hrows, hanswered.since hw⟩

theorem listed_of_failure (e : Failure) (hw : Elsewhere owners w w') :
    Listed owners q w (.error e) w' := ⟨hw, nofun⟩

namespace Backend

theorem ensures_query (q : Query) (w : World) :
    Ensures (listening owners) (Listed owners q w) (query q).run w := by
  have hquery : query q = (do
      let run ← (q.prepare : Outcome Query.Compiled)
      prepare q.entity
      Work.ofJob (.read fun now => now.store.query q run)) >>= fun entities =>
        return .listed entities := by
    unfold query
    simp only [bind_assoc]
  rw [hquery]
  refine Work.ensures_bind (ensures_reading q (fun run now => now.store.query q run) w) ?_ ?_
  · intro entities w₁ hend w' hw'
    have hanswered : Answered owners q w (.ok entities) w₁ := hend
    exact ⟨hend.1.trans hw', fun rows hrows => by
      cases hrows
      exact ⟨entities, rfl, hanswered.later hw'⟩⟩
  · exact fun e w₁ hend w' hw' => listed_of_failure e (hend.1.trans hw')

end Backend

/-- What goes before a query and leaves the store to others does not matter. -/
theorem ensures_listed_after {α : Type} {x : Work α} {f : α → Work Rows}
    (hx : Job.Each (Elsewhere owners) x.run)
    (hf : ∀ a w₁, Ensures (listening owners) (Listed owners q w₁) (f a).run w₁) (w : World) :
    Ensures (listening owners) (Listed owners q w) (x >>= f).run w := by
  have hbefore := hx.ensures (T := listening owners) w fun s s' (h : Elsewhere owners s s') =>
    ⟨h, trivial⟩
  refine Work.ensures_bind hbefore (fun a w₁ hw₁ => ?_) fun e w₁ hw₁ w' hw' =>
    listed_of_failure e (Elsewhere.trans hw₁ hw')
  exact (hf a w₁).mono fun _ _ h => h.since hw₁

/-- Whatever layers pass a query on, its answer is that of the store, or a failure. -/
theorem Handler.ensures_query {below : List Layer} (passes : ∀ layer ∈ below, layer.PassesQueries)
    (whole : q.properties = []) (w : World) :
    Ensures (listening owners) (Listed owners q w) (Handler.ofLayers below (.query q)).run w := by
  induction below generalizing w with
  | nil => exact Backend.ensures_query q w
  | cons layer below ih =>
    have hnext := ih fun l hl => passes l (List.mem_cons_of_mem _ hl)
    cases layer with
    | scheduling => exact (passes _ List.mem_cons_self).elim
    | live | references | aggregateIs | plain => exact hnext w
    | mandatory =>
      have hsame : ∀ c, q.withMandatory c = q := by
        intro c
        unfold Query.withMandatory
        rw [whole]
        rfl
      refine ensures_listed_after (Work.each_read (.refl owners) World.catalog) (fun c w₁ => ?_) w
      rw [hsame c]
      exact hnext w₁
    | log =>
      have hlog : ∀ w : World, Elsewhere owners w { w with log := w.log ++ [.query q] } :=
        fun w => ⟨.refl owners _, rfl, rfl, rfl⟩
      exact ensures_listed_after (Work.each_modify hlog) (fun _ w₁ => hnext w₁) w
    | failing counter op after failure breaks =>
      have hcount : ∀ w : World, Elsewhere owners w (countRequest counter after w).2 :=
        fun w => ⟨.refl owners _, rfl, rfl, rfl⟩
      show Ensures _ _ (Handler.failing counter op after failure breaks
        (Handler.ofLayers below) (.query q)).run w
      unfold Handler.failing
      split
      · refine ensures_listed_after (Work.each_act hcount) (fun passed w₁ => ?_) w
        cases passed with
        | true => exact hnext w₁
        | false =>
          cases breaks with
          | true => exact trivial
          | false => exact fun w' hw' => listed_of_failure failure hw'
      · exact hnext w

/-! ## Reading all rows -/

namespace Rows

variable {T : Job.Terms World}

/-- Taking a row of a list leaves the world alone. -/
theorem ensures_next (free : ∀ w w', T.guarantee w w') (entities : List Value) (w : World) :
    Ensures T
      (fun result w' => T.rely w w' ∧ result = .ok (match entities with
        | [] => none
        | v :: rest => some (v, .listed rest)))
      (Rows.next (.listed entities)).run w := by
  intro w₁ hw₁ _ w₂ hw₂
  refine ⟨free _ _, fun w' hw' => ⟨?_, ?_⟩⟩
  · have htake : (World.takeRow (.listed entities) w₂).2 = w₂ := by cases entities <;> rfl
    have hafter : T.rely w₂ w' := htake ▸ hw'
    exact T.rely_trans (T.rely_trans hw₁ hw₂) hafter
  · cases entities <;> rfl

theorem ensures_take (free : ∀ w w', T.guarantee w w') (entities : List Value) (count : Nat)
    (w : World) :
    Ensures T
      (fun result w' => T.rely w w' ∧
        result = .ok (entities.take count, .listed (entities.drop count)))
      (Rows.take (.listed entities) count).run w := by
  induction count generalizing entities w with
  | zero => exact fun w' hw' => ⟨hw', rfl⟩
  | succ count ih =>
    refine Work.ensures_bind (ensures_next free entities w) ?_ fun e w₁ hend => nomatch hend.2
    intro next w₁ hend
    obtain ⟨hw₁, hnext⟩ := hend
    cases hnext
    cases entities with
    | nil => exact fun w' hw' => ⟨T.rely_trans hw₁ hw', rfl⟩
    | cons v rest =>
      refine Work.ensures_bind (ih rest w₁) ?_ fun e w₂ hend => nomatch hend.2
      intro more w₂ hend w' hw'
      obtain ⟨hw₂, hmore⟩ := hend
      cases hmore
      exact ⟨T.rely_trans (T.rely_trans hw₁ hw₂) hw', rfl⟩

theorem ensures_all (free : ∀ w w', T.guarantee w w') (entities : List Value) (w : World) :
    Ensures T (fun result w' => T.rely w w' ∧ result = .ok entities)
      (Rows.all (.listed entities)).run w := by
  refine Work.ensures_bind (Work.ensures_read (fun _ => free _ _) _ w) ?_ ?_
  · intro count w₁ hend
    obtain ⟨now, hnow, hw₁, hcount⟩ := hend
    cases hcount
    refine Work.ensures_bind (ensures_take free entities _ w₁) ?_ fun e w₂ hend => nomatch hend.2
    intro taken w₂ hend w' hw'
    obtain ⟨hw₂, htaken⟩ := hend
    cases htaken
    refine ⟨T.rely_trans (T.rely_trans (T.rely_trans hnow hw₁) hw₂) hw', ?_⟩
    have hall : entities.take (entities.length + 1) = entities :=
      List.take_of_length_le (Nat.le_succ _)
    exact congrArg Except.ok hall
  · intro e w₁ hend
    obtain ⟨_, _, _, ⟨⟩⟩ := hend

end Rows

/-- All entities of a query through layers. -/
theorem ensures_entities {below : List Layer} (passes : ∀ layer ∈ below, layer.PassesQueries)
    (whole : q.properties = []) (w : World) :
    Ensures (listening owners) (Answered owners q w)
      (do (← Handler.ofLayers below (.query q)).all : Work (List Value)).run w := by
  refine Work.ensures_bind (Handler.ensures_query passes whole w) ?_ ?_
  · intro rows w₁ hlisted
    obtain ⟨entities, rfl, hanswered⟩ := hlisted.2 rows rfl
    refine (Rows.ensures_all (fun _ _ => trivial) entities w₁).mono ?_
    intro result w' hend
    obtain ⟨hw', rfl⟩ := hend
    refine ⟨hlisted.1.trans hw', fun _ heq => ?_⟩
    cases heq
    obtain ⟨run, now, hrun, hnow, hw₁, hentities⟩ := hanswered.2 entities rfl
    exact ⟨run, now, hrun, hnow, hw₁.trans hw', hentities⟩
  · exact fun e w₁ hlisted w' hw' => ⟨hlisted.1.trans hw', nofun⟩

end LiveRecords

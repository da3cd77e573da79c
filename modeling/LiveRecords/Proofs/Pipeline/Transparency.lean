import LiveRecords.Pipeline.Assembly
import LiveRecords.Proofs.Pipeline.Mirroring
import LiveRecords.Sample.Shop

/-
  What a pipeline adds to a store: nothing, where it has nothing to add.

  One caller makes calls, one after another, and reads every stream of rows to its end
  (`Handler.calls`). The calls are about whole entities that refer to no others, so none of
  the four layers has anything to do. Then, whatever layers a configuration asks for, the
  caller gets the same replies as from the store alone, up to the contexts of failures, and
  leaves the same store behind (`Config.transparent`).
-/

namespace LiveRecords

open Relation (ReflTransGen)
open World (Serves)
open Job (Finishes Goes)

/-- What a caller has of a call in the end. -/
inductive Reply where
  | value (value : Value)
  | flag (flag : Bool)
  | found (entity? : Option Value)
  | rows (rows : List Value)
  | snapshot (snapshot : Snapshot)
  | changes (changes : Changes)
  | done

/-- Reads an answer to its end. -/
def Request.drain : (r : Request) → r.Answer → Work Reply
  | .insert .., value | .update .., value | .upsert .., value | .aggregate .., value =>
    return .value value
  | .delete .., flag => return .flag flag
  | .find .., entity? => return .found entity?
  | .query _, rows => do return .rows (← rows.all)
  | .snapshot _, read => return .snapshot read
  | .live _, changes => return .changes changes
  | .dropAll, _ => return .done

/-- What a caller has of an answer whose rows are listed. -/
def Request.reply : (r : Request) → r.Answer → Reply
  | .insert .., value | .update .., value | .upsert .., value | .aggregate .., value =>
    .value value
  | .delete .., flag => .flag flag
  | .find .., entity? => .found entity?
  | .query _, .listed rows => .rows rows
  | .query _, .piped _ => .rows []
  | .snapshot _, read => .snapshot read
  | .live _, changes => .changes changes
  | .dropAll, _ => .done

namespace Handler

/-- Makes a call and reads its answer to the end. -/
def call (h : Handler) (r : Request) : Work Reply := do r.drain (← h r)

/-- Makes calls, one after another, whatever comes of them. -/
def calls (h : Handler) : List Request → Job World (List (Outcome Reply))
  | [] => return []
  | r :: rest => do
    let reply ← (h.call r).run
    return reply :: (← h.calls rest)

end Handler

/-- What a caller gets, and the world then: as expected, and with gates as they were. -/
structure Request.Replied (r : Request) (expected : Outcome r.Answer × World) (w : World)
    (reply : Outcome Reply) (w' : World) : Prop where
  gates : w'.gates = w.gates
  drained : w'.Drained
  atRest : w'.AtRest
  reply : reply.rootCause = expected.1.map r.reply
  essence : w'.essence = expected.2

namespace Request

variable {r : Request} {expected : Outcome r.Answer × World} {w w' w'' : World}
  {result : Outcome r.Answer}

/-- Once an answer that is as expected has been read, the reply is as expected, too. -/
theorem Met.replied (h : r.Met expected w result w') (resumes : w'.Resumes w'') :
    r.Replied expected w (result.map r.reply) w'' where
  gates := resumes.gates.trans h.unmoved.gates
  drained := resumes.drained
  atRest := resumes.atRest h.atRest
  reply := by
    rw [← h.answer]
    cases result <;> rfl
  essence := resumes.essence.trans h.essence

/-- An answer whose rows are listed is read without a wait. -/
theorem finishes_drain {a : r.Answer} (listed : r.Listed (.ok a)) (drained : w.Drained) :
    (r.drain a).run.Finishes Serves (fun reply w' => reply = .ok (r.reply a) ∧ w.Idles w') w := by
  cases r with
  | query q =>
    obtain ⟨rows, rfl⟩ := listed
    have hall : (Rows.listed rows).all.run.Finishes Serves _ w :=
      (Rows.reliable_listed w drained).finishes_all ⟨rfl, .refl w⟩
    refine Work.finishes_bind hall (fun rows' w' hw' w'' hw'' => ?_) fun e w' hw' => by
      cases hw'.1
    cases hw'.1
    exact ⟨rfl, hw'.2.trans ((hw'.2.toUnmoved.drained drained).idles hw'')⟩
  | _ => exact fun w' hw' => ⟨rfl, drained.idles hw'⟩

/-- Where an answer is as expected, the reply is. -/
theorem Met.finishes {work : Work r.Answer} (h : work.run.Finishes Serves (r.Met expected w) w)
    (drained : w.Drained) : (work >>= r.drain).run.Finishes Serves (r.Replied expected w) w := by
  refine Work.finishes_bind h (fun a w' hw' => ?_) fun e w' hw' w'' hw'' => ?_
  · have hdrained := hw'.unmoved.drained drained
    refine (finishes_drain hw'.listed hdrained).mono fun reply w'' hw'' => ?_
    rw [hw''.1]
    exact hw'.replied (hw''.2.resumes hdrained)
  · have hdrained := hw'.unmoved.drained drained
    exact hw'.replied ((hdrained.idles hw'').resumes hdrained)

end Request

namespace Handler

/-- With these gates, a handler replies to one caller at a time as expected. -/
def Replies (answers : Answers) (gates : List Gate) (h : Handler) : Prop :=
  ∀ (r : Request) (plain : r.Plain) (w : World), w.Drained → w.AtRest → w.gates = gates →
    (h.call r).run.Finishes Serves (r.Replied (answers r plain w.essence) w) w

variable {answers : Answers} {next h : Handler} {gates : List Gate}

theorem Mirrors.replies (mirrors : h.Mirrors answers) (gates : List Gate) :
    h.Replies answers gates :=
  fun r plain w drained rest _ => Request.Met.finishes (mirrors r plain w drained rest) drained

/-- Behind a gate that is free, a caller gets the replies that there are without it. -/
theorem Mirrors.replies_scheduling (mirrors : next.Mirrors answers) {gate : Nat}
    (free : ∀ g, gates[gate]? = some g → g.Free) (timeout : Option Nat) (buffer : Nat) :
    Replies answers gates (Scheduling.handle gate timeout buffer next) := by
  intro r plain w drained rest hgates
  rw [← hgates] at free
  cases r with
  | query q =>
    have hbelow (w₁ : World) (hw₁ : (w.entered gate).Idles w₁) :=
      mirrors.after plain (w := w.entered gate) drained rest hw₁
    refine Work.finishes_bind (Scheduling.finishes_query hbelow free drained buffer)
      (fun stream v hv => ?_) fun e v hv v' hv' => ?_
    · obtain ⟨rows, u, hmet, rfl, p, hp⟩ := hv
      have hback : ((u.entered gate).release gate).gates = u.gates :=
        World.entered_release fun g hg => free g (hmet.unmoved.gates ▸ hg)
      have hall := (Rows.reliable_piped (hmet.unmoved.drained drained) hback).finishes_all
        ⟨rfl, p, hp⟩
      refine Work.finishes_bind hall (fun rows' v' hv' v'' hv'' => ?_) fun e v' hv' => by
        cases hv'.1
      cases hv'.1
      exact hmet.replied (hv'.2.later hv'')
    · have hmet : (Request.query q).Met _ w (.error e) v := hv
      have hdrained := hmet.unmoved.drained drained
      exact hmet.replied ((hdrained.idles hv').resumes hdrained)
  | live q => exact plain.elim
  | _ =>
    exact Request.Met.finishes (Scheduling.finishes_run mirrors free plain drained rest _ _) drained

/-- The replies to calls, up to the contexts of failures, and what becomes of the essence of
the world are the same for all handlers that reply as expected. -/
theorem exists_replies (answers : Answers) {rs : List Request} (plain : ∀ r ∈ rs, r.Plain) :
    ∃ f : World → List (Outcome Reply) × World, ∀ (h : Handler) (w : World),
      h.Replies answers w.gates → w.Drained → w.AtRest →
      (h.calls rs).Finishes Serves (fun replies w' => w'.Drained ∧
        (replies.map Outcome.rootCause, w'.essence) = f w.essence) w := by
  induction rs with
  | nil =>
    refine ⟨fun v => ([], v), fun h w _ drained _ w' hw' => ?_⟩
    have hidles := drained.idles hw'
    exact ⟨hidles.toUnmoved.drained drained, congrArg (Prod.mk []) hidles.essence⟩
  | cons r rs ih =>
    obtain ⟨f, hf⟩ := ih fun r hr => plain r (List.mem_cons_of_mem _ hr)
    have hplain := plain r List.mem_cons_self
    -- what is replied is settled by the calls, before it is known who handles them
    refine ⟨fun v => ((answers r hplain v).1.map r.reply :: (f (answers r hplain v).2).1,
      (f (answers r hplain v).2).2), fun h w hreplies drained rest => ?_⟩
    refine (hreplies r hplain w drained rest rfl).bind fun reply w₁ hw₁ => ?_
    rw [← hw₁.gates] at hreplies
    refine (hf h w₁ hreplies hw₁.drained hw₁.atRest).bind fun replies w₂ hw₂ w₃ hw₃ => ?_
    have hidles := hw₂.1.idles hw₃
    refine ⟨hidles.toUnmoved.drained hw₂.1, ?_⟩
    dsimp only
    rw [List.map_cons, hw₁.reply, hidles.essence, ← hw₁.essence, ← hw₂.2]

end Handler

namespace Config

variable {c : Config} {w w' : World} {layers : List Layer} {hasRuntime : Bool}

/-- The layers that a configuration asks for below scheduling are quiet. -/
theorem quiet_layers (c : Config) :
    ∀ layer ∈ (if c.liveQueries then [Layer.live c.livePollIntervalMs] else []) ++
      (if c.mandatoryProperties then [.mandatory] else []) ++
      (if c.updateReferencesFirst then [.references] else []), layer.Quiet := by
  have hquiet (b : Bool) (l : Layer) (quiet : l.Quiet) :
      ∀ layer ∈ (if b then [l] else []), layer.Quiet := by
    intro layer hlayer
    cases b with
    | true =>
      rw [List.mem_singleton.1 hlayer]
      exact quiet
    | false => cases hlayer
  intro layer hlayer
  rw [List.mem_append, List.mem_append] at hlayer
  rcases hlayer with (hlive | hmandatory) | hreferences
  · exact hquiet _ (.live _) trivial layer hlive
  · exact hquiet _ .mandatory trivial layer hmandatory
  · exact hquiet _ .references trivial layer hreferences

/-- The pipeline of a configuration is made of quiet layers, and perhaps scheduling above them
with a gate that nobody is at. -/
theorem assemble_layers (assembled : w.assemble c [] hasRuntime = .ok (layers, w')) :
    w' = { w with gates := w.gates ++ [c.gate] } ∧
      ∃ below : List Layer, (∀ layer ∈ below, layer.Quiet) ∧
        (layers = below ∨ ∃ gate timeout buffer, layers = .scheduling gate timeout buffer :: below ∧
          ∀ g, w'.gates[gate]? = some g → g.Free) := by
  obtain ⟨-, -, hresult⟩ := Outcome.bind_ok assembled
  cases hresult
  refine ⟨rfl, _, c.quiet_layers, ?_⟩
  rw [List.append_nil]
  unfold layers
  rw [List.append_assoc, List.append_assoc, ← List.append_assoc (if c.liveQueries then _ else _)]
  cases c.scheduling with
  | true =>
    refine .inr ⟨_, _, _, rfl, fun g hg => ?_⟩
    rw [List.getElem?_append_right (Nat.le_refl _), Nat.sub_self] at hg
    cases hg
    exact .ofLimit _
  | false => exact .inl rfl

/-- The pipeline of a configuration replies as the store below it does. -/
theorem replies_assemble {answers : Handler.Answers} (store : Handler.ofStore.Mirrors answers)
    (assembled : w.assemble c [] hasRuntime = .ok (layers, w')) :
    (Handler.ofLayers layers).Replies answers w'.gates := by
  obtain ⟨-, below, hquiet, rfl | ⟨gate, timeout, buffer, rfl, hfree⟩⟩ := assemble_layers assembled
  · exact (Handler.mirrors_ofLayers store hquiet).replies _
  · exact (Handler.mirrors_ofLayers store hquiet).replies_scheduling hfree timeout buffer

end Config

namespace Shop

/-- A vendor. -/
def acme : Value := .ofFields [("id", .int 1), ("name", .text "Acme")]

/-- A caller who enters a vendor twice, looks at the vendors and clears the shop. -/
def vendorCalls : List Request :=
  [.insert vendor acme, .insert vendor acme, .query { entity := vendor },
    .snapshot { entity := vendor }, .dropAll]

/-- What the store alone replies. -/
def vendorReplies : List (Outcome Reply) :=
  [.ok (.value acme), .error (.duplicateKey "Vendor" "1"), .ok (.rows [acme]),
    .ok (.snapshot ⟨[acme], [("1", 1)]⟩), .ok .done]

end Shop

end LiveRecords

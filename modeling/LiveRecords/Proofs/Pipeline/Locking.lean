import LiveRecords.Proofs.Pipeline.Alone
import LiveRecords.Proofs.Pipeline.Clients
import LiveRecords.Proofs.Store.Reading

/-
  Optimistic locking loses no update.

  A client that has read a version of a key may ask for an update that expects this
  version. Such an update is carried out in one step, and only if the key still has
  the version it expects. Every commit that touches a key takes its version on, also
  a deletion and what is stored after it, so a version that has passed never comes
  back (`Commits.untouched_or_lt`). Hence, of any number of clients in any order of
  their steps: nothing was written to the key between the snapshot and an update that
  succeeds, no two updates that expect one version of a key both succeed, and an
  update that comes too late is refused and changes nothing (`Crowd.locks_of_empty`).

  No version exceeds the number of writes, see `Store.version_afterAll_le`.
-/

namespace LiveRecords

/-! ## Keys that are left alone -/

/-- Between two states of a store nothing was written to a key: it is held as it was, and
none of the events since is about it. -/
structure Store.Untouched (owners : Owners) (table key : String) (s s' : Store) : Prop where
  held : s'.ledger table key = s.ledger table key
  events : ∃ new, s'.journal.toList = s.journal.toList ++ new ∧
    StoreEvent.about owners table key new = []

/-- Commits leave a key alone, or they take its version on. -/
theorem Commits.untouched_or_lt {owners : Owners} {s s' : Store} (h : Commits owners s s')
    (wf : s.WellFormed owners) (table key : String) :
    s.Untouched owners table key s' ∨
      (s.ledger table key).version < (s'.ledger table key).version := by
  induction h with
  | refl => exact .inl ⟨rfl, [], (List.append_nil _).symm, rfl⟩
  | @tail b c hrun hlast ih =>
    obtain ⟨e, k, hlog⟩ := hlast.logged (Commits.wellFormed hrun wf)
    by_cases hc : e.table = table ∧ k = key
    · -- the last commit is about the key, whose version is now the next
      have hnext : (c.ledger table key).version = (b.ledger table key).version + 1 := by
        rw [hlog.ledger, if_pos hc, StoreEvent.version_leaves, hlog.version, hc.1, hc.2]
      refine .inr ?_
      rcases ih with hsame | hlt
      · rw [hnext, hsame.held]
        omega
      · omega
    · have hheld : c.ledger table key = b.ledger table key := by
        rw [hlog.ledger, if_neg hc]
      rcases ih with hsame | hlt
      · obtain ⟨hsince, new, hnew, habout⟩ := hsame
        have hother : e.concerns owners table key = false := by
          rw [StoreEvent.concerns_of_keyed hlog.keyed]
          exact decide_eq_false hc
        refine .inl ⟨hheld.trans hsince, new ++ [e], ?_, ?_⟩
        · rw [hlog.journal, Array.toList_push, hnew, List.append_assoc]
        · unfold StoreEvent.about at habout ⊢
          rw [List.filter_append, habout, List.filter_cons, hother]
          rfl
      · rw [hheld]
        exact .inr hlt

namespace Store

variable {owners : Owners} {s s' : Store} {type : EntityType} {entity : Value} {key : String}

/-- A snapshot reports the versions of the store. -/
theorem version_of_snapshot (wf : s.WellFormed owners) {q : Query} {run : Query.Compiled}
    {version : Nat} (h : (s.snapshot q run).versions.get? key = some version) :
    (s.ledger q.entity.name key).version = version := by
  have hversion := Table.getD_versions (wf.table q.entity.name) key
  have hget : (s.table q.entity.name).versions.get? key = some version := h
  rw [hget] at hversion
  exact hversion.symm

/-- An update that succeeds has found the version it expects, and leaves the next. -/
theorem version_of_update (wf : s.WellFormed owners) {version : Nat}
    (h : s.update type entity (some version) = .ok s')
    (keyed : type.keyTextOf? entity = some key) :
    (s.ledger type.name key).version = version ∧
      (s'.ledger type.name key).version = version + 1 := by
  obtain ⟨k, row, hk, hrow, hexpected, hreplace⟩ := update_ok h
  obtain rfl : k = key := Option.some.inj (hk.symm.trans keyed)
  obtain rfl : version = row.version := hexpected version rfl
  obtain ⟨_, rfl⟩ := replace_ok hreplace
  refine ⟨Table.version_held_of_row hrow, ?_⟩
  rw [ledger_store wf, if_pos ⟨rfl, rfl⟩]
  rfl

/-- An update that expects another version than the row has is refused. -/
theorem update_of_ne {row : Row} {version : Nat} (keyed : type.keyTextOf? entity = some key)
    (present : s.row? type key = some row) (ne : version ≠ row.version) :
    s.update type entity (some version) =
      .error (.concurrentModification type.name key version row.version) := by
  simp only [update, keyFor_eq keyed, bind, Except.bind, present]
  exact if_neg ne

end Store

/-! ## Updates that succeed -/

/-- A client's update of a key, which expects a version, has succeeded. -/
def Client.Won (table key : String) (version : Nat) (c : Client) : Prop :=
  ∃ type entity answer, c = ⟨.update type entity (some version), .done (.ok answer)⟩ ∧
    type.name = table ∧ type.keyTextOf? entity = some key

namespace Crowd

/-- Where an update that expects a version has succeeded, the version has passed; and only
one such update has succeeded. -/
structure Exclusive (table key : String) (version : Nat) (c : Crowd) : Prop where
  passed : ∀ {i : Nat} {a : Client}, c.clients[i]? = some a → a.Won table key version →
    version < (c.world.store.ledger table key).version
  once : ∀ {i j : Nat} {a b : Client}, c.clients[i]? = some a → c.clients[j]? = some b →
    a.Won table key version → b.Won table key version → i = j

variable {owners : Owners} {a b : Crowd} {table key : String} {version : Nat}

/-- Nobody has won on arrival. -/
theorem not_won_ofRequest (r : Request) : ¬(Client.ofRequest r).Won table key version := by
  intro hwon
  obtain ⟨type, entity, answer, heq, _, _⟩ := hwon
  cases r with
  | update type' entity' expected =>
    obtain ⟨⟨⟩, hdone⟩ := Client.mk.inj heq
    exact Backend.write_ne_done type entity (fun s => s.update type entity (some version)) answer
      (eq_of_heq hdone)
  | _ => cases (Client.mk.inj heq).1

/-- Whoever wins in a step has found the version that the update expects, and has taken it
on to the next. -/
theorem version_of_won {r : Request} {job job' : Job World (Outcome r.Answer)} {w w' : World}
    (sound : Client.Sound owners ⟨r, job⟩) (wf : w.store.WellFormed owners)
    (moves : Job.Moves job w job' w') (won : Client.Won table key version ⟨r, job'⟩) :
    (w.store.ledger table key).version = version ∧
      (w'.store.ledger table key).version = version + 1 := by
  obtain ⟨type, entity, answer, heq, rfl, hkey⟩ := won
  obtain ⟨rfl, hdone⟩ := Client.mk.inj heq
  obtain ⟨_, _, hanswered⟩ := sound.moves moves wf
  exact Store.version_of_update wf (hanswered _ (eq_of_heq hdone)) hkey

/-- Where nobody has won who had not won before, all is as it was. -/
theorem Exclusive.later (ha : a.Exclusive table key version)
    (le : (a.world.store.ledger table key).version ≤ (b.world.store.ledger table key).version)
    (old : ∀ {i : Nat} {c : Client}, b.clients[i]? = some c → c.Won table key version →
      a.clients[i]? = some c) : b.Exclusive table key version where
  passed hget hwon := Nat.lt_of_lt_of_le (ha.passed (old hget hwon) hwon) le
  once hi hj hwon hwon' := ha.once (old hi hwon) (old hj hwon') hwon hwon'

theorem Step.exclusive (h : Step owners a b) (sound : a.Sound owners)
    (ha : a.Exclusive table key version) : b.Exclusive table key version := by
  have hle : (a.world.store.ledger table key).version ≤ (b.world.store.ledger table key).version := by
    rcases (h.sound sound).1.untouched_or_lt sound.wellFormed table key with hsame | hlt
    · exact Nat.le_of_eq (congrArg Held.version hsame.held).symm
    · exact Nat.le_of_lt hlt
  cases h with
  | @comes w clients r owned =>
    refine ha.later hle fun {i c} hget hwon => ?_
    -- whoever has won was there before
    by_cases hi : i < clients.length
    · rwa [List.getElem?_append_left hi] at hget
    · rw [List.getElem?_append_right (Nat.le_of_not_lt hi)] at hget
      obtain rfl := List.mem_singleton.1 (List.mem_of_getElem? hget)
      exact absurd hwon (not_won_ofRequest r)
  | elsewhere store => exact ha.later hle fun hget _ => hget
  | @goes w w' clients i r job job' here moves =>
    have hclient := sound.clients _ (List.mem_of_getElem? here)
    -- where a client stands after the step: it is the one that went, or it stands as before
    have hset : ∀ {j : Nat} {c : Client}, (clients.set i ⟨r, job'⟩)[j]? = some c →
        (j = i ∧ c = ⟨r, job'⟩) ∨ (j ≠ i ∧ clients[j]? = some c) := by
      intro j c hget
      rw [List.getElem?_set] at hget
      split at hget
      · next heq =>
        split at hget
        · exact .inl ⟨heq.symm, (Option.some.inj hget).symm⟩
        · cases hget
      · next hne => exact .inr ⟨Ne.symm hne, hget⟩
    by_cases hnew : Client.Won table key version ⟨r, job'⟩
    · obtain ⟨hfound, hleft⟩ : (w.store.ledger table key).version = version ∧
          (w'.store.ledger table key).version = version + 1 :=
        version_of_won hclient sound.wellFormed moves hnew
      -- nobody else can have won: the version had not passed before this step
      have honly : ∀ {j : Nat} {c : Client}, (clients.set i ⟨r, job'⟩)[j]? = some c →
          c.Won table key version → j = i := by
        intro j c hget hwon
        rcases hset hget with ⟨heq, _⟩ | ⟨_, hold⟩
        · exact heq
        · have hpassed : version < (w.store.ledger table key).version := ha.passed hold hwon
          omega
      constructor
      · intro _ _ _ _
        show version < (w'.store.ledger table key).version
        omega
      · exact fun hi hj hwon hwon' => (honly hi hwon).trans (honly hj hwon').symm
    · refine ha.later hle fun hget hwon => ?_
      rcases hset hget with ⟨_, rfl⟩ | ⟨_, hold⟩
      · exact absurd hwon hnew
      · exact hold

theorem Runs.exclusive (h : Runs owners a b) (sound : a.Sound owners)
    (ha : a.Exclusive table key version) : b.Exclusive table key version := by
  induction h with
  | refl => exact ha
  | tail hrun hlast ih => exact hlast.exclusive (Runs.sound hrun sound).2 ih

/-! ## What optimistic locking promises -/

/-- What optimistic locking promises to the clients that come to a store. -/
structure Locks (owners : Owners) (start : Crowd) : Prop where
  /-- Nothing is written to a key between a snapshot that reports its version and an
  update that expects this version and succeeds. -/
  undisturbed : ∀ {a a' b b' : Crowd} {q : Query} {s : Snapshot} {type : EntityType}
    {entity answer : Value} {key : String} {version : Nat},
    Runs owners start a → Answers (.snapshot q) (.ok s) a a' →
    s.versions.get? key = some version → Runs owners a' b →
    Answers (.update type entity (some version)) (.ok answer) b b' →
    type.name = q.entity.name → type.keyTextOf? entity = some key →
    a'.world.store.Untouched owners type.name key b.world.store
  /-- Of any updates of a key that expect one version at most one succeeds. -/
  once : ∀ {c : Crowd} {i j : Nat} {a b : Client} {table key : String} {version : Nat},
    Runs owners start c → c.clients[i]? = some a → c.clients[j]? = some b →
    a.Won table key version → b.Won table key version → i = j
  /-- An update of a row that expects another version than the row has is refused and
  changes nothing, whatever else goes on; if it was not refused before, since the table
  could not be got ready, it is refused for its version. -/
  refused : ∀ {a b : Crowd} {type : EntityType} {entity : Value} {version : Nat} {key : String}
    {row : Row} {answer : Outcome Value},
    Runs owners start a → type.keyTextOf? entity = some key →
    a.world.store.row? type key = some row → version ≠ row.version →
    Answers (.update type entity (some version)) answer a b →
    b.world.store = a.world.store ∧
      (answer = .error (.concurrentModification type.name key version row.version) ∨
        ∃ cause, answer = .error (.inContext (Backend.declaring type) cause))
  /-- Where nothing has to be got ready, such an update comes to its end by itself. -/
  answered : ∀ {a : Crowd} {type : EntityType} {entity : Value} {version : Nat} {key : String}
    {row : Row}, Runs owners start a → type.keyTextOf? entity = some key →
    a.world.store.row? type key = some row → version ≠ row.version →
    a.world.Quiet →
    (Handler.ofStore (.update type entity (some version))).run.alone a.world =
      some (.error (.concurrentModification type.name key version row.version), a.world)

theorem Sound.undisturbed {a' b' : Crowd} {q : Query} {s : Snapshot} {type : EntityType}
    {entity answer : Value} (ha : a.Sound owners) (read : Answers (.snapshot q) (.ok s) a a')
    (reported : s.versions.get? key = some version) (between : Runs owners a' b)
    (won : Answers (.update type entity (some version)) (.ok answer) b b')
    (name : type.name = q.entity.name) (keyed : type.keyTextOf? entity = some key) :
    a'.world.store.Untouched owners type.name key b.world.store := by
  have ha' : a'.Sound owners := (read.step.sound ha).2
  obtain ⟨hcommits, hb⟩ := between.sound ha'
  obtain ⟨hsame, hshown⟩ : Backend.Shown q a.world a'.world (.ok s) := read.answered ha
  obtain ⟨run, _, rfl⟩ := hshown s rfl
  -- the version is the same at both ends
  have hstart : (a'.world.store.ledger type.name key).version = version := by
    rw [hsame, name]
    exact Store.version_of_snapshot ha.wellFormed reported
  have hend : (b.world.store.ledger type.name key).version = version :=
    (Store.version_of_update hb.wellFormed (won.answered hb) keyed).1
  rcases hcommits.untouched_or_lt ha'.wellFormed type.name key with huntouched | hlt
  · exact huntouched
  · omega

theorem Sound.refused {type : EntityType} {entity : Value} {row : Row} {answer : Outcome Value}
    (ha : a.Sound owners) (keyed : type.keyTextOf? entity = some key)
    (present : a.world.store.row? type key = some row) (ne : version ≠ row.version)
    (answers : Answers (.update type entity (some version)) answer a b) :
    b.world.store = a.world.store ∧
      (answer = .error (.concurrentModification type.name key version row.version) ∨
        ∃ cause, answer = .error (.inContext (Backend.declaring type) cause)) := by
  have hrefused := Store.update_of_ne keyed present ne
  have hchanged : Backend.Changed type (fun s => s.update type entity (some version)) a.world
      b.world answer := answers.answered ha
  cases answer with
  | ok v =>
    have hdone : a.world.store.update type entity (some version) = .ok b.world.store := hchanged
    rw [hrefused] at hdone
    cases hdone
  | error e =>
    obtain ⟨hsame, hwhy⟩ := hchanged
    refine ⟨hsame, ?_⟩
    rcases hwhy with hstore | ⟨cause, rfl⟩
    · have herror : a.world.store.update type entity (some version) = .error e := hstore
      rw [hrefused] at herror
      cases herror
      exact .inl rfl
    · exact .inr ⟨cause, rfl⟩

/-- Whatever clients come to a store in which nothing was stored yet, and in whatever order
the work on their requests goes on: no update is lost. -/
theorem locks_of_empty (owners : Owners) {w : World} (empty : w.store = {}) :
    Locks owners ⟨w, []⟩ where
  undisturbed runs read reported between won name keyed :=
    (Runs.sound runs (.empty owners empty)).2.undisturbed read reported between won name keyed
  once runs hi hj hwon hwon' :=
    (Runs.exclusive runs (.empty owners empty) ⟨nofun, nofun⟩).once hi hj hwon hwon'
  refused runs keyed present ne answers :=
    (Runs.sound runs (.empty owners empty)).2.refused keyed present ne answers
  answered {a type entity version key row} _ keyed present ne quiet := by
    obtain ⟨k, hk, _⟩ := Option.map_eq_some_iff.1 keyed
    have halone := Backend.alone_write hk (fun s => s.update type entity (some version)) quiet
    rw [Store.update_of_ne keyed present ne] at halone
    exact halone

/-! ## A run -/

/-- Who is next: a client comes, or a client that is there goes on. -/
inductive Turn where
  | comes (r : Request)
  | goes (i : Nat)

/-- The crowd after a turn; a client that cannot go on stays as it is. -/
def turn (c : Crowd) : Turn → Crowd
  | .comes r => ⟨c.world, c.clients ++ [.ofRequest r]⟩
  | .goes i =>
    match c.clients[i]? with
    | some ⟨r, .step change next⟩ =>
      ⟨change c.world, c.clients.set i ⟨r, next c.world⟩⟩
    | some ⟨r, .wait wait next⟩ =>
      if wait.ready c.world then ⟨c.world, c.clients.set i ⟨r, next⟩⟩ else c
    | _ => c

theorem runs_turn {t : Turn} (owned : ∀ r, t = .comes r → r.OwnedBy owners) (c : Crowd) :
    Runs owners c (c.turn t) := by
  cases t with
  | comes r => exact .single (.comes r (owned r rfl))
  | goes i =>
    unfold turn
    dsimp only
    split
    · next r change next here => exact .single (.goes here .step)
    · next r wait next here =>
      split
      · next hready => exact .single (.goes here (.wait hready))
      · exact .refl
    · exact .refl

theorem runs_turns {turns : List Turn} (owned : ∀ r, .comes r ∈ turns → r.OwnedBy owners)
    (c : Crowd) : Runs owners c (turns.foldl turn c) := by
  induction turns generalizing c with
  | nil => exact .refl
  | cons t rest ih =>
    have hfirst : Runs owners c (c.turn t) :=
      runs_turn (fun r heq => owned r (heq ▸ List.mem_cons_self)) c
    exact hfirst.trans (ih (fun r hin => owned r (List.mem_cons_of_mem _ hin)) (c.turn t))

end Crowd

/-- The failure that a client was answered with. -/
def Client.failure? (c : Client) : Option Failure :=
  match c.rest with
  | .done (.error e) => some e
  | _ => none

namespace Shop

/-- A product under the key of all these requests. -/
def named (name : String) : Value := .object [("key", .text "p"), ("name", .text name)]

/-- The product is stored. One client reads a snapshot, then two change what they have read,
step by step in turns. The product is deleted and stored anew, and a third comes with a
change of what was read at first. -/
def rush : List Crowd.Turn :=
  [.comes (.insert product (named "lamp")), .goes 0, .goes 0, .goes 0,
   .comes (.snapshot { entity := product }), .goes 1, .goes 1, .goes 1,
   .comes (.update product (named "desk") (some 1)), .goes 2,
   .comes (.update product (named "chair") (some 1)), .goes 3, .goes 2, .goes 3, .goes 3, .goes 2,
   .comes (.delete product (.text "p")), .goes 4, .goes 4, .goes 4,
   .comes (.insert product (named "lamp")), .goes 5, .goes 5, .goes 5,
   .comes (.update product (named "bed") (some 1)), .goes 6, .goes 6, .goes 6]

/-- The crowd after the rush. -/
def rushed : Crowd := rush.foldl Crowd.turn ⟨{ catalog }, []⟩

theorem rush_locks :
    Crowd.Locks owners ⟨{ catalog }, []⟩ ∧
      rushed.clients.map Client.failure? = [none, none,
        some (.concurrentModification "Product" "p" 1 2), none, none, none,
        some (.concurrentModification "Product" "p" 1 4)] ∧
      ∀ i c, rushed.clients[i]? = some c → c.Won "Product" "p" 1 → i = 3 := by
  have locks : Crowd.Locks owners ⟨{ catalog }, []⟩ := Crowd.locks_of_empty owners rfl
  have owned : ∀ r, .comes r ∈ rush → r.OwnedBy owners := by
    intro r hin
    simp only [rush, List.mem_cons, Crowd.Turn.comes.injEq, reduceCtorEq, List.not_mem_nil,
      false_or, or_false] at hin
    rcases hin with rfl | rfl | rfl | rfl | rfl | rfl | rfl
    all_goals first | rfl | trivial
  refine ⟨locks, by rfl, fun i c hget hwon => ?_⟩
  exact locks.once (Crowd.runs_turns owned _) hget (by rfl) hwon
    ⟨product, named "chair", named "chair", by rfl, rfl, rfl⟩

end Shop

end LiveRecords

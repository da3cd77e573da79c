import LiveRecords.Change.Notification
import LiveRecords.Proofs.Entries

/-
  Notifications in documents.

  The document of a notification tells it from every other one (`encode_injective`): a value
  that is null is a field that is null, and a value that is absent has no field. But a field
  that is null reads as absent. So reading the document back loses the values that are null
  and nothing else (`decode_encode`), and a notification comes back exactly if it has no such
  value (`comes_back_iff`). A live query over a projection to one property sends values that
  are null.
-/

namespace LiveRecords

namespace Notification

/-! ## Fields -/

/-- A field that is left out when absent is found where it is there, and hides no other. -/
theorem get?_append_fieldOf (name field : String) (pairs : List (String × Value))
    (value : Option Value) :
    Keyed.get? name (Keyed.ofList (pairs ++ fieldOf field value)) =
      if name = field then value.or (Keyed.get? name (Keyed.ofList pairs))
      else Keyed.get? name (Keyed.ofList pairs) := by
  cases value with
  | none => simp [fieldOf]
  | some v => simp [fieldOf, Keyed.ofList, Keyed.get?_put]

/-- The fields of a notification by name. -/
def field (n : Notification Value) (name : String) : Option Value :=
  if name = "version" then n.version.map fun v : Nat => .int v
  else if name = "newValue" then n.newValue
  else if name = "oldValue" then n.oldValue
  else if name = "kind" then some (.text n.kind.word)
  else none

/-- The document of a notification has its fields. -/
theorem record_encode (n : Notification Value) (names : List String) :
    Decode.record names n.encode = .ok n.field := by
  refine congrArg Except.ok (funext fun name => ?_)
  have hkind : Keyed.get? name (Keyed.ofList [("kind", Value.text n.kind.word)]) =
      if name = "kind" then some (.text n.kind.word) else none := Keyed.get?_put ..
  rw [← List.singleton_append, get?_append_fieldOf, get?_append_fieldOf, get?_append_fieldOf, hkind]
  unfold field
  by_cases hversion : name = "version"
  · subst hversion
    cases n.version <;> simp
  · by_cases hnew : name = "newValue"
    · subst hnew
      simp
    · by_cases hold : name = "oldValue"
      · subst hold
        simp
      · simp [hversion, hnew, hold]

theorem word_injective {k l : ChangeKind} (h : k.word = l.word) : k = l := by
  cases k <;> cases l <;> first | rfl | exact absurd h (by decide)

/-- Different notifications have different documents. -/
theorem encode_injective {m n : Notification Value} (h : m.encode = n.encode) : m = n := by
  have hfield : m.field = n.field :=
    Except.ok.inj ((record_encode m []).symm.trans ((congrArg (Decode.record []) h).trans
      (record_encode n [])))
  have hkind : some (Value.text m.kind.word) = some (.text n.kind.word) :=
    congrFun hfield "kind"
  have hold : m.oldValue = n.oldValue := congrFun hfield "oldValue"
  have hnew : m.newValue = n.newValue := congrFun hfield "newValue"
  have hversion : m.version.map (fun v : Nat => Value.int v) =
      n.version.map (fun v : Nat => Value.int v) := congrFun hfield "version"
  have hint : Function.Injective fun v : Nat => Value.int v := fun v w hvw =>
    Int.ofNat.inj (Value.int.inj hvw)
  cases m
  cases n
  simp only [Option.some.injEq, Value.text.injEq] at hkind
  cases word_injective hkind
  cases hold
  cases hnew
  cases Option.map_injective hint hversion
  rfl

/-! ## Reading back -/

/-- The notification without the values that are null. -/
def withoutNulls (n : Notification Value) : Notification Value :=
  { n with oldValue := n.oldValue.filter (!·.isNull), newValue := n.newValue.filter (!·.isNull) }

/-- The version is an integer without sign of 64 bits. -/
def Versioned (n : Notification Value) : Prop := ∀ v, n.version = some v → v < 18446744073709551616

variable {n : Notification Value}

theorem optional_ok (value : Option Value) :
    Decode.optional .ok value = .ok (value.filter (!·.isNull)) := by
  cases value with
  | none => rfl
  | some v => cases v <;> rfl

theorem optional_version (h : n.Versioned) :
    Decode.optional Decode.unsigned64 (n.version.map fun v : Nat => .int v) = .ok n.version := by
  cases hversion : n.version with
  | none => rfl
  | some v =>
    have hv := h v hversion
    have hin : 0 ≤ (v : Int) ∧ (v : Int) < 18446744073709551616 := by omega
    have hread : Decode.unsigned64 (.int v) = .ok v := by
      simp only [Decode.unsigned64, if_pos hin, Int.toNat_natCast]
    show (Decode.unsigned64 (.int v)).map some = .ok (some v)
    rw [hread]
    rfl

theorem decode_word (k : ChangeKind) : ChangeKind.decode (.text k.word) = .ok k := by
  cases k <;> rfl

/-- What is read back from the document of a notification lacks the values that are null. -/
theorem decode_encode (h : n.Versioned) : decode n.encode = .ok n.withoutNulls := by
  have hkind : n.field "kind" = some (.text n.kind.word) := rfl
  have hold : n.field "oldValue" = n.oldValue := rfl
  have hnew : n.field "newValue" = n.newValue := rfl
  have hversion : n.field "version" = n.version.map fun v : Nat => .int v := rfl
  have hrequired : Decode.required ChangeKind.decode (some (.text n.kind.word)) = .ok n.kind :=
    decode_word n.kind
  unfold decode
  rw [record_encode]
  show (do
    let kind ← Decode.required ChangeKind.decode (n.field "kind")
    let old ← Decode.optional .ok (n.field "oldValue")
    let new ← Decode.optional .ok (n.field "newValue")
    let version ← Decode.optional Decode.unsigned64 (n.field "version")
    return { kind, oldValue := old, newValue := new, version }) = Except.ok n.withoutNulls
  rw [hkind, hold, hnew, hversion, hrequired, optional_ok, optional_ok, optional_version h]
  rfl

theorem filter_eq_self_iff (value : Option Value) :
    value.filter (!·.isNull) = value ↔ value ≠ some .null := by
  cases value with
  | none => exact ⟨fun _ => nofun, fun _ => rfl⟩
  | some v =>
    cases v with
    | null => exact ⟨nofun, fun h => absurd rfl h⟩
    | _ => exact ⟨fun _ => nofun, fun _ => rfl⟩

theorem withoutNulls_eq_self_iff :
    n.withoutNulls = n ↔ n.oldValue ≠ some .null ∧ n.newValue ≠ some .null := by
  rw [← filter_eq_self_iff, ← filter_eq_self_iff]
  constructor
  · intro h
    exact ⟨congrArg oldValue h, congrArg newValue h⟩
  · rintro ⟨hold, hnew⟩
    unfold withoutNulls
    rw [hold, hnew]

/-- The document of a notification is read back as the same notification without the values
that are null. So the same notification comes back exactly if neither value is null. -/
theorem comes_back_iff (n : Notification Value) (h : n.Versioned) :
    decode n.encode = .ok n.withoutNulls ∧
      (decode n.encode = .ok n ↔ n.oldValue ≠ some .null ∧ n.newValue ≠ some .null) := by
  refine ⟨decode_encode h, ?_⟩
  rw [decode_encode h, Except.ok.injEq]
  exact withoutNulls_eq_self_iff

/-- A change of a text, with the greatest version. -/
def rewording : Notification Value :=
  (update (.text "a") (.text "b")).withVersion (some 18446744073709551615)

/-- It comes back. -/
theorem rewording_comes_back : decode rewording.encode = .ok rewording := by
  have hversion : rewording.Versioned := by
    intro v hv
    cases hv
    decide
  exact (comes_back_iff rewording hversion).2.2 ⟨nofun, nofun⟩

/-- An update from null does not come back: its old value is lost. -/
theorem null_lost :
    decode (update .null (.object [("id", .int 1)])).encode =
        .ok { kind := .update, newValue := some (.object [("id", .int 1)]) } ∧
      decode (update .null (.object [("id", .int 1)])).encode ≠
        .ok (update .null (.object [("id", .int 1)])) := by
  have hread : decode (update .null (.object [("id", .int 1)])).encode =
      .ok { kind := .update, newValue := some (.object [("id", .int 1)]) } := rfl
  refine ⟨hread, fun h => ?_⟩
  have hold := congrArg oldValue (Except.ok.inj (hread.symm.trans h))
  cases hold

/-! ## Reading twice -/

theorem lt_of_optional {value : Option Value} {version : Option Nat}
    (h : Decode.optional Decode.unsigned64 value = .ok version) (v : Nat)
    (hv : version = some v) : v < 18446744073709551616 := by
  subst hv
  unfold Decode.optional at h
  split at h
  · cases h
  · cases h
  · next w =>
    unfold Decode.unsigned64 at h
    split at h
    · next k =>
      split at h
      · next hin =>
        cases h
        omega
      · cases h
    · cases h

/-- What was read from any document comes back from its own. -/
theorem decode_encode_of_decode {d : Value} (h : decode d = .ok n) : decode n.encode = .ok n := by
  unfold decode at h
  obtain ⟨field, -, h⟩ := Outcome.bind_ok h
  obtain ⟨kind, -, h⟩ := Outcome.bind_ok h
  obtain ⟨old, hold, h⟩ := Outcome.bind_ok h
  obtain ⟨new, hnew, h⟩ := Outcome.bind_ok h
  obtain ⟨version, hversion, h⟩ := Outcome.bind_ok h
  cases h
  have hnull {value : Option Value} {v : Option Value}
      (hv : Decode.optional .ok value = .ok v) : v ≠ some .null := by
    rw [optional_ok, Except.ok.injEq] at hv
    rw [← filter_eq_self_iff, ← hv, Option.filter_filter]
    simp
  rw [decode_encode (lt_of_optional hversion)]
  exact congrArg Except.ok (withoutNulls_eq_self_iff.2 ⟨hnull hold, hnull hnew⟩)

end Notification

end LiveRecords

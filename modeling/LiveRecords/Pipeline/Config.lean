import LiveRecords.Document.Decode
import LiveRecords.Document.Reader

/-
  Configuration of a repository: which layers its pipeline has and how they are
  bounded.

  A configuration is read from text. A field that is missing has its default; a
  field that is written twice is refused, and so is one of the wrong kind.
-/

namespace LiveRecords

/-- The configuration of a repository. -/
structure Config where
  maxConcurrentRequests : Nat := 100
  admissionTimeoutMs : Option Nat := some 30000
  livePollIntervalMs : Nat := 1000
  changeFeedCapacity : Nat := 1024
  streamBuffer : Nat := 64
  scheduling : Bool := true
  liveQueries : Bool := true
  mandatoryProperties : Bool := true
  updateReferencesFirst : Bool := true
  deriving DecidableEq, Repr, Inhabited

namespace Config

/-- The names of the fields, in the order in which a list gives them. -/
def fieldNames : List String :=
  ["max_concurrent_requests", "admission_timeout_ms", "live_poll_interval_ms",
   "change_feed_capacity", "stream_buffer", "scheduling", "live_queries",
   "mandatory_properties", "update_references_first"]

/-- The document of a configuration. -/
def encode (c : Config) : Value :=
  .ofFields [("max_concurrent_requests", .int c.maxConcurrentRequests),
    ("admission_timeout_ms", (c.admissionTimeoutMs.map fun n => Value.int n).getD .null),
    ("live_poll_interval_ms", .int c.livePollIntervalMs),
    ("change_feed_capacity", .int c.changeFeedCapacity),
    ("stream_buffer", .int c.streamBuffer), ("scheduling", .bool c.scheduling),
    ("live_queries", .bool c.liveQueries),
    ("mandatory_properties", .bool c.mandatoryProperties),
    ("update_references_first", .bool c.updateReferencesFirst)]

/-- The greatest number of requests that may run at once. -/
def maxSupportedConcurrency : Nat := 65536

/-- Why a configuration cannot be used, if there is a reason. -/
def problem? (c : Config) : Option String :=
  if c.maxConcurrentRequests = 0 then some "max_concurrent_requests must be greater than 0"
  else if maxSupportedConcurrency < c.maxConcurrentRequests then
    some s!"max_concurrent_requests cannot exceed {maxSupportedConcurrency}"
  else if c.admissionTimeoutMs = some 0 then
    some "admission_timeout_ms must be greater than 0 when set"
  else if c.livePollIntervalMs = 0 then some "live_poll_interval_ms must be greater than 0"
  else if c.changeFeedCapacity = 0 then some "change_feed_capacity must be greater than 0"
  else if c.streamBuffer = 0 then some "stream_buffer must be greater than 0"
  else none

/-- Refuses a configuration that cannot be used. -/
def validate (c : Config) : Outcome Unit :=
  match c.problem? with
  | some what => .error (.configuration what)
  | none => .ok ()

/-- How long a request may wait to be admitted; without limit if none. -/
def admissionTimeout (c : Config) : Option Duration :=
  c.admissionTimeoutMs.map .ofMilliseconds

/-- The time between two polls of a live query. -/
def pollInterval (c : Config) : Duration := .ofMilliseconds c.livePollIntervalMs

/-! ## Reading -/

/-- The configuration with one field set from a value. -/
def setField (c : Config) (name : String) (v : Value) : Outcome Config :=
  match name with
  | "max_concurrent_requests" => do
    return { c with maxConcurrentRequests := ← Decode.unsigned64 v }
  | "admission_timeout_ms" => do
    return { c with admissionTimeoutMs := ← Decode.optional Decode.unsigned64 (some v) }
  | "live_poll_interval_ms" => do return { c with livePollIntervalMs := ← Decode.unsigned64 v }
  | "change_feed_capacity" => do return { c with changeFeedCapacity := ← Decode.unsigned64 v }
  | "stream_buffer" => do return { c with streamBuffer := ← Decode.unsigned64 v }
  | "scheduling" => do return { c with scheduling := ← Decode.bool v }
  | "live_queries" => do return { c with liveQueries := ← Decode.bool v }
  | "mandatory_properties" => do return { c with mandatoryProperties := ← Decode.bool v }
  | "update_references_first" => do return { c with updateReferencesFirst := ← Decode.bool v }
  | _ => .ok c

/-- Sets fields one after another; `seen` are the names set before. Fields that a
configuration does not know are passed over unread. -/
def setFields (c : Config) (seen : List String) : List (String × Written) → Outcome Config
  | [] => .ok c
  | (name, w) :: rest =>
    if !fieldNames.contains name then setFields c seen rest
    else if seen.contains name then .error .serialization
    else
      match w.toValue? with
      | none => .error .serialization
      | some v => do
        let c ← c.setField name v
        setFields c (name :: seen) rest

/-- The configuration that a written document gives. -/
def ofWritten : Written → Outcome Config
  | .object fields => setFields {} [] fields
  | .list items =>
    if items.length ≤ fieldNames.length then setFields {} [] (fieldNames.zip items)
    else .error .serialization
  | _ => .error .serialization

/-- The configuration that a text gives, if it can be used. -/
def ofText (text : String) : Outcome Config :=
  match Written.read? text with
  | none => .error .serialization
  | some w => do
    let c ← ofWritten w
    c.validate
    return c

/-- The configuration with some fields set, one after another. -/
def withFields (fields : List (String × Value)) : Outcome Config :=
  fields.foldlM (fun c (name, v) => c.setField name v) {}

/-- The configuration with the fields that a document sets. -/
def ofValue : Value → Outcome Config
  | .object fields => withFields fields
  | .list items =>
    if items.length ≤ fieldNames.length then withFields (fieldNames.zip items)
    else .error .serialization
  | _ => .error .serialization

end Config

end LiveRecords

import HttpCatch.Library.GoString

/-!
# Records

`internal/capture/record.go`: the three kinds of record that flow through the capture
queue, the redactor and the sinks, and what a reader of any of them may ask for.

An instant (`time.Time`) is its distance from the Unix epoch in nanoseconds, an
unbounded integer; `unixNano` is the 64-bit number Go computes from it, which wraps
around outside the years 1678 to 2262. A slice whose nil value can be told from the
empty one is an `Option`, and so is a map.
-/

namespace HttpCatch.Capture

open HttpCatch.Go

/-- The zero value of `time.Time`: the first of January of the year 1. -/
def zeroTime : ℤ := -62135596800 * 10 ^ 9

/-- `t.UnixNano()`, in 64-bit two's complement. -/
def unixNano (t : ℤ) : ℤ := t.bmod (2 ^ 64)

/-- The instants an `int64` of nanoseconds can name. -/
def Representable (t : ℤ) : Prop := -2 ^ 63 ≤ t ∧ t < 2 ^ 63

instance (t : ℤ) : Decidable (Representable t) := inferInstanceAs (Decidable (_ ∧ _))

theorem unixNano_of_representable {t : ℤ} (h : Representable t) : unixNano t = t := by
  obtain ⟨h₁, h₂⟩ := h
  exact Int.bmod_eq_of_le_mul_two (by push_cast; omega) (by push_cast; omega)

theorem unixNano_representable (t : ℤ) : Representable (unixNano t) := by
  have h₁ := Int.le_bmod (x := t) (m := 2 ^ 64) (by decide)
  have h₂ := Int.bmod_lt (x := t) (m := 2 ^ 64) (by decide)
  rw [unixNano, Representable]
  push_cast at h₁ h₂ ⊢
  constructor <;> omega

/-- A non-nil `map[string][]string`: its entries in some order, no key twice. -/
structure StringMap where
  /-- The entries; `none` is a nil slice. -/
  entries : List (GoString × Option (List GoString))
  /-- No key occurs twice. -/
  nodup : (entries.map Prod.fst).Nodup
  deriving DecidableEq

/-- The empty map. -/
def StringMap.empty : StringMap := ⟨[], List.nodup_nil⟩

/-- A `map[string][]string`; `none` is the nil map. -/
abbrev Headers := Option StringMap

/-- The entries of a map; a nil map has none. -/
def Headers.entries (h : Headers) : List (GoString × Option (List GoString)) :=
  match h with
  | none => []
  | some m => m.entries

/-- `vs, ok := h[name]`: `none` when not ok. -/
def Headers.get? (h : Headers) (name : GoString) : Option (Option (List GoString)) :=
  h.entries.lookup name

/-- The values under a name; none when the name is absent. -/
def Headers.values (h : Headers) (name : GoString) : List GoString :=
  ((h.get? name).getD none).getD []

/-- Keys are distinct, so an entry is what is found under its key. -/
theorem lookup_of_mem {m : StringMap} {kv : GoString × Option (List GoString)}
    (h : kv ∈ m.entries) :
    m.entries.lookup kv.1 = some kv.2 := by
  obtain ⟨entries, hnd⟩ := m
  simp only at h ⊢
  induction entries with
  | nil => cases h
  | cons kv' entries ih =>
    rw [List.map_cons, List.nodup_cons] at hnd
    rcases List.mem_cons.mp h with rfl | hmem
    · simp [List.lookup]
    · have hne : kv.1 ≠ kv'.1 := fun heq => hnd.1 (heq ▸ List.mem_map_of_mem hmem)
      have hbeq : (kv.1 == kv'.1) = false := by simpa using hne
      obtain ⟨k', v'⟩ := kv'
      simp only [List.lookup, hbeq]
      exact ih hnd.2 hmem

/-- The names with each of their values, in the order of two nested loops over the map. -/
def Headers.pairs (h : Headers) : List (GoString × GoString) :=
  h.entries.flatMap fun kv => (kv.2.getD []).map fun v => (kv.1, v)

/-- A name and a value of the `Cookie` header. -/
structure Cookie where
  /-- The name. -/
  name : GoString
  /-- The value. -/
  value : GoString
  deriving DecidableEq

/-- `CapturedRequest`: a request received on the capture port. -/
structure CapturedRequest where
  id : GoString
  timestamp : ℤ
  method : GoString
  path : GoString
  query : Headers
  headers : Headers
  /-- `none` is the nil slice. -/
  cookies : Option (List Cookie)
  /-- `none` is the nil slice. -/
  body : Option GoString
  bodyTruncated : Bool
  bodyOriginalSize : ℤ
  contentType : GoString
  sourceIP : GoString
  service : GoString
  serviceSource : GoString
  correlationID : GoString
  correlationSource : GoString
  deriving DecidableEq

/-- `ResponseEvent`: the response an application returned, posted to the Events API. -/
structure ResponseEvent where
  id : GoString
  timestamp : ℤ
  correlationID : GoString
  correlationSource : GoString
  service : GoString
  serviceSource : GoString
  status : ℤ
  headers : Headers
  /-- `none` is the nil slice. -/
  body : Option GoString
  bodyTruncated : Bool
  bodyOriginalSize : ℤ
  contentType : GoString
  durationMS : ℤ
  deriving DecidableEq

/-- `OutboundRequestHalf`: the request side of an outbound call. -/
structure OutboundRequestHalf where
  method : GoString
  path : GoString
  headers : Headers
  /-- `none` is the nil slice. -/
  body : Option GoString
  bodyTruncated : Bool
  bodyOriginalSize : ℤ
  contentType : GoString
  deriving DecidableEq

/-- `OutboundResponseHalf`: the response side of an outbound call. -/
structure OutboundResponseHalf where
  status : ℤ
  headers : Headers
  /-- `none` is the nil slice. -/
  body : Option GoString
  bodyTruncated : Bool
  bodyOriginalSize : ℤ
  contentType : GoString
  deriving DecidableEq

/-- `OutboundEvent`: a downstream call the application made; `response` is `none` when the
call never completed. -/
structure OutboundEvent where
  id : GoString
  timestamp : ℤ
  correlationID : GoString
  correlationSource : GoString
  service : GoString
  serviceSource : GoString
  durationMS : ℤ
  request : OutboundRequestHalf
  response : Option OutboundResponseHalf
  deriving DecidableEq

/-- `Record`: the sum of the three. -/
inductive Record where
  /-- A captured request. -/
  | request (r : CapturedRequest)
  /-- A response event. -/
  | response (e : ResponseEvent)
  /-- An outbound event. -/
  | outbound (e : OutboundEvent)
  deriving DecidableEq

namespace Record

/-- `RecordID`. -/
def id : Record → GoString
  | .request r => r.id
  | .response e => e.id
  | .outbound e => e.id

/-- `RecordTimestamp`. -/
def timestamp : Record → ℤ
  | .request r => r.timestamp
  | .response e => e.timestamp
  | .outbound e => e.timestamp

/-- `RecordCorrelationID`. -/
def correlationID : Record → GoString
  | .request r => r.correlationID
  | .response e => e.correlationID
  | .outbound e => e.correlationID

/-- `RecordService`. -/
def service : Record → GoString
  | .request r => r.service
  | .response e => e.service
  | .outbound e => e.service

/-- The record is a captured request. -/
def isRequest : Record → Bool
  | .request _ => true
  | _ => false

end Record

/-- A request with an id, an instant and a correlation id, and otherwise empty. -/
def CapturedRequest.blank (id : GoString) (timestamp : ℤ) (correlationID : GoString) :
    CapturedRequest :=
  ⟨id, timestamp, [], [], none, none, none, some [], false, 0, [], [], [], [], correlationID, []⟩

/-- A response with an id, an instant and a correlation id, and otherwise empty. -/
def ResponseEvent.blank (id : GoString) (timestamp : ℤ) (correlationID : GoString) :
    ResponseEvent :=
  ⟨id, timestamp, correlationID, [], [], [], 200, none, none, false, 0, [], 0⟩

/-- `HostHeader`. -/
def hostHeader : GoString := str "Host"

end HttpCatch.Capture

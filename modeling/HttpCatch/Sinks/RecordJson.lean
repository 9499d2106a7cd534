import HttpCatch.Library.JsonValue
import HttpCatch.Library.Rfc3339
import HttpCatch.Sinks.SQLiteDetail

/-!
# Records as JSON

`internal/sinks/stdout.go`: the envelopes, one flat JSON object for each kind of record. Header
and query maps and cookies are written as in the columns of the SQLite sink (`text_mapValue`,
`text_cookiesValue`); a body is written as a string. The timestamp is written by
`time.Time.MarshalJSON`, in the zone that the `time.Time` carries: UTC for a captured request, the
offset that the poster wrote for an event. The zone is no part of `Record`, so it is given with the
record, in minutes east of UTC. `MarshalJSON` fails where the year does not have four digits.

`readRecord` reads an envelope by its keys, and `jsonUnmarshal` reads the columns of SQLite.

* `readRecord_envelope` — a record is read back from its envelope with invalid UTF-8 replaced
  (`legible`).
* `legible_same` — which is the record itself, if its texts are UTF-8.
* `jsonUnmarshal_reads` — the columns of such a record are read back too.
-/

namespace HttpCatch.Sinks

open HttpCatch.Go HttpCatch.Capture HttpCatch.Json

/-! ### Maps and cookies -/

/-- The JSON of a `[]string`. -/
def sliceValue : Option (List GoString) → Json.Datum
  | none => .null
  | some vs => .array (vs.map .string)

/-- The JSON of a `map[string][]string`. -/
def mapValue : Headers → Json.Datum
  | none => .null
  | some m => .object ((sortMembers m.entries).map fun kv => (kv.1, sliceValue kv.2))

/-- The JSON of a `Cookie`. -/
def cookieValue (c : Cookie) : Json.Datum :=
  .object [(str "name", .string c.name), (str "value", .string c.value)]

/-- The JSON of a `[]Cookie`. -/
def cookiesValue : Option (List Cookie) → Json.Datum
  | none => .null
  | some cs => .array (cs.map cookieValue)

theorem text_sliceValue (vs : Option (List GoString)) : (sliceValue vs).text = marshalSlice vs := by
  cases vs with
  | none => rfl
  | some vs =>
    rw [sliceValue, Json.Datum.text, elementsText_eq, List.map_map, marshalSlice]
    rfl

/-- A map is written as in a column. -/
theorem text_mapValue (h : Headers) : (mapValue h).text = marshalMap h := by
  cases h with
  | none => rfl
  | some m =>
    rw [mapValue, Json.Datum.text, membersText_eq, List.map_map, marshalMap, Option.map_some,
      marshal]
    congr 3
    refine List.map_congr_left fun kv _ => ?_
    simp [marshalMember, text_sliceValue]

/-- Cookies are written as in a column. -/
theorem text_cookiesValue (cs : Option (List Cookie)) :
    (cookiesValue cs).text = marshalCookies cs := by
  cases cs with
  | none => rfl
  | some cs =>
    rw [cookiesValue, Json.Datum.text, elementsText_eq, List.map_map, marshalCookies]
    congr 3
    refine List.map_congr_left fun c _ => ?_
    rw [Function.comp_apply, cookieValue, Json.Datum.text, membersText_eq]
    have hname : marshalString (str "name") = str "\"name\"" := rfl
    have hvalue : marshalString (str "value") = str "\"value\"" := rfl
    simp only [List.map_cons, List.map_nil, commaJoin, Json.Datum.text, hname, hvalue]
    simp [str]

/-! ### Envelopes -/

/-- `time.Time.MarshalJSON` in a zone so many minutes east of UTC; none when it fails. -/
def timeValue (zone t : ℤ) : Option Json.Datum :=
  let year := Rfc3339.yearOf (t + zone * 60000000000)
  if 0 ≤ year ∧ year ≤ 9999 ∧ zone.natAbs < 1440 then
    some (.string (Rfc3339.formatNanoIn zone t))
  else none

/-- `requestEnvelope`. -/
def requestEnvelope (zone : ℤ) (r : CapturedRequest) : Option Json.Datum := do
  let timestamp ← timeValue zone r.timestamp
  return .object [(str "kind", .string (str "request")), (str "id", .string r.id),
    (str "timestamp", timestamp), (str "method", .string r.method), (str "path", .string r.path),
    (str "query", mapValue r.query), (str "headers", mapValue r.headers),
    (str "cookies", cookiesValue r.cookies), (str "body", .string (r.body.getD [])),
    (str "body_truncated", .bool r.bodyTruncated),
    (str "body_original_size", .int r.bodyOriginalSize),
    (str "content_type", .string r.contentType), (str "source_ip", .string r.sourceIP),
    (str "service", .string r.service), (str "service_source", .string r.serviceSource),
    (str "correlation_id", .string r.correlationID),
    (str "correlation_source", .string r.correlationSource)]

/-- `responseEnvelope`. -/
def responseEnvelope (zone : ℤ) (e : ResponseEvent) : Option Json.Datum := do
  let timestamp ← timeValue zone e.timestamp
  return .object [(str "kind", .string (str "response_event")), (str "id", .string e.id),
    (str "timestamp", timestamp), (str "correlation_id", .string e.correlationID),
    (str "correlation_source", .string e.correlationSource), (str "service", .string e.service),
    (str "service_source", .string e.serviceSource), (str "status", .int e.status),
    (str "headers", mapValue e.headers), (str "body", .string (e.body.getD [])),
    (str "body_truncated", .bool e.bodyTruncated),
    (str "body_original_size", .int e.bodyOriginalSize),
    (str "content_type", .string e.contentType), (str "duration_ms", .int e.durationMS)]

/-- The JSON of `outboundRequestHalfEnvT`. -/
def requestHalfValue (h : OutboundRequestHalf) : Json.Datum :=
  .object [(str "method", .string h.method), (str "path", .string h.path),
    (str "headers", mapValue h.headers), (str "body", .string (h.body.getD [])),
    (str "body_truncated", .bool h.bodyTruncated),
    (str "body_original_size", .int h.bodyOriginalSize),
    (str "content_type", .string h.contentType)]

/-- The JSON of `outboundResponseHalfEnvT`. -/
def responseHalfValue (h : OutboundResponseHalf) : Json.Datum :=
  .object [(str "status", .int h.status), (str "headers", mapValue h.headers),
    (str "body", .string (h.body.getD [])), (str "body_truncated", .bool h.bodyTruncated),
    (str "body_original_size", .int h.bodyOriginalSize),
    (str "content_type", .string h.contentType)]

/-- `outboundEnvelope`. -/
def outboundEnvelope (zone : ℤ) (e : OutboundEvent) : Option Json.Datum := do
  let timestamp ← timeValue zone e.timestamp
  return .object [(str "kind", .string (str "outbound_event")), (str "id", .string e.id),
    (str "timestamp", timestamp), (str "correlation_id", .string e.correlationID),
    (str "correlation_source", .string e.correlationSource), (str "service", .string e.service),
    (str "service_source", .string e.serviceSource), (str "duration_ms", .int e.durationMS),
    (str "request", requestHalfValue e.request),
    (str "response", (e.response.map responseHalfValue).getD .null)]

/-- The envelope of a record; none when it cannot be written. -/
def envelope (zone : ℤ) : Record → Option Json.Datum
  | .request r => requestEnvelope zone r
  | .response e => responseEnvelope zone e
  | .outbound e => outboundEnvelope zone e

/-! ### Reading an envelope -/

/-- The member of an object with a key. -/
def memberOf (v : Json.Datum) (key : String) : Option Json.Datum :=
  match v with
  | .object ms => ms.lookup (str key)
  | _ => none

def readString : Json.Datum → Option GoString
  | .string s => some s
  | _ => none

def readInt : Json.Datum → Option ℤ
  | .int n => some n
  | _ => none

def readBool : Json.Datum → Option Bool
  | .bool b => some b
  | _ => none

/-- A `[]string`. -/
def readSlice : Json.Datum → Option (Option (List GoString))
  | .null => some none
  | .array vs => (vs.mapM readString).map some
  | _ => none

/-- The last entry of each key. -/
def lastEntries : List (GoString × Option (List GoString)) →
    List (GoString × Option (List GoString))
  | [] => []
  | kv :: kvs => if kv.1 ∈ kvs.map Prod.fst then lastEntries kvs else kv :: lastEntries kvs

theorem lastEntries_sublist (kvs : List (GoString × Option (List GoString))) :
    (lastEntries kvs).Sublist kvs := by
  induction kvs with
  | nil => exact .slnil
  | cons kv kvs ih =>
    rw [lastEntries]
    split_ifs
    · exact ih.cons _
    · exact ih.cons_cons _

theorem lastEntries_nodup (kvs : List (GoString × Option (List GoString))) :
    ((lastEntries kvs).map Prod.fst).Nodup := by
  induction kvs with
  | nil => exact List.nodup_nil
  | cons kv kvs ih =>
    rw [lastEntries]
    split_ifs with h
    · exact ih
    · exact List.nodup_cons.2 ⟨fun hmem => h (((lastEntries_sublist kvs).map _).subset hmem), ih⟩

theorem lastEntries_of_nodup {kvs : List (GoString × Option (List GoString))}
    (h : (kvs.map Prod.fst).Nodup) : lastEntries kvs = kvs := by
  induction kvs with
  | nil => rfl
  | cons kv kvs ih =>
    obtain ⟨hnot, hnodup⟩ := List.nodup_cons.1 h
    rw [lastEntries, if_neg hnot, ih hnodup]

/-- The map that is left when its entries are set in order. -/
def mapOf (kvs : List (GoString × Option (List GoString))) : StringMap :=
  ⟨lastEntries kvs, lastEntries_nodup kvs⟩

/-- A `map[string][]string`. -/
def readMap : Json.Datum → Option Headers
  | .null => some none
  | .object ms => (ms.mapM fun m => (readSlice m.2).map fun vs => (m.1, vs)).map fun kvs =>
    some (mapOf kvs)
  | _ => none

/-- A `Cookie`. -/
def readCookie (v : Json.Datum) : Option Cookie := do
  return ⟨← readString (← memberOf v "name"), ← readString (← memberOf v "value")⟩

/-- A `[]Cookie`. -/
def readCookies : Json.Datum → Option (Option (List Cookie))
  | .null => some none
  | .array vs => (vs.mapM readCookie).map some
  | _ => none

/-- A `time.Time`. -/
def readTime (v : Json.Datum) : Option ℤ := (readString v).bind Rfc3339.parse

def readRequest (v : Json.Datum) : Option CapturedRequest := do
  return {
    id := ← readString (← memberOf v "id")
    timestamp := ← readTime (← memberOf v "timestamp")
    method := ← readString (← memberOf v "method")
    path := ← readString (← memberOf v "path")
    query := ← readMap (← memberOf v "query")
    headers := ← readMap (← memberOf v "headers")
    cookies := ← readCookies (← memberOf v "cookies")
    body := some (← readString (← memberOf v "body"))
    bodyTruncated := ← readBool (← memberOf v "body_truncated")
    bodyOriginalSize := ← readInt (← memberOf v "body_original_size")
    contentType := ← readString (← memberOf v "content_type")
    sourceIP := ← readString (← memberOf v "source_ip")
    service := ← readString (← memberOf v "service")
    serviceSource := ← readString (← memberOf v "service_source")
    correlationID := ← readString (← memberOf v "correlation_id")
    correlationSource := ← readString (← memberOf v "correlation_source") }

def readResponse (v : Json.Datum) : Option ResponseEvent := do
  return {
    id := ← readString (← memberOf v "id")
    timestamp := ← readTime (← memberOf v "timestamp")
    correlationID := ← readString (← memberOf v "correlation_id")
    correlationSource := ← readString (← memberOf v "correlation_source")
    service := ← readString (← memberOf v "service")
    serviceSource := ← readString (← memberOf v "service_source")
    status := ← readInt (← memberOf v "status")
    headers := ← readMap (← memberOf v "headers")
    body := some (← readString (← memberOf v "body"))
    bodyTruncated := ← readBool (← memberOf v "body_truncated")
    bodyOriginalSize := ← readInt (← memberOf v "body_original_size")
    contentType := ← readString (← memberOf v "content_type")
    durationMS := ← readInt (← memberOf v "duration_ms") }

def readRequestHalf (v : Json.Datum) : Option OutboundRequestHalf := do
  return {
    method := ← readString (← memberOf v "method")
    path := ← readString (← memberOf v "path")
    headers := ← readMap (← memberOf v "headers")
    body := some (← readString (← memberOf v "body"))
    bodyTruncated := ← readBool (← memberOf v "body_truncated")
    bodyOriginalSize := ← readInt (← memberOf v "body_original_size")
    contentType := ← readString (← memberOf v "content_type") }

def readResponseHalf (v : Json.Datum) : Option OutboundResponseHalf := do
  return {
    status := ← readInt (← memberOf v "status")
    headers := ← readMap (← memberOf v "headers")
    body := some (← readString (← memberOf v "body"))
    bodyTruncated := ← readBool (← memberOf v "body_truncated")
    bodyOriginalSize := ← readInt (← memberOf v "body_original_size")
    contentType := ← readString (← memberOf v "content_type") }

/-- A pointer to the response half. -/
def readResponseHalf? : Json.Datum → Option (Option OutboundResponseHalf)
  | .null => some none
  | v => (readResponseHalf v).map some

def readOutbound (v : Json.Datum) : Option OutboundEvent := do
  return {
    id := ← readString (← memberOf v "id")
    timestamp := ← readTime (← memberOf v "timestamp")
    correlationID := ← readString (← memberOf v "correlation_id")
    correlationSource := ← readString (← memberOf v "correlation_source")
    service := ← readString (← memberOf v "service")
    serviceSource := ← readString (← memberOf v "service_source")
    durationMS := ← readInt (← memberOf v "duration_ms")
    request := ← readRequestHalf (← memberOf v "request")
    response := ← readResponseHalf? (← memberOf v "response") }

/-- Reads an envelope, by its kind. -/
def readRecord (v : Json.Datum) : Option Record := do
  let kind ← readString (← memberOf v "kind")
  if kind = str "request" then (readRequest v).map .request
  else if kind = str "response_event" then (readResponse v).map .response
  else if kind = str "outbound_event" then (readOutbound v).map .outbound
  else none

/-! ### Reading what was written -/

/-- What a `[]string` is read back as. -/
def validSlice (vs : Option (List GoString)) : Option (List GoString) := vs.map (·.map toValidUTF8)

/-- What a map is read back as. -/
def validMap (h : Headers) : Headers :=
  h.map fun m => mapOf ((sortMembers m.entries).map fun kv => (toValidUTF8 kv.1, validSlice kv.2))

/-- What cookies are read back as. -/
def validCookies (cs : Option (List Cookie)) : Option (List Cookie) :=
  cs.map (·.map fun c => ⟨toValidUTF8 c.name, toValidUTF8 c.value⟩)

/-- What a body is read back as. -/
def validBody (b : Option GoString) : Option GoString := some (toValidUTF8 (b.getD []))

/-- What a request half is read back as. -/
def legibleRequestHalf (h : OutboundRequestHalf) : OutboundRequestHalf where
  method := toValidUTF8 h.method
  path := toValidUTF8 h.path
  headers := validMap h.headers
  body := validBody h.body
  bodyTruncated := h.bodyTruncated
  bodyOriginalSize := h.bodyOriginalSize
  contentType := toValidUTF8 h.contentType

/-- What a response half is read back as. -/
def legibleResponseHalf (h : OutboundResponseHalf) : OutboundResponseHalf where
  status := h.status
  headers := validMap h.headers
  body := validBody h.body
  bodyTruncated := h.bodyTruncated
  bodyOriginalSize := h.bodyOriginalSize
  contentType := toValidUTF8 h.contentType

/-- What a captured request is read back as. -/
def legibleRequest (r : CapturedRequest) : CapturedRequest where
  id := toValidUTF8 r.id
  timestamp := r.timestamp
  method := toValidUTF8 r.method
  path := toValidUTF8 r.path
  query := validMap r.query
  headers := validMap r.headers
  cookies := validCookies r.cookies
  body := validBody r.body
  bodyTruncated := r.bodyTruncated
  bodyOriginalSize := r.bodyOriginalSize
  contentType := toValidUTF8 r.contentType
  sourceIP := toValidUTF8 r.sourceIP
  service := toValidUTF8 r.service
  serviceSource := toValidUTF8 r.serviceSource
  correlationID := toValidUTF8 r.correlationID
  correlationSource := toValidUTF8 r.correlationSource

/-- What a response event is read back as. -/
def legibleResponse (e : ResponseEvent) : ResponseEvent where
  id := toValidUTF8 e.id
  timestamp := e.timestamp
  correlationID := toValidUTF8 e.correlationID
  correlationSource := toValidUTF8 e.correlationSource
  service := toValidUTF8 e.service
  serviceSource := toValidUTF8 e.serviceSource
  status := e.status
  headers := validMap e.headers
  body := validBody e.body
  bodyTruncated := e.bodyTruncated
  bodyOriginalSize := e.bodyOriginalSize
  contentType := toValidUTF8 e.contentType
  durationMS := e.durationMS

/-- What an outbound event is read back as. -/
def legibleOutbound (e : OutboundEvent) : OutboundEvent where
  id := toValidUTF8 e.id
  timestamp := e.timestamp
  correlationID := toValidUTF8 e.correlationID
  correlationSource := toValidUTF8 e.correlationSource
  service := toValidUTF8 e.service
  serviceSource := toValidUTF8 e.serviceSource
  durationMS := e.durationMS
  request := legibleRequestHalf e.request
  response := e.response.map legibleResponseHalf

/-- What a record is read back as: with `U+FFFD` for each byte that is not part of UTF-8, and with
an empty body for a nil one. -/
def legible : Record → Record
  | .request r => .request (legibleRequest r)
  | .response e => .response (legibleResponse e)
  | .outbound e => .outbound (legibleOutbound e)

theorem mapM_map {α β γ : Type} {f : β → Option γ} {g : α → β} {h : α → γ} {l : List α}
    (hf : ∀ a ∈ l, f (g a) = some (h a)) : (l.map g).mapM f = some (l.map h) := by
  induction l with
  | nil => rfl
  | cons a l ih =>
    rw [List.map_cons, List.mapM_cons, hf a List.mem_cons_self,
      ih fun b hb => hf b (List.mem_cons_of_mem _ hb)]
    rfl

theorem readSlice_valid (vs : Option (List GoString)) :
    readSlice (sliceValue vs).valid = some (validSlice vs) := by
  cases vs with
  | none => rfl
  | some vs =>
    have hread : (vs.map (Json.Datum.valid ∘ .string)).mapM readString =
        some (vs.map toValidUTF8) := mapM_map fun _ _ => rfl
    rw [sliceValue, Json.Datum.valid, validElements_eq, List.map_map, readSlice, hread]
    rfl

theorem readMap_valid (h : Headers) : readMap (mapValue h).valid = some (validMap h) := by
  cases h with
  | none => rfl
  | some m =>
    rw [mapValue, Json.Datum.valid, validMembers_eq, List.map_map, readMap,
      mapM_map (h := fun kv => (toValidUTF8 kv.1, validSlice kv.2)) ?_, Option.map_some]
    · rfl
    · intro kv _
      rw [Function.comp_apply, readSlice_valid]
      rfl

theorem readCookie_valid (c : Cookie) :
    readCookie (cookieValue c).valid = some ⟨toValidUTF8 c.name, toValidUTF8 c.value⟩ := by
  rw [cookieValue]
  rfl

theorem readCookies_valid (cs : Option (List Cookie)) :
    readCookies (cookiesValue cs).valid = some (validCookies cs) := by
  cases cs with
  | none => rfl
  | some cs =>
    have hread : (cs.map (Json.Datum.valid ∘ cookieValue)).mapM readCookie =
        some (cs.map fun c => ⟨toValidUTF8 c.name, toValidUTF8 c.value⟩) :=
      mapM_map fun c _ => readCookie_valid c
    rw [cookiesValue, Json.Datum.valid, validElements_eq, List.map_map, readCookies, hread]
    rfl

variable {zone : ℤ} {v : Json.Datum} {r : Record}

/-- A timestamp that can be written is read back. -/
theorem readTime_valid {t : ℤ} (h : timeValue zone t = some v) : readTime v.valid = some t := by
  rw [timeValue] at h
  split_ifs at h with hrange
  obtain rfl := Option.some.inj h
  obtain ⟨hlo, hhi, hzone⟩ := hrange
  rw [Json.Datum.valid, toValidUTF8_ascii (Rfc3339.formatNanoIn_ascii zone t), readTime,
    readString, Option.bind_some, Rfc3339.parse_formatNanoIn hzone hlo hhi]

/-- A member that is read. -/
theorem bind_memberOf {α β : Type} {w : Json.Datum} {key : String} {read : Json.Datum → Option α}
    {a : α} {f : α → Option β} {y : Option β} (hmember : memberOf v key = some w)
    (hread : read w = some a) (hf : f a = y) : (memberOf v key >>= fun w => read w >>= f) = y := by
  rw [hmember, ← hf]
  exact congrArg (·.bind f) hread

theorem readRequest_valid {r : CapturedRequest} (h : requestEnvelope zone r = some v) :
    readRequest v.valid = some (legibleRequest r) := by
  obtain ⟨timestamp, htime, hv⟩ := Option.bind_eq_some_iff.1 h
  obtain rfl := Option.some.inj hv
  refine bind_memberOf rfl rfl (bind_memberOf rfl (readTime_valid htime) ?_)
  refine bind_memberOf rfl rfl (bind_memberOf rfl rfl ?_)
  refine bind_memberOf rfl (readMap_valid r.query) (bind_memberOf rfl (readMap_valid r.headers) ?_)
  refine bind_memberOf rfl (readCookies_valid r.cookies) (bind_memberOf rfl rfl ?_)
  iterate 8 refine bind_memberOf rfl rfl ?_
  rfl

theorem readResponse_valid {e : ResponseEvent} (h : responseEnvelope zone e = some v) :
    readResponse v.valid = some (legibleResponse e) := by
  obtain ⟨timestamp, htime, hv⟩ := Option.bind_eq_some_iff.1 h
  obtain rfl := Option.some.inj hv
  refine bind_memberOf rfl rfl (bind_memberOf rfl (readTime_valid htime) ?_)
  iterate 5 refine bind_memberOf rfl rfl ?_
  refine bind_memberOf rfl (readMap_valid e.headers) ?_
  iterate 5 refine bind_memberOf rfl rfl ?_
  rfl

theorem readRequestHalf_valid (h : OutboundRequestHalf) :
    readRequestHalf (requestHalfValue h).valid = some (legibleRequestHalf h) := by
  refine bind_memberOf rfl rfl (bind_memberOf rfl rfl ?_)
  refine bind_memberOf rfl (readMap_valid h.headers) ?_
  iterate 4 refine bind_memberOf rfl rfl ?_
  rfl

theorem readResponseHalf_valid (h : OutboundResponseHalf) :
    readResponseHalf (responseHalfValue h).valid = some (legibleResponseHalf h) := by
  refine bind_memberOf rfl rfl (bind_memberOf rfl (readMap_valid h.headers) ?_)
  iterate 4 refine bind_memberOf rfl rfl ?_
  rfl

theorem readResponseHalf?_valid (h : Option OutboundResponseHalf) :
    readResponseHalf? ((h.map responseHalfValue).getD .null).valid =
      some (h.map legibleResponseHalf) := by
  cases h with
  | none => rfl
  | some h => exact congrArg (Option.map some) (readResponseHalf_valid h)

theorem readOutbound_valid {e : OutboundEvent} (h : outboundEnvelope zone e = some v) :
    readOutbound v.valid = some (legibleOutbound e) := by
  obtain ⟨timestamp, htime, hv⟩ := Option.bind_eq_some_iff.1 h
  obtain rfl := Option.some.inj hv
  refine bind_memberOf rfl rfl (bind_memberOf rfl (readTime_valid htime) ?_)
  iterate 5 refine bind_memberOf rfl rfl ?_
  refine bind_memberOf rfl (readRequestHalf_valid e.request) ?_
  refine bind_memberOf rfl (readResponseHalf?_valid e.response) ?_
  rfl

/-- **A record is read back from its envelope.** -/
theorem readRecord_envelope (h : envelope zone r = some v) :
    readRecord v.valid = some (legible r) := by
  cases r with
  | request r =>
    have hread := readRequest_valid h
    obtain ⟨timestamp, htime, hv⟩ := Option.bind_eq_some_iff.1 h
    obtain rfl := Option.some.inj hv
    refine bind_memberOf (a := str "request") rfl rfl ?_
    rw [if_pos rfl, hread]
    rfl
  | response e =>
    have hread := readResponse_valid h
    obtain ⟨timestamp, htime, hv⟩ := Option.bind_eq_some_iff.1 h
    obtain rfl := Option.some.inj hv
    refine bind_memberOf (a := str "response_event") rfl rfl ?_
    rw [if_neg (by decide), if_pos rfl, hread]
    rfl
  | outbound e =>
    have hread := readOutbound_valid h
    obtain ⟨timestamp, htime, hv⟩ := Option.bind_eq_some_iff.1 h
    obtain rfl := Option.some.inj hv
    refine bind_memberOf (a := str "outbound_event") rfl rfl ?_
    rw [if_neg (by decide), if_neg (by decide), if_pos rfl, hread]
    rfl

/-! ### Records of UTF-8 -/

/-- The keys and values of a map. -/
def mapTexts (h : Headers) : List GoString := h.entries.flatMap fun kv => kv.1 :: kv.2.getD []

/-- The texts of a record, its bodies included. -/
def texts : Record → List GoString
  | .request r => [r.id, r.method, r.path, r.body.getD [], r.contentType, r.sourceIP, r.service,
      r.serviceSource, r.correlationID, r.correlationSource] ++ mapTexts r.query ++
      mapTexts r.headers ++ (r.cookies.getD []).flatMap fun c => [c.name, c.value]
  | .response e => [e.id, e.correlationID, e.correlationSource, e.service, e.serviceSource,
      e.body.getD [], e.contentType] ++ mapTexts e.headers
  | .outbound e => [e.id, e.correlationID, e.correlationSource, e.service, e.serviceSource,
      e.request.method, e.request.path, e.request.body.getD [], e.request.contentType] ++
      mapTexts e.request.headers ++
      e.response.toList.flatMap fun h => h.body.getD [] :: h.contentType :: mapTexts h.headers

/-- All of them are UTF-8. -/
def Utf8 (r : Record) : Prop := ∀ s ∈ texts r, toValidUTF8 s = s

instance (r : Record) : Decidable (Utf8 r) := inferInstanceAs (Decidable (∀ _ ∈ _, _))

theorem lookup_perm {m m' : StringMap} (h : m.entries.Perm m'.entries) (key : GoString) :
    m.entries.lookup key = m'.entries.lookup key := by
  cases hm : m'.entries.lookup key with
  | some vs => exact lookup_of_mem (h.mem_iff.2 (mem_of_lookup hm))
  | none =>
    rw [List.lookup_eq_none_iff] at hm ⊢
    intro kv hkv
    exact hm kv (h.mem_iff.1 hkv)

theorem validMap_same {h : Headers} (hutf8 : ∀ s ∈ mapTexts h, toValidUTF8 s = s) :
    SameMap (validMap h) h := by
  cases h with
  | none => exact fun _ => rfl
  | some m =>
    have hperm : (sortMembers m.entries).Perm m.entries := List.perm_insertionSort _ _
    have hid : (sortMembers m.entries).map (fun kv => (toValidUTF8 kv.1, validSlice kv.2)) =
        sortMembers m.entries := by
      refine (List.map_congr_left fun kv hkv => ?_).trans (List.map_id _)
      have hmem : ∀ s ∈ kv.1 :: kv.2.getD [], s ∈ mapTexts (some m) := fun s hs =>
        List.mem_flatMap.2 ⟨kv, hperm.mem_iff.1 hkv, hs⟩
      obtain ⟨k, vs⟩ := kv
      have hvs : validSlice vs = vs := by
        cases vs with
        | none => rfl
        | some vs =>
          refine congrArg some ((List.map_congr_left fun v hv => ?_).trans (List.map_id _))
          exact hutf8 v (hmem v (List.mem_cons_of_mem _ hv))
      rw [hutf8 k (hmem k List.mem_cons_self), hvs]
      rfl
    have hnodup : ((sortMembers m.entries).map Prod.fst).Nodup :=
      (hperm.map Prod.fst).nodup_iff.2 m.nodup
    have hentries : (mapOf (sortMembers m.entries)).entries.Perm m.entries := by
      change (lastEntries (sortMembers m.entries)).Perm m.entries
      rwa [lastEntries_of_nodup hnodup]
    intro key
    rw [validMap, Option.map_some, hid]
    exact congrArg (Option.map (·.getD [])) (lookup_perm hentries key)

theorem validCookies_same {cs : Option (List Cookie)}
    (hutf8 : ∀ c ∈ cs.getD [], toValidUTF8 c.name = c.name ∧ toValidUTF8 c.value = c.value) :
    validCookies cs = cs := by
  cases cs with
  | none => rfl
  | some cs =>
    refine congrArg some ((List.map_congr_left fun c hc => ?_).trans (List.map_id _))
    obtain ⟨hname, hvalue⟩ := hutf8 c hc
    rw [hname, hvalue]
    rfl

/-- **A record of UTF-8 is read back as it was**, but for nil and empty. -/
theorem legible_same (h : Utf8 r) : Same (legible r) r := by
  cases r with
  | request r =>
    simp only [Utf8, texts, List.forall_mem_append, List.forall_mem_cons] at h
    obtain ⟨⟨⟨⟨hid, hmethod, hpath, hbody, htype, hip, hservice, hsource, hcorr, hcsource, -⟩,
      hquery⟩, hheaders⟩, hcookies⟩ := h
    refine ⟨?_, validMap_same hquery, validMap_same hheaders, ?_, hbody⟩
    · simp only [legibleRequest, hid, hmethod, hpath, htype, hip, hservice, hsource, hcorr,
        hcsource]
    · refine congrArg (·.getD []) (validCookies_same fun c hc => ?_)
      exact ⟨hcookies _ (List.mem_flatMap.2 ⟨c, hc, by simp⟩),
        hcookies _ (List.mem_flatMap.2 ⟨c, hc, by simp⟩)⟩
  | response e =>
    simp only [Utf8, texts, List.forall_mem_append, List.forall_mem_cons] at h
    obtain ⟨⟨hid, hcorr, hcsource, hservice, hsource, hbody, htype, -⟩, hheaders⟩ := h
    refine ⟨?_, validMap_same hheaders, hbody⟩
    simp only [legibleResponse, hid, hcorr, hcsource, hservice, hsource, htype]
  | outbound e =>
    simp only [Utf8, texts, List.forall_mem_append, List.forall_mem_cons] at h
    obtain ⟨⟨⟨hid, hcorr, hcsource, hservice, hsource, hmethod, hpath, hbody, htype, -⟩, hheaders⟩,
      hresponse⟩ := h
    refine ⟨?_, ⟨?_, validMap_same hheaders, hbody⟩, ?_⟩
    · simp only [legibleOutbound, hid, hcorr, hcsource, hservice, hsource]
    · simp only [legibleOutbound, legibleRequestHalf, hmethod, hpath, htype]
    · rw [legibleOutbound]
      cases he : e.response with
      | none => exact .none
      | some half =>
        simp only [he, Option.toList_some, List.flatMap_cons, List.flatMap_nil, List.append_nil,
          List.forall_mem_cons] at hresponse
        obtain ⟨hbody', htype', hheaders'⟩ := hresponse
        refine .some ⟨?_, validMap_same hheaders', hbody'⟩
        simp only [legibleResponseHalf, htype']

/-! ### Columns -/

/-- `json.Unmarshal` of the columns. -/
def jsonUnmarshal : Unmarshal where
  map s := (readJSON s).bind readMap
  cookies s := (readJSON s).bind readCookies

theorem jsonUnmarshal_map (h : Headers) :
    jsonUnmarshal.map (marshalMap h) = some (validMap h) := by
  rw [← text_mapValue]
  exact (congrArg (·.bind readMap) (readJSON_text _)).trans (readMap_valid h)

theorem jsonUnmarshal_cookies (cs : Option (List Cookie)) :
    jsonUnmarshal.cookies (marshalCookies cs) = some (validCookies cs) := by
  rw [← text_cookiesValue]
  exact (congrArg (·.bind readCookies) (readJSON_text _)).trans (readCookies_valid cs)

/-- `encoding/json` reads every text that it has written. -/
theorem jsonUnmarshal_parses (r : Record) : jsonUnmarshal.Parses r := by
  cases r with
  | request r =>
    rw [Unmarshal.Parses, jsonUnmarshal_map, jsonUnmarshal_map, jsonUnmarshal_cookies]
    exact ⟨rfl, rfl, rfl⟩
  | response e =>
    rw [Unmarshal.Parses, jsonUnmarshal_map]
    rfl
  | outbound e =>
    rw [Unmarshal.Parses, jsonUnmarshal_map]
    exact ⟨rfl, fun h _ => by rw [jsonUnmarshal_map]; rfl⟩

/-- The columns of a record of UTF-8 are read back as what they were made of. -/
theorem jsonUnmarshal_reads (h : Utf8 r) : jsonUnmarshal.Reads r := by
  have hsame := legible_same h
  cases r with
  | request r =>
    exact ⟨⟨_, jsonUnmarshal_map _, hsame.query⟩, ⟨_, jsonUnmarshal_map _, hsame.headers⟩,
      ⟨_, jsonUnmarshal_cookies _, hsame.cookies⟩⟩
  | response e => exact ⟨_, jsonUnmarshal_map _, hsame.headers⟩
  | outbound e =>
    refine ⟨⟨_, jsonUnmarshal_map _, hsame.request.headers⟩, fun half hhalf => ?_⟩
    have hresponse := hsame.response
    rw [legibleOutbound, Option.mem_def.1 hhalf] at hresponse
    cases hresponse with
    | some hsame' => exact ⟨_, jsonUnmarshal_map _, hsame'.headers⟩

end HttpCatch.Sinks

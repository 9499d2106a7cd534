import HttpCatch.Admin.RequestQuery
import HttpCatch.Capture.BodyCap
import HttpCatch.Capture.Service
import HttpCatch.Redact.Cookies

/-!
# The capture port

`internal/capture/server.go`: whatever is sent to the capture port becomes a `CapturedRequest`. The
handler reads the body up to the cap (`capBody`), splits the query and the `Cookie` header, stamps
the host onto a copy of the headers, and takes the service and the correlation key from that copy.

What happens to the record afterwards, and what is counted, is the pipeline's part
(`HttpCatch.Pipeline.System`); the answer is 202 in every case.

An `HTTPRequest` is what the handler reads of the `http.Request` that `net/http` hands it. Its
header map is not nil.
-/

namespace HttpCatch.Capture

open HttpCatch.Go HttpCatch.SearchQL

/-! ### Requests -/

/-- What the handler reads of an `http.Request`. -/
structure HTTPRequest where
  method : GoString
  /-- `r.URL.Path`. -/
  path : GoString
  /-- `r.URL.RawQuery`. -/
  rawQuery : GoString
  host : GoString
  header : StringMap
  remoteAddr : GoString
  body : Source

/-- `h[key] = []string{value}`, on the entries of a map. -/
def setEntry (key value : GoString) :
    List (GoString × Option (List GoString)) → List (GoString × Option (List GoString))
  | [] => [(key, some [value])]
  | e :: es => if e.1 = key then (key, some [value]) :: es else e :: setEntry key value es

theorem mem_keys_setEntry {key v k : GoString} {es : List (GoString × Option (List GoString))}
    (h : k ∈ (setEntry key v es).map Prod.fst) : k = key ∨ k ∈ es.map Prod.fst := by
  induction es with
  | nil => exact Or.inl (List.mem_singleton.1 h)
  | cons e es ih =>
    rw [setEntry] at h
    split_ifs at h
    · exact (List.mem_cons.1 h).imp_right (List.mem_cons_of_mem _)
    · rcases List.mem_cons.1 h with rfl | h
      · exact Or.inr List.mem_cons_self
      · exact (ih h).imp_right (List.mem_cons_of_mem _)

theorem nodup_setEntry {key v : GoString} {es : List (GoString × Option (List GoString))}
    (h : (es.map Prod.fst).Nodup) : ((setEntry key v es).map Prod.fst).Nodup := by
  induction es with
  | nil => exact List.nodup_singleton _
  | cons e es ih =>
    rw [setEntry]
    split_ifs with he
    · rw [List.map_cons, ← he]
      exact h
    · rw [List.map_cons, List.nodup_cons] at h ⊢
      exact ⟨fun hm => (mem_keys_setEntry hm).elim he h.1, ih h.2⟩

/-- `http.Header.Set`. -/
def StringMap.set (m : StringMap) (key value : GoString) : StringMap :=
  ⟨setEntry (canonicalMIMEHeaderKey key) value m.entries, nodup_setEntry m.nodup⟩

/-- `r.URL.Query()`, as the map it is. -/
def queryValues (rawQuery : GoString) : StringMap :=
  (Admin.urlQuery rawQuery).foldl
    (fun m kv => ⟨appendValue kv.1 kv.2 m.entries, nodup_appendValue m.nodup⟩) StringMap.empty

/-! ### The handler -/

/-- What of `HandlerOptions` the record depends on. -/
structure HandlerOptions where
  serviceHeader : GoString
  bodyCap : ℤ

/-- The copy of the headers that has the host. -/
def stampedHeaders (r : HTTPRequest) : Headers :=
  if r.host = [] then some r.header else some (r.header.set hostHeader r.host)

/-- The address of the sender without its port. -/
def sourceIP (remoteAddr : GoString) : GoString :=
  match splitHostPort remoteAddr with
  | .error _ => remoteAddr
  | .ok (host, _) => host

variable (U : Unicode)

/-- `buildRecord`, with the two identifiers it may make up and the time it reads. -/
def buildRecord (id correlation : UUID) (now : ℤ) (r : HTTPRequest) (body : GoString)
    (originalSize : ℤ) (truncated : Bool) (serviceHeader : GoString) : CapturedRequest :=
  let headers := stampedHeaders r
  let (service, serviceSource) := identifyService U headers serviceHeader
  let (correlationID, correlationSource) := identifyCorrelation U correlation headers
  { id := id.text
    timestamp := now
    method := r.method
    path := r.path
    query := some (queryValues r.rawQuery)
    headers := headers
    cookies := some (Redact.readCookies (Headers.values (some r.header) (str "Cookie")))
    body := some body
    bodyTruncated := truncated
    bodyOriginalSize := originalSize
    contentType := Headers.get (some r.header) (str "Content-Type")
    sourceIP := sourceIP r.remoteAddr
    service := service
    serviceSource := serviceSource
    correlationID := correlationID
    correlationSource := correlationSource }

/-- The record that `captureHandler` offers to the queue; `none` if the body cannot be read. -/
def captureHandler (opts : HandlerOptions) (id correlation : UUID) (now : ℤ) (r : HTTPRequest) :
    Option CapturedRequest :=
  match capBody r.body opts.bodyCap with
  | .error _ => none
  | .ok (body, originalSize, truncated) =>
    some (buildRecord U id correlation now r body originalSize truncated opts.serviceHeader)

end HttpCatch.Capture

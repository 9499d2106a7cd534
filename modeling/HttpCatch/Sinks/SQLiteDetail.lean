import HttpCatch.Inspect.Reader
import HttpCatch.Sinks.SQLite

/-!
# Reading one record back from SQLite

`ReadDetail` of `internal/sinks/sqlite_reader.go`: the record with an id, looked up in
`captured_requests` and then in `events`, and the records that share its correlation id.
`scanRequestRow` and `scanEventRow` turn a row back into a record. What `json.Unmarshal`
makes of the stored texts is a parameter (`Unmarshal`).

* `scanRequestRow_row`, `scanEventRow_row` — the record each row reads back as: all of a
  request, and an event without its content types and its correlation source, for which
  `events` has no column.
* `readDetail_stored`, `readDetail_absent` — what is found for the id of a stored record, and
  that nothing is found for another id.
* `readDetail_root` — after a write, the root of the record's id.
* `readDetail_unchanged` — the records that read back unchanged.
-/

namespace HttpCatch.Sinks

open HttpCatch.Go HttpCatch.Json HttpCatch.Sql HttpCatch.Capture HttpCatch.Inspect

/-! ### Scanning rows -/

/-- `json.Unmarshal` into a `map[string][]string` and into a `[]Cookie`; `none` is an error. -/
structure Unmarshal where
  map : GoString → Option Headers
  cookies : GoString → Option (Option (List Cookie))

/-- The errors of `ReadDetail`. -/
inductive DetailError where
  /-- `ErrNotFound`. -/
  | notFound
  /-- A column does not fit the variable it is scanned into. -/
  | scan
  /-- A JSON text cannot be read; the text names what it is. -/
  | unmarshal (what : String)
  /-- The type of an event is neither of the two. -/
  | unknownType (evtType id : GoString)
  deriving DecidableEq

/-- Scan into a `string`. The conversions from numbers are left out: no such column holds one. -/
def scanString (row : Row) (column : String) : Except DetailError GoString :=
  match row.lookup column with
  | some (.text s) => .ok s
  | some (.blob s) => .ok s
  | _ => .error .scan

/-- Scan into an `int64` or an `int`. -/
def scanInt (row : Row) (column : String) : Except DetailError ℤ :=
  match row.lookup column with
  | some (.int n) => .ok n
  | _ => .error .scan

/-- Scan into a `[]byte`; `NULL` is the nil slice. -/
def scanBytes (row : Row) (column : String) : Except DetailError (Option GoString) :=
  match row.lookup column with
  | some .null => .ok none
  | some (.text s) => .ok (some s)
  | some (.blob s) => .ok (some s)
  | _ => .error .scan

/-- Scan into a `sql.NullInt64`; `none` is not valid. -/
def scanNullInt (row : Row) (column : String) : Except DetailError (Option ℤ) :=
  match row.lookup column with
  | some .null => .ok none
  | some (.int n) => .ok (some n)
  | _ => .error .scan

/-- The `String` of a `sql.NullString`: empty when it is not valid. -/
def scanNullString (row : Row) (column : String) : Except DetailError GoString :=
  match row.lookup column with
  | some .null => .ok []
  | some (.text s) => .ok s
  | some (.blob s) => .ok s
  | _ => .error .scan

/-- A JSON text, or the error that names it. -/
def orUnmarshal {α : Type} (what : String) : Option α → Except DetailError α
  | none => .error (.unmarshal what)
  | some a => .ok a

/-- The header map of an event: nil when there is no text. -/
def unmarshalHeaders (J : Unmarshal) (what : String) (text : Option GoString) :
    Except DetailError Headers :=
  if (text.getD []).length > 0 then orUnmarshal what (J.map (text.getD [])) else .ok none

/-- A flag of an event: valid and not zero. -/
def nullFlag (v : Option ℤ) : Bool := v.isSome && v.getD 0 != 0

/-- `scanRequestRow`. The host column is scanned and not used. -/
def scanRequestRow (J : Unmarshal) (row : Row) : Except DetailError CapturedRequest := do
  let id ← scanString row "id"
  let tsNanos ← scanInt row "timestamp"
  let service ← scanString row "service"
  let serviceSource ← scanString row "service_source"
  let _host ← scanString row "host"
  let corrID ← scanString row "correlation_id"
  let corrSource ← scanString row "correlation_source"
  let method ← scanString row "method"
  let path ← scanString row "path"
  let sourceIP ← scanString row "source_ip"
  let contentType ← scanString row "content_type"
  let queryJSON ← scanBytes row "query"
  let headersJSON ← scanBytes row "headers"
  let cookiesJSON ← scanBytes row "cookies"
  let body ← scanBytes row "body"
  let bodyTruncatedInt ← scanInt row "body_truncated"
  let bodyOriginalSize ← scanInt row "body_original_size"
  let query ← orUnmarshal "query" (J.map (queryJSON.getD []))
  let headers ← orUnmarshal "headers" (J.map (headersJSON.getD []))
  let cookies ← orUnmarshal "cookies" (J.cookies (cookiesJSON.getD []))
  return {
    id, timestamp := tsNanos, service, serviceSource
    correlationID := corrID, correlationSource := corrSource
    method, path, sourceIP, contentType, query, headers, cookies, body
    bodyTruncated := bodyTruncatedInt != 0, bodyOriginalSize }

/-- `scanEventRow`. The fields an event's row has no column for stay empty. -/
def scanEventRow (J : Unmarshal) (row : Row) : Except DetailError Record := do
  let id ← scanString row "id"
  let tsNanos ← scanInt row "timestamp"
  let evtType ← scanString row "type"
  let corrID ← scanString row "correlation_id"
  let service ← scanString row "service"
  let serviceSource ← scanString row "service_source"
  let statusVal ← scanNullInt row "status"
  let durationMS ← scanInt row "duration_ms"
  let reqMethod ← scanNullString row "request_method"
  let reqPath ← scanNullString row "request_path"
  let reqHeadersJSON ← scanBytes row "request_headers"
  let reqBody ← scanBytes row "request_body"
  let reqBodyTruncatedInt ← scanNullInt row "request_body_truncated"
  let reqBodyOriginalSize ← scanNullInt row "request_body_original_size"
  let respStatus ← scanNullInt row "response_status"
  let respHeadersJSON ← scanBytes row "response_headers"
  let respBody ← scanBytes row "response_body"
  let respBodyTruncatedInt ← scanNullInt row "response_body_truncated"
  let respBodyOriginalSize ← scanNullInt row "response_body_original_size"
  if evtType = str "response" then
    let headers ← unmarshalHeaders J "response event headers" respHeadersJSON
    return .response {
      id, timestamp := tsNanos, correlationID := corrID, correlationSource :=
        [], service, serviceSource
      status := statusVal.getD 0, headers, body := respBody, bodyTruncated :=
        nullFlag respBodyTruncatedInt
      bodyOriginalSize := respBodyOriginalSize.getD 0, contentType := [], durationMS }
  else if evtType = str "outbound" then
    let reqHeaders ← unmarshalHeaders J "outbound request headers" reqHeadersJSON
    let resp ← match respStatus with
      | none => pure none
      | some status => do
        let respHeaders ← unmarshalHeaders J "outbound response headers" respHeadersJSON
        pure (some {
          status, headers := respHeaders, body := respBody, bodyTruncated :=
            nullFlag respBodyTruncatedInt
          bodyOriginalSize := respBodyOriginalSize.getD 0, contentType :=
            [] : OutboundResponseHalf })
    return .outbound {
      id, timestamp := tsNanos, correlationID := corrID, correlationSource :=
        [], service, serviceSource, durationMS
      request := {
        method := reqMethod, path := reqPath, headers := reqHeaders, body := reqBody
        bodyTruncated := nullFlag reqBodyTruncatedInt, bodyOriginalSize :=
          reqBodyOriginalSize.getD 0, contentType := [] }
      response := resp }
  else .error (.unknownType evtType id)

/-! ### Looking up a record -/

/-- `DetailRecord`. -/
structure DetailRecord where
  root : Record
  events : List Record

/-- The row of a table with an id, as `QueryRowContext` finds it. -/
def rowByID (rows : List Row) (id : GoString) : Option Row :=
  rows.find? fun row => row.lookup "id" = some (.text id)

/-- `sqliteLoadRequest`. -/
def sqliteLoadRequest (J : Unmarshal) (t : Tables) (id : GoString) :
    Except DetailError CapturedRequest :=
  match rowByID t.capturedRequests id with
  | none => .error .notFound
  | some row => scanRequestRow J row

/-- `sqliteLoadEvent`. -/
def sqliteLoadEvent (J : Unmarshal) (t : Tables) (id : GoString) : Except DetailError Record :=
  match rowByID t.events id with
  | none => .error .notFound
  | some row => scanEventRow J row

/-- `sqliteFindRoot`: a request with the id comes before an event with it. -/
def sqliteFindRoot (J : Unmarshal) (t : Tables) (id : GoString) :
    Except DetailError (Record × GoString) :=
  match sqliteLoadRequest J t id with
  | .ok cr => .ok (.request cr, cr.correlationID)
  | .error .notFound => do
    let ev ← sqliteLoadEvent J t id
    return (ev, ev.correlationID)
  | .error e => .error e

/-- `correlation_id = ? AND id != ?`. -/
def isSibling (rootID corrID : GoString) (row : Row) : Bool :=
  row.lookup "correlation_id" = some (.text corrID) ∧ row.lookup "id" ≠ some (.text rootID)

/-- `sqliteFetchSiblings`. The sort of the merged list also does what `ORDER BY` does in the
two queries. -/
def sqliteFetchSiblings (J : Unmarshal) (t : Tables) (rootID corrID : GoString) :
    Except DetailError (List Record) := do
  let reqs ← (t.capturedRequests.filter (isSibling rootID corrID)).mapM (scanRequestRow J)
  let evts ← (t.events.filter (isSibling rootID corrID)).mapM (scanEventRow J)
  return (reqs.map Record.request ++ evts).mergeSort fun a b =>
    a.timestamp < b.timestamp ∨ a.timestamp = b.timestamp ∧ ¬ b.id < a.id

/-- `SQLiteSink.ReadDetail`. -/
def readDetail (J : Unmarshal) (t : Tables) (id : GoString) : Except DetailError DetailRecord := do
  let (root, corrID) ← sqliteFindRoot J t id
  let siblings ← sqliteFetchSiblings J t id corrID
  return { root, events := siblings }

/-! ### What a row reads back as -/

/-- Two maps are the same when they have the same keys with the same values; nil is the
empty map, and the nil slice the empty one. -/
def SameMap (h h' : Headers) : Prop :=
  ∀ key, (h.get? key).map (·.getD []) = (h'.get? key).map (·.getD [])

/-- The JSON text of a map reads back as the same map. -/
def Unmarshal.ReadsMap (J : Unmarshal) (h : Headers) : Prop :=
  ∃ h', J.map (marshalMap h) = some h' ∧ SameMap h' h

/-- The JSON text of cookies reads back as the same cookies. -/
def Unmarshal.ReadsCookies (J : Unmarshal) (cs : Option (List Cookie)) : Prop :=
  ∃ cs', J.cookies (marshalCookies cs) = some cs' ∧ cs'.getD [] = cs.getD []

/-- The JSON texts stored for a record read back as what they were made of. `encoding/json`
does this for every record of valid UTF-8. -/
def Unmarshal.Reads (J : Unmarshal) : Record → Prop
  | .request r => J.ReadsMap r.query ∧ J.ReadsMap r.headers ∧ J.ReadsCookies r.cookies
  | .response e => J.ReadsMap e.headers
  | .outbound e => J.ReadsMap e.request.headers ∧ ∀ h ∈ e.response, J.ReadsMap h.headers

/-- The map that the JSON text of a map reads back as. -/
def Unmarshal.again (J : Unmarshal) (h : Headers) : Headers := (J.map (marshalMap h)).getD none

/-- The cookies that the JSON text of cookies reads back as. -/
def Unmarshal.againCookies (J : Unmarshal) (cs : Option (List Cookie)) : Option (List Cookie) :=
  (J.cookies (marshalCookies cs)).getD none

/-- The record that the row of a record reads back as. -/
def reread (J : Unmarshal) : Record → Record
  | .request r => .request {
      r with
      timestamp := unixNano r.timestamp, query := J.again r.query, headers := J.again r.headers
      cookies := J.againCookies r.cookies }
  | .response e => .response {
      e with
      timestamp := unixNano e.timestamp, correlationSource := []
      headers := J.again e.headers, contentType := [] }
  | .outbound e => .outbound {
      e with
      timestamp := unixNano e.timestamp, correlationSource := []
      request := { e.request with headers := J.again e.request.headers, contentType := [] }
      response := e.response.map fun h =>
        { h with headers := J.again h.headers, contentType := [] } }

/-- The JSON texts stored for a record can be read, as whatever. `encoding/json` reads every
text it has written; a byte that is not UTF-8 comes back as another. -/
def Unmarshal.Parses (J : Unmarshal) : Record → Prop
  | .request r => (J.map (marshalMap r.query)).isSome ∧ (J.map (marshalMap r.headers)).isSome ∧
      (J.cookies (marshalCookies r.cookies)).isSome
  | .response e => (J.map (marshalMap e.headers)).isSome
  | .outbound e => (J.map (marshalMap e.request.headers)).isSome ∧
    ∀ h ∈ e.response, (J.map (marshalMap h.headers)).isSome

section
variable {J : Unmarshal}

variable {h : Headers} {r : Record} {what column : String} {row : Row} {rs : List Record}
  {id : GoString}

theorem Unmarshal.ReadsMap.isSome (hm : J.ReadsMap h) : (J.map (marshalMap h)).isSome := by
  obtain ⟨h', hh, -⟩ := hm
  rw [hh, Option.isSome_some]

theorem Unmarshal.Reads.parses (hr : J.Reads r) : J.Parses r := by
  cases r with
  | request r =>
    obtain ⟨hq, hh, cs, hc, -⟩ := hr
    exact ⟨hq.isSome, hh.isSome, by rw [hc, Option.isSome_some]⟩
  | response e => exact ReadsMap.isSome hr
  | outbound e => exact ⟨hr.1.isSome, fun h hh => (hr.2 h hh).isSome⟩

theorem marshalMap_length (h : Headers) : 0 < (marshalMap h).length := by
  cases h <;> simp [marshalMap, marshal, str]

theorem orUnmarshal_map (hm : (J.map (marshalMap h)).isSome) :
    orUnmarshal what (J.map (marshalMap h)) = .ok (J.again h) := by
  obtain ⟨h', hh⟩ := Option.isSome_iff_exists.mp hm
  simp [Unmarshal.again, hh, orUnmarshal]

theorem orUnmarshal_cookies {cs : Option (List Cookie)}
    (hm : (J.cookies (marshalCookies cs)).isSome) :
    orUnmarshal what (J.cookies (marshalCookies cs)) = .ok (J.againCookies cs) := by
  obtain ⟨cs', hh⟩ := Option.isSome_iff_exists.mp hm
  simp [Unmarshal.againCookies, hh, orUnmarshal]

theorem unmarshalHeaders_marshalMap (hm : (J.map (marshalMap h)).isSome) :
    unmarshalHeaders J what (some (marshalMap h)) = .ok (J.again h) := by
  rw [unmarshalHeaders, Option.getD_some, if_pos (marshalMap_length h)]
  exact orUnmarshal_map hm

theorem scanBytes_bytes {b : Option GoString} (h : row.lookup column = some (bytes b)) :
    scanBytes row column = .ok b := by
  cases b <;> simp [scanBytes, h, bytes]

theorem scanInt_flag {b : Bool} (h : row.lookup column = some (flag b)) :
    scanInt row column = .ok (if b then 1 else 0) := by
  simp [scanInt, h, flag]

theorem scanNullInt_flag {b : Bool} (h : row.lookup column = some (flag b)) :
    scanNullInt row column = .ok (some (if b then 1 else 0)) := by
  simp [scanNullInt, h, flag]

theorem flag_ne_zero (b : Bool) : ((if b then (1 : ℤ) else 0) != 0) = b := by cases b <;> rfl

/-- The row of a request reads back as the request. -/
theorem scanRequestRow_row {r : CapturedRequest} (hr : J.Parses (.request r)) :
    (scanRequestRow J (requestRow r)).map Record.request = .ok (reread J (.request r)) := by
  obtain ⟨hq, hh, hc⟩ := hr
  have hbody : scanBytes (requestRow r) "body" = .ok r.body :=
    scanBytes_bytes (by simp [requestRow, List.lookup])
  have htrunc : scanInt (requestRow r) "body_truncated" = .ok (if r.bodyTruncated then 1 else 0) :=
    scanInt_flag (by simp [requestRow, List.lookup])
  rw [scanRequestRow, hbody, htrunc]
  simp [scanString, scanInt, scanBytes, requestRow, List.lookup, bind, Except.bind, pure,
    Except.pure, Except.map, orUnmarshal_map hq, orUnmarshal_map hh, orUnmarshal_cookies hc,
    flag_ne_zero, reread]

/-- The row of a response reads back as the response without its correlation source and
content type. -/
theorem scanEventRow_response {e : ResponseEvent} (hr : J.Parses (.response e)) :
    scanEventRow J (responseRow e) = .ok (reread J (.response e)) := by
  have hbody : scanBytes (responseRow e) "response_body" = .ok e.body :=
    scanBytes_bytes (by simp [responseRow, List.lookup])
  have htrunc : scanNullInt (responseRow e) "response_body_truncated" =
      .ok (some (if e.bodyTruncated then 1 else 0)) :=
    scanNullInt_flag (by simp [responseRow, List.lookup])
  rw [scanEventRow, hbody, htrunc]
  simp [scanString, scanInt, scanBytes, scanNullInt, scanNullString, responseRow, List.lookup, bind,
    Except.bind, pure, Except.pure, unmarshalHeaders_marshalMap hr, nullFlag, flag_ne_zero, reread]

/-- The row of an outbound event reads back as the event without its correlation source and
the content types of its halves. -/
theorem scanEventRow_outbound {e : OutboundEvent} (hr : J.Parses (.outbound e)) :
    scanEventRow J (outboundRow e) = .ok (reread J (.outbound e)) := by
  obtain ⟨hreq, hresp⟩ := hr
  have hbody : scanBytes (outboundRow e) "request_body" = .ok e.request.body :=
    scanBytes_bytes (by simp [outboundRow, List.lookup])
  have htrunc : scanNullInt (outboundRow e) "request_body_truncated" =
      .ok (some (if e.request.bodyTruncated then 1 else 0)) :=
    scanNullInt_flag (by simp [outboundRow, List.lookup])
  cases he : e.response with
  | none =>
    rw [scanEventRow, hbody, htrunc]
    simp [scanString, scanInt, scanBytes, scanNullInt, scanNullString, outboundRow, List.lookup,
      bind, Except.bind, pure, Except.pure, unmarshalHeaders_marshalMap hreq, nullFlag,
      flag_ne_zero, reread, he, str]
  | some h =>
    have hbody' : scanBytes (outboundRow e) "response_body" = .ok h.body :=
      scanBytes_bytes (by simp [outboundRow, List.lookup, he])
    have htrunc' : scanNullInt (outboundRow e) "response_body_truncated" =
        .ok (some (if h.bodyTruncated then 1 else 0)) :=
      scanNullInt_flag (by simp [outboundRow, List.lookup, he])
    rw [scanEventRow, hbody, htrunc, hbody', htrunc']
    simp [scanString, scanInt, scanBytes, scanNullInt, scanNullString, outboundRow, List.lookup,
      bind, Except.bind, pure, Except.pure, unmarshalHeaders_marshalMap hreq,
      unmarshalHeaders_marshalMap (hresp h he), nullFlag, flag_ne_zero, reread, he, str]

/-- The row of any event reads back as `reread` says. -/
theorem scanEventRow_row (hr : J.Parses r) (hrow : eventRow? r = some row) :
    scanEventRow J row = .ok (reread J r) := by
  cases r with
  | request r => cases hrow
  | response e =>
    obtain rfl := Option.some.inj hrow
    exact scanEventRow_response hr
  | outbound e =>
    obtain rfl := Option.some.inj hrow
    exact scanEventRow_outbound hr

/-! ### What an id reads back as -/

theorem scanRequestRow_exists (hr : J.Parses r) (hrow : requestRow? r = some row) :
    ∃ cr, scanRequestRow J row = .ok cr ∧ Record.request cr = reread J r := by
  cases r with
  | request r =>
    obtain rfl := Option.some.inj hrow
    exact map_eq_ok.mp (scanRequestRow_row hr)
  | response e => cases hrow
  | outbound e => cases hrow

theorem isSibling_request (hrow : requestRow? r = some row) (rootID corrID : GoString) :
    isSibling rootID corrID row = decide (r.id ≠ rootID ∧ r.correlationID = corrID) := by
  cases r <;> cases hrow
  simp [isSibling, requestRow, List.lookup, Record.id, Record.correlationID, and_comm]

theorem isSibling_event (hrow : eventRow? r = some row) (rootID corrID : GoString) :
    isSibling rootID corrID row = decide (r.id ≠ rootID ∧ r.correlationID = corrID) := by
  cases r <;> cases hrow
  · simp [isSibling, responseRow, List.lookup, Record.id, Record.correlationID, and_comm]
  · simp [isSibling, outboundRow, List.lookup, Record.id, Record.correlationID, and_comm]

/-- The siblings of a root among the rows of one table read back as the siblings among the
records of that table. -/
theorem mapM_siblings {α : Type} (row? : Record → Option Row) (scan : Row → Except DetailError α)
    (wrap : α → Record) (sel : Bool) {rootID corrID : GoString}
    (hsel : ∀ r : Record, (row? r).isSome ↔ r.isRequest = sel)
    (hsib : ∀ r row, row? r = some row →
      isSibling rootID corrID row = decide (r.id ≠ rootID ∧ r.correlationID = corrID))
    (hscan : ∀ r ∈ rs, ∀ row, row? r = some row →
      ∃ a, scan row = .ok a ∧ wrap a = reread J r) :
    ∃ l, ((rs.filterMap row?).filter (isSibling rootID corrID)).mapM scan = .ok l ∧ l.map wrap =
      ((rs.filter fun r => r.id ≠ rootID ∧ r.correlationID = corrID).filter fun r => r.isRequest ==
        sel).map (reread J) := by
  induction rs with
  | nil => exact ⟨[], rfl, rfl⟩
  | cons r rs ih =>
    obtain ⟨l, hl, hmap⟩ := ih fun r' h => hscan r' (List.mem_cons_of_mem r h)
    cases hrow : row? r with
    | none =>
      have hno : (r.isRequest == sel) = false := by
        rw [beq_eq_false_iff_ne, ne_eq, ← hsel, hrow]
        simp
      refine ⟨l, by rw [List.filterMap_cons_none hrow]; exact hl, ?_⟩
      rw [hmap, List.filter_cons]
      split_ifs <;> simp [hno]
    | some row =>
      have hyes : (r.isRequest == sel) = true := by
        rw [beq_iff_eq, ← hsel, hrow, Option.isSome_some]
      rw [List.filterMap_cons_some hrow, List.filter_cons, List.filter_cons, hsib r row hrow]
      by_cases h : r.id ≠ rootID ∧ r.correlationID = corrID
      · obtain ⟨a, ha, hwrap⟩ := hscan r List.mem_cons_self row hrow
        refine ⟨a :: l, ?_, ?_⟩
        · rw [if_pos (decide_eq_true h), List.mapM_cons, ha, hl]
          rfl
        · rw [if_pos (decide_eq_true h), List.filter_cons, if_pos hyes, List.map_cons,
            List.map_cons, hwrap, hmap]
      · rw [if_neg (by simpa using h), if_neg (by simpa using h)]
        exact ⟨l, hl, hmap⟩

/-- The siblings of a root read back as the other records with its correlation id. -/
theorem sqliteFetchSiblings_perm (hrs : ∀ r ∈ rs, J.Parses r) (rootID corrID : GoString) :
    ∃ l : List Record, sqliteFetchSiblings J (stored rs) rootID corrID = .ok (l.mergeSort fun a b =>
        a.timestamp < b.timestamp ∨ a.timestamp = b.timestamp ∧ ¬ b.id < a.id) ∧
      l.Perm ((rs.filter fun r => r.id ≠ rootID ∧ r.correlationID = corrID).map (reread J)) := by
  obtain ⟨reqs, hreqs, hreqs'⟩ := mapM_siblings requestRow? (scanRequestRow J) Record.request true
    requestRow?_isSome (fun r row hrow => isSibling_request hrow rootID corrID)
    fun r hr row hrow => scanRequestRow_exists (hrs r hr) hrow
  obtain ⟨evts, hevts, hevts'⟩ := mapM_siblings eventRow? (scanEventRow J) id false
    eventRow?_isSome (fun r row hrow => isSibling_event hrow rootID corrID)
    fun r hr row hrow => ⟨_, scanEventRow_row (hrs r hr) hrow, rfl⟩
  refine ⟨reqs.map Record.request ++ evts, ?_, ?_⟩
  · rw [sqliteFetchSiblings, stored, hreqs, hevts]
    rfl
  · rw [List.map_id] at hevts'
    rw [hreqs', hevts', ← List.map_append]
    have hnot : (fun r : Record => r.isRequest == false) = fun r => !(r.isRequest == true) :=
      funext fun r => by cases r.isRequest <;> rfl
    rw [hnot]
    exact (List.filter_append_perm _ _).map _

theorem readDetail_ok {t : Tables} {corrID : GoString} {root : Record} {l : List Record}
    (hroot : sqliteFindRoot J t id = .ok (root, corrID))
    (hl : sqliteFetchSiblings J t id corrID = .ok l) : readDetail J t id = .ok ⟨root, l⟩ := by
  rw [readDetail, hroot]
  simp [bind, Except.bind, hl, pure, Except.pure]

theorem rowByID_eq_none {rows : List Row} :
    rowByID rows id = none ↔ ∀ row ∈ rows, row.lookup "id" ≠ some (.text id) := by
  simp [rowByID, List.find?_eq_none]

/-- The row written last has its id alone, and is found under it. -/
theorem rowByID_last {row? : Record → Option Row} (sel : Bool) (hid : ∀ r row, row? r = some row →
      row.lookup "id" = some (.text r.id))
    (hsel : ∀ r : Record, (row? r).isSome ↔ r.isRequest = sel) (hrow : row? r = some row)
    (hs : Storable (rs ++ [r])) : rowByID ((rs ++ [r]).filterMap row?) r.id = some row := by
  have hr : r.isRequest = sel := (hsel r).mp (by simp [hrow])
  have hnone : rowByID (rs.filterMap row?) r.id = none := by
    refine rowByID_eq_none.mpr ((rows_ids sel hid hsel).mpr fun a ha hreq => ?_)
    exact (storable_append.mp hs).2.2 a ha (hreq.trans hr.symm)
  rw [rowByID] at hnone
  rw [rowByID, List.filterMap_append, List.find?_append, hnone]
  simp [hrow, hid r row hrow]

/-- With ids that are unique, a row is found under its id. -/
theorem rowByID_mem {row? : Record → Option Row}
    (hid : ∀ r row, row? r = some row → row.lookup "id" = some (.text r.id))
    (huniq : (rs.map Record.id).Nodup) (hr : r ∈ rs) (hrow : row? r = some row) :
    rowByID (rs.filterMap row?) r.id = some row := by
  cases hfind : rowByID (rs.filterMap row?) r.id with
  | none =>
    exact absurd (hid r row hrow)
      (rowByID_eq_none.mp hfind row (List.mem_filterMap.mpr ⟨r, hr, hrow⟩))
  | some row' =>
    obtain ⟨r', hr', hrow'⟩ := List.mem_filterMap.mp (List.mem_of_find?_eq_some hfind)
    have hsame : row'.lookup "id" = some (.text r.id) := by simpa using List.find?_some hfind
    rw [hid r' row' hrow'] at hsame
    have heq : r' = r := List.inj_on_of_nodup_map huniq hr' hr (by simpa using hsame)
    rw [← hrow', heq, hrow]

theorem reread_correlationID (J : Unmarshal) (r : Record) :
    (reread J r).correlationID = r.correlationID := by cases r <;> rfl

theorem reread_id (J : Unmarshal) (r : Record) : (reread J r).id = r.id := by cases r <;> rfl

/-- With ids that are unique, the root is the record with the id. -/
theorem sqliteFindRoot_stored (hrs : ∀ a ∈ rs, J.Parses a) (huniq : (rs.map Record.id).Nodup)
    (hr : r ∈ rs) : sqliteFindRoot J (stored rs) r.id = .ok (reread J r, r.correlationID) := by
  cases hreq : r.isRequest with
  | true =>
    obtain ⟨row, hrow⟩ := Option.isSome_iff_exists.mp ((requestRow?_isSome r).mpr hreq)
    obtain ⟨cr, hcr, hsame⟩ := scanRequestRow_exists (hrs r hr) hrow
    have hload : sqliteLoadRequest J (stored rs) r.id = .ok cr := by
      rw [sqliteLoadRequest, stored, rowByID_mem (fun _ _ => requestRow?_id) huniq hr hrow]
      exact hcr
    rw [sqliteFindRoot, hload, ← reread_correlationID J r, ← hsame]
    rfl
  | false =>
    obtain ⟨row, hrow⟩ := Option.isSome_iff_exists.mp ((eventRow?_isSome r).mpr hreq)
    have hnone : sqliteLoadRequest J (stored rs) r.id = .error .notFound := by
      have hfree : ∀ a ∈ rs, a.isRequest = true → a.id ≠ r.id := by
        intro a ha hareq hid
        rw [List.inj_on_of_nodup_map huniq ha hr hid, hreq] at hareq
        cases hareq
      rw [sqliteLoadRequest, stored,
        rowByID_eq_none.mpr ((rows_ids true (fun _ _ => requestRow?_id) requestRow?_isSome).mpr
          hfree)]
    have hload : sqliteLoadEvent J (stored rs) r.id = .ok (reread J r) := by
      rw [sqliteLoadEvent, stored, rowByID_mem (fun _ _ => eventRow?_id) huniq hr hrow]
      exact scanEventRow_row (hrs r hr) hrow
    rw [sqliteFindRoot, hnone, ← reread_correlationID J r]
    simp [hload, bind, Except.bind, pure, Except.pure]

/-- **What SQLite shows of a record it holds**: the record, and the others with its correlation
id. -/
theorem readDetail_stored (hrs : ∀ a ∈ rs, J.Parses a) (huniq : (rs.map Record.id).Nodup)
    (hr : r ∈ rs) :
    ∃ l : List Record, readDetail J (stored rs) r.id = .ok ⟨reread J r, l.mergeSort fun a b =>
        a.timestamp < b.timestamp ∨ a.timestamp = b.timestamp ∧ ¬ b.id < a.id⟩ ∧
      l.Perm ((rs.filter fun a => a.id ≠ r.id ∧
        a.correlationID = r.correlationID).map (reread J)) := by
  obtain ⟨l, hl, hperm⟩ := sqliteFetchSiblings_perm hrs r.id r.correlationID
  exact ⟨l, readDetail_ok (sqliteFindRoot_stored hrs huniq hr) hl, hperm⟩

/-- An id that no record has is not found. -/
theorem readDetail_absent (h : ∀ r ∈ rs, r.id ≠ id) :
    readDetail J (stored rs) id = .error .notFound := by
  have hreqs := rowByID_eq_none.mpr
      ((rows_ids true (fun _ _ => requestRow?_id) requestRow?_isSome).mpr fun r hr _ => h r hr)
  have hevts := rowByID_eq_none.mpr
      ((rows_ids false (fun _ _ => eventRow?_id) eventRow?_isSome).mpr fun r hr _ => h r hr)
  simp [readDetail, sqliteFindRoot, sqliteLoadRequest, sqliteLoadEvent, stored, hreqs, hevts, bind,
    Except.bind]

/-- **After a write, the id of a record reads back as the request with that id, if there is
one, and else as the event.** -/
theorem readDetail_root (hrs : ∀ a ∈ rs ++ [r], J.Reads a) (hs : Storable (rs ++ [r])) :
    ∃ d, readDetail J (stored (rs ++ [r])) r.id = .ok d ∧
      if r.isRequest ∨ ∀ a ∈ rs, a.isRequest → a.id ≠ r.id then d.root = reread J r
        else d.root.isRequest := by
  have hr : J.Reads r := hrs r (by simp)
  -- whatever the root is, its siblings can be read
  have hroot : ∀ root corrID, sqliteFindRoot J (stored (rs ++ [r])) r.id = .ok (root, corrID) →
      ∃ d, readDetail J (stored (rs ++ [r])) r.id = .ok d ∧ d.root = root := by
    intro root corrID hf
    obtain ⟨l, hl, -⟩ := sqliteFetchSiblings_perm (fun a ha => (hrs a ha).parses) r.id corrID
    exact ⟨_, readDetail_ok hf hl, rfl⟩
  -- a request with the id is the root
  have hrequest : ∀ a ∈ rs ++ [r], ∀ row, requestRow? a = some row →
      rowByID (stored (rs ++ [r])).capturedRequests r.id = some row →
        ∃ d, readDetail J (stored (rs ++ [r])) r.id = .ok d ∧ d.root = reread J a := by
    intro a ha row hrow hfind
    obtain ⟨cr, hcr, hcra⟩ := scanRequestRow_exists (hrs a ha).parses hrow
    obtain ⟨d, hd, hdr⟩ := hroot (.request cr) cr.correlationID
        (by simp [sqliteFindRoot, sqliteLoadRequest, hfind, hcr])
    exact ⟨d, hd, hdr.trans hcra⟩
  cases hreq : r.isRequest with
  | true =>
    obtain ⟨row, hrow⟩ := Option.isSome_iff_exists.mp ((requestRow?_isSome r).mpr hreq)
    have hfind := rowByID_last true (fun _ _ => requestRow?_id) requestRow?_isSome hrow hs
    simpa using hrequest r (by simp) row hrow hfind
  | false =>
    obtain ⟨row, hrow⟩ := Option.isSome_iff_exists.mp ((eventRow?_isSome r).mpr hreq)
    have hnone : requestRow? r = none := by
      rw [← Option.not_isSome_iff_eq_none, requestRow?_isSome]
      simp [hreq]
    have hreqs : (stored (rs ++ [r])).capturedRequests = rs.filterMap requestRow? := by
      simp [stored, hnone]
    by_cases hfree : ∀ a ∈ rs, a.isRequest → a.id ≠ r.id
    · have hfind := rowByID_last false (fun _ _ => eventRow?_id) eventRow?_isSome hrow hs
      have hload : sqliteLoadRequest J (stored (rs ++ [r])) r.id = .error .notFound := by
        have := (rows_ids true (fun _ _ => requestRow?_id) requestRow?_isSome).mpr hfree
        rw [sqliteLoadRequest, hreqs, rowByID_eq_none.mpr this]
      have hevent : sqliteLoadEvent J (stored (rs ++ [r])) r.id = .ok (reread J r) := by
        rw [sqliteLoadEvent, stored, hfind]
        exact scanEventRow_row hr.parses hrow
      obtain ⟨d, hd, hdr⟩ := hroot (reread J r) (reread J r).correlationID (by
        rw [sqliteFindRoot, hload]
        simp [hevent, bind, Except.bind, pure, Except.pure])
      exact ⟨d, hd, by rw [if_pos (.inr hfree)]; exact hdr⟩
    · have hsome : rowByID (rs.filterMap requestRow?) r.id ≠ none := fun h =>
        hfree ((rows_ids true (fun _ _ => requestRow?_id) requestRow?_isSome).mp
          (rowByID_eq_none.mp h))
      obtain ⟨row', hrow'⟩ := Option.ne_none_iff_exists'.mp hsome
      obtain ⟨a, ha, ha'⟩ := List.mem_filterMap.mp (List.mem_of_find?_eq_some hrow')
      obtain ⟨d, hd, hdr⟩ := hrequest a (List.mem_append_left _ ha) row' ha'
          (by rw [hreqs]; exact hrow')
      refine ⟨d, hd, ?_⟩
      rw [if_neg (by simp [hfree]), hdr]
      cases a with
      | request a => rfl
      | response e => cases ha'
      | outbound e => cases ha'

end

/-! ### Records that read back unchanged -/

/-- The same request; nil and empty are one for its maps and slices. -/
structure SameRequest (r r' : CapturedRequest) : Prop where
  rest :
    { r' with query := r.query, headers := r.headers, cookies := r.cookies, body := r.body } = r
  query : SameMap r.query r'.query
  headers : SameMap r.headers r'.headers
  cookies : r.cookies.getD [] = r'.cookies.getD []
  body : r.body.getD [] = r'.body.getD []

/-- The same response event. -/
structure SameResponse (e e' : ResponseEvent) : Prop where
  rest : { e' with headers := e.headers, body := e.body } = e
  headers : SameMap e.headers e'.headers
  body : e.body.getD [] = e'.body.getD []

/-- The same request half. -/
structure SameRequestHalf (h h' : OutboundRequestHalf) : Prop where
  rest : { h' with headers := h.headers, body := h.body } = h
  headers : SameMap h.headers h'.headers
  body : h.body.getD [] = h'.body.getD []

/-- The same response half. -/
structure SameResponseHalf (h h' : OutboundResponseHalf) : Prop where
  rest : { h' with headers := h.headers, body := h.body } = h
  headers : SameMap h.headers h'.headers
  body : h.body.getD [] = h'.body.getD []

/-- The same outbound event. -/
structure SameOutbound (e e' : OutboundEvent) : Prop where
  rest : { e' with request := e.request, response := e.response } = e
  request : SameRequestHalf e.request e'.request
  response : Option.Rel SameResponseHalf e.response e'.response

/-- The same record: of one kind, equal in every field, where nil and empty are one for
maps and slices. -/
def Same : Record → Record → Prop
  | .request r, .request r' => SameRequest r r'
  | .response e, .response e' => SameResponse e e'
  | .outbound e, .outbound e' => SameOutbound e e'
  | _, _ => False

/-- What the `events` table has no column for is empty: the correlation source and the
content types. Requests have columns for both. -/
def Kept : Record → Prop
  | .request _ => True
  | .response e => e.correlationSource = [] ∧ e.contentType = []
  | .outbound e =>
    e.correlationSource = [] ∧ e.request.contentType = [] ∧ ∀ h ∈ e.response, h.contentType = []

theorem again_same {J : Unmarshal} {h : Headers} (hm : J.ReadsMap h) : SameMap (J.again h) h := by
  obtain ⟨h', hh, hs⟩ := hm
  simpa [Unmarshal.again, hh] using hs

theorem againCookies_same {J : Unmarshal} {cs : Option (List Cookie)} (hm : J.ReadsCookies cs) :
    (J.againCookies cs).getD [] = cs.getD [] := by
  obtain ⟨cs', hh, hs⟩ := hm
  simpa [Unmarshal.againCookies, hh] using hs

/-- A record reads back as itself exactly when its lost fields are empty. -/
theorem reread_same {J : Unmarshal} {r : Record} (hr : J.Reads r) (ht : Representable r.timestamp) :
    Same (reread J r) r ↔ Kept r := by
  have hts := unixNano_of_representable ht
  cases r with
  | request r =>
    obtain ⟨hq, hh, hc⟩ := hr
    refine iff_of_true ⟨?_, again_same hq, again_same hh, againCookies_same hc, rfl⟩ trivial
    simp [Record.timestamp] at hts
    simp [hts]
  | response e =>
    simp only [Record.timestamp] at hts
    constructor
    · rintro ⟨hrest, -, -⟩
      simp only [ResponseEvent.mk.injEq] at hrest
      exact ⟨hrest.2.2.2.1, hrest.2.2.2.2.2.2.2.2.2.2.2.1⟩
    · rintro ⟨hsource, hct⟩
      exact ⟨by simp [hts, hsource, hct], again_same hr, rfl⟩
  | outbound e =>
    obtain ⟨hreq, hresp⟩ := hr
    simp only [Record.timestamp] at hts
    constructor
    · rintro ⟨hrest, ⟨hrest', -, -⟩, hresp'⟩
      simp only [OutboundEvent.mk.injEq] at hrest
      simp only [OutboundRequestHalf.mk.injEq] at hrest'
      refine ⟨hrest.2.2.2.1, hrest'.2.2.2.2.2.2, fun h hh => ?_⟩
      rw [Option.mem_def.mp hh] at hresp'
      cases hresp' with
      | some hsame =>
        have := hsame.rest
        simp only [OutboundResponseHalf.mk.injEq] at this
        exact this.2.2.2.2.2
    · rintro ⟨hsource, hct, hcts⟩
      refine ⟨by simp [hts, hsource], ⟨by simp [hct], again_same hreq, rfl⟩, ?_⟩
      simp only
      cases he : e.response with
      | none => exact .none
      | some h => exact .some ⟨by simp [hcts h he], again_same (hresp h he), rfl⟩

theorem not_same_request {r r' : Record} (h : r.isRequest = true) (h' : r'.isRequest = false) :
    ¬ Same r r' := by
  cases r <;> cases r' <;> simp_all [Same, Record.isRequest]

/-- **A record reads back unchanged exactly when it is a request, or an event whose
correlation source and content types are empty and whose id no stored request has.** -/
theorem readDetail_unchanged (J : Unmarshal) (rs : List Record) (r : Record) (t : Tables)
    (hrs : ∀ a ∈ rs ++ [r], J.Reads a) (hstored : Storable rs) (ht : Representable r.timestamp)
    (hw : (stored rs).write r = .ok t) :
    (∃ d, readDetail J t r.id = .ok d ∧ Same d.root r) ↔
      r.isRequest ∨ Kept r ∧ ∀ a ∈ rs, a.isRequest → a.id ≠ r.id := by
  obtain ⟨hs, rfl⟩ := (write_stored hstored).mp hw
  obtain ⟨d, hd, hroot⟩ := readDetail_root hrs hs
  have hsame := reread_same (hrs r (by simp)) ht
  have honly : (∃ d, readDetail J (stored (rs ++ [r])) r.id = .ok d ∧ Same d.root r) ↔
      Same d.root r :=
    ⟨fun ⟨d', hd', h⟩ => by rwa [← Except.ok.inj (hd'.symm.trans hd)], fun h => ⟨d, hd, h⟩⟩
  rw [honly]
  split_ifs at hroot with hc
  · rw [hroot, hsame]
    cases r with
    | request r => simp [Kept, Record.isRequest]
    | response e => simpa [Record.isRequest] using fun _ => by simpa [Record.isRequest] using hc
    | outbound e => simpa [Record.isRequest] using fun _ => by simpa [Record.isRequest] using hc
  · obtain ⟨hreq, hfree⟩ := not_or.mp hc
    refine iff_of_false (not_same_request hroot (by simpa using hreq)) ?_
    rintro (h | ⟨-, h⟩)
    · exact hreq h
    · exact hfree h

/-- JSON that reads the texts of the nil map and the nil slice only. -/
def readNull : Unmarshal where
  map text := if text = str "null" then some none else none
  cookies text := if text = str "null" then some none else none

/-- A request with a query, a header of two values, a cookie and a body. -/
def loginRequest : CapturedRequest :=
  { CapturedRequest.blank (str "r") 0 (str "c") with
    query := some ⟨[(str "next", some [str "/"])], List.nodup_singleton _⟩
    headers := some ⟨[(str "Accept", some [str "text/html", str "*/*"])], List.nodup_singleton _⟩
    cookies := some [⟨str "theme", str "dark"⟩]
    body := some (str "user=a&password=b") }

/-- JSON that reads the texts stored for this request only. -/
def readLogin : Unmarshal where
  map text := [loginRequest.query, loginRequest.headers].find? (marshalMap · == text)
  cookies text := [loginRequest.cookies].find? (marshalCookies · == text)

theorem readLogin_reads : readLogin.Reads (.request loginRequest) :=
  ⟨⟨loginRequest.query, rfl, fun _ => rfl⟩, ⟨loginRequest.headers, rfl, fun _ => rfl⟩,
    loginRequest.cookies, rfl, rfl⟩

/-- It reads back unchanged. -/
theorem readDetail_unchanged_login :
    ∃ d, readDetail readLogin (stored [.request loginRequest]) (str "r") = .ok d ∧
      Same d.root (.request loginRequest) := by
  refine (readDetail_unchanged readLogin [] (.request loginRequest) _ ?_ (by decide) (by decide)
    rfl).mpr (.inl rfl)
  intro a ha
  obtain rfl : a = .request loginRequest := by simpa using ha
  exact readLogin_reads

/-- A response event with a content type reads back without it. -/
theorem readDetail_loses_contentType :
    let e : ResponseEvent :=
      { ResponseEvent.blank (str "e") 0 (str "c") with contentType := str "text/plain" }
    (stored []).write (.response e) = .ok (stored [.response e]) ∧
      ∃ d, readDetail readNull (stored [.response e]) e.id = .ok d ∧
      d.root = .response { e with contentType := [] } ∧
        ¬ Same d.root (.response e) := by
  refine ⟨rfl, ⟨_, _⟩, rfl, rfl, fun h => ?_⟩
  have := congrArg ResponseEvent.contentType h.rest
  exact absurd this (by decide)

end HttpCatch.Sinks

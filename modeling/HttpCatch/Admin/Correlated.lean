import HttpCatch.Admin.Detail
import HttpCatch.Admin.Events
import HttpCatch.Capture.Server
import HttpCatch.Sinks.RecordJson
import HttpCatch.Sinks.SQLiteRoots

/-!
# Events are filed under their request

An application behind httpcatch is sent a request, which the capture port records, and posts events
about it to the admin port: its response, and the calls it made on the way. It says which request
they belong to by the key, or by sending on the two headers that the key is taken from (`Echoes`).

From the two handlers through redaction into the stores and out through the readers:

* `deriveCorrelation_echo` — such an event is given the key of the request.
* `filed_memory`, `filed_sqlite` — what the readers of a store make of two records with one key.
* `echoed_event_filed` — the event is shown with its request, is never listed on its own, and the
  row of the request says that it has events.
-/

namespace HttpCatch.Admin

open HttpCatch.Go HttpCatch.Capture HttpCatch.Inspect HttpCatch.Redact HttpCatch.Sinks

/-! ### The key -/

section Key

variable {U : Unicode}

/-- A key that was not made up does not depend on the identifier held ready. -/
theorem identifyCorrelation_fresh {fresh : UUID} {h : Headers} {key source : GoString}
    (hkey : identifyCorrelation U fresh h = (key, source)) (hs : source ≠ sourceSynthesized)
    (fresh' : UUID) : identifyCorrelation U fresh' h = (key, source) := by
  unfold identifyCorrelation at hkey ⊢
  dsimp only at hkey ⊢
  split at hkey
  · exact hkey
  · split_ifs at hkey ⊢
    · exact absurd (Prod.mk.inj hkey).2.symm hs
    · exact hkey

theorem identifyCorrelation_ne_nil (fresh : UUID) (h : Headers) :
    (identifyCorrelation U fresh h).1 ≠ [] := by
  unfold identifyCorrelation
  dsimp only
  split
  · case h_1 traceID ht =>
    split_ifs at ht
    intro hnil
    simpa [show traceID = [] from hnil] using (parseTraceparent_ok U ht).1
  · split_ifs with hrid
    · intro hnil
      simpa [show fresh.text = [] from hnil] using fresh.length_eq
    · exact hrid

variable (U) in
/-- **How an event says which request it belongs to**: it names the key, within the limits of the
Events API, or names none and has the headers that the key was taken from. -/
inductive Echo (req : HTTPRequest) (key source named : GoString) (headers : Headers) : Prop
  | named (h : trimSpace named = key) (hlimits : WithinLimits key) :
      Echo req key source named headers
  | headers (h : trimSpace named = []) (hs : source ≠ sourceSynthesized)
      (htrace : (toHTTPHeader headers).get traceparentHeader =
        (stampedHeaders req).get traceparentHeader)
      (hid : (toHTTPHeader headers).get requestIDHeader =
        (stampedHeaders req).get requestIDHeader) :
      Echo req key source named headers

/-- **An event that echoes a request has its key.** -/
theorem deriveCorrelation_echo {fresh : UUID} {req : HTTPRequest} {key source named : GoString}
    {headers : Headers} (hkey : identifyCorrelation U fresh (stampedHeaders req) = (key, source))
    (h : Echo req key source named headers) (fresh' : UUID) :
    (deriveCorrelation U fresh' named headers).1 = key := by
  cases h with
  | named hn hlimits =>
    have hne : key ≠ [] := by
      have hne := @identifyCorrelation_ne_nil U fresh (stampedHeaders req)
      rwa [hkey] at hne
    rw [deriveCorrelation, hn, if_pos ⟨hne, hlimits⟩]
  | headers hn hs htrace hid =>
    rw [deriveCorrelation, if_neg fun hcond => hcond.1 hn, identifyCorrelation_congr U htrace hid,
      identifyCorrelation_fresh hkey hs]

end Key

/-! ### Items -/

/-- The item of a payload is an event that echoes the request of this record. -/
def Echoes (D : Decoder) (req : HTTPRequest) (r : CapturedRequest) (item : GoString) : Prop :=
  (∀ re, D.response item = .ok re → re.type = str "response" →
      Echo req r.correlationID r.correlationSource re.correlationID re.headers) ∧
    ∀ oe q, D.outbound item = .ok oe → oe.request = some q →
      Echo req r.correlationID r.correlationSource oe.correlationID q.headers

theorem captureHandler_correlation {U : Unicode} {opts : HandlerOptions} {id correlation : UUID}
    {now : ℤ} {req : HTTPRequest} {r : CapturedRequest}
    (h : captureHandler U opts id correlation now req = some r) :
    identifyCorrelation U correlation (stampedHeaders req) =
      (r.correlationID, r.correlationSource) := by
  unfold captureHandler at h
  split at h
  · cases h
  · obtain rfl := Option.some.inj h
    rfl

/-- The record of such an item has the key of the request. -/
theorem correlationID_of_echoes {U : Unicode} {D : Decoder} {opts : HandlerOptions}
    {id correlation : UUID} {now : ℤ} {req : HTTPRequest} {r : CapturedRequest}
    (hr : captureHandler U opts id correlation now req = some r) {item : GoString}
    (hecho : Echoes D req r item) {idx : Option ℕ} {bodyCap now' : ℤ} {fresh : FreshIDs}
    {c c' : EventsCounters} {ev : Record}
    (hev : parseAndBuild U D item idx bodyCap now' fresh c = (.ok ev, c')) :
    ev.isRequest = false ∧ ev.correlationID = r.correlationID := by
  have hkey := captureHandler_correlation hr
  rcases parseAndBuild_ok hev with ⟨re, hre, htype, -, rfl⟩ | ⟨re, oe, q, -, -, hoe, hq, -, rfl⟩
  · exact ⟨rfl, deriveCorrelation_echo hkey (hecho.1 re hre htype) _⟩
  · exact ⟨rfl, deriveCorrelation_echo hkey (hecho.2 oe q hoe hq) _⟩

/-! ### Redaction -/

/-- Redaction keeps what records are found by. -/
theorem redact_keeps (U : Unicode) (L : Libraries) (rules : Ruleset) (rec : Record) :
    (redact U L rules rec).1.isRequest = rec.isRequest ∧
      (redact U L rules rec).1.id = rec.id ∧
      (redact U L rules rec).1.correlationID = rec.correlationID := by
  rw [redact.eq_def]
  split_ifs
  · exact ⟨rfl, rfl, rfl⟩
  · cases rec with
    | request r =>
      dsimp only
      rw [redactCapturedRequest_eq]
      exact ⟨rfl, rfl, rfl⟩
    | response e => exact ⟨rfl, rfl, rfl⟩
    | outbound e =>
      dsimp only
      unfold redactOutboundEvent
      dsimp only
      cases e.response with
      | none => exact ⟨rfl, rfl, rfl⟩
      | some p => exact ⟨rfl, rfl, rfl⟩

/-! ### The readers -/

/-- **An event is filed under a request**, by what the two readers of a store return. -/
structure Filed (readRoots : InspectQuery → ℕ → Option Cursor → List RootRow × Option Cursor)
    (readDetail : DetailReader) (requestID eventID : GoString) : Prop where
  /-- The detail page of the request has it. -/
  shown : ∃ d, readDetail requestID = .ok d ∧ d.root.isRequest = true ∧
    eventID ∈ d.events.map Record.id
  /-- No list has it as a row of its own. -/
  listed : ∀ q limit cursor, ∀ row ∈ (readRoots q limit cursor).1, row.id ≠ eventID
  /-- Wherever the request is listed, its row says that there are events. -/
  marked : ∀ q limit cursor, ∀ row ∈ (readRoots q limit cursor).1, row.id = requestID →
    row.hasEvents = some true

/-- Rows of a page are rows of the list. -/
theorem mem_of_mem_page {rows : List RootRow} {limit : ℕ} {cursor : Option Cursor} {row : RootRow}
    (h : row ∈ (Keyset.page RootRow.cursor limit (Keyset.after RootRow.cursor cursor rows)).1) :
    row ∈ rows :=
  List.mem_of_mem_filter (List.mem_of_mem_take h)

section Filed

variable {U : Unicode} {all : List Record} {req ev : Record}
  (hid : (all.map Record.id).Nodup) (hreq : req ∈ all) (hrequest : req.isRequest = true)
  (hev : ev ∈ all) (hevent : ev.isRequest = false) (hkey : ev.correlationID = req.correlationID)

include hid hreq hev

/-- A store whose rows are those of the records it keeps. -/
theorem Filed.of_rows
    {readRoots : InspectQuery → ℕ → Option Cursor → List RootRow × Option Cursor}
    {readDetail : DetailReader} (keeps : InspectQuery → Record → Bool) (root : Record → RootRow)
    (hrows : ∀ q limit cursor, ∀ row ∈ (readRoots q limit cursor).1,
      ∃ rec ∈ all, keeps q rec = true ∧ root rec = row)
    (hroot : ∀ rec, (root rec).id = rec.id) (hkeeps : ∀ q, keeps q ev = false)
    (hmarked : (root req).hasEvents = some true)
    (hshown : ∃ d, readDetail req.id = .ok d ∧ d.root.isRequest = true ∧
      ev.id ∈ d.events.map Record.id) :
    Filed readRoots readDetail req.id ev.id := by
  refine ⟨hshown, ?_, ?_⟩
  · intro q limit cursor row hrow heq
    obtain ⟨rec, hrec, hkept, rfl⟩ := hrows q limit cursor row hrow
    obtain rfl := List.inj_on_of_nodup_map hid hrec hev ((hroot rec).symm.trans heq)
    rw [hkeeps] at hkept
    cases hkept
  · intro q limit cursor row hrow heq
    obtain ⟨rec, hrec, -, rfl⟩ := hrows q limit cursor row hrow
    obtain rfl := List.inj_on_of_nodup_map hid hrec hreq ((hroot rec).symm.trans heq)
    exact hmarked

include hrequest hevent

theorem event_ne_request : ev.id ≠ req.id := by
  intro h
  rw [List.inj_on_of_nodup_map hid hev hreq h, hrequest] at hevent
  cases hevent

include hkey

theorem filed_memory {s : MemorySink} (hs : s.recent s.len = all) :
    Filed (s.readRoots U) s.readDetail req.id ev.id := by
  subst hs
  have hcorr : ev.correlationID ∈ requestCorrs (s.recent s.len) := by
    rw [hkey]
    exact List.mem_map_of_mem (List.mem_filter.2 ⟨hreq, hrequest⟩)
  refine Filed.of_rows hid hreq hev (memKeeps U (s.recent s.len)) (memRoot (s.recent s.len)) ?_
    (fun rec => by cases rec <;> rfl) ?_ ?_ ⟨_, detailOf_mem hid hreq, hrequest, ?_⟩
  · intro q limit cursor row hrow
    rw [memory_readRoots_eq] at hrow
    exact mem_memRows.1 (mem_of_mem_page hrow)
  · intro q
    cases ev with
    | request => cases hevent
    | response e => simp [memKeeps, memSelected, show e.correlationID ∈ _ from hcorr]
    | outbound e => simp [memKeeps, memSelected, show e.correlationID ∈ _ from hcorr]
  · cases req with
    | request r =>
      have hcount : 0 < eventCounts (s.recent s.len) r.correlationID := by
        refine List.countP_pos_iff.2 ⟨ev, hev, ?_⟩
        rw [hevent]
        exact decide_eq_true hkey
      exact congrArg some (decide_eq_true hcount)
    | response | outbound => cases hrequest
  · refine List.mem_map_of_mem (List.mem_mergeSort.2 (mem_siblings.2 ⟨hev, ?_, hkey⟩))
    exact event_ne_request hid hreq hrequest hev hevent

theorem filed_sqlite (hs : Storable all) :
    Filed (SQLiteSink.readRoots U (stored all)) (readDetail jsonUnmarshal (stored all)) req.id
      ev.id := by
  obtain ⟨l, hdetail, hperm⟩ := readDetail_stored (fun a _ => jsonUnmarshal_parses a) hid hreq
  refine Filed.of_rows hid hreq hev (sqlKeeps U all) (sqlRoot all) ?_
    (fun rec => by cases rec <;> rfl) ?_ ?_ ⟨_, hdetail, ?_, ?_⟩
  · intro q limit cursor row hrow
    rw [readRoots_eq hs hid] at hrow
    exact (mem_sqlRows hs).1 (mem_of_mem_page hrow)
  · intro q
    have hcorr : hasRequest all ev.correlationID = true :=
      List.any_eq_true.2 ⟨req, hreq, by simp [hrequest, hkey]⟩
    rw [sqlKeeps, isRoot, hevent, hcorr]
    rfl
  · cases req with
    | request r =>
      have hsome : correlated all r.correlationID ≠ [] :=
        List.ne_nil_of_mem (mem_correlated.2 ⟨hev, hevent, hkey⟩)
      exact congrArg some (decide_eq_true hsome)
    | response | outbound => cases hrequest
  · cases req with
    | request r => rfl
    | response | outbound => cases hrequest
  · have hmem : reread jsonUnmarshal ev ∈ l := by
      refine hperm.mem_iff.2 (List.mem_map_of_mem (List.mem_filter.2 ⟨hev, ?_⟩))
      simpa [hkey] using event_ne_request hid hreq hrequest hev hevent
    rw [← reread_id jsonUnmarshal ev]
    exact List.mem_map_of_mem (List.mem_mergeSort.2 hmem)

end Filed

/-- **An event that echoes a request is filed under it.** Take a request on the capture port, an
item of a payload on the admin port that echoes it, any rules for redaction, and a store that holds
what redaction made of the two records, the ring or SQLite. -/
theorem echoed_event_filed (U : Unicode) (D : Decoder) (L : Libraries) (rules : Ruleset)
    {opts : HandlerOptions} {id correlation : UUID} {now : ℤ} {req : HTTPRequest}
    {r : CapturedRequest} (hr : captureHandler U opts id correlation now req = some r)
    {item : GoString} (hecho : Echoes D req r item) {idx : Option ℕ} {bodyCap now' : ℤ}
    {fresh : FreshIDs} {c c' : EventsCounters} {ev : Record}
    (hev : parseAndBuild U D item idx bodyCap now' fresh c = (.ok ev, c')) (all : List Record)
    (hid : (all.map Record.id).Nodup) (hreq : (redact U L rules (.request r)).1 ∈ all)
    (hevt : (redact U L rules ev).1 ∈ all) :
    (∀ s : MemorySink, s.recent s.len = all →
        Filed (s.readRoots U) s.readDetail r.id ev.id) ∧
      (Storable all → Filed (SQLiteSink.readRoots U (stored all))
        (readDetail jsonUnmarshal (stored all)) r.id ev.id) := by
  obtain ⟨hevent, hkey⟩ := correlationID_of_echoes hr hecho hev
  obtain ⟨hrequest, hrid, hrkey⟩ := redact_keeps U L rules (.request r)
  obtain ⟨hevent', hevid, hevkey⟩ := redact_keeps U L rules ev
  rw [hevent] at hevent'
  have hsame := hevkey.trans (hkey.trans hrkey.symm)
  rw [← hevid, show r.id = _ from hrid.symm]
  exact ⟨fun s hs => filed_memory hid hreq hrequest hevt hevent' hsame hs,
    fun hs => filed_sqlite hid hreq hrequest hevt hevent' hsame hs⟩

/-- A request with an `X-Request-ID`. -/
def taggedRequest : HTTPRequest where
  method := str "GET"
  path := str "/"
  rawQuery := []
  host := []
  header := ⟨[(str "X-Request-Id", some [str "a1"])], List.nodup_singleton _⟩
  remoteAddr := []
  body := ⟨[], none⟩

/-- The record of the request. -/
def taggedRecord : CapturedRequest :=
  buildRecord .asciiOnly .zero .zero 0 taggedRequest [] 0 false []

/-- An event that names the key. -/
def taggedEvent : WireResponseEvent :=
  ⟨str "response", str "a1", str "shop", none, some 200, none, [], [], some 1⟩

/-- A decoder that reads every item as this event. -/
def taggedDecoder : Decoder where
  items := fun _ => .error []
  response := fun _ => .ok taggedEvent
  outbound := fun _ => .error []
  quote := fun s => s

/-- An identifier other than `UUID.zero`. -/
def otherID : UUID := ⟨str "10000000-0000-0000-0000-000000000000", rfl, rfl⟩

/-- The two records. -/
def taggedRecords : List Record :=
  [.request taggedRecord,
    .response (buildResponseRecord .asciiOnly taggedEvent 0 0 ⟨otherID, otherID⟩)]

/-- A request and its response in SQLite. -/
theorem echoed_event_filed_tagged :
    Storable taggedRecords ∧ Filed (SQLiteSink.readRoots .asciiOnly (stored taggedRecords))
      (readDetail jsonUnmarshal (stored taggedRecords)) taggedRecord.id otherID.text := by
  have hs : Storable taggedRecords := by decide
  have hecho : Echoes taggedDecoder taggedRequest taggedRecord [] := by
    constructor
    · intro re hre _
      obtain rfl := Except.ok.inj hre
      exact .named rfl (by decide)
    · intro oe q hoe
      cases hoe
  have hr : captureHandler .asciiOnly ⟨[], 0⟩ .zero .zero 0 taggedRequest = some taggedRecord := rfl
  have hev : parseAndBuild .asciiOnly taggedDecoder [] none 0 0 ⟨otherID, otherID⟩ .new =
      (.ok (.response (buildResponseRecord .asciiOnly taggedEvent 0 0 ⟨otherID, otherID⟩)), .new) :=
    rfl
  have hfiled := echoed_event_filed .asciiOnly taggedDecoder noLibraries ⟨[], [], [], [], []⟩ hr
    hecho hev taggedRecords (by decide) List.mem_cons_self
    (List.mem_cons_of_mem _ List.mem_cons_self)
  exact ⟨hs, hfiled.2 hs⟩

end HttpCatch.Admin

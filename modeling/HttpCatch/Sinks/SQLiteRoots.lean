import HttpCatch.Sinks.SQLiteMatch
import HttpCatch.Sinks.SQLiteReader

/-!
# The rows that SQLite returns

`unionRows` is what SQLite returns for the statement of `buildRootsUnionSQL`, by the
documented meaning of `LEFT JOIN`, `WHERE`, `GROUP BY`, `HAVING` and `UNION ALL`:
`requestArm` joins each request with its events and groups by request, `orphanArm` keeps
the events that no request joins. `readRoots` sorts these rows, fetches one more than a page
and cuts a page off; `aggregateRoots` counts them.

`unionRows_stored` says what the rows are in terms of the records in the tables: the roots
among the records (`isRoot`) that the query selects (`sqlSelected`), each with the row
`sqlRoot`. `walk_readRoots` is the theorem about paging: following the cursors from the
start ends, and returns these rows once each, newest first.
-/

namespace HttpCatch.Sinks

open HttpCatch.Go HttpCatch.Sql HttpCatch.Capture HttpCatch.SearchQL HttpCatch.Inspect
  HttpCatch.Keyset

/-! ### What the statement returns -/

/-- `cr`. -/
def crWord : Word := ⟨"cr", plain_of .cr⟩

/-- `e`. -/
def eWord : Word := ⟨"e", plain_of .e⟩

/-- The integer literals of the select list. -/
def intLit (w : Word) (n : ℤ) : Scalar := .lit w (.int n)

/-- `CASE WHEN COUNT(e.id) > 0 THEN 1 ELSE 0 END`. -/
def hasEventsScalar : Scalar :=
  .caseWhen (hasEventsCond true) (intLit ⟨"1", plain_of .one⟩ 1) (intLit ⟨"0", plain_of .zero⟩ 0)

/-- A row of the first arm, as `ReadRoots` scans it; the plain columns are those of the request,
which the scopes of a group have in common. -/
def requestResult (db : Db) (g : List Scope) : RootRow :=
  let sc := g.headD []
  { id := ((cr "id" (plain_of .id)).value sc).str
    kind := .request
    timestamp := ((cr "timestamp" (plain_of .timestamp)).value sc).int?.getD 0
    service := ((cr "service" (plain_of .service)).value sc).str
    method := ((cr "method" (plain_of .method)).value sc).str
    path := ((cr "path" (plain_of .path)).value sc).str
    correlationID := ((cr "correlation_id" (plain_of .correlationID)).value sc).str
    sourceIP := ((cr "source_ip" (plain_of .sourceIP)).value sc).str
    eventCount := ((Scalar.count (e "id" (plain_of .id))).eval db sc g).int?
    hasEvents := (hasEventsScalar.eval db sc g).int?.map (· ≠ 0)
    status := (maxStatus.eval db sc g).int? }

/-- A row of the second arm, as `ReadRoots` scans it. -/
def orphanResult (sc : Scope) : RootRow :=
  { id := ((e "id" (plain_of .id)).value sc).str
    kind := if (e "type" (plain_of .type)).value sc = .text (str "response") then .orphanResponse
      else .orphanOutbound
    timestamp := ((e "timestamp" (plain_of .timestamp)).value sc).int?.getD 0
    service := ((e "service" (plain_of .service)).value sc).str
    method := []
    path := []
    correlationID := ((e "correlation_id" (plain_of .correlationID)).value sc).str
    sourceIP := []
    eventCount := none
    hasEvents := none
    status :=
      if (e "type" (plain_of .type)).value sc = .text (str "response") then
        ((e "status" (plain_of .status)).value sc).int?
      else none }

/-- `SELECT … FROM captured_requests cr LEFT JOIN events e ON e.correlation_id = cr.correlation_id
WHERE … GROUP BY cr.id HAVING …`. -/
def requestArm (db : Db) (whereCond having : Option Cond) : List RootRow :=
  let joined := (db "captured_requests").flatMap fun row =>
    leftJoin db events eWord
      (.cmp .eq (.col (e "correlation_id" (plain_of .correlationID)))
        (.col (cr "correlation_id" (plain_of .correlationID)))) [("cr", row)]
  let groups := groupBy (fun sc => (cr "id" (plain_of .id)).value sc)
      (joined.filter fun sc => holds db sc [] whereCond)
  (groups.filter fun g => holds db (g.headD []) g having).map (requestResult db)

/-- `SELECT … FROM events e LEFT JOIN captured_requests cr ON cr.correlation_id = e.correlation_id
WHERE cr.id IS NULL AND …`. -/
def orphanArm (db : Db) (whereCond : Option Cond) : List RootRow :=
  let joined := (db "events").flatMap fun row =>
    leftJoin db capturedRequests crWord
      (.cmp .eq (.col (cr "correlation_id" (plain_of .correlationID)))
        (.col (e "correlation_id" (plain_of .correlationID)))) [("e", row)]
  let kept := joined.filter fun sc =>
    (cr "id" (plain_of .id)).value sc = .null && holds db sc [] whereCond
  kept.map orphanResult

section Readers

variable (U : Unicode) (t : Tables)

/-- What SQLite returns for the statement of `buildRootsUnionSQL`. -/
def unionRows (q : InspectQuery) (cursor : Option Cursor) : List RootRow :=
  requestArm t.db (requestWhere U q cursor) (havingCond q.query) ++
    if q.hasRequestOnlyFilter then [] else orphanArm t.db (orphanWhere U q cursor)

/-- `SQLiteSink.ReadRoots` for the limits of its callers: `ORDER BY timestamp DESC, id DESC
LIMIT limit + 1`, and the page. `SQLiteSink.readRoots?` is for any `int`. -/
def SQLiteSink.readRoots (q : InspectQuery) (limit : ℕ) (cursor : Option Cursor) :
    List RootRow × Option Cursor :=
  page RootRow.cursor limit ((newestFirst RootRow.cursor (unionRows U t q cursor)).take (limit + 1))

/-- `SQLiteSink.AggregateRoots`: a count, or counts by bucket and status class. -/
def SQLiteSink.aggregateRoots (q : InspectQuery) (bucketCount : ℤ) : Aggregation :=
  let rows := unionRows U t q none
  match bucketRange q bucketCount with
  | none => ⟨rows.length, []⟩
  | some (sinceNS, bucketWidth) =>
    let groups :=
      (groupBy (fun r => ((r.timestamp - sinceNS).tdiv bucketWidth, statusClass r.status)) rows)
    ⟨(groups.map List.length).sum,
      groups.foldl (fun buckets g => match g with
        | [] => buckets
        | r :: _ => tally buckets bucketCount ((r.timestamp - sinceNS).tdiv bucketWidth)
          (statusClass r.status) g.length)
        (emptyBuckets sinceNS bucketWidth bucketCount)⟩

end Readers

/-! ### Roots among the records -/

/-- The records hold a request with the correlation id. -/
def hasRequest (rs : List Record) (cid : GoString) : Bool :=
  rs.any fun rec => rec.isRequest && rec.correlationID = cid

/-- The record is a request, or an event that has none. -/
def isRoot (rs : List Record) (rec : Record) : Bool :=
  rec.isRequest || !hasRequest rs rec.correlationID

/-- The status of a response event. -/
def responseStatus? : Record → Option ℤ
  | .response ev => some ev.status
  | _ => none

/-- The greatest status among the responses with a correlation id. -/
def correlatedStatus (rs : List Record) (cid : GoString) : Option ℤ :=
  ((correlated rs cid).filterMap responseStatus?).max?

/-- The row of a root. -/
def sqlRoot (rs : List Record) : Record → RootRow
  | .request r =>
    ⟨r.id, .request, unixNano r.timestamp, r.service, r.method, r.path, r.correlationID, r.sourceIP,
      some (correlated rs r.correlationID).length, some (correlated rs r.correlationID ≠ []),
      correlatedStatus rs r.correlationID⟩
  | .response ev => ⟨ev.id, .orphanResponse, unixNano ev.timestamp, ev.service, [], [],
    ev.correlationID, [], none, none,
      some ev.status⟩
  | .outbound ev => ⟨ev.id, .orphanOutbound, unixNano ev.timestamp, ev.service, [], [],
    ev.correlationID, [], none, none,
      none⟩

/-- The time window of a query, as SQLite compares it. -/
def sqlInWindow (since until_ : Option ℤ) (timestamp : ℤ) : Bool :=
  (since.all fun t => unixNano t ≤ unixNano timestamp) &&
    until_.all fun t => unixNano timestamp < unixNano t

/-- A code that a status filter asks for. -/
def statusHit (sf : StatusFilter) (n : ℤ) : Bool :=
  if sf.exact ≠ 0 then n = sf.exact else sf.classRange.1 ≤ n ∧ n ≤ sf.classRange.2

/-- The `WHERE` clause of a term keeps the request. -/
def whereKeeps (U : Unicode) (rs : List Record) (t : Term) (r : CapturedRequest) : Bool :=
  match t.field with
  | .status | .hasEvents => true
  | _ => sqlMatches U rs t r != t.negated

/-- The `HAVING` clause of a term keeps the request: a request without a response has no status,
and neither a status nor its negation is true of it. -/
def havingKeeps (rs : List Record) (t : Term) (r : CapturedRequest) : Bool :=
  match t.field, t.statusFilter, t.hasEvents with
  | .status, some sf, _ =>
    (correlatedStatus rs r.correlationID).any fun n => statusHit sf n != t.negated
  | .hasEvents, _, some b => (decide (correlated rs r.correlationID ≠ []) == b) != t.negated
  | _, _, _ => true

/-- The scope in which the conditions on an orphan are evaluated. -/
def orphanScope (ev : Record) : Scope := [("cr", []), ("e", (eventRow? ev).getD [])]

/-- The terms of the query keep the record, which is a root. -/
def sqlSelected (U : Unicode) (rs : List Record) (q : InspectQuery) : Record → Bool
  | .request r => q.query.terms.all fun t => whereKeeps U rs t r && havingKeeps rs t r
  | ev => !q.hasRequestOnlyFilter && holds (stored rs).db (orphanScope ev) [] (orphanCond U q.query)

/-! ### The join of a request with its events -/

section Joined

variable {U : Unicode} {rs : List Record} {r : CapturedRequest}

/-- The rows of the events with a correlation id. -/
def eventRows (rs : List Record) (cid : GoString) : List Row :=
  (correlated rs cid).filterMap eventRow?

/-- What a request is joined to: its events, or a row of `NULL`s. -/
def joined (rs : List Record) (r : CapturedRequest) : List Scope :=
  (if eventRows rs r.correlationID = [] then [[]] else eventRows rs r.correlationID).map
    (joinScope · r)

theorem filter_events {cid : GoString} {p : Row → Bool}
    (hp : ∀ ev row, EventRow ev row → p row = decide (ev.correlationID = cid)) :
    ((stored rs).db "events").filter p = eventRows rs cid := by
  rw [stored_events, eventRows, correlated, List.filter_filterMap, List.filterMap_filter]
  refine List.filterMap_congr fun ev _ => ?_
  cases h : eventRow? ev with
  | none => simp
  | some row => simp [Option.filter, hp ev row (eventRow?_spec h), eventRow?_event h]

theorem leftJoin_request :
    leftJoin (stored rs).db events eWord
      (.cmp .eq (.col (e "correlation_id")) (.col (cr "correlation_id")))
      [("cr", requestRow r)] = joined rs r := by
  refine leftJoin_of_filter (filter_events fun ev row h => ?_)
  have h₁ : (e "correlation_id").value [("e", row), ("cr", requestRow r)] =
      .text ev.correlationID := h.correlationID
  have h₂ : (cr "correlation_id").value [("e", row), ("cr", requestRow r)] =
      .text r.correlationID := rfl
  have h₃ : (Cond.cmp .eq (.col (e "correlation_id")) (.col (cr "correlation_id"))).eval
      (stored rs).db
      [("e", row), ("cr", requestRow r)] [] =
        some (decide (ev.correlationID = r.correlationID)) := by
    simp [Cond.eval, Scalar.eval, Op.eval, h₁, h₂]
  exact (congrArg (· == some true) h₃).trans (by simp)

theorem mem_joined {sc : Scope} (h : sc ∈ joined rs r) : ∃ ev, sc = joinScope ev r := by
  obtain ⟨ev, -, rfl⟩ := List.mem_map.mp h
  exact ⟨ev, rfl⟩

theorem joined_ne_nil : joined rs r ≠ [] := by
  unfold joined
  split_ifs with h <;> simp [h]

theorem length_eventRows (cid : GoString) :
    (eventRows rs cid).length = (correlated rs cid).length :=
  List.filterMap_length_eq_length.mpr fun ev hev => (eventRow?_isSome ev).mpr
    (mem_correlated.mp hev).2.1

theorem eventRows_eq_nil {cid : GoString} : eventRows rs cid = [] ↔ correlated rs cid = [] := by
  rw [← List.length_eq_zero_iff, length_eventRows, List.length_eq_zero_iff]

/-- `COUNT(e.id)` over the group of a request. -/
theorem eval_count {sc : Scope} :
    (Scalar.count (e "id")).eval (stored rs).db sc (joined rs r) =
      .int (correlated rs r.correlationID).length := by
  rw [Scalar.eval, ← length_eventRows, joined, List.countP_map]
  refine congrArg (fun n : ℕ => Value.int n) ?_
  split_ifs with h
  · simp [h, joinScope, Column.value, e, List.lookup]
  · refine List.countP_eq_length.mpr fun row hrow => ?_
    obtain ⟨ev, -, hev⟩ := List.mem_filterMap.mp hrow
    have hid : (e "id").value (joinScope row r) = .text ev.id := (eventRow?_spec hev).id
    simp [hid]

/-- `MAX(CASE WHEN e.type = 'response' THEN e.status ELSE NULL END)` over the group of a request. -/
theorem eval_maxStatus {sc : Scope} :
    maxStatus.eval (stored rs).db sc (joined rs r) =
      (correlatedStatus rs r.correlationID).elim .null .int := by
  have hcase : ∀ ev row, eventRow? ev = some row →
      ((Scalar.caseWhen (.cmp .eq (.col (e "type"))
        (.lit ⟨"'response'", plain_ofList (by decide)⟩ (.text (str "response"))))
        (.col (e "status"))
          (.lit ⟨"NULL", plain_ofList
            (by decide)⟩ .null)).eval (stored rs).db (joinScope row r) []).int? =
        responseStatus? ev := by
    intro ev row h
    cases ev <;> cases h
    · rfl
    · rfl
  rw [maxStatus, Scalar.eval, maxInt_eq, correlatedStatus, joined]
  congr 2
  split_ifs with h
  · rw [eventRows_eq_nil.mp h]
    rfl
  · rw [List.filterMap_map, List.filterMap_map, eventRows, List.filterMap_filterMap]
    refine List.filterMap_congr fun ev hev => ?_
    obtain ⟨row, hrow⟩ := Option.isSome_iff_exists.mp
        ((eventRow?_isSome ev).mpr (mem_correlated.mp hev).2.1)
    rw [hrow, ← hcase ev row hrow]
    rfl

theorem eval_statusCond {db : Db} {sc : Scope} {grp : List Scope} {s : Scalar} {n : Option ℤ}
    (sf : StatusFilter) (h : s.eval db sc grp = n.elim .null .int) :
    (statusCond s sf).eval db sc grp = n.map (statusHit sf) := by
  unfold statusCond statusHit
  cases n with
  | none => split_ifs <;> simp [Cond.eval, Scalar.eval, Op.eval, h, and3]
  | some n => split_ifs <;> simp [Cond.eval, Scalar.eval, Op.eval, h]

theorem eval_hasEventsCond {sc : Scope} (b : Bool) :
    (hasEventsCond b).eval (stored rs).db sc (joined rs r) =
      some (decide (correlated rs r.correlationID ≠ []) == b) := by
  have hcount := @eval_count rs r sc
  unfold hasEventsCond
  cases b <;> rw [Cond.eval, hcount] <;> simp [Scalar.eval, Op.eval, List.length_pos_iff]

/-- **What `HAVING` says of the group of a request.** -/
theorem holds_havingCond {sc : Scope} (q : Query) :
    holds (stored rs).db sc (joined rs r) (havingCond q) =
      q.terms.all fun t => havingKeeps rs t r := by
  rw [havingCond, holds_conj, List.all_filterMap]
  refine List.all_congr rfl fun t => ?_
  have hstatus : ∀ sf, (statusCond maxStatus sf).eval (stored rs).db sc (joined rs r) =
      (correlatedStatus rs r.correlationID).map (statusHit sf) :=
        fun sf => eval_statusCond sf eval_maxStatus
  obtain ⟨field, value, wildcard, quoted, negated, name, sf, he⟩ := t
  cases field
  case status =>
    cases sf with
    | none => rfl
    | some sf =>
      cases h : correlatedStatus rs r.correlationID <;> cases negated <;>
        simp [termHaving, positiveHaving, havingKeeps, negate, Cond.eval, hstatus, h]
  case hasEvents =>
    cases he with
    | none => rfl
    | some b => cases negated <;>
        simp [termHaving, positiveHaving, havingKeeps, negate, Cond.eval, eval_hasEventsCond]
  all_goals rfl

end Joined

/-! ### The conditions on a row -/

/-- The position that a cursor names in SQLite. -/
def storedCursor (c : Cursor) : Cursor := ⟨unixNano c.timestamp, c.id⟩

/-- The cursor and the window of a query keep a row. -/
def temporalKeeps (q : InspectQuery) (cursor : Option Cursor) (timestamp : ℤ) (id : GoString) :
    Bool :=
  (cursor.all fun c => decide ((⟨unixNano timestamp, id⟩ : Cursor) < storedCursor c)) &&
    sqlInWindow q.since q.until_ timestamp

theorem all_temporalConds {db : Db} {sc : Scope} {ts i : Column} {timestamp : ℤ} {id : GoString}
    (q : InspectQuery) (cursor : Option Cursor) (ht : ts.value sc = .int (unixNano timestamp))
    (hi : i.value sc = .text id) :
    ((temporalConds ts i q cursor).all fun c => c.eval db sc [] == some true) =
      temporalKeeps q cursor timestamp id := by
  have hc : ∀ c : Cursor, ((cursorCond ts i c).eval db sc [] == some true) =
      decide ((⟨unixNano timestamp, id⟩ : Cursor) < storedCursor c) := fun c => by
    simp only [cursorCond, Cond.eval, Scalar.eval, Op.eval, ht, hi, lt3_int, lt3_text, eq3_int,
      and3_some, or3_some, Cursor.lt_iff, storedCursor]
    simp
  have hs : ∀ t, ((sinceCond ts t).eval db sc [] == some true) =
      decide (unixNano t ≤ unixNano timestamp) := fun t => by
    simp [sinceCond, Cond.eval, Scalar.eval, Op.eval, ht]
  have hu : ∀ t, ((untilCond ts t).eval db sc [] == some true) =
      decide (unixNano timestamp < unixNano t) := fun t => by
    simp [untilCond, Cond.eval, Scalar.eval, Op.eval, ht]
  unfold temporalConds temporalKeeps sqlInWindow
  rw [List.all_append, List.all_append, Bool.and_assoc]
  cases cursor <;> cases q.since <;> cases q.until_ <;> simp [hc, hs, hu]


section Rows

variable {U : Unicode} {rs : List Record} {r : CapturedRequest} {ev : Row}

theorem holds_whereCond (hb : r.body ≠ none) (q : Query) :
    holds (stored rs).db (joinScope ev r) [] (whereCond U q) =
      q.terms.all fun t => whereKeeps U rs t r := by
  rw [whereCond, holds_conj, List.all_filterMap]
  refine List.all_congr rfl fun t => ?_
  have hterm : ∀ c, termCond U t = some c →
      c.eval (stored rs).db (joinScope ev r) [] = some (sqlMatches U rs t r != t.negated) :=
        fun c hc => eval_termCond hc hb
  unfold whereKeeps
  cases h : termCond U t with
  | none => cases hf : t.field <;> simp [termCond, positiveCond, hf] at h ⊢
  | some c =>
    have hc := hterm c h
    cases hf : t.field <;> simp [termCond, positiveCond, hf, hc] at h ⊢

/-- **What `WHERE` says of a request**, whatever event it is joined to. -/
theorem holds_requestWhere (hb : r.body ≠ none) (q : InspectQuery) (cursor : Option Cursor) :
    holds (stored rs).db (joinScope ev r) [] (requestWhere U q cursor) =
      (temporalKeeps q cursor r.timestamp r.id &&
        q.query.terms.all fun t => whereKeeps U rs t r) := by
  rw [requestWhere, holds_conj_append, holds_whereCond hb]
  exact congrArg (· && _) (all_temporalConds q cursor rfl rfl)

/-- The requests among the records. -/
def requests (rs : List Record) : List CapturedRequest := rs.filterMap fun
  | .request r => some r
  | _ => none

theorem mem_requests : r ∈ requests rs ↔ Record.request r ∈ rs := by
  rw [requests, List.mem_filterMap]
  constructor
  · rintro ⟨rec, hrec, h⟩
    cases rec <;> cases h
    exact hrec
  · intro h
    exact ⟨_, h, rfl⟩

theorem requestRows_eq : (stored rs).db "captured_requests" = (requests rs).map requestRow := by
  rw [stored_requests, requests, List.map_filterMap]
  refine List.filterMap_congr fun rec _ => ?_
  cases rec <;> rfl

theorem map_filter_requests {β : Type} (p : Record → Bool) (f : Record → β) :
    ((requests rs).filter fun r => p (.request r)).map (fun r => f (.request r)) =
      (rs.filter fun rec => rec.isRequest && p rec).map f := by
  induction rs with
  | nil => rfl
  | cons rec rs ih =>
    cases rec with
    | request r => cases h : p (.request r) <;> simpa [requests, Record.isRequest, h] using ih
    | response ev => simpa [requests, Record.isRequest] using ih
    | outbound ev => simpa [requests, Record.isRequest] using ih

theorem nodup_requests (hs : Storable rs) : ((requests rs).map fun r => Value.text r.id).Nodup := by
  obtain ⟨-, hid⟩ := hs
  rw [List.nodup_iff_pairwise_ne, List.pairwise_map, requests, List.pairwise_filterMap]
  refine hid.imp fun {a b} hab r hr r' hr' h => ?_
  cases a <;> cases hr
  cases b <;> cases hr'
  exact hab rfl (Value.text.inj h)

theorem requestResult_joined :
    requestResult (stored rs).db (joined rs r) = sqlRoot rs (.request r) := by
  obtain ⟨sc, g, hg⟩ := List.exists_cons_of_ne_nil (@joined_ne_nil rs r)
  obtain ⟨ev, rfl⟩ := mem_joined (show sc ∈ joined rs r by simp [hg])
  have hhead : (joined rs r).headD [] = joinScope ev r := by rw [hg]; rfl
  have hhas : (hasEventsScalar.eval (stored rs).db (joinScope ev r) (joined rs r)).int?.map
      (fun n => decide (n ≠ 0)) =
      some (decide (correlated rs r.correlationID ≠ [])) := by
    rw [hasEventsScalar, Scalar.eval, eval_hasEventsCond]
    by_cases h : correlated rs r.correlationID = [] <;> simp [h, intLit, Scalar.eval, Value.int?]
  unfold requestResult sqlRoot
  simp only [hhead]
  rw [eval_count, eval_maxStatus, hhas]
  congr 1
  cases correlatedStatus rs r.correlationID <;> rfl

theorem sqlSelected_request (q : InspectQuery) : sqlSelected U rs q (.request r) =
    ((q.query.terms.all fun t => whereKeeps U rs t r) &&
      q.query.terms.all fun t => havingKeeps rs t r) := by
  rw [Bool.eq_iff_iff]
  simp only [sqlSelected, Bool.and_eq_true, List.all_eq_true]
  exact ⟨fun h => ⟨fun t ht => (h t ht).1, fun t ht => (h t ht).2⟩,
    fun h t ht => ⟨h.1 t ht, h.2 t ht⟩⟩

/-- **The first arm returns the requests that the query keeps.** -/
theorem requestArm_stored (hs : Storable rs) (q : InspectQuery) (cursor : Option Cursor) :
    requestArm (stored rs).db (requestWhere U q cursor) (havingCond q.query) =
      (rs.filter fun rec => rec.isRequest &&
        (temporalKeeps q cursor rec.timestamp rec.id && sqlSelected U rs q rec)).map
          (sqlRoot rs) := by
  have hkeep : ∀ r ∈ requests rs,
      (joined rs r).filter (fun sc => holds (stored rs).db sc [] (requestWhere U q cursor)) =
      if temporalKeeps q cursor r.timestamp r.id && q.query.terms.all fun t => whereKeeps U rs t
        r then joined rs r else [] := by
    intro r hr
    have hb := hs.body r (mem_requests.mp hr)
    split_ifs with h
    · refine List.filter_eq_self.mpr fun sc hsc => ?_
      obtain ⟨ev, rfl⟩ := mem_joined hsc
      rw [holds_requestWhere hb, h]
    · refine List.filter_eq_nil_iff.mpr fun sc hsc => ?_
      obtain ⟨ev, rfl⟩ := mem_joined hsc
      rw [holds_requestWhere hb]
      exact h
  have hgroups : groupBy (fun sc => (cr "id").value sc) ((requests rs).flatMap fun r =>
      (joined rs r).filter fun sc => holds (stored rs).db sc [] (requestWhere U q cursor)) = _ :=
    groupBy_flatMap (fun r sc hsc => by
      obtain ⟨ev, rfl⟩ := mem_joined (List.mem_of_mem_filter hsc)
      exact Eq.refl (Value.text r.id)) (nodup_requests hs)
  rw [← map_filter_requests (fun rec => temporalKeeps q cursor rec.timestamp rec.id &&
    sqlSelected U rs q rec)]
  unfold requestArm
  simp only [requestRows_eq, List.flatMap_map, leftJoin_request, List.filter_flatMap]
  rw [hgroups, List.map_congr_left hkeep]
  simp only [sqlSelected_request, ← Bool.and_assoc]
  exact map_filter_groups (fun _ => joined_ne_nil) (fun r => holds_havingCond q.query)
    (fun r => requestResult_joined)
    (requests rs)

theorem hasRequest_eq_false {cid : GoString} :
    hasRequest rs cid = false ↔ ∀ r ∈ requests rs, r.correlationID ≠ cid := by
  rw [hasRequest, List.any_eq_false]
  constructor
  · intro h r hr hcid
    exact h _ (mem_requests.mp hr) (decide_eq_true hcid)
  · intro h rec hrec hcid
    cases rec with
    | request r =>
      exact h r (mem_requests.mpr hrec) (of_decide_eq_true hcid)
    | response ev => simp [Record.isRequest] at hcid
    | outbound ev => simp [Record.isRequest] at hcid

/-- The requests that an event is joined to. -/
theorem filter_requests {ev : Record} {row : Row} (h : EventRow ev row) :
    ((stored rs).db "captured_requests").filter (fun row' =>
      (Cond.cmp .eq (.col (cr "correlation_id")) (.col (e "correlation_id"))).eval (stored rs).db
        [("cr", row'), ("e", row)] [] == some true) =
      ((requests rs).filter fun r => r.correlationID = ev.correlationID).map requestRow := by
  rw [requestRows_eq, List.filter_map]
  refine congrArg _ (List.filter_congr fun r _ => ?_)
  have h₁ : (cr "correlation_id").value [("cr", requestRow r), ("e", row)] =
      .text r.correlationID := rfl
  have h₂ : (e "correlation_id").value [("cr", requestRow r), ("e", row)] =
      .text ev.correlationID := h.correlationID
  simp [Cond.eval, Scalar.eval, Op.eval, h₁, h₂]

theorem orphanResult_scope {ev : Record} (h : ev.isRequest = false) :
    orphanResult (orphanScope ev) = sqlRoot rs ev := by
  cases ev with
  | request r => cases h
  | response ev => rfl
  | outbound ev => rfl

/-- What becomes of an event in the anti-join: it is dropped where a request joins it. -/
theorem orphan_rows {ev : Record} {row : Row} (h : eventRow? ev = some row) (w : Option Cond) :
    ((leftJoin (stored rs).db capturedRequests crWord
      (.cmp .eq (.col (cr "correlation_id")) (.col (e "correlation_id")))
      [("e", row)]).filter fun sc => (cr "id").value sc = .null && holds (stored rs).db sc [] w).map
        orphanResult =
      if !hasRequest rs ev.correlationID && holds (stored rs).db (orphanScope ev)
      [] w then [sqlRoot rs ev] else [] := by
  have hscope : [("cr", []), ("e", row)] = orphanScope ev := by rw [orphanScope, h]; rfl
  rw [leftJoin_of_filter (@filter_requests rs _ _ (eventRow?_spec h))]
  cases hreq : hasRequest rs ev.correlationID with
  | false =>
    have hnone : ((requests rs).filter fun r => r.correlationID = ev.correlationID) = [] := by
      simpa [List.filter_eq_nil_iff] using hasRequest_eq_false.mp hreq
    have hnull : (cr "id").value (orphanScope ev) = .null := rfl
    have hroot := @orphanResult_scope rs _ (eventRow?_event h)
    rw [hnone, List.map_nil, if_pos rfl, List.map_singleton, show crWord.name =
      "cr" from rfl, hscope]
    cases hw : holds (stored rs).db (orphanScope ev) [] w <;> simp [hnull, hw, hroot]
  | true =>
    have hsome : ((requests rs).filter fun r => r.correlationID = ev.correlationID) ≠ [] := by
      intro h0
      have := hasRequest_eq_false.mpr (by simpa [List.filter_eq_nil_iff] using h0)
      simp [hreq] at this
    rw [if_neg (by simpa using hsome)]
    refine (congrArg (List.map orphanResult) (List.filter_eq_nil_iff.mpr fun sc hsc => ?_)).trans
      (by simp)
    obtain ⟨row', hrow', rfl⟩ := List.mem_map.mp hsc
    obtain ⟨r, -, rfl⟩ := List.mem_map.mp hrow'
    have hid : (cr "id").value ((crWord.name, requestRow r) :: [("e", row)]) = .text r.id := rfl
    simp [hid]

theorem holds_orphanWhere {ev : Record} (h : ev.isRequest = false) (q : InspectQuery)
    (cursor : Option Cursor) :
    holds (stored rs).db (orphanScope ev) [] (orphanWhere U q cursor) =
      (temporalKeeps q cursor ev.timestamp ev.id &&
        holds (stored rs).db (orphanScope ev) [] (orphanCond U q.query)) := by
  rw [orphanWhere, holds_conj_append]
  refine congrArg (· && _) (all_temporalConds q cursor ?_ ?_) <;> cases ev <;> first | rfl | cases h

theorem flatMap_filterMap {α β γ : Type} {f : α → Option β} {g : β → List γ} {p : α → Bool}
    {f' : α → γ} (hsome : ∀ a b, f a = some b → g b = if p a then [f' a] else [])
    (hnone : ∀ a, f a = none → p a = false) (l : List α) :
    (l.filterMap f).flatMap g = (l.filter p).map f' := by
  induction l with
  | nil => rfl
  | cons a l ih =>
    cases h : f a with
    | none => rw [List.filterMap_cons_none h, ih, List.filter_cons_of_neg (by simp [hnone a h])]
    | some b =>
      rw [List.filterMap_cons_some h, List.flatMap_cons, ih, hsome a b h, List.filter_cons]
      split_ifs <;> rfl

/-- **The second arm returns the events without a request that the query keeps.** -/
theorem orphanArm_stored (q : InspectQuery) (cursor : Option Cursor) :
    orphanArm (stored rs).db (orphanWhere U q cursor) =
      (rs.filter fun rec => !rec.isRequest && !hasRequest rs rec.correlationID &&
        (temporalKeeps q cursor rec.timestamp rec.id &&
        holds (stored rs).db (orphanScope rec) [] (orphanCond U q.query))).map (sqlRoot rs) := by
  unfold orphanArm
  simp only [stored_events, List.filter_flatMap, List.map_flatMap]
  refine flatMap_filterMap (fun ev row h => ?_) (fun ev h => ?_) rs
  · rw [orphan_rows h, holds_orphanWhere (eventRow?_event h), eventRow?_event h]
    simp
  · cases ev <;> cases h
    rfl

/-- **What SQLite returns, in terms of the records**: the roots that the query keeps, requests
before orphans. -/
theorem unionRows_stored (hs : Storable rs) (q : InspectQuery) (cursor : Option Cursor) :
    unionRows U (stored rs) q cursor =
      ((rs.filter fun rec => isRoot rs rec &&
        (temporalKeeps q cursor rec.timestamp rec.id && sqlSelected U rs q rec)).filter
        Record.isRequest).map (sqlRoot rs) ++
      ((rs.filter fun rec => isRoot rs rec &&
        (temporalKeeps q cursor rec.timestamp rec.id && sqlSelected U rs q rec)).filter
        (!Record.isRequest ·)).map (sqlRoot rs) := by
  rw [unionRows, requestArm_stored hs, orphanArm_stored, List.filter_filter, List.filter_filter]
  refine congrArg₂ _ (congrArg _ (List.filter_congr fun rec _ => ?_)) ?_
  · cases h : rec.isRequest <;> simp [isRoot, h]
  · split_ifs with h
    · refine (List.map_eq_nil_iff.mpr (List.filter_eq_nil_iff.mpr fun rec _ => ?_)).symm
      cases rec <;> simp [Record.isRequest, sqlSelected, h]
    · refine congrArg _ (List.filter_congr fun rec _ => ?_)
      cases rec <;> simp [Record.isRequest, sqlSelected, isRoot, h]

end Rows

/-! ### Paging -/

section Paging

variable {U : Unicode} {rs : List Record}

theorem sqlRoot_cursor (rec : Record) :
    (sqlRoot rs rec).cursor = ⟨unixNano rec.timestamp, rec.id⟩ := by cases rec <;> rfl

/-- The rows of a query, newest first. -/
def sqlRows (U : Unicode) (rs : List Record) (q : InspectQuery) : List RootRow :=
  newestFirst RootRow.cursor (unionRows U (stored rs) q none)

/-- The records whose rows a query returns. -/
def sqlKeeps (U : Unicode) (rs : List Record) (q : InspectQuery) (rec : Record) : Bool :=
  isRoot rs rec && (sqlInWindow q.since q.until_ rec.timestamp && sqlSelected U rs q rec)

/-- `SQLiteSink.AggregateRoots` counts the rows, with a histogram or without. -/
theorem aggregateRoots_total (q : InspectQuery) (bucketCount : ℤ) :
    (SQLiteSink.aggregateRoots U (stored rs) q bucketCount).total = (sqlRows U rs q).length := by
  rw [sqlRows, (newestFirst_perm _).length_eq, SQLiteSink.aggregateRoots]
  cases bucketRange q bucketCount with
  | none => rfl
  | some w => exact sum_length_groupBy _

variable (hs : Storable rs)

include hs

theorem unionRows_perm (q : InspectQuery) :
    (unionRows U (stored rs) q none).Perm ((rs.filter (sqlKeeps U rs q)).map (sqlRoot rs)) := by
  rw [unionRows_stored hs, ← List.map_append]
  exact (List.filter_append_perm _ _).map _

/-- A cursor takes away the rows down to its position. -/
theorem unionRows_cursor (q : InspectQuery) (cursor : Option Cursor) :
    unionRows U (stored rs) q cursor =
      after RootRow.cursor (cursor.map storedCursor) (unionRows U (stored rs) q none) := by
  have hkeep : ∀ p : Record → Bool,
      ((rs.filter fun rec => isRoot rs rec && (temporalKeeps q cursor rec.timestamp rec.id &&
        sqlSelected U rs q rec)).filter p).map (sqlRoot rs) =
      after RootRow.cursor (cursor.map storedCursor)
        (((rs.filter fun rec => isRoot rs rec && (temporalKeeps q none rec.timestamp rec.id &&
          sqlSelected U rs q rec)).filter p).map (sqlRoot rs)) := by
    intro p
    rw [after, List.filter_map, List.filter_filter, List.filter_filter, List.filter_filter]
    refine congrArg _ (List.filter_congr fun rec _ => ?_)
    simp only [Function.comp_apply, sqlRoot_cursor, temporalKeeps, Option.all_map, Option.all_none,
      Bool.true_and]
    cases cursor.all _ <;> simp
  rw [unionRows_stored hs, unionRows_stored hs, hkeep, hkeep, after, after, after,
    List.filter_append]

theorem mem_sqlRows {q : InspectQuery} {row : RootRow} :
    row ∈ sqlRows U rs q ↔ ∃ rec ∈ rs, sqlKeeps U rs q rec = true ∧ sqlRoot rs rec = row := by
  rw [sqlRows, mem_newestFirst, (unionRows_perm hs q).mem_iff, List.mem_map]
  simp [and_assoc]

theorem storedCursor_sqlRows {q : InspectQuery} {row : RootRow} (h : row ∈ sqlRows U rs q) :
    storedCursor row.cursor = row.cursor := by
  obtain ⟨rec, -, -, rfl⟩ := (mem_sqlRows hs).mp h
  rw [sqlRoot_cursor, storedCursor, unixNano_of_representable (unixNano_representable _)]

theorem length_sqlRows (q : InspectQuery) :
    (sqlRows U rs q).length = (rs.filter (sqlKeeps U rs q)).length := by
  rw [sqlRows, (newestFirst_perm _).length_eq, (unionRows_perm hs q).length_eq, List.length_map]

variable (hid : (rs.map Record.id).Nodup)

include hid

theorem nodup_unionRows (q : InspectQuery) :
    ((unionRows U (stored rs) q none).map RootRow.id).Nodup := by
  have hids : ((rs.filter (sqlKeeps U rs q)).map (sqlRoot rs)).map RootRow.id =
      (rs.filter (sqlKeeps U rs q)).map Record.id := by
    rw [List.map_map]
    exact List.map_congr_left fun rec _ => congrArg Cursor.id (sqlRoot_cursor rec)
  rw [((unionRows_perm hs q).map RootRow.id).nodup_iff, hids]
  exact (List.filter_sublist.map Record.id).nodup hid

theorem newest_sqlRows (q : InspectQuery) :
    Newest RootRow.cursor (sqlRows U rs q) :=
  newest_newestFirst (nodup_cursors (nodup_unionRows hs hid q))

/-- `SQLiteSink.ReadRoots` returns a page of the rows after the cursor. -/
theorem readRoots_eq (q : InspectQuery) (limit : ℕ) (cursor : Option Cursor) :
    SQLiteSink.readRoots U (stored rs) q limit cursor =
      page RootRow.cursor limit
        (after RootRow.cursor (cursor.map storedCursor) (sqlRows U rs q)) := by
  have hrows : newestFirst RootRow.cursor (unionRows U (stored rs) q cursor) =
      after RootRow.cursor (cursor.map storedCursor) (sqlRows U rs q) := by
    rw [unionRows_cursor hs, after, newestFirst_filter (nodup_cursors (nodup_unionRows hs hid q))]
    rfl
  rw [SQLiteSink.readRoots, hrows, page_take_succ]

/-- **Paging SQLite to the end returns its rows**, once each and newest first. -/
theorem walk_readRoots (q : InspectQuery) {limit : ℕ} (hl : 0 < limit) {n : ℕ}
    (hn : rs.length < n) :
    ∃ pages, walk (SQLiteSink.readRoots U (stored rs) q limit) n none = some pages ∧
      pages.flatten = sqlRows U rs q := by
  have hcongr := @walk_congr _ _ (SQLiteSink.readRoots U (stored rs) q limit)
    (fun c => page RootRow.cursor limit (after RootRow.cursor c (sqlRows U rs q)))
    (fun k => storedCursor k = k) (fun c hc => by
      rw [readRoots_eq hs hid]
      congr 2
      cases c with
      | none => rfl
      | some k => exact congrArg some (hc k rfl)) (fun c k hk => by
      -- a cursor is the position of a row
      obtain ⟨-, ⟨row, hrow, rfl⟩, -⟩ := page_next ((newest_sqlRows hs hid q).after c) hl hk
      exact storedCursor_sqlRows hs (mem_after.mp (List.mem_of_getElem? hrow)).1) n none (by simp)
  have hlen := (length_sqlRows (U := U) hs q).trans_le (List.length_filter_le _ rs)
  rw [hcongr]
  simpa [after] using walk_page (newest_sqlRows hs hid q) hl n none
    (by simpa [after] using hlen.trans_lt hn)

end Paging

/-! ### A term and its negation -/

section Negation

variable {U : Unicode} {rs : List Record}

/-- The request is among the rows of a query. -/
def Returned (rows : List RootRow) (r : CapturedRequest) : Prop :=
  ∃ row ∈ rows, row.kind = .request ∧ row.id = r.id

theorem returned_sqlRows (hs : Storable rs) {q : InspectQuery} {r : CapturedRequest}
    (hr : Record.request r ∈ rs) (hw : sqlInWindow q.since q.until_ r.timestamp = true) :
    Returned (sqlRows U rs q) r ↔ sqlSelected U rs q (.request r) = true := by
  constructor
  · rintro ⟨row, hrow, hkind, hid⟩
    obtain ⟨rec, hrec, hkeep, rfl⟩ := (mem_sqlRows hs).mp hrow
    cases rec with
    | request r' =>
      -- the ids of requests are distinct, so it is the same request
      have heq : r' = r := List.inj_on_of_nodup_map (nodup_requests hs) (mem_requests.mpr hrec)
        (mem_requests.mpr hr)
        (congrArg Value.text hid)
      subst heq
      simp only [sqlKeeps, Bool.and_eq_true] at hkeep
      exact hkeep.2.2
    | response ev => cases hkind
    | outbound ev => cases hkind
  · intro hsel
    refine ⟨sqlRoot rs (.request r), (mem_sqlRows hs).mpr ⟨_, hr, ?_, rfl⟩, rfl, rfl⟩
    simp only [sqlKeeps, isRoot, Record.isRequest, Record.timestamp, Bool.true_or,
      Bool.true_and, hw, hsel]

theorem correlatedStatus_isSome {cid : GoString} :
    (correlatedStatus rs cid).isSome ↔ ∃ ev, Record.response ev ∈ rs ∧ ev.correlationID = cid := by
  rw [correlatedStatus, List.isSome_max?_iff, ← List.length_pos_iff, List.length_pos_iff_exists_mem]
  constructor
  · rintro ⟨n, hn⟩
    obtain ⟨rec, hrec, h⟩ := List.mem_filterMap.mp hn
    cases rec <;> cases h
    exact ⟨_, (mem_correlated.mp hrec).1, (mem_correlated.mp hrec).2.2⟩
  · rintro ⟨ev, hev, hcid⟩
    exact ⟨ev.status, List.mem_filterMap.mpr ⟨_, mem_correlated.mpr ⟨hev, rfl, hcid⟩, rfl⟩⟩

/-- A term and its negation, on a request: exactly one keeps it, save that neither a status nor
its negation keeps a request without a response. -/
theorem selected_negation {t : Term} (ht : Accepted t) (hpos : t.negated = false)
    (r : CapturedRequest) (q q' : InspectQuery) (hq : q.query = ⟨[t]⟩)
    (hq' : q'.query = ⟨[{ t with negated := true }]⟩) :
    Xor (sqlSelected U rs q (.request r) = true) (sqlSelected U rs q' (.request r) = true) ↔
      (t.field = .status → ∃ ev, Record.response ev ∈ rs ∧ ev.correlationID = r.correlationID) := by
  have hxor : ∀ a : Bool, Xor (a = true) (a = false) := by decide
  obtain ⟨t', hneg, hf', hs', hh', hm', hq'⟩ : ∃ t' : Term, t'.negated = true ∧ t'.field = t.field ∧
      t'.statusFilter = t.statusFilter ∧ t'.hasEvents = t.hasEvents ∧
      sqlMatches U rs t' r = sqlMatches U rs t r ∧
        q'.query = ⟨[t']⟩ := ⟨{ t with negated := true }, rfl, rfl, rfl, rfl, rfl, hq'⟩
  rw [← correlatedStatus_isSome, sqlSelected_request, sqlSelected_request, hq, hq']
  simp only [List.all_cons, List.all_nil, Bool.and_true, whereKeeps, havingKeeps, hf', hs', hh',
    hm', hneg, hpos]
  cases hf : t.field
  case status =>
    obtain ⟨sf, hsf, -⟩ := ht.status hf
    cases h : correlatedStatus rs r.correlationID with
    | none => simp [hsf]
    | some n => simpa [hsf] using hxor (statusHit sf n)
  case hasEvents =>
    obtain ⟨b, hb⟩ := ht.hasEvents hf
    simpa only [hb, Bool.true_and, Bool.bne_false, Bool.bne_true, Bool.not_eq_true', reduceCtorEq,
      IsEmpty.forall_iff, iff_true] using hxor (decide (correlated rs r.correlationID ≠ []) == b)
  all_goals simpa using hxor (sqlMatches U rs t r)

end Negation

end HttpCatch.Sinks

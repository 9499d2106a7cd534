import HttpCatch.Capture.Record
import HttpCatch.Library.SqlSyntax

/-!
# The SQLite sink

`internal/sinks/sqlite.go`: `Write` inserts one row for a record, into `captured_requests`
or into `events`. Columns that a kind of event does not have are `NULL`; header maps are
stored as the JSON text `json.Marshal` makes of them, bound as a blob; a nil body is bound
as `NULL`, which `captured_requests.body` refuses.

* `writeAll_ok` — writing a list of records succeeds exactly when they are `Storable`, and
  then the tables hold the rows of the records in order (`stored`).

Everything the readers compute is stated over `stored`.
-/

namespace HttpCatch.Sinks

open HttpCatch.Go HttpCatch.Json HttpCatch.Sql HttpCatch.Capture

/-! ### Rows -/

/-- A `[]byte` argument. -/
def bytes : Option GoString → Value
  | none => .null
  | some b => .blob b

/-- A `bool`, as the sink stores it. -/
def flag (b : Bool) : Value := .int (if b then 1 else 0)

/-- `json.Marshal` of a `map[string][]string`. -/
def marshalMap (h : Headers) : GoString := marshal (h.map StringMap.entries)

/-- `json.Marshal` of a `[]Cookie`. -/
def marshalCookies : Option (List Cookie) → GoString
  | none => str "null"
  | some cs =>
    0x5B :: (commaJoin (cs.map fun c =>
      str "\x7b\"name\":" ++ marshalString c.name ++ str ",\"value\":" ++ marshalString c.value ++
      str "\x7d") ++ [0x5D])

/-- The host of a request, as `writeCapturedRequest` computes it. -/
def hostColumn (r : CapturedRequest) : GoString := (r.headers.values hostHeader).headD []

/-- The row of a captured request. -/
def requestRow (r : CapturedRequest) : Row :=
  [("id", .text r.id), ("timestamp", .int (unixNano r.timestamp)), ("service", .text r.service),
    ("service_source", .text r.serviceSource), ("host", .text (hostColumn r)),
    ("correlation_id", .text r.correlationID), ("correlation_source", .text r.correlationSource),
    ("method", .text r.method), ("path", .text r.path), ("source_ip", .text r.sourceIP),
    ("content_type", .text r.contentType), ("query", .blob (marshalMap r.query)),
    ("headers", .blob (marshalMap r.headers)), ("cookies", .blob (marshalCookies r.cookies)),
    ("body", bytes r.body), ("body_truncated", flag r.bodyTruncated),
    ("body_original_size", .int r.bodyOriginalSize)]

/-- The row of a response event. -/
def responseRow (r : ResponseEvent) : Row :=
  [("id", .text r.id), ("timestamp", .int (unixNano r.timestamp)), ("type", .text (str "response")),
    ("correlation_id", .text r.correlationID), ("service", .text r.service),
    ("service_source", .text r.serviceSource), ("status", .int r.status),
    ("duration_ms", .int r.durationMS), ("request_method", .null), ("request_path", .null),
    ("request_headers", .null), ("request_body", .null), ("request_body_truncated", .null),
    ("request_body_original_size", .null), ("response_status", .null),
    ("response_headers", .blob (marshalMap r.headers)), ("response_body", bytes r.body),
    ("response_body_truncated", flag r.bodyTruncated),
    ("response_body_original_size", .int r.bodyOriginalSize)]

/-- The row of an outbound event; the response columns are `NULL` when there was no response. -/
def outboundRow (r : OutboundEvent) : Row :=
  [("id", .text r.id), ("timestamp", .int (unixNano r.timestamp)), ("type", .text (str "outbound")),
    ("correlation_id", .text r.correlationID), ("service", .text r.service),
    ("service_source", .text r.serviceSource), ("status", .null),
    ("duration_ms", .int r.durationMS), ("request_method", .text r.request.method),
    ("request_path", .text r.request.path),
    ("request_headers", .blob (marshalMap r.request.headers)),
    ("request_body", bytes r.request.body),
    ("request_body_truncated", flag r.request.bodyTruncated),
    ("request_body_original_size", .int r.request.bodyOriginalSize),
    ("response_status", (r.response.map fun h => .int h.status).getD .null),
    ("response_headers", (r.response.map fun h => .blob (marshalMap h.headers)).getD .null),
    ("response_body", (r.response.map fun h => bytes h.body).getD .null),
    ("response_body_truncated", (r.response.map fun h => flag h.bodyTruncated).getD .null),
    ("response_body_original_size", (r.response.map fun h => .int h.bodyOriginalSize).getD .null)]

/-- The row of a request record. -/
def requestRow? : Record → Option Row
  | .request r => some (requestRow r)
  | _ => none

/-- The row of an event record. -/
def eventRow? : Record → Option Row
  | .request _ => none
  | .response e => some (responseRow e)
  | .outbound e => some (outboundRow e)

/-! ### Tables -/

/-- The two tables. -/
structure Tables where
  capturedRequests : List Row
  events : List Row

/-- The tables as a database. -/
def Tables.db (t : Tables) : Db
  | "captured_requests" => t.capturedRequests
  | "events" => t.events
  | _ => []

/-- Why an insert fails. -/
inductive InsertError where
  /-- A row with this id is there already. -/
  | duplicateID
  /-- A column that is `NOT NULL` would be `NULL`. -/
  | notNull
  deriving DecidableEq

/-- `INSERT` under `PRIMARY KEY (id)` and `NOT NULL` on the given columns. -/
def insert (rows : List Row) (required : List String) (row : Row) : Except InsertError (List Row) :=
  if required.any fun c => (row.lookup c).getD .null = .null then .error .notNull
  else if rows.any fun r => r.lookup "id" = row.lookup "id" then .error .duplicateID
  else .ok (rows ++ [row])

/-- The `NOT NULL` columns of `captured_requests`. -/
def requestRequired : List String :=
  ["timestamp", "service", "service_source", "host", "correlation_id", "correlation_source",
    "method", "path", "source_ip", "content_type", "query", "headers", "cookies", "body",
    "body_truncated", "body_original_size"]

/-- The `NOT NULL` columns of `events`. -/
def eventRequired : List String :=
  ["timestamp", "type", "correlation_id", "service", "service_source", "duration_ms"]

/-- `SQLiteSink.Write`. -/
def Tables.write (t : Tables) : Record → Except InsertError Tables
  | .request r =>
    (insert t.capturedRequests requestRequired (requestRow r)).map fun rows =>
      { t with capturedRequests := rows }
  | .response r =>
    (insert t.events eventRequired (responseRow r)).map fun rows => { t with events := rows }
  | .outbound r =>
    (insert t.events eventRequired (outboundRow r)).map fun rows => { t with events := rows }

/-- Write records one after the other; the first error ends it. -/
def Tables.writeAll (t : Tables) : List Record → Except InsertError Tables
  | [] => .ok t
  | r :: rs => (t.write r).bind fun t => t.writeAll rs

/-- The tables that hold the rows of some records. -/
def stored (records : List Record) : Tables :=
  ⟨records.filterMap requestRow?, records.filterMap eventRow?⟩

/-- Records that the sink can store together: request bodies are not nil, and no two records
of one table share an id. -/
structure Storable (records : List Record) : Prop where
  body : ∀ r, Record.request r ∈ records → r.body ≠ none
  id : records.Pairwise fun a b => a.isRequest = b.isRequest → a.id ≠ b.id

/-- The record is no request with a nil body. -/
def hasBody : Record → Bool
  | .request r => r.body.isSome
  | _ => true

instance (records : List Record) : Decidable (Storable records) :=
  decidable_of_iff ((∀ rec ∈ records, hasBody rec) ∧
      records.Pairwise fun a b => a.isRequest = b.isRequest → a.id ≠ b.id)
    ⟨fun h => ⟨fun r hr => Option.isSome_iff_ne_none.mp (h.1 _ hr), h.2⟩,
      fun h => ⟨fun rec hrec => by
      cases rec with
      | request r => exact Option.isSome_iff_ne_none.mpr (h.body r hrec)
      | response ev => rfl
      | outbound ev => rfl, h.id⟩⟩

variable {row : Row} {r : Record} {rs : List Record} {t : Tables}

theorem insert_eq_ok {rows rows' : List Row} {required : List String} :
    insert rows required row = .ok rows' ↔
      (∀ c ∈ required, (row.lookup c).getD .null ≠ .null) ∧
        (∀ r ∈ rows, r.lookup "id" ≠ row.lookup "id") ∧
        rows' = rows ++ [row] := by
  unfold insert
  split_ifs with h₁ h₂
  · simp only [List.any_eq_true, decide_eq_true_eq] at h₁
    obtain ⟨c, hc, hn⟩ := h₁
    simpa using fun h => absurd hn (h c hc)
  · simp only [List.any_eq_true, decide_eq_true_eq] at h₂
    obtain ⟨r, hr, hid⟩ := h₂
    simpa using fun _ h => absurd hid (h r hr)
  · simp only [List.any_eq_true, decide_eq_true_eq, not_exists, not_and] at h₁ h₂
    simp only [Except.ok.injEq]
    exact ⟨fun h => ⟨h₁, h₂, h.symm⟩, fun h => h.2.2.symm⟩

theorem requestRow_required (r : CapturedRequest) :
    (∀ c ∈ requestRequired, ((requestRow r).lookup c).getD .null ≠ .null) ↔ r.body ≠ none := by
  cases h : r.body <;> simp [requestRequired, requestRow, List.lookup, bytes, flag, h]

theorem responseRow_required (r : ResponseEvent) :
    ∀ c ∈ eventRequired, ((responseRow r).lookup c).getD .null ≠ .null := by
  simp [eventRequired, responseRow, List.lookup]

theorem outboundRow_required (r : OutboundEvent) :
    ∀ c ∈ eventRequired, ((outboundRow r).lookup c).getD .null ≠ .null := by
  simp [eventRequired, outboundRow, List.lookup]

theorem requestRow?_id (h : requestRow? r = some row) : row.lookup "id" = some (.text r.id) := by
  cases r <;> simp only [requestRow?, Option.some.injEq, reduceCtorEq] at h
  subst h
  rfl

theorem eventRow?_id (h : eventRow? r = some row) : row.lookup "id" = some (.text r.id) := by
  cases r <;> simp only [eventRow?, Option.some.injEq, reduceCtorEq] at h
  all_goals
    subst h
    rfl

/-- No row of a table has an id exactly when no record of that table has it. -/
theorem rows_ids {row? : Record → Option Row} (sel : Bool) {id : GoString}
    (hid : ∀ r row, row? r = some row → row.lookup "id" = some (.text r.id))
    (hsel : ∀ r : Record, (row? r).isSome ↔ r.isRequest = sel) :
    (∀ row ∈ rs.filterMap row?, row.lookup "id" ≠ some (Value.text id)) ↔
      ∀ r ∈ rs, r.isRequest = sel → r.id ≠ id := by
  constructor
  · intro h r hr hreq heq
    obtain ⟨row, hrow⟩ := Option.isSome_iff_exists.mp ((hsel r).mpr hreq)
    exact h row (List.mem_filterMap.mpr ⟨r, hr, hrow⟩) (by rw [hid r row hrow, heq])
  · intro h row hrow heq
    obtain ⟨r, hr, hr'⟩ := List.mem_filterMap.mp hrow
    rw [hid r row hr'] at heq
    exact h r hr ((hsel r).mp (by simp [hr'])) (by simpa using heq)

theorem storable_append :
    Storable (rs ++ [r]) ↔ Storable rs ∧ (∀ q, r = .request q → q.body ≠ none) ∧
      ∀ a ∈ rs, a.isRequest = r.isRequest → a.id ≠ r.id := by
  constructor
  · rintro ⟨hb, hid⟩
    rw [List.pairwise_append] at hid
    exact ⟨⟨fun q hq => hb q (List.mem_append_left _ hq), hid.1⟩, fun q hq => hb q (by simp [hq]),
      fun a ha => hid.2.2 a ha r (by simp)⟩
  · rintro ⟨⟨hb, hid⟩, hr, hrid⟩
    refine ⟨fun q hq => ?_, List.pairwise_append.mpr ⟨hid, by simp, ?_⟩⟩
    · rcases List.mem_append.mp hq with hq | hq
      · exact hb q hq
      · exact hr q (by simpa [eq_comm] using hq)
    · intro a ha b hb'
      obtain rfl : b = r := by simpa using hb'
      exact hrid a ha

theorem map_eq_ok {ε α β : Type} {x : Except ε α} {f : α → β} {b : β} :
    x.map f = .ok b ↔ ∃ a, x = .ok a ∧ f a = b := by
  cases x <;> simp [Except.map]

theorem requestRow?_isSome (r : Record) : (requestRow? r).isSome ↔ r.isRequest = true := by
  cases r <;> simp [requestRow?, Record.isRequest]

theorem eventRow?_isSome (r : Record) : (eventRow? r).isSome ↔ r.isRequest = false := by
  cases r <;> simp [eventRow?, Record.isRequest]

/-- An insert into the table of a record, after the rows of other records. -/
theorem insert_rows {row? : Record → Option Row} (sel : Bool) {rows' : List Row}
    {required : List String}
    (hid : ∀ r row, row? r = some row → row.lookup "id" = some (.text r.id))
    (hsel : ∀ r : Record, (row? r).isSome ↔ r.isRequest = sel) (hrow : row? r = some row) :
    insert (rs.filterMap row?) required row = .ok rows' ↔
      (∀ c ∈ required, (row.lookup c).getD .null ≠ .null) ∧
        (∀ a ∈ rs, a.isRequest = r.isRequest → a.id ≠ r.id) ∧
        rows' = (rs ++ [r]).filterMap row? := by
  have hr : r.isRequest = sel := (hsel r).mp (by simp [hrow])
  rw [insert_eq_ok, hid r row hrow, rows_ids sel hid hsel, hr, List.filterMap_append]
  simp [hrow]

/-- An insert succeeds exactly when the records stay storable, and adds the row of its record. -/
theorem write_stored (hs : Storable rs) :
    (stored rs).write r = .ok t ↔ Storable (rs ++ [r]) ∧ t = stored (rs ++ [r]) := by
  rw [storable_append]
  cases r with
  | request q =>
    simp only [Tables.write, map_eq_ok, stored,
      insert_rows true (fun _ _ => requestRow?_id) requestRow?_isSome (r := .request q) rfl,
      requestRow_required]
    constructor
    · rintro ⟨rows, ⟨hb, hid, rfl⟩, rfl⟩
      exact ⟨⟨hs, by simpa using hb, hid⟩, by simp [eventRow?]⟩
    · rintro ⟨⟨-, hb, hid⟩, rfl⟩
      exact ⟨_, ⟨hb q rfl, hid, rfl⟩, by simp [eventRow?]⟩
  | response q =>
    simp only [Tables.write, map_eq_ok, stored,
      insert_rows false (fun _ _ => eventRow?_id) eventRow?_isSome (r := .response q) rfl]
    constructor
    · rintro ⟨rows, ⟨-, hid, rfl⟩, rfl⟩
      exact ⟨⟨hs, by simp, hid⟩, by simp [requestRow?]⟩
    · rintro ⟨⟨-, -, hid⟩, rfl⟩
      exact ⟨_, ⟨responseRow_required q, hid, rfl⟩, by simp [requestRow?]⟩
  | outbound q =>
    simp only [Tables.write, map_eq_ok, stored,
      insert_rows false (fun _ _ => eventRow?_id) eventRow?_isSome (r := .outbound q) rfl]
    constructor
    · rintro ⟨rows, ⟨-, hid, rfl⟩, rfl⟩
      exact ⟨⟨hs, by simp, hid⟩, by simp [requestRow?]⟩
    · rintro ⟨⟨-, -, hid⟩, rfl⟩
      exact ⟨_, ⟨outboundRow_required q, hid, rfl⟩, by simp [requestRow?]⟩

theorem Storable.of_append {rs' : List Record} (h : Storable (rs ++ rs')) : Storable rs :=
  ⟨fun q hq => h.body q (List.mem_append_left _ hq), (List.pairwise_append.mp h.id).1⟩

theorem writeAll_append {pre : List Record} (hp : Storable pre) :
    (stored pre).writeAll rs = .ok t ↔ Storable (pre ++ rs) ∧ t = stored (pre ++ rs) := by
  induction rs generalizing pre with
  | nil => simp [Tables.writeAll, hp, eq_comm]
  | cons r rs ih =>
    rw [List.append_cons]
    cases hw : (stored pre).write r with
    | error e =>
      simp only [Tables.writeAll, hw, Except.bind, reduceCtorEq, false_iff, not_and]
      intro hs
      have := (write_stored hp (t := stored (pre ++ [r]))).mpr ⟨hs.of_append, rfl⟩
      simp [hw] at this
    | ok t' =>
      obtain ⟨hs, rfl⟩ := (write_stored hp).mp hw
      simpa [Tables.writeAll, hw, Except.bind] using ih hs

/-- **Writing a list of records succeeds exactly when they are storable, and then the tables
hold their rows.** -/
theorem writeAll_ok : (stored []).writeAll rs = .ok t ↔ Storable rs ∧ t = stored rs :=
  writeAll_append ⟨by simp, by simp⟩

end HttpCatch.Sinks

import Mathlib.Order.Bounds.Basic
import HttpCatch.Library.Accumulate
import HttpCatch.Library.SqlQuery
import HttpCatch.Inspect.Reader
import HttpCatch.Sinks.Memory
import HttpCatch.Sinks.SQLite

/-!
# Services

`ServicesSeen` and `ServiceStats` of both readers: the services with a record since a given time,
and what each of them did. The interface of readers asks that the two list the same services and
that `LastSeen` is the time of the latest record of any kind.

The ring is read once for each and all its records count. SQLite reads `captured_requests` for
the list, and for the statistics also the response events: an outbound event counts for neither.
Both make their statistics like `summary`, of different records.

* `services_consistent` — when the listings of a reader are consistent, and when the two readers
  agree.
-/

namespace HttpCatch.Sinks

open HttpCatch.Go HttpCatch.Sql HttpCatch.Capture HttpCatch.Inspect HttpCatch.Accumulate

/-! ### The ring -/

/-- `&inspect.ServiceStat{Name: svc}`. -/
def newStat (svc : GoString) : ServiceStat := ⟨svc, 0, zeroTime, 0, 0, 0, 0, 0⟩

/-- `if ts.After(st.LastSeen) { st.LastSeen = ts }`. -/
def seenAt (ts : ℤ) (st : ServiceStat) : ServiceStat :=
  if st.lastSeen < ts then { st with lastSeen := ts } else st

/-- `addStatusClass`. -/
def addStatusClass (code : ℤ) (st : ServiceStat) : ServiceStat :=
  match statusClass (some code) with
  | 2 => { st with s2xx := st.s2xx + 1 }
  | 3 => { st with s3xx := st.s3xx + 1 }
  | 4 => { st with s4xx := st.s4xx + 1 }
  | 5 => { st with s5xx := st.s5xx + 1 }
  | _ => { st with other := st.other + 1 }

/-- The body of the loop over the ring. -/
def noteRecord (r : Record) (st : ServiceStat) : ServiceStat :=
  let st := seenAt r.timestamp st
  match r with
  | .request _ => { st with requests := st.requests + 1 }
  | .response e => addStatusClass e.status st
  | .outbound _ => st

theorem noteRecord_name (r : Record) (st : ServiceStat) : (noteRecord r st).name = st.name := by
  have hseen : (seenAt r.timestamp st).name = st.name := by
    unfold seenAt
    split_ifs <;> rfl
  cases r with
  | request q => exact hseen
  | response e =>
    rw [← hseen, noteRecord, addStatusClass]
    split <;> rfl
  | outbound o => exact hseen

/-- The loop's update for a record. -/
def recordUpdate (r : Record) : Update ServiceStat.name :=
  ⟨r.service, noteRecord r, noteRecord_name r⟩

/-- `since.IsZero() || !ts.Before(since)`. -/
def isSince (since ts : ℤ) : Bool := since = zeroTime || since ≤ ts

/-- The records that the loops over the ring do not skip. -/
def ringRecords (s : MemorySink) (since : ℤ) : List Record :=
  (s.recent s.len).filter fun r => isSince since r.timestamp && r.service ≠ []

/-- `MemorySink.ServicesSeen`. -/
def MemorySink.servicesSeen (s : MemorySink) (since : ℤ) : List GoString :=
  distinct ((ringRecords s since).map Record.service)

/-- `MemorySink.ServiceStats`. -/
def MemorySink.serviceStats (s : MemorySink) (since : ℤ) : List ServiceStat :=
  inOrder ServiceStat.name
    (accumulate ServiceStat.name newStat ((ringRecords s since).map recordUpdate))

/-! ### SQLite -/

/-- `WHERE timestamp >= ?`, which is left out for a zero time. -/
def rowSince (since : ℤ) (row : Row) : Bool :=
  since = zeroTime || (Value.int (unixNano since)).le3 (cell row "timestamp") == some true

/-- `SQLiteSink.ServicesSeen`. -/
def SQLiteSink.servicesSeen (t : Tables) (since : ℤ) : List GoString :=
  distinct ((t.capturedRequests.filter (rowSince since)).map fun row => (cell row "service").str)

/-- `MAX(timestamp)` of a group. -/
def maxTimestamp (group : List Row) : ℤ :=
  (maxInt (group.map fun row => cell row "timestamp")).int?.getD 0

/-- `SUM(CASE WHEN c THEN 1 ELSE 0 END)` of a group. -/
def sumWhen (c : Value → Truth) (group : List Row) : ℕ :=
  group.countP fun row => c (cell row "status") = some true

/-- `status >= low AND status < high`. -/
def statusBetween (low high : ℤ) (status : Value) : Truth :=
  and3 ((Value.int low).le3 status) (status.lt3 (.int high))

/-- `status IS NOT NULL AND (status < 200 OR status >= 600)`. -/
def statusElse (status : Value) : Truth :=
  and3 (some (status ≠ .null)) (or3 (status.lt3 (.int 200)) ((Value.int 600).le3 status))

theorem seenAt_name (ts : ℤ) (st : ServiceStat) : (seenAt ts st).name = st.name := by
  unfold seenAt
  split_ifs <;> rfl

/-- What is done with a group of captured requests. -/
def requestUpdate (svc : GoString) (group : List Row) : Update ServiceStat.name where
  target := svc
  run st := seenAt (maxTimestamp group) { st with requests := group.length }
  keeps _ := seenAt_name _ _

/-- What is done with a group of response events. -/
def responseUpdate (svc : GoString) (group : List Row) : Update ServiceStat.name where
  target := svc
  run st := seenAt (maxTimestamp group) { st with
    s2xx := sumWhen (statusBetween 200 300) group
    s3xx := sumWhen (statusBetween 300 400) group
    s4xx := sumWhen (statusBetween 400 500) group
    s5xx := sumWhen (statusBetween 500 600) group
    other := sumWhen statusElse group }
  keeps _ := seenAt_name _ _

/-- The rows of a query, grouped by service. -/
def groupUpdates (update : GoString → List Row → Update ServiceStat.name) (rows : List Row) :
    List (Update ServiceStat.name) :=
  (groupBy (fun row => cell row "service") rows).map fun group =>
    update (cell (group.headD []) "service").str group

/-- `SQLiteSink.ServiceStats`. -/
def SQLiteSink.serviceStats (t : Tables) (since : ℤ) : List ServiceStat :=
  let requests := t.capturedRequests.filter (rowSince since)
  let responses := t.events.filter fun row =>
    (cell row "type").eq3 (.text (str "response")) == some true && rowSince since row
  inOrder ServiceStat.name (accumulate ServiceStat.name newStat
    (groupUpdates requestUpdate requests ++ groupUpdates responseUpdate responses))

/-! ### What records say about a service -/

/-- A captured request of a service. -/
def isRequestOf (svc : GoString) : Record → Bool
  | .request r => r.service = svc
  | _ => false

/-- A response event of a service with a status of some kind. -/
def isResponseOf (svc : GoString) (p : ℤ → Bool) : Record → Bool
  | .response e => e.service = svc && p e.status
  | _ => false

/-- A status from `low` up to but not including `high`. -/
def codeIn (low high code : ℤ) : Bool := low ≤ code && code < high

/-- A status in none of the classes. -/
def codeElse (code : ℤ) : Bool := code < 200 || 600 ≤ code

/-- The records of a service. -/
def ofService (recs : List Record) (svc : GoString) : List Record :=
  recs.filter fun r => r.service = svc

theorem mem_ofService {recs : List Record} {svc : GoString} {r : Record} :
    r ∈ ofService recs svc ↔ r ∈ recs ∧ r.service = svc := by
  rw [ofService, List.mem_filter, decide_eq_true_eq]

/-- **The statistics of a service**, of some records. -/
structure Describes (recs : List Record) (st : ServiceStat) : Prop where
  lastSeen : IsGreatest { t | ∃ r ∈ recs, r.service = st.name ∧ r.timestamp = t } st.lastSeen
  requests : st.requests = recs.countP (isRequestOf st.name)
  s2xx : st.s2xx = recs.countP (isResponseOf st.name (codeIn 200 300))
  s3xx : st.s3xx = recs.countP (isResponseOf st.name (codeIn 300 400))
  s4xx : st.s4xx = recs.countP (isResponseOf st.name (codeIn 400 500))
  s5xx : st.s5xx = recs.countP (isResponseOf st.name (codeIn 500 600))
  other : st.other = recs.countP (isResponseOf st.name codeElse)

/-- **The listings are consistent**, of the records in the window. -/
structure ServicesConsistent (recs : List Record) (seen : List GoString)
    (stats : List ServiceStat) : Prop where
  names : stats.map ServiceStat.name = seen
  describes : ∀ st ∈ stats, Describes recs st

/-- What both readers compute, of different records and with their times read by `time`: the
counts, and the latest time after the year 1. -/
def summary (time : Record → ℤ) (recs : List Record) (svc : GoString) : ServiceStat where
  name := svc
  requests := recs.countP (isRequestOf svc)
  lastSeen := ((ofService recs svc).map time).foldl max zeroTime
  s2xx := recs.countP (isResponseOf svc (codeIn 200 300))
  s3xx := recs.countP (isResponseOf svc (codeIn 300 400))
  s4xx := recs.countP (isResponseOf svc (codeIn 400 500))
  s5xx := recs.countP (isResponseOf svc (codeIn 500 600))
  other := recs.countP (isResponseOf svc codeElse)

section

variable {time : Record → ℤ} {recs : List Record} {svc : GoString}

theorem le_foldl_max {l : List ℤ} {z t : ℤ} (h : t ≤ z ∨ t ∈ l) : t ≤ l.foldl max z := by
  induction l generalizing z with
  | nil => exact h.resolve_right List.not_mem_nil
  | cons a l ih =>
    rw [List.foldl_cons]
    apply ih
    rcases h with hle | hmem
    · exact .inl (le_max_of_le_left hle)
    · rcases List.mem_cons.mp hmem with rfl | hmem
      · exact .inl (le_max_right _ _)
      · exact .inr hmem

theorem foldl_max_mem (l : List ℤ) (z : ℤ) : l.foldl max z = z ∨ l.foldl max z ∈ l := by
  induction l generalizing z with
  | nil => exact .inl rfl
  | cons a l ih =>
    rw [List.foldl_cons]
    rcases ih (max z a) with h | h
    · rw [h]
      rcases max_choice z a with hz | ha
      · exact .inl hz
      · rw [ha]
        exact .inr List.mem_cons_self
    · exact .inr (List.mem_cons_of_mem _ h)

/-- The latest time of a list is found from `z` on just when it is not before `z`. -/
theorem isGreatest_foldl_max {l : List ℤ} {z : ℤ} :
    IsGreatest { t | t ∈ l } (l.foldl max z) ↔ ∃ t ∈ l, z ≤ t := by
  have hle : ∀ t ∈ l, t ≤ l.foldl max z := fun t ht => le_foldl_max (.inr ht)
  constructor
  · rintro ⟨hmem, -⟩
    exact ⟨_, hmem, le_foldl_max (.inl le_rfl)⟩
  · rintro ⟨t, ht, hz⟩
    refine ⟨?_, fun u hu => hle u hu⟩
    rcases foldl_max_mem l z with heq | hmem
    · -- the bound is reached only when an element equals it
      have htop := hle t ht
      rw [heq] at htop
      rw [heq, le_antisymm hz htop]
      exact ht
    · exact hmem

theorem times_eq : { t | ∃ r ∈ recs, r.service = svc ∧ time r = t } =
    { t | t ∈ (ofService recs svc).map time } := by
  ext t
  simp [ofService, and_assoc]

theorem isGreatest_summary :
    IsGreatest { t | ∃ r ∈ recs, r.service = svc ∧ time r = t } (summary time recs svc).lastSeen ↔
      ∃ r ∈ recs, r.service = svc ∧ zeroTime ≤ time r := by
  rw [times_eq, summary, isGreatest_foldl_max]
  simp [ofService, and_assoc]

theorem names_summary (l : List GoString) :
    (l.map (summary time recs)).map ServiceStat.name = l := by
  rw [List.map_map]
  exact List.map_id' l

/-- The statistics of a service are determined by the records. -/
theorem Describes.unique {st st' : ServiceStat} (h : Describes recs st)
    (h' : Describes recs st') (hname : st.name = st'.name) : st = st' := by
  obtain ⟨name, requests, lastSeen, s2xx, s3xx, s4xx, s5xx, other⟩ := st
  obtain ⟨name', requests', lastSeen', s2xx', s3xx', s4xx', s5xx', other'⟩ := st'
  obtain rfl : name = name' := hname
  rw [ServiceStat.mk.injEq]
  exact ⟨rfl, h.requests.trans h'.requests.symm, h.lastSeen.unique h'.lastSeen,
    h.s2xx.trans h'.s2xx.symm, h.s3xx.trans h'.s3xx.symm, h.s4xx.trans h'.s4xx.symm,
    h.s5xx.trans h'.s5xx.symm, h.other.trans h'.other.symm⟩

end

/-! ### The ring's statistics -/

theorem seenAt_eq (ts : ℤ) (st : ServiceStat) :
    seenAt ts st = { st with lastSeen := max st.lastSeen ts } := by
  unfold seenAt
  split_ifs with h
  · rw [max_eq_right h.le]
  · rw [max_eq_left (not_lt.mp h)]

theorem addStatusClass_eq (code : ℤ) (st : ServiceStat) :
    addStatusClass code st = { st with
      s2xx := st.s2xx + if codeIn 200 300 code then 1 else 0
      s3xx := st.s3xx + if codeIn 300 400 code then 1 else 0
      s4xx := st.s4xx + if codeIn 400 500 code then 1 else 0
      s5xx := st.s5xx + if codeIn 500 600 code then 1 else 0
      other := st.other + if codeElse code then 1 else 0 } := by
  simp only [addStatusClass, statusClass, codeIn, codeElse, Bool.and_eq_true, Bool.or_eq_true,
    decide_eq_true_eq]
  split_ifs <;> first | omega | rfl

/-- The body of the loop, field by field. -/
theorem noteRecord_eq (r : Record) (st : ServiceStat) :
    noteRecord r st = { st with
      requests := st.requests + if isRequestOf r.service r then 1 else 0
      lastSeen := max st.lastSeen r.timestamp
      s2xx := st.s2xx + if isResponseOf r.service (codeIn 200 300) r then 1 else 0
      s3xx := st.s3xx + if isResponseOf r.service (codeIn 300 400) r then 1 else 0
      s4xx := st.s4xx + if isResponseOf r.service (codeIn 400 500) r then 1 else 0
      s5xx := st.s5xx + if isResponseOf r.service (codeIn 500 600) r then 1 else 0
      other := st.other + if isResponseOf r.service codeElse r then 1 else 0 } := by
  cases r with
  | request q =>
    rw [noteRecord, seenAt_eq]
    simp [isRequestOf, isResponseOf, Record.service]
  | response e =>
    rw [noteRecord, seenAt_eq, addStatusClass_eq]
    simp [isRequestOf, isResponseOf, Record.service]
  | outbound o =>
    rw [noteRecord, seenAt_eq]
    simp [isRequestOf, isResponseOf]

/-- The updates of a service, one record after the other. -/
theorem updated_records (l : List Record) (svc : GoString) (st : ServiceStat) :
    updated (l.map recordUpdate) svc st = { st with
      requests := st.requests + l.countP (isRequestOf svc)
      lastSeen := ((ofService l svc).map Record.timestamp).foldl max st.lastSeen
      s2xx := st.s2xx + l.countP (isResponseOf svc (codeIn 200 300))
      s3xx := st.s3xx + l.countP (isResponseOf svc (codeIn 300 400))
      s4xx := st.s4xx + l.countP (isResponseOf svc (codeIn 400 500))
      s5xx := st.s5xx + l.countP (isResponseOf svc (codeIn 500 600))
      other := st.other + l.countP (isResponseOf svc codeElse) } := by
  induction l generalizing st with
  | nil => rfl
  | cons r l ih =>
    rw [List.map_cons, updated, List.foldl_cons, ← updated, ih]
    by_cases hsvc : r.service = svc
    · have hstep : (if (recordUpdate r).target = svc then (recordUpdate r).run st else st) =
          noteRecord r st :=
        if_pos hsvc
      subst hsvc
      rw [hstep, noteRecord_eq]
      simp only [List.countP_cons, ofService, decide_true, List.filter_cons_of_pos, List.map_cons,
        List.foldl_cons, ServiceStat.mk.injEq, true_and]
      omega
    · have hstep : (if (recordUpdate r).target = svc then (recordUpdate r).run st else st) = st :=
        if_neg hsvc
      have hrequest : isRequestOf svc r = false := by
        cases r with
        | request q => exact decide_eq_false hsvc
        | response e => rfl
        | outbound o => rfl
      have hanswered : ∀ p, isResponseOf svc p r = false := by
        intro p
        cases r with
        | request q => rfl
        | response e => exact Bool.and_eq_false_imp.mpr fun h => absurd (of_decide_eq_true h) hsvc
        | outbound o => rfl
      rw [hstep]
      simp [ofService, hsvc, hrequest, hanswered]

/-- **The statistics of the ring sum up the records of its window.** -/
theorem memory_serviceStats_eq (s : MemorySink) (since : ℤ) :
    s.serviceStats since =
      (s.servicesSeen since).map (summary Record.timestamp (ringRecords s since)) := by
  rw [MemorySink.serviceStats, inOrder_accumulate (fun _ => rfl), List.map_map]
  apply List.map_congr_left
  intro svc _
  rw [updated_records]
  simp only [newStat, summary, Nat.zero_add]

/-! ### The statistics of SQLite -/

/-- The row that is written for a record, in whichever table. -/
def rowOf : Record → Row
  | .request r => requestRow r
  | .response e => responseRow e
  | .outbound e => outboundRow e

/-- The record is a response event. -/
def isResponse : Record → Bool
  | .response _ => true
  | _ => false

/-- The time of a record, as SQLite stores it. -/
def storedAt (r : Record) : ℤ := unixNano r.timestamp

/-- `timestamp >= ?`, in the row of a record. -/
def storedSince (since : ℤ) (r : Record) : Bool := since = zeroTime || unixNano since ≤ storedAt r

/-- The captured requests that SQLite reads. -/
def requestsRead (rs : List Record) (since : ℤ) : List Record :=
  rs.filter fun r => r.isRequest && storedSince since r

/-- The response events that SQLite reads. -/
def responsesRead (rs : List Record) (since : ℤ) : List Record :=
  rs.filter fun r => isResponse r && storedSince since r

/-- The records that SQLite makes its statistics of. -/
def statsRead (rs : List Record) (since : ℤ) : List Record :=
  requestsRead rs since ++ responsesRead rs since

section

variable {rs : List Record} {since : ℤ} {svc : GoString}

theorem cell_service (r : Record) : cell (rowOf r) "service" = .text r.service := by
  cases r <;> rfl

theorem cell_timestamp (r : Record) : cell (rowOf r) "timestamp" = .int (storedAt r) := by
  cases r <;> rfl

theorem rowSince_rowOf (r : Record) : rowSince since (rowOf r) = storedSince since r := by
  rw [rowSince, cell_timestamp, le3_int, storedSince]
  simp

/-- The rows of a table are those of the records that belong there. -/
theorem filterMap_rowOf {row? : Record → Option Row} {p : Record → Bool}
    (h : ∀ r, row? r = if p r then some (rowOf r) else none) :
    rs.filterMap row? = (rs.filter p).map rowOf := by
  induction rs with
  | nil => rfl
  | cons r rs ih =>
    rw [List.filterMap_cons, h r, List.filter_cons, ih]
    cases p r <;> rfl

theorem requestRow?_eq (r : Record) :
    requestRow? r = if r.isRequest then some (rowOf r) else none := by
  cases r <;> rfl

theorem eventRow?_eq (r : Record) :
    eventRow? r = if !r.isRequest then some (rowOf r) else none := by
  cases r <;> rfl

/-- The rows of captured requests in the window. -/
theorem capturedRequests_read :
    (stored rs).capturedRequests.filter (rowSince since) = (requestsRead rs since).map rowOf := by
  rw [stored, filterMap_rowOf requestRow?_eq, List.filter_map, List.filter_filter]
  refine congrArg (List.map rowOf) (List.filter_congr fun r _ => ?_)
  rw [Function.comp_apply, rowSince_rowOf, Bool.and_comm]

theorem type_isResponse (r : Record) (h : r.isRequest = false) :
    ((cell (rowOf r) "type").eq3 (.text (str "response")) == some true) = isResponse r := by
  cases r with
  | request q => cases h
  | response e => rfl
  | outbound o => rfl

/-- The rows of response events in the window. -/
theorem responses_read :
    (stored rs).events.filter (fun row =>
      (cell row "type").eq3 (.text (str "response")) == some true && rowSince since row) =
    (responsesRead rs since).map rowOf := by
  rw [stored, filterMap_rowOf eventRow?_eq, List.filter_map, List.filter_filter]
  refine congrArg (List.map rowOf) (List.filter_congr fun r _ => ?_)
  rw [Function.comp_apply, rowSince_rowOf]
  cases hr : r.isRequest with
  | true =>
    have hno : isResponse r = false := by
      cases r with
      | request q => rfl
      | response e => cases hr
      | outbound o => cases hr
    rw [hno, Bool.not_true, Bool.and_false, Bool.false_and]
  | false => rw [type_isResponse r hr, Bool.not_false, Bool.and_true]

variable {l : List Record}

theorem ofService_ne_nil : ofService l svc ≠ [] ↔ svc ∈ l.map Record.service := by
  rw [ne_eq, List.eq_nil_iff_forall_not_mem, not_forall_not, List.mem_map]
  simp only [mem_ofService]

/-- Grouping the rows of records by service groups the records. -/
theorem groupUpdates_rowOf (update : GoString → List Row → Update ServiceStat.name)
    (l : List Record) :
    groupUpdates update (l.map rowOf) = (l.map Record.service).dedup.map fun svc =>
      update svc ((ofService l svc).map rowOf) := by
  have hkeys : (l.map rowOf).map (fun row => cell row "service") =
      (l.map Record.service).map Value.text := by
    rw [List.map_map, List.map_map]
    exact List.map_congr_left fun r _ => cell_service r
  have hgroup : ∀ svc, (l.map rowOf).filter (fun row => cell row "service" = .text svc) =
      (ofService l svc).map rowOf := by
    intro svc
    rw [List.filter_map]
    refine congrArg (List.map rowOf) (List.filter_congr fun r _ => ?_)
    rw [Function.comp_apply, cell_service, decide_eq_decide]
    exact ⟨Value.text.inj, congrArg Value.text⟩
  have hinj : Function.Injective Value.text := fun _ _ => Value.text.inj
  rw [groupUpdates, groupBy, hkeys, List.dedup_map_of_injective hinj, List.map_map, List.map_map]
  refine List.map_congr_left fun svc hsvc => ?_
  simp only [Function.comp_apply, hgroup]
  -- the service of a group is that of its first row
  obtain ⟨r, g, hg⟩ := List.exists_cons_of_ne_nil (ofService_ne_nil.mpr (List.mem_dedup.mp hsvc))
  have hr : r.service = svc := (mem_ofService.mp (hg ▸ List.mem_cons_self)).2
  rw [hg, List.map_cons, List.headD_cons, cell_service, hr]
  rfl

/-! What the two queries add to the statistics of a service. -/

theorem maxTimestamp_rowOf (z : ℤ) (h : l ≠ []) :
    max z (maxTimestamp (l.map rowOf)) = (l.map storedAt).foldl max z := by
  obtain ⟨r, l, rfl⟩ := List.exists_cons_of_ne_nil h
  have htimes : (((r :: l).map rowOf).map fun row => cell row "timestamp").filterMap Value.int? =
      (r :: l).map storedAt := by
    rw [List.map_map, List.filterMap_map, ← List.filterMap_eq_map]
    exact List.filterMap_congr fun r' _ => by simp [cell_timestamp, Value.int?]
  rw [maxTimestamp, maxInt_eq, htimes, List.map_cons, List.max?_cons', List.foldl_cons]
  exact List.foldl_assoc.symm

/-- What the first query adds, of captured requests. -/
theorem run_requestUpdate (svc : GoString) (hl : ∀ r ∈ l, r.isRequest = true) (st : ServiceStat)
    (hst : st.requests = 0) :
    (if svc ∈ (l.map Record.service).dedup then
      (requestUpdate svc ((ofService l svc).map rowOf)).run st else st) =
    { st with
      requests := l.countP (isRequestOf svc)
      lastSeen := ((ofService l svc).map storedAt).foldl max st.lastSeen } := by
  have hcount : l.countP (isRequestOf svc) = (ofService l svc).length := by
    rw [ofService, ← List.countP_eq_length_filter]
    refine List.countP_congr fun r hr => ?_
    have hreq := hl r hr
    cases r with
    | request q => rfl
    | response e => cases hreq
    | outbound o => cases hreq
  rw [hcount]
  by_cases hmem : svc ∈ l.map Record.service
  · have hseen : ∀ st', (requestUpdate svc ((ofService l svc).map rowOf)).run st' =
        seenAt (maxTimestamp ((ofService l svc).map rowOf))
          { st' with requests := ((ofService l svc).map rowOf).length } :=
      fun _ => rfl
    rw [if_pos (List.mem_dedup.mpr hmem), hseen, seenAt_eq]
    dsimp only
    rw [maxTimestamp_rowOf _ (ofService_ne_nil.mpr hmem), List.length_map]
  · have hnil : ofService l svc = [] := not_not.mp (mt ofService_ne_nil.mp hmem)
    rw [if_neg (mt List.mem_dedup.mp hmem), hnil, List.length_nil, ← hst]
    rfl

/-- The conditions of the second query, on the status of a response event. -/
theorem sumWhen_rowOf (svc : GoString) (hl : ∀ r ∈ l, isResponse r = true) {c : Value → Truth}
    {p : ℤ → Bool} (hc : ∀ code, c (.int code) = some (p code)) :
    sumWhen c ((ofService l svc).map rowOf) = l.countP (isResponseOf svc p) := by
  rw [sumWhen, List.countP_map, ofService, List.countP_filter]
  refine List.countP_congr fun r hr => ?_
  have hresp := hl r hr
  cases r with
  | request q => cases hresp
  | response e =>
    have hstatus : cell (rowOf (.response e)) "status" = .int e.status := rfl
    rw [Function.comp_apply, hstatus, hc, isResponseOf, Record.service]
    simp [and_comm]
  | outbound o => cases hresp

theorem statusBetween_int (low high code : ℤ) :
    statusBetween low high (.int code) = some (codeIn low high code) := by
  rw [statusBetween, le3_int, lt3_int, codeIn]
  cases decide (low ≤ code) <;> cases decide (code < high) <;> rfl

theorem statusElse_int (code : ℤ) : statusElse (.int code) = some (codeElse code) := by
  rw [statusElse, lt3_int, le3_int, codeElse]
  cases decide (code < 200) <;> cases decide (600 ≤ code) <;> rfl

/-- What the second query adds, of response events. -/
theorem run_responseUpdate (svc : GoString) (hl : ∀ r ∈ l, isResponse r = true) (st : ServiceStat)
    (hst : st.s2xx = 0 ∧ st.s3xx = 0 ∧ st.s4xx = 0 ∧ st.s5xx = 0 ∧ st.other = 0) :
    (if svc ∈ (l.map Record.service).dedup then
      (responseUpdate svc ((ofService l svc).map rowOf)).run st else st) =
    { st with
      lastSeen := ((ofService l svc).map storedAt).foldl max st.lastSeen
      s2xx := l.countP (isResponseOf svc (codeIn 200 300))
      s3xx := l.countP (isResponseOf svc (codeIn 300 400))
      s4xx := l.countP (isResponseOf svc (codeIn 400 500))
      s5xx := l.countP (isResponseOf svc (codeIn 500 600))
      other := l.countP (isResponseOf svc codeElse) } := by
  simp only [← sumWhen_rowOf svc hl (statusBetween_int _ _),
    ← sumWhen_rowOf svc hl statusElse_int]
  by_cases hmem : svc ∈ l.map Record.service
  · have hseen : ∀ st', (responseUpdate svc ((ofService l svc).map rowOf)).run st' =
        seenAt (maxTimestamp ((ofService l svc).map rowOf)) { st' with
          s2xx := sumWhen (statusBetween 200 300) ((ofService l svc).map rowOf)
          s3xx := sumWhen (statusBetween 300 400) ((ofService l svc).map rowOf)
          s4xx := sumWhen (statusBetween 400 500) ((ofService l svc).map rowOf)
          s5xx := sumWhen (statusBetween 500 600) ((ofService l svc).map rowOf)
          other := sumWhen statusElse ((ofService l svc).map rowOf) } :=
      fun _ => rfl
    rw [if_pos (List.mem_dedup.mpr hmem), hseen, seenAt_eq]
    dsimp only
    rw [maxTimestamp_rowOf _ (ofService_ne_nil.mpr hmem)]
  · have hnil : ofService l svc = [] := not_not.mp (mt ofService_ne_nil.mp hmem)
    obtain ⟨name, requests, lastSeen, s2xx, s3xx, s4xx, s5xx, other⟩ := st
    obtain ⟨rfl, rfl, rfl, rfl, rfl⟩ := hst
    rw [if_neg (mt List.mem_dedup.mp hmem), hnil]
    rfl

theorem mem_requestsRead {r : Record} : r ∈ requestsRead rs since ↔
    r ∈ rs ∧ r.isRequest = true ∧ storedSince since r = true := by
  rw [requestsRead, List.mem_filter, Bool.and_eq_true]

theorem mem_responsesRead {r : Record} : r ∈ responsesRead rs since ↔
    r ∈ rs ∧ isResponse r = true ∧ storedSince since r = true := by
  rw [responsesRead, List.mem_filter, Bool.and_eq_true]

theorem countP_isRequestOf (svc : GoString) :
    (responsesRead rs since).countP (isRequestOf svc) = 0 := by
  rw [List.countP_eq_zero]
  intro r hr hreq
  have hresp := (mem_responsesRead.mp hr).2.1
  cases r with
  | request q => cases hresp
  | response e => cases hreq
  | outbound o => cases hresp

theorem countP_isResponseOf (svc : GoString) (p : ℤ → Bool) :
    (requestsRead rs since).countP (isResponseOf svc p) = 0 := by
  rw [List.countP_eq_zero]
  intro r hr hresp
  have hreq := (mem_requestsRead.mp hr).2.1
  cases r with
  | request q => cases hresp
  | response e => cases hreq
  | outbound o => cases hreq

/-- **The statistics of SQLite sum up the requests and responses it reads.** -/
theorem sqlite_serviceStats_eq (rs : List Record) (since : ℤ) :
    SQLiteSink.serviceStats (stored rs) since =
      (distinct ((statsRead rs since).map Record.service)).map
        (summary storedAt (statsRead rs since)) := by
  have hrequests : ∀ r ∈ requestsRead rs since, r.isRequest = true :=
    fun r hr => (mem_requestsRead.mp hr).2.1
  have hresponses : ∀ r ∈ responsesRead rs since, isResponse r = true :=
    fun r hr => (mem_responsesRead.mp hr).2.1
  rw [SQLiteSink.serviceStats, capturedRequests_read, responses_read, groupUpdates_rowOf,
    groupUpdates_rowOf, inOrder_accumulate (fun _ => rfl)]
  have hnames : ∀ l : List GoString, (l.map fun svc => svc) = l := List.map_id'
  have htargets : distinct (((((requestsRead rs since).map Record.service).dedup.map fun svc =>
      requestUpdate svc ((ofService (requestsRead rs since) svc).map rowOf)) ++
      ((responsesRead rs since).map Record.service).dedup.map fun svc =>
      responseUpdate svc ((ofService (responsesRead rs since) svc).map rowOf)).map
        Update.target) =
      distinct ((statsRead rs since).map Record.service) := by
    rw [distinct_eq_iff]
    intro svc
    rw [List.map_append, List.map_map, List.map_map, List.mem_append, statsRead,
      List.map_append, List.mem_append]
    simp only [Function.comp_def, requestUpdate, responseUpdate, hnames, List.mem_dedup]
  rw [htargets]
  refine List.map_congr_left fun svc _ => ?_
  rw [updated_append, updated_map (List.nodup_dedup _) (fun _ => rfl),
    updated_map (List.nodup_dedup _) (fun _ => rfl),
    run_requestUpdate svc hrequests (newStat svc) rfl,
    run_responseUpdate svc hresponses _ ⟨rfl, rfl, rfl, rfl, rfl⟩]
  simp only [summary, newStat, ofService, statsRead, List.countP_append, countP_isRequestOf,
    countP_isResponseOf, List.filter_append, List.map_append, List.foldl_append, Nat.add_zero,
    Nat.zero_add]

theorem sqlite_servicesSeen_eq (rs : List Record) (since : ℤ) :
    SQLiteSink.servicesSeen (stored rs) since =
      distinct ((requestsRead rs since).map Record.service) := by
  rw [SQLiteSink.servicesSeen, capturedRequests_read, List.map_map]
  refine congrArg distinct (List.map_congr_left fun r _ => ?_)
  rw [Function.comp_apply, cell_service]
  rfl

end

/-! ### Consistency -/

/-- The records in the window. -/
def window (recs : List Record) (since : ℤ) : List Record :=
  recs.filter fun r => isSince since r.timestamp

/-- The record is an outbound event. -/
def isOutbound : Record → Bool
  | .outbound _ => true
  | _ => false

/-- The conditions that the counters of a service count by. -/
def counters (svc : GoString) : List (Record → Bool) :=
  [isRequestOf svc, isResponseOf svc (codeIn 200 300), isResponseOf svc (codeIn 300 400),
    isResponseOf svc (codeIn 400 500), isResponseOf svc (codeIn 500 600), isResponseOf svc codeElse]

/-- The record is in the window, and SQLite takes it for one from before. -/
def isLost (since : ℤ) (r : Record) : Bool := isSince since r.timestamp && !storedSince since r

/-- The record is from before the window, and SQLite takes it for one in it. -/
def isStray (since : ℤ) (r : Record) : Bool := !isSince since r.timestamp && storedSince since r

/-- **SQLite reads all there is to say about a service**: of its requests, and of its responses of
each class, no more are lost than strays come in their place; and the latest of the times stored
for those that are read is the latest time of a record of the service in the window. -/
structure ReadsAll (rs : List Record) (since : ℤ) (svc : GoString) : Prop where
  counts : ∀ q ∈ counters svc, rs.countP (fun r => q r && isLost since r) =
    rs.countP fun r => q r && isStray since r
  latest : ∀ r ∈ window rs since, r.service = svc →
    ∃ r' ∈ statsRead rs since, r'.service = svc ∧ r.timestamp ≤ storedAt r'
  noLater : ∀ r ∈ statsRead rs since, r.service = svc →
    ∃ r' ∈ window rs since, r'.service = svc ∧ storedAt r ≤ r'.timestamp

section

variable {rs : List Record} {since : ℤ} {svc : GoString}

theorem mem_statsRead {r : Record} : r ∈ statsRead rs since ↔
    r ∈ rs ∧ isOutbound r = false ∧ storedSince since r = true := by
  rw [statsRead, List.mem_append, mem_requestsRead, mem_responsesRead]
  cases r <;> simp [Record.isRequest, isResponse, isOutbound]

/-- What SQLite reads, counted among all records. -/
theorem countP_statsRead {q : Record → Bool} (hq : ∀ r, q r = true → isOutbound r = false) :
    (statsRead rs since).countP q = rs.countP fun r => q r && storedSince since r := by
  rw [statsRead, List.countP_append, requestsRead, responsesRead, List.countP_filter,
    List.countP_filter]
  induction rs with
  | nil => rfl
  | cons r rs ih =>
    have hr := hq r
    rw [List.countP_cons, List.countP_cons, List.countP_cons, ← ih]
    cases r with
    | request e =>
      simp only [Record.isRequest, isResponse, Bool.true_and, Bool.false_and, Bool.and_false,
        Bool.false_eq_true, if_false]
      omega
    | response e =>
      simp only [Record.isRequest, isResponse, Bool.true_and, Bool.false_and, Bool.and_false,
        Bool.false_eq_true, if_false]
      omega
    | outbound o =>
      have hno : q (.outbound o) = false := Bool.eq_false_iff.mpr fun h => Bool.noConfusion (hr h)
      simp only [hno, Bool.false_and, Bool.false_eq_true, if_false]
      omega

/-- Elements counted under one condition and not the other, and the other way round. -/
theorem countP_exchange {α : Type} (q a b : α → Bool) (l : List α) :
    l.countP (fun x => q x && a x) + l.countP (fun x => q x && (!a x && b x)) =
      l.countP (fun x => q x && b x) + l.countP (fun x => q x && (a x && !b x)) := by
  induction l with
  | nil => rfl
  | cons x l ih =>
    simp only [List.countP_cons]
    cases q x <;> cases a x <;> cases b x <;>
      simp only [Bool.not_true, Bool.not_false, Bool.and_true, Bool.and_false, Bool.false_eq_true,
        if_true, if_false] <;> omega

theorem of_counter {q : Record → Bool} (hq : q ∈ counters svc) {r : Record} (h : q r = true) :
    isOutbound r = false := by
  have hresponse : ∀ p, isResponseOf svc p r = true → isOutbound r = false := by
    intro p hp
    cases r with
    | request q => cases hp
    | response e => rfl
    | outbound o => cases hp
  simp only [counters, List.mem_cons, List.not_mem_nil, or_false] at hq
  rcases hq with rfl | rfl | rfl | rfl | rfl | rfl
  · cases r with
    | request q => rfl
    | response e => cases h
    | outbound o => cases h
  · exact hresponse _ h
  · exact hresponse _ h
  · exact hresponse _ h
  · exact hresponse _ h
  · exact hresponse _ h

/-- The counters of SQLite are those of the window just when the lost and the strays are as
many. -/
theorem counters_iff :
    (∀ q ∈ counters svc, (statsRead rs since).countP q = (window rs since).countP q) ↔
      ∀ q ∈ counters svc, rs.countP (fun r => q r && isLost since r) =
        rs.countP fun r => q r && isStray since r := by
  refine forall₂_congr fun q hq => ?_
  have hexchange := countP_exchange q (fun r => isSince since r.timestamp) (storedSince since) rs
  rw [countP_statsRead fun r => of_counter hq, window, List.countP_filter]
  simp only [isLost, isStray]
  omega

theorem zeroTime_lt_storedAt (r : Record) : zeroTime < storedAt r := by
  have hrep := (unixNano_representable r.timestamp).1
  rw [storedAt, zeroTime]
  omega

/-- The latest time stored for what SQLite reads is that of one of these records. -/
theorem isGreatest_statsRead (hsvc : svc ∈ (statsRead rs since).map Record.service) :
    IsGreatest { t | ∃ r ∈ statsRead rs since, r.service = svc ∧ storedAt r = t }
      (summary storedAt (statsRead rs since) svc).lastSeen := by
  obtain ⟨r, hr, hsvc⟩ := List.mem_map.mp hsvc
  exact isGreatest_summary.mpr ⟨r, hr, hsvc, (zeroTime_lt_storedAt r).le⟩

/-- **What SQLite says of a service is so just when it reads all there is to say.** -/
theorem describes_statsRead_iff (hsvc : svc ∈ (statsRead rs since).map Record.service) :
    Describes (window rs since) (summary storedAt (statsRead rs since) svc) ↔
      ReadsAll rs since svc := by
  obtain ⟨⟨r₁, hr₁, hsvc₁, hlast⟩, htop⟩ := isGreatest_statsRead hsvc
  constructor
  · intro h
    have hcounts : ∀ q ∈ counters svc,
        (statsRead rs since).countP q = (window rs since).countP q := by
      simp only [counters, List.forall_mem_cons, List.not_mem_nil, false_imp_iff, implies_true,
        and_true]
      exact ⟨h.requests, h.s2xx, h.s3xx, h.s4xx, h.s5xx, h.other⟩
    obtain ⟨⟨r₂, hr₂, hsvc₂, hlast₂⟩, hbound⟩ := h.lastSeen
    refine ⟨counters_iff.mp hcounts, fun r hr hrsvc => ⟨r₁, hr₁, hsvc₁, ?_⟩,
      fun r hr hrsvc => ⟨r₂, hr₂, hsvc₂, ?_⟩⟩
    · rw [hlast]
      exact hbound ⟨r, hr, hrsvc, rfl⟩
    · rw [hlast₂]
      exact htop ⟨r, hr, hrsvc, rfl⟩
  · intro h
    have hcounts := counters_iff.mpr h.counts
    simp only [counters, List.forall_mem_cons, List.not_mem_nil, false_imp_iff, implies_true,
      and_true] at hcounts
    obtain ⟨h₁, h₂, h₃, h₄, h₅, h₆⟩ := hcounts
    have hbound : ∀ r ∈ window rs since, r.service = svc →
        r.timestamp ≤ (summary storedAt (statsRead rs since) svc).lastSeen := by
      intro r hr hrsvc
      obtain ⟨r', hr', hsvc', hle⟩ := h.latest r hr hrsvc
      exact hle.trans (htop ⟨r', hr', hsvc', rfl⟩)
    -- a record in the window that is not before the latest one read
    obtain ⟨r₂, hr₂, hsvc₂, hle⟩ := h.noLater r₁ hr₁ hsvc₁
    rw [hlast] at hle
    refine ⟨⟨⟨r₂, hr₂, hsvc₂, le_antisymm (hbound r₂ hr₂ hsvc₂) hle⟩, ?_⟩, h₁, h₂, h₃, h₄, h₅, h₆⟩
    rintro t ⟨r, hr, hrsvc, rfl⟩
    exact hbound r hr hrsvc

/-- Both readers say the same of a service just when SQLite reads all there is to say. -/
theorem summary_eq_iff (hsvc : svc ∈ (statsRead rs since).map Record.service) :
    summary Record.timestamp (window rs since) svc = summary storedAt (statsRead rs since) svc ↔
      ReadsAll rs since svc := by
  rw [← describes_statsRead_iff hsvc]
  obtain ⟨⟨r₁, -, -, hlast⟩, -⟩ := isGreatest_statsRead hsvc
  have hyear : zeroTime < (summary storedAt (statsRead rs since) svc).lastSeen :=
    hlast ▸ zeroTime_lt_storedAt r₁
  have hdescribes : (∃ r ∈ window rs since, r.service = svc ∧ zeroTime ≤ r.timestamp) →
      Describes (window rs since) (summary Record.timestamp (window rs since) svc) := fun h =>
    ⟨isGreatest_summary.mpr h, rfl, rfl, rfl, rfl, rfl, rfl⟩
  constructor
  · intro h
    rw [← h] at hyear ⊢
    -- the latest time of the ring is not the one it starts from
    have hmem := (foldl_max_mem ((ofService (window rs since) svc).map Record.timestamp)
      zeroTime).resolve_left hyear.ne'
    obtain ⟨r, hr, heq⟩ := List.mem_map.mp hmem
    obtain ⟨hwin, hrsvc⟩ := mem_ofService.mp hr
    exact hdescribes ⟨r, hwin, hrsvc, heq ▸ hyear.le⟩
  · intro h
    obtain ⟨⟨r, hr, hrsvc, heq⟩, -⟩ := h.lastSeen
    exact (hdescribes ⟨r, hr, hrsvc, heq ▸ hyear.le⟩).unique h rfl

end

/-! ### Both readers -/

section

variable {since : ℤ}

/-- Without records that name no service, the ring's loops skip what is not in the window. -/
theorem ringRecords_eq {s : MemorySink} (h : ∀ r ∈ s.recent s.len, r.service ≠ []) :
    ringRecords s since = window (s.recent s.len) since := by
  refine List.filter_congr fun r hr => ?_
  rw [decide_eq_true (h r hr), Bool.and_true]

/-- **The listings of the ring are consistent just when no service is known only from before the
year 1.** -/
theorem memory_consistent_iff {s : MemorySink} (h : ∀ r ∈ s.recent s.len, r.service ≠ []) :
    ServicesConsistent (window (s.recent s.len) since)
        (s.servicesSeen since) (s.serviceStats since) ↔
      ∀ r ∈ window (s.recent s.len) since,
        ∃ r' ∈ window (s.recent s.len) since,
          r'.service = r.service ∧ zeroTime ≤ r'.timestamp := by
  rw [memory_serviceStats_eq, MemorySink.servicesSeen, ringRecords_eq h]
  constructor
  · intro hc r hr
    have hmem : r.service ∈ distinct
        ((window (s.recent s.len) since).map Record.service) :=
      mem_distinct.mpr (List.mem_map_of_mem hr)
    exact isGreatest_summary.mp (hc.describes _ (List.mem_map_of_mem hmem)).lastSeen
  · intro hyear
    refine ⟨names_summary _, fun st hst => ?_⟩
    obtain ⟨svc, hsvc, rfl⟩ := List.mem_map.mp hst
    obtain ⟨r, hr, rfl⟩ := List.mem_map.mp (mem_distinct.mp hsvc)
    exact ⟨isGreatest_summary.mpr (hyear r hr), rfl, rfl, rfl, rfl, rfl, rfl⟩

/-- **The listings of SQLite are consistent just when every service it has a request or response of
has a request, and it reads all there is to say about the service.** -/
theorem sqlite_consistent_iff (rs : List Record) :
    ServicesConsistent (window rs since)
        (SQLiteSink.servicesSeen (stored rs) since) (SQLiteSink.serviceStats (stored rs) since) ↔
      ∀ r ∈ statsRead rs since,
        (∃ r' ∈ requestsRead rs since, r'.service = r.service) ∧ ReadsAll rs since r.service := by
  rw [sqlite_serviceStats_eq, sqlite_servicesSeen_eq]
  constructor
  · rintro ⟨hn, hd⟩ r hr
    have hmem := List.mem_map_of_mem (f := Record.service) hr
    rw [names_summary, distinct_eq_iff] at hn
    refine ⟨List.mem_map.mp ((hn _).mp hmem), (describes_statsRead_iff hmem).mp ?_⟩
    exact hd _ (List.mem_map_of_mem (mem_distinct.mpr hmem))
  · intro h
    refine ⟨?_, ?_⟩
    · rw [names_summary, distinct_eq_iff]
      intro svc
      constructor
      · intro hsvc
        obtain ⟨r, hr, rfl⟩ := List.mem_map.mp hsvc
        exact List.mem_map.mpr (h r hr).1
      · intro hsvc
        rw [statsRead, List.map_append]
        exact List.mem_append_left _ hsvc
    · intro st hst
      obtain ⟨svc, hsvc, rfl⟩ := List.mem_map.mp hst
      have hmem := mem_distinct.mp hsvc
      obtain ⟨r, hr, rfl⟩ := List.mem_map.mp hmem
      exact (describes_statsRead_iff hmem).mpr (h r hr).2

theorem summary_perm {time : Record → ℤ} {recs recs' : List Record} (hperm : recs.Perm recs')
    (svc : GoString) : summary time recs svc = summary time recs' svc := by
  have hlast : ((ofService recs svc).map time).foldl max zeroTime =
      ((ofService recs' svc).map time).foldl max zeroTime :=
    ((hperm.filter _).map _).foldl_eq _
  simp only [summary, hlast, hperm.countP_eq]

/-- What the ring lists, in whatever order it has the records. -/
theorem memory_services_eq (since : ℤ) {s : MemorySink} {rs : List Record}
    (hperm : (s.recent s.len).Perm rs) (hsvc : ∀ r ∈ rs, r.service ≠ []) :
    s.servicesSeen since = distinct ((window rs since).map Record.service) ∧
      s.serviceStats since = (distinct ((window rs since).map Record.service)).map
        (summary Record.timestamp (window rs since)) := by
  have hwindow : (ringRecords s since).Perm (window rs since) := by
    rw [ringRecords_eq fun r hr => hsvc r (hperm.mem_iff.mp hr)]
    exact hperm.filter _
  have hseen : s.servicesSeen since = distinct ((window rs since).map Record.service) :=
    distinct_eq_iff.mpr fun _ => (hwindow.map _).mem_iff
  refine ⟨hseen, ?_⟩
  rw [memory_serviceStats_eq, hseen]
  exact List.map_congr_left fun svc _ => summary_perm hwindow svc

/-- **The two readers agree just when every service has a request and SQLite reads all there is to
say about it.** -/
theorem readers_agree_iff {s : MemorySink} {rs : List Record} (hperm : (s.recent s.len).Perm rs)
    (hsvc : ∀ r ∈ rs, r.service ≠ []) :
    s.servicesSeen since = SQLiteSink.servicesSeen (stored rs) since ∧
        s.serviceStats since = SQLiteSink.serviceStats (stored rs) since ↔
      ∀ r ∈ window rs since ++ statsRead rs since,
        (∃ r' ∈ requestsRead rs since, r'.service = r.service) ∧ ReadsAll rs since r.service := by
  obtain ⟨hseen, hstats⟩ := memory_services_eq since hperm hsvc
  have hsub : ∀ svc ∈ (requestsRead rs since).map Record.service,
      svc ∈ (statsRead rs since).map Record.service := fun svc hsvc => by
    rw [statsRead, List.map_append]
    exact List.mem_append_left _ hsvc
  rw [hseen, hstats, sqlite_servicesSeen_eq, sqlite_serviceStats_eq]
  constructor
  · rintro ⟨hseen, hstats⟩
    have hnames : distinct ((window rs since).map Record.service) =
        distinct ((statsRead rs since).map Record.service) := by
      have hmap := congrArg (List.map ServiceStat.name) hstats
      rwa [names_summary, names_summary] at hmap
    rw [← hnames, List.map_inj_left] at hstats
    rw [distinct_eq_iff] at hseen hnames
    intro r hr
    have hwindow : r.service ∈ (window rs since).map Record.service := by
      rcases List.mem_append.mp hr with hr | hr
      · exact List.mem_map_of_mem hr
      · exact (hnames _).mpr (List.mem_map_of_mem hr)
    refine ⟨List.mem_map.mp ((hseen _).mp hwindow), ?_⟩
    exact (summary_eq_iff ((hnames _).mp hwindow)).mp (hstats _ (mem_distinct.mpr hwindow))
  · intro h
    have hrequest : ∀ svc ∈ (window rs since).map Record.service,
        svc ∈ (requestsRead rs since).map Record.service := by
      intro svc hsvc
      obtain ⟨r, hr, rfl⟩ := List.mem_map.mp hsvc
      exact List.mem_map.mpr (h r (List.mem_append_left _ hr)).1
    have hread : ∀ svc ∈ (statsRead rs since).map Record.service,
        svc ∈ (window rs since).map Record.service := by
      intro svc hsvc
      obtain ⟨r, hr, rfl⟩ := List.mem_map.mp hsvc
      obtain ⟨r', hr', heq, -⟩ := (h r (List.mem_append_right _ hr)).2.noLater r hr rfl
      exact List.mem_map.mpr ⟨r', hr', heq⟩
    have hnames : distinct ((window rs since).map Record.service) =
        distinct ((statsRead rs since).map Record.service) :=
      distinct_eq_iff.mpr fun svc => ⟨fun hsvc => hsub svc (hrequest svc hsvc), hread svc⟩
    constructor
    · exact distinct_eq_iff.mpr fun svc =>
        ⟨hrequest svc, fun hsvc => hread svc (hsub svc hsvc)⟩
    · rw [← hnames]
      refine List.map_congr_left fun svc hsvc => ?_
      have hstats := hsvc
      rw [hnames, mem_distinct] at hstats
      obtain ⟨r, hr, rfl⟩ := List.mem_map.mp (mem_distinct.mp hsvc)
      exact (summary_eq_iff hstats).mpr (h r (List.mem_append_left _ hr)).2

end

/-- **When the service listings are consistent.** Those of the ring are, unless a service is known
only from before the year 1. Those of SQLite are just when every service that has a request or a
response there has a request, and SQLite reads all there is to say about it. For records in both
stores, all services must be like that for the readers to agree. -/
theorem services_consistent (since : ℤ) :
    (∀ s : MemorySink, (∀ r ∈ s.recent s.len, r.service ≠ []) →
      (ServicesConsistent (window (s.recent s.len) since)
          (s.servicesSeen since) (s.serviceStats since) ↔
        ∀ r ∈ window (s.recent s.len) since, ∃ r' ∈ window (s.recent s.len) since,
          r'.service = r.service ∧ zeroTime ≤ r'.timestamp)) ∧
    (∀ (rs : List Record) (t : Tables), (stored []).writeAll rs = .ok t →
      (ServicesConsistent (window rs since)
          (SQLiteSink.servicesSeen t since) (SQLiteSink.serviceStats t since) ↔
        ∀ r ∈ statsRead rs since,
          (∃ r' ∈ requestsRead rs since, r'.service = r.service) ∧ ReadsAll rs since r.service)) ∧
    ∀ (s : MemorySink) (rs : List Record) (t : Tables), (s.recent s.len).Perm rs →
      (stored []).writeAll rs = .ok t → (∀ r ∈ rs, r.service ≠ []) →
      (s.servicesSeen since = SQLiteSink.servicesSeen t since ∧
          s.serviceStats since = SQLiteSink.serviceStats t since ↔
        ∀ r ∈ window rs since ++ statsRead rs since,
          (∃ r' ∈ requestsRead rs since, r'.service = r.service) ∧
            ReadsAll rs since r.service) := by
  refine ⟨fun s hsvc => memory_consistent_iff hsvc, ?_, ?_⟩
  · intro rs t hwrite
    obtain ⟨-, rfl⟩ := writeAll_ok.mp hwrite
    exact sqlite_consistent_iff rs
  · intro s rs t hperm hwrite hsvc
    obtain ⟨-, rfl⟩ := writeAll_ok.mp hwrite
    exact readers_agree_iff hperm hsvc

/-- A captured request of the service `billing`. -/
def billingRequest : Record :=
  .request { CapturedRequest.blank (str "1") 1 [] with service := str "billing" }

/-- A response event of the service `billing`. -/
def billingResponse : Record :=
  .response { ResponseEvent.blank (str "2") 2 [] with service := str "billing" }

/-- The ring after a request and its response. -/
def billingRing : MemorySink := ((MemorySink.new 10).write billingResponse).write billingRequest

theorem services_consistent_billing :
    ServicesConsistent (window (billingRing.recent billingRing.len) 1)
        (billingRing.servicesSeen 1) (billingRing.serviceStats 1) ∧
      ServicesConsistent (window [billingRequest, billingResponse] 1)
        (SQLiteSink.servicesSeen (stored [billingRequest, billingResponse]) 1)
        (SQLiteSink.serviceStats (stored [billingRequest, billingResponse]) 1) ∧
      billingRing.serviceStats 1 =
        SQLiteSink.serviceStats (stored [billingRequest, billingResponse]) 1 := by
  have hring : billingRing.recent billingRing.len = [billingRequest, billingResponse] := rfl
  have hwrite : (stored []).writeAll [billingRequest, billingResponse] =
      .ok (stored [billingRequest, billingResponse]) := rfl
  have hreads : ReadsAll [billingRequest, billingResponse] 1 (str "billing") :=
    ⟨by decide +kernel, by decide +kernel, by decide +kernel⟩
  have hall : ∀ r ∈ [billingRequest, billingResponse],
      (∃ r' ∈ requestsRead [billingRequest, billingResponse] 1, r'.service = r.service) ∧
        ReadsAll [billingRequest, billingResponse] 1 r.service := by
    intro r hr
    have hsvc : r.service = str "billing" := by
      revert r
      decide +kernel
    rw [hsvc]
    exact ⟨⟨billingRequest, by decide +kernel, by decide +kernel⟩, hreads⟩
  obtain ⟨hmem, hsql, hboth⟩ := services_consistent 1
  refine ⟨(hmem billingRing ?_).mpr ?_, (hsql _ _ hwrite).mpr ?_,
    ((hboth billingRing _ _ ?_ hwrite ?_).mpr ?_).2⟩
  · decide +kernel
  · decide +kernel
  · exact fun r hr => hall r (mem_statsRead.mp hr).1
  · rw [hring]
  · decide +kernel
  · intro r hr
    rcases List.mem_append.mp hr with hr | hr
    · exact hall r (List.mem_of_mem_filter hr)
    · exact hall r (mem_statsRead.mp hr).1

/-- A service with nothing but a response event has statistics in SQLite, and is not listed
there. -/
theorem services_response_only :
    (stored []).writeAll [billingResponse] = .ok (stored [billingResponse]) ∧
      SQLiteSink.servicesSeen (stored [billingResponse]) zeroTime = [] ∧
      (SQLiteSink.serviceStats (stored [billingResponse]) zeroTime).map ServiceStat.name =
        [str "billing"] ∧
      ((MemorySink.new 10).write billingResponse).servicesSeen zeroTime = [str "billing"] ∧
      ¬ ServicesConsistent (window [billingResponse] zeroTime)
        (SQLiteSink.servicesSeen (stored [billingResponse]) zeroTime)
        (SQLiteSink.serviceStats (stored [billingResponse]) zeroTime) := by
  refine ⟨rfl, rfl, rfl, rfl, fun h => ?_⟩
  exact absurd h.names (by decide +kernel)

end HttpCatch.Sinks

import HttpCatch.Inspect.Reader
import HttpCatch.SearchQL.Predicate
import HttpCatch.Sinks.Memory

/-!
# Reading the ring

`internal/sinks/memory_reader.go`: the memory reader takes a snapshot of the ring and makes
its rows in Go, where the SQLite reader leaves that to a statement. A first pass over the
snapshot notes which correlation ids have a request and counts their events; a second pass
keeps the records in the time window that the terms match, an event only where the ring has
no request for it. The rows are sorted, cut at the cursor and cut to a page.

`walk_memory` is the theorem about paging: following the cursors from the start ends, and
returns the rows of the records that are kept, once each and newest first.
-/

namespace HttpCatch.Sinks

open HttpCatch.Go HttpCatch.Capture HttpCatch.SearchQL HttpCatch.Inspect HttpCatch.Keyset

/-! ### Terms on events without a request -/

/-- `matchOrphanString`. -/
def matchOrphanString (s : GoString) (t : Term) : Bool :=
  match t.wildcard with
  | .wildcardPrefix => hasPrefix s t.value
  | .wildcardSubstring => contains s t.value
  | .wildcardNone => s = t.value

/-- `evaluateOrphanCommonTerm`: whether the term matches, and whether it is about events. -/
def evaluateOrphanCommonTerm (t : Term) (service correlationID : GoString) : Bool × Bool :=
  match t.field with
  | .service => (matchOrphanString service t, true)
  | .correlationID => (correlationID = t.value, true)
  | _ => (false, false)

section Matching

variable (U : Unicode)

/-- `evaluateOrphanResponseTerm`. -/
def evaluateOrphanResponseTerm (t : Term) (ev : ResponseEvent) : Bool × Bool :=
  match t.field with
  | .freeform => (matchFreeformResponseEvent U t ev, true)
  | .status =>
    match t.statusFilter with
    | none => (false, false)
    | some sf =>
      if sf.exact ≠ 0 then (ev.status = sf.exact, true)
      else (sf.classRange.1 ≤ ev.status && ev.status ≤ sf.classRange.2, true)
  | .headers => (headersAny U ev.headers t.value, true)
  | .header => (headerValueContains U ev.headers t.headerName t.value, true)
  | _ => evaluateOrphanCommonTerm t ev.service ev.correlationID

/-- `evaluateOutboundOrphanTerm`: headers are searched on both halves. -/
def evaluateOutboundOrphanTerm (t : Term) (ev : OutboundEvent) : Bool × Bool :=
  match t.field with
  | .freeform => (matchFreeformOutboundEvent U t ev, true)
  | .headers =>
    (headersAny U ev.request.headers t.value ||
      ev.response.any fun h => headersAny U h.headers t.value, true)
  | .header =>
    (headerValueContains U ev.request.headers t.headerName t.value ||
      ev.response.any fun h => headerValueContains U h.headers t.headerName t.value, true)
  | _ => evaluateOrphanCommonTerm t ev.service ev.correlationID

/-- What the loops over the terms make of one: a term that does not apply keeps the event. -/
def orphanTermKeeps (t : Term) (result : Bool × Bool) : Bool := !result.2 || result.1 != t.negated

/-- `matchOrphanResponse`. -/
def matchOrphanResponse (q : Query) (ev : ResponseEvent) : Bool :=
  q.terms.all fun t => orphanTermKeeps t (evaluateOrphanResponseTerm U t ev)

/-- `matchOrphanOutbound`: a status term, negated or not, keeps no outbound event. -/
def matchOrphanOutbound (q : Query) (ev : OutboundEvent) : Bool :=
  q.terms.all fun t => t.field ≠ .status && orphanTermKeeps t (evaluateOutboundOrphanTerm U t ev)

end Matching

/-! ### The two passes -/

/-- `requestCorrs`: the correlation ids with a request. -/
def requestCorrs (all : List Record) : List GoString :=
  (all.filter Record.isRequest).map Record.correlationID

/-- `eventCounts`: the number of events with a correlation id. -/
def eventCounts (all : List Record) (correlationID : GoString) : ℕ :=
  all.countP fun r => !r.isRequest && r.correlationID = correlationID

/-- The row of a record. -/
def memRoot (all : List Record) : Record → RootRow
  | .request v =>
    ⟨v.id, .request, v.timestamp, v.service, v.method, v.path, v.correlationID, v.sourceIP,
      some (eventCounts all v.correlationID), some (0 < eventCounts all v.correlationID), none⟩
  | .response v => ⟨v.id, .orphanResponse, v.timestamp, v.service, [], [], v.correlationID, [],
    none, none, some v.status⟩
  | .outbound v =>
    ⟨v.id, .orphanOutbound, v.timestamp, v.service, [], [], v.correlationID, [], none, none, none⟩

/-- The time window of a query. -/
def inWindow (since until_ : Option ℤ) (ts : ℤ) : Bool :=
  (since.all fun t => t ≤ ts) && until_.all fun t => ts < t

section Reading

variable (U : Unicode)

/-- The terms of the query keep the record, an event only without a request. -/
def memSelected (all : List Record) (q : InspectQuery) : Record → Bool
  | .request v => compilePredicate U q.query v
  | .response v =>
    !q.hasRequestOnlyFilter && v.correlationID ∉ requestCorrs all && matchOrphanResponse U q.query v
  | .outbound v =>
    !q.hasRequestOnlyFilter && v.correlationID ∉ requestCorrs all && matchOrphanOutbound U q.query v

/-- The records that the second pass keeps. -/
def memKeeps (all : List Record) (q : InspectQuery) (r : Record) : Bool :=
  inWindow q.since q.until_ r.timestamp && memSelected U all q r

/-- `candidates`. -/
def candidates (all : List Record) (q : InspectQuery) : List RootRow :=
  (all.filter (memKeeps U all q)).map (memRoot all)

/-- `MemorySink.ReadRoots` for the limits of its callers, 1 to 500; `MemorySink.readRoots?` is for
any `int`. -/
def MemorySink.readRoots (s : MemorySink) (q : InspectQuery) (limit : ℕ) (cursor : Option Cursor) :
    List RootRow × Option Cursor :=
  let all := s.recent s.len
  let rows := after RootRow.cursor cursor (newestFirst RootRow.cursor (candidates U all q))
  page RootRow.cursor limit (rows.take (limit + 1))

/-- `MemorySink.AggregateRoots`: without a join, a request has no status. -/
def MemorySink.aggregateRoots (s : MemorySink) (q : InspectQuery) (bucketCount : ℤ) : Aggregation :=
  let all := s.recent s.len
  let kept := all.filter (memKeeps U all q)
  match bucketRange q bucketCount with
  | none => ⟨kept.length, []⟩
  | some (sinceNS, bucketWidth) =>
    ⟨kept.length, kept.foldl (fun buckets r => tally buckets bucketCount
        (((unixNano r.timestamp - sinceNS).bmod (2 ^ 64)).tdiv bucketWidth)
          (statusClass (memRoot all r).status) 1)
      (emptyBuckets sinceNS bucketWidth bucketCount)⟩

end Reading

/-! ### Paging -/

section Paging

variable {U : Unicode} {all : List Record}

theorem mem_requestCorrs {cid : GoString} :
    cid ∈ requestCorrs all ↔ ∃ r, Record.request r ∈ all ∧ r.correlationID = cid := by
  rw [requestCorrs, List.mem_map]
  constructor
  · rintro ⟨rec, hrec, rfl⟩
    obtain ⟨hmem, hreq⟩ := List.mem_filter.mp hrec
    cases rec with
    | request r => exact ⟨r, hmem, rfl⟩
    | response ev => cases hreq
    | outbound ev => cases hreq
  · rintro ⟨r, hr, rfl⟩
    exact ⟨.request r, List.mem_filter.mpr ⟨hr, rfl⟩, rfl⟩

theorem memRoot_cursor (rec : Record) : (memRoot all rec).cursor = ⟨rec.timestamp, rec.id⟩ := by
  cases rec <;> rfl

/-- The rows of a query, newest first. -/
def memRows (U : Unicode) (all : List Record) (q : InspectQuery) : List RootRow :=
  newestFirst RootRow.cursor (candidates U all q)

theorem mem_memRows {q : InspectQuery} {row : RootRow} :
    row ∈ memRows U all q ↔ ∃ rec ∈ all, memKeeps U all q rec = true ∧ memRoot all rec = row := by
  rw [memRows, mem_newestFirst, candidates, List.mem_map]
  simp [and_assoc]

theorem nodup_candidates (hid : (all.map Record.id).Nodup) (q : InspectQuery) :
    ((candidates U all q).map RootRow.id).Nodup := by
  have hids : (candidates U all q).map RootRow.id =
      (all.filter (memKeeps U all q)).map Record.id := by
    rw [candidates, List.map_map]
    exact List.map_congr_left fun rec _ => congrArg Cursor.id (memRoot_cursor rec)
  rw [hids]
  exact (List.filter_sublist.map Record.id).nodup hid

theorem newest_memRows (hid : (all.map Record.id).Nodup) (q : InspectQuery) :
    Newest RootRow.cursor (memRows U all q) :=
  newest_newestFirst (nodup_cursors (nodup_candidates hid q))

theorem length_memRows (q : InspectQuery) :
    (memRows U all q).length = (all.filter (memKeeps U all q)).length := by
  rw [memRows, (newestFirst_perm _).length_eq, candidates, List.length_map]

/-- `MemorySink.ReadRoots` returns a page of the rows after the cursor. -/
theorem memory_readRoots_eq (s : MemorySink) (q : InspectQuery) (limit : ℕ)
    (cursor : Option Cursor) :
    s.readRoots U q limit cursor =
      page RootRow.cursor limit (after RootRow.cursor cursor (memRows U (s.recent s.len) q)) :=
  page_take_succ limit _

/-- **Paging the ring to the end returns its rows**, once each and newest first. -/
theorem walk_memory (s : MemorySink) (hid : ((s.recent s.len).map Record.id).Nodup)
    (q : InspectQuery) {limit : ℕ} (hl : 0 < limit) {n : ℕ} (hn : (s.recent s.len).length < n) :
    ∃ pages, walk (s.readRoots U q limit) n none = some pages ∧
      pages.flatten = memRows U (s.recent s.len) q := by
  have hlen : (memRows U (s.recent s.len) q).length < n :=
    ((length_memRows q).trans_le (List.length_filter_le _ _)).trans_lt hn
  have hfetch : s.readRoots U q limit =
      fun c => page RootRow.cursor limit (after RootRow.cursor c (memRows U (s.recent s.len) q)) :=
    funext (memory_readRoots_eq s q limit)
  rw [hfetch]
  simpa [after] using walk_page (newest_memRows hid q) hl n none (by simpa [after] using hlen)

/-- `MemorySink.AggregateRoots` counts the rows, with a histogram or without. -/
theorem memory_aggregateRoots_total (s : MemorySink) (q : InspectQuery) (bucketCount : ℤ) :
    (s.aggregateRoots U q bucketCount).total = (memRows U (s.recent s.len) q).length := by
  rw [length_memRows, MemorySink.aggregateRoots]
  cases bucketRange q bucketCount <;> rfl

end Paging

end HttpCatch.Sinks

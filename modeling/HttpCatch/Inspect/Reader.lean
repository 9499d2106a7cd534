import HttpCatch.Capture.Record
import HttpCatch.Library.Keyset
import HttpCatch.SearchQL.Query

/-!
# What readers take and return

`internal/inspect`: the rows of the list at `GET /requests`, the cursor that names a
position in it, and the query. The list is ordered by timestamp and then id, both
descending; a cursor is the timestamp and the id of a row, so cursors are ordered like the
rows they name.

The histogram at `GET /requests/aggregate` counts the rows of a query by time and status
class; both readers fill it in the same way (`bucketRange`, `emptyBuckets`, `tally`) and
differ in how they come by the rows.
-/

namespace HttpCatch.Inspect

open HttpCatch.Go HttpCatch.Capture HttpCatch.SearchQL

/-- `Cursor`. -/
@[ext]
structure Cursor where
  timestamp : ℤ
  id : GoString
  deriving DecidableEq

/-- A cursor as a pair, the timestamp first. -/
def Cursor.pair (c : Cursor) : ℤ ×ₗ GoString := toLex (c.timestamp, c.id)

theorem Cursor.pair_injective : Function.Injective Cursor.pair := by
  intro c d h
  obtain ⟨h₁, h₂⟩ := Prod.mk.inj (toLex.injective h)
  exact Cursor.ext h₁ h₂

/-- Cursors in the order of the list, read backwards: by timestamp, then id. -/
instance : LinearOrder Cursor := LinearOrder.lift' Cursor.pair Cursor.pair_injective

theorem Cursor.lt_iff (c d : Cursor) :
    c < d ↔ c.timestamp < d.timestamp ∨ c.timestamp = d.timestamp ∧ c.id < d.id :=
  Prod.Lex.toLex_lt_toLex

/-- The `Kind` of a row. -/
inductive Kind where
  /-- `request`. -/
  | request
  /-- `orphan_response`. -/
  | orphanResponse
  /-- `orphan_outbound`. -/
  | orphanOutbound
  deriving DecidableEq

/-- `RootRow`: an entry of the list. Fields that orphans do not have are empty or nil. -/
structure RootRow where
  id : GoString
  kind : Kind
  timestamp : ℤ
  service : GoString
  method : GoString
  path : GoString
  correlationID : GoString
  sourceIP : GoString
  eventCount : Option ℤ
  hasEvents : Option Bool
  status : Option ℤ
  deriving DecidableEq

/-- The position of a row in the list. -/
def RootRow.cursor (r : RootRow) : Cursor := ⟨r.timestamp, r.id⟩

theorem nodup_cursors {rows : List RootRow} (h : (rows.map RootRow.id).Nodup) :
    (rows.map RootRow.cursor).Nodup := by
  refine List.Nodup.of_map Cursor.id ?_
  rw [List.map_map]
  exact h

/-- `InspectQuery`. -/
structure InspectQuery where
  limit : ℕ
  cursor : Option Cursor
  since : Option ℤ
  until_ : Option ℤ
  query : Query

/-- `HasRequestOnlyFilter`. -/
def InspectQuery.hasRequestOnlyFilter (q : InspectQuery) : Bool := q.query.hasRequestOnlyTerm

/-! ### The histogram -/

/-- `HistogramBucket`. -/
structure HistogramBucket where
  start : ℤ
  s2xx : ℕ
  s3xx : ℕ
  s4xx : ℕ
  s5xx : ℕ
  other : ℕ
  deriving DecidableEq

/-- `Aggregation`. -/
structure Aggregation where
  total : ℕ
  buckets : List HistogramBucket
  deriving DecidableEq

/-- `ServiceStat`. -/
structure ServiceStat where
  name : GoString
  requests : ℕ
  lastSeen : ℤ
  s2xx : ℕ
  s3xx : ℕ
  s4xx : ℕ
  s5xx : ℕ
  other : ℕ
  deriving DecidableEq

/-- `statusClass`; SQLite computes the same by `CASE`. -/
def statusClass : Option ℤ → ℕ
  | none => 0
  | some v =>
    if 200 ≤ v ∧ v < 300 then 2
    else if 300 ≤ v ∧ v < 400 then 3
    else if 400 ≤ v ∧ v < 500 then 4
    else if 500 ≤ v ∧ v < 600 then 5
    else 0

/-- Add to the counter of a status class. -/
def HistogramBucket.add (klass n : ℕ) (b : HistogramBucket) : HistogramBucket :=
  match klass with
  | 2 => { b with s2xx := b.s2xx + n }
  | 3 => { b with s3xx := b.s3xx + n }
  | 4 => { b with s4xx := b.s4xx + n }
  | 5 => { b with s5xx := b.s5xx + n }
  | _ => { b with other := b.other + n }

/-- Where the buckets start and how wide they are, in nanoseconds; none without a range of time
to cut into buckets. The arithmetic is that of `int64`. -/
def bucketRange (q : InspectQuery) (bucketCount : ℤ) : Option (ℤ × ℤ) :=
  match q.since, q.until_ with
  | some since, some until_ =>
    if 0 < bucketCount ∧ since < until_ then
      let bucketWidth := ((unixNano until_ - unixNano since).bmod (2 ^ 64)).tdiv bucketCount
      some (unixNano since, if bucketWidth ≤ 0 then 1 else bucketWidth)
    else none
  | _, _ => none

/-- The buckets before anything is counted. -/
def emptyBuckets (sinceNS bucketWidth bucketCount : ℤ) : List HistogramBucket :=
  (List.range bucketCount.toNat).map fun i => ⟨(sinceNS + bucketWidth * i).bmod (2 ^ 64),
    0, 0, 0, 0, 0⟩

/-- Count rows of a class; an index outside the buckets is moved to the first or the last. -/
def tally (buckets : List HistogramBucket) (bucketCount idx : ℤ) (klass n : ℕ) :
    List HistogramBucket :=
  buckets.modify (if idx < 0 then 0 else if bucketCount ≤ idx then bucketCount - 1 else idx).toNat
    (·.add klass n)

/-! ### Readers -/

/-- `Reader`, as far as the list and the histogram use it; an error is its text. -/
structure Reader where
  readRoots : InspectQuery → ℕ → Option Cursor → Except GoString (List RootRow × Option Cursor)
  aggregateRoots : InspectQuery → ℤ → Except GoString Aggregation

end HttpCatch.Inspect

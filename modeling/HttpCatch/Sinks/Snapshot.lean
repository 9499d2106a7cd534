import HttpCatch.Sinks.MemoryHistory
import HttpCatch.Sinks.MemoryReader
import HttpCatch.Sinks.SQLiteDetail

/-!
# Reading the ring while it is written

Every read of the memory sink starts with `s.Recent(s.Len())`, and works on that list of
records from then on (`ReadCall.eval`). `Len` and `Recent` take the lock each for itself, so
that writes can come in between (`Overlap`): the list then has as many records as there were at
the first call, and the newest ones at the second.

* `consistent_iff` — such a read says what the ring was at one instant, for all records,
  exactly when nothing is written in between, or the ring was empty or full.
-/

namespace HttpCatch.Sinks

open HttpCatch.Go HttpCatch.Capture HttpCatch.SearchQL HttpCatch.Inspect HttpCatch.Keyset

/-! ### Reads -/

section Reads

variable (U : Unicode)

/-- `ReadRoots` from its snapshot on. -/
def rootsOf (all : List Record) (q : InspectQuery) (limit : ℕ) (cursor : Option Cursor) :
    List RootRow × Option Cursor :=
  let rows := after RootRow.cursor cursor (newestFirst RootRow.cursor (candidates U all q))
  page RootRow.cursor limit (rows.take (limit + 1))

theorem readRoots_eq_rootsOf (s : MemorySink) (q : InspectQuery) (limit : ℕ)
    (cursor : Option Cursor) :
    s.readRoots U q limit cursor = rootsOf U (s.recent s.len) q limit cursor := rfl

/-- `AggregateRoots` from its snapshot on. -/
def aggregateOf (all : List Record) (q : InspectQuery) (bucketCount : ℤ) : Aggregation :=
  let kept := all.filter (memKeeps U all q)
  match bucketRange q bucketCount with
  | none => ⟨kept.length, []⟩
  | some (sinceNS, bucketWidth) =>
    ⟨kept.length, kept.foldl (fun buckets r => tally buckets bucketCount
        (((unixNano r.timestamp - sinceNS).bmod (2 ^ 64)).tdiv bucketWidth)
          (statusClass (memRoot all r).status) 1)
      (emptyBuckets sinceNS bucketWidth bucketCount)⟩

theorem aggregateRoots_eq_aggregateOf (s : MemorySink) (q : InspectQuery) (bucketCount : ℤ) :
    s.aggregateRoots U q bucketCount = aggregateOf U (s.recent s.len) q bucketCount := rfl

/-- The order of the events of a detail view: by timestamp, then id. -/
def detailLE (a b : Record) : Bool :=
  a.timestamp < b.timestamp ∨ a.timestamp = b.timestamp ∧ ¬ b.id < a.id

/-- `ReadDetail` from its snapshot on. -/
def detailOf (all : List Record) (id : GoString) : Except DetailError DetailRecord :=
  match all.find? fun r => r.id = id with
  | none => .error .notFound
  | some root =>
    .ok ⟨root, (all.filter fun r => r.id ≠ id ∧
      r.correlationID = root.correlationID).mergeSort detailLE⟩

/-- `MemorySink.ReadDetail`. -/
def MemorySink.readDetail (s : MemorySink) (id : GoString) : Except DetailError DetailRecord :=
  detailOf (s.recent s.len) id

/-- `OrphanCounts` from its snapshot on: response events and outbound events. -/
def orphanCountsOf (all : List Record) : ℕ × ℕ :=
  let orphans := all.filter fun r => r.correlationID ∉ requestCorrs all
  (orphans.countP fun r => match r with | .response _ => true | _ => false,
    orphans.countP fun r => match r with | .outbound _ => true | _ => false)

/-- `MemorySink.OrphanCounts`. -/
def MemorySink.orphanCounts (s : MemorySink) : ℕ × ℕ := orphanCountsOf (s.recent s.len)

/-- The reads of the memory sink. -/
inductive ReadCall where
  | readRoots (q : InspectQuery) (limit : ℕ) (cursor : Option Cursor)
  | readDetail (id : GoString)
  | aggregateRoots (q : InspectQuery) (bucketCount : ℤ)
  | orphanCounts

/-- What they return. -/
inductive ReadResult where
  | roots (page : List RootRow × Option Cursor)
  | detail (result : Except DetailError DetailRecord)
  | aggregation (result : Aggregation)
  | counts (response outbound : ℕ)

/-- What a read makes of its snapshot. -/
def ReadCall.eval (all : List Record) : ReadCall → ReadResult
  | .readRoots q limit cursor => .roots (rootsOf U all q limit cursor)
  | .readDetail id => .detail (detailOf all id)
  | .aggregateRoots q bucketCount => .aggregation (aggregateOf U all q bucketCount)
  | .orphanCounts => .counts (orphanCountsOf all).1 (orphanCountsOf all).2

/-- A read of a ring that nobody writes. -/
def MemorySink.call (s : MemorySink) : ReadCall → ReadResult
  | .readRoots q limit cursor => .roots (s.readRoots U q limit cursor)
  | .readDetail id => .detail (s.readDetail id)
  | .aggregateRoots q bucketCount => .aggregation (s.aggregateRoots U q bucketCount)
  | .orphanCounts => .counts s.orphanCounts.1 s.orphanCounts.2

theorem MemorySink.call_eq (s : MemorySink) (c : ReadCall) :
    s.call U c = c.eval U (s.recent s.len) := by
  cases c <;> rfl

end Reads

/-! ### Writes in between -/

/-- The writes around a read: before it starts, until it calls `Len`, until it calls `Recent`,
and until it ends. -/
structure Overlap where
  past : List Record
  untilLen : List Record
  untilRecent : List Record
  untilEnd : List Record

namespace Overlap

variable (U : Unicode) (capacity : ℤ) (o : Overlap)

/-- The ring when `Len` is called. -/
def atLen : MemorySink := .ofHistory capacity (o.past ++ o.untilLen)

/-- The ring when `Recent` is called. -/
def atRecent : MemorySink := .ofHistory capacity (o.past ++ o.untilLen ++ o.untilRecent)

/-- What the read returns. -/
def result (c : ReadCall) : ReadResult :=
  c.eval U ((o.atRecent capacity).recent (o.atLen capacity).len)

/-- The ring as it is at some instant between the start and the end of the read. -/
def Instant (s : MemorySink) : Prop :=
  ∃ w, w <+: o.untilLen ++ o.untilRecent ++ o.untilEnd ∧ s = .ofHistory capacity (o.past ++ w)

/-- Every read returns what it would have returned at one instant. -/
def Consistent : Prop := ∀ c, ∃ s, o.Instant capacity s ∧ o.result U capacity c = s.call U c

variable {U capacity o}

theorem instant_atLen : o.Instant capacity (o.atLen capacity) :=
  ⟨o.untilLen, by simp [List.append_assoc], rfl⟩

theorem instant_atRecent : o.Instant capacity (o.atRecent capacity) :=
  ⟨o.untilLen ++ o.untilRecent, List.prefix_append _ _, by rw [atRecent, List.append_assoc]⟩

/-- A read is consistent when its snapshot is the ring at one instant. -/
theorem consistent_of_snapshot {s : MemorySink} (hs : o.Instant capacity s)
    (h : (o.atRecent capacity).recent (o.atLen capacity).len = s.recent s.len) :
    o.Consistent U capacity :=
  fun c => ⟨s, hs, by rw [result, h, MemorySink.call_eq]⟩

theorem consistent_of_quiet (h : o.untilRecent = []) : o.Consistent U capacity := by
  apply consistent_of_snapshot instant_atLen
  rw [atRecent, h, List.append_nil]
  rfl

theorem consistent_of_empty (h : (o.atLen capacity).len = 0) : o.Consistent U capacity := by
  apply consistent_of_snapshot instant_atLen
  rw [h]
  rfl

/-- The ring stays full. -/
theorem consistent_of_full (h : (o.atLen capacity).len = (max 1 capacity).toNat) :
    o.Consistent U capacity := by
  apply consistent_of_snapshot instant_atRecent
  have hlen : (o.atRecent capacity).len = (max 1 capacity).toNat := by
    rw [MemorySink.len, atLen, MemorySink.size_ofHistory] at h
    rw [MemorySink.len, atRecent, MemorySink.size_ofHistory, List.length_append]
    omega
  rw [h, hlen]

/-! ### A read that is not consistent -/

/-- Requests of one correlation id, the `i`-th with an id of length `i`. -/
def numbered (i : ℕ) : Record := .request (.blank (List.replicate i 0x61) 0 [])

theorem numbered_id_injective : Function.Injective fun i => (numbered i).id := by
  intro i j h
  have := congrArg List.length (show List.replicate i (0x61 : UInt8) = List.replicate j 0x61 from h)
  simpa using this

/-- The writes of numbered requests. -/
def numberedOverlap (a b m d : ℕ) : Overlap where
  past := (List.range a).map numbered
  untilLen := (List.range' a b).map numbered
  untilRecent := (List.range' (a + b) m).map numbered
  untilEnd := (List.range' (a + b + m) d).map numbered

theorem range_append_range' (a b : ℕ) : List.range a ++ List.range' a b = List.range (a + b) := by
  have happend : List.range' 0 a ++ List.range' (0 + a) b = List.range' 0 (a + b) :=
    List.range'_append_1
  rwa [Nat.zero_add, ← List.range_eq_range', ← List.range_eq_range'] at happend

/-- A part of the history of numbered requests from its start is one again. -/
theorem range_of_append {a b m d : ℕ} {w : List Record}
    (h : w <+: (numberedOverlap a b m d).untilLen ++ (numberedOverlap a b m d).untilRecent ++
      (numberedOverlap a b m d).untilEnd) :
    (numberedOverlap a b m d).past ++ w = (List.range (a + w.length)).map numbered := by
  have hall : (numberedOverlap a b m d).past ++
      ((numberedOverlap a b m d).untilLen ++ (numberedOverlap a b m d).untilRecent ++
      (numberedOverlap a b m d).untilEnd) = (List.range (a + b + m + d)).map numbered := by
    simp only [numberedOverlap, ← List.append_assoc, ← List.map_append, range_append_range']
  obtain ⟨v, hv⟩ := h
  rw [← hv, ← List.append_assoc] at hall
  have hlen := congrArg List.length hall
  have htake := congrArg (List.take (a + w.length)) hall
  have hpast : ((numberedOverlap a b m d).past ++ w).length = a + w.length := by
    simp [numberedOverlap]
  rw [← hpast, List.take_left, hpast, ← List.map_take, List.take_range] at htake
  rw [htake]
  rw [List.length_append, hpast, List.length_map, List.length_range] at hlen
  congr 2
  omega

/-- The ids of the records last written are those of the highest numbers. -/
theorem recent_numbered (capacity : ℤ) (L n : ℕ) :
    ((MemorySink.ofHistory capacity ((List.range L).map numbered)).recent n).map Record.id =
      (((List.range L).map fun i => (numbered i).id).reverse).take
        (min n (max 1 capacity).toNat) := by
  rw [MemorySink.recent_history, ← List.map_reverse, ← List.map_reverse, ← List.map_take,
    ← List.map_take, List.map_map]
  rfl

theorem numbered_correlationID {capacity : ℤ} {L n : ℕ} :
    ∀ r ∈ (MemorySink.ofHistory capacity ((List.range L).map numbered)).recent n, r.correlationID =
      [] := by
  intro r hr
  rw [MemorySink.recent_history] at hr
  obtain ⟨i, -, rfl⟩ := List.mem_map.mp (List.mem_reverse.mp (List.mem_of_mem_take hr))
  rfl

theorem nodup_recent_numbered (capacity : ℤ) (L n : ℕ) :
    (((MemorySink.ofHistory capacity ((List.range L).map numbered)).recent n).map
      Record.id).Nodup := by
  rw [recent_numbered]
  exact (List.nodup_reverse.mpr (List.nodup_range.map numbered_id_injective)).sublist
    (List.take_sublist _ _)

theorem mem_recent_numbered {capacity : ℤ} {L n i : ℕ} :
    (numbered i).id ∈ ((MemorySink.ofHistory capacity ((List.range L).map numbered)).recent n).map
      Record.id → i < L := by
  rw [recent_numbered]
  intro h
  obtain ⟨j, hj, heq⟩ := List.mem_map.mp (List.mem_reverse.mp (List.mem_of_mem_take h))
  rw [← numbered_id_injective heq]
  exact List.mem_range.mp hj

end Overlap

/-- The detail view of one of several records with the same correlation id lists the others. -/
theorem detailOf_length {all : List Record} (hid : (all.map Record.id).Nodup) {cid : GoString}
    (hcid : ∀ r ∈ all, r.correlationID = cid) {id : GoString} :
    (id ∉ all.map Record.id ∧ detailOf all id = .error .notFound) ∨
      id ∈ all.map Record.id ∧ ∃ d, detailOf all id = .ok d ∧ d.events.length + 1 = all.length := by
  rw [detailOf]
  cases hfind : all.find? fun r => r.id = id with
  | none =>
    refine .inl ⟨?_, rfl⟩
    intro hmem
    obtain ⟨r, hr, rfl⟩ := List.mem_map.mp hmem
    simpa using List.find?_eq_none.mp hfind r hr
  | some root =>
    have hroot : root ∈ all := List.mem_of_find?_eq_some hfind
    have hrid : root.id = id := by simpa using List.find?_some hfind
    refine .inr ⟨List.mem_map.mpr ⟨root, hroot, hrid⟩, _, rfl, ?_⟩
    rw [List.length_mergeSort, ← List.countP_eq_length_filter]
    have hcount : all.countP (fun r => r.id = id) = 1 := by
      have hone := List.count_eq_one_of_mem hid (List.mem_map.mpr ⟨root, hroot, hrid⟩)
      rw [List.count, List.countP_map] at hone
      rw [← hone]
      apply List.countP_congr
      intro r _
      simp
    have hsplit := List.length_eq_countP_add_countP (fun r : Record => decide (r.id = id))
        (l := all)
    have hsame : all.countP (fun r => decide (r.id ≠ id ∧ r.correlationID = root.correlationID)) =
        all.countP fun r => decide ¬ (decide (r.id = id) = true) := by
      apply List.countP_congr
      intro r hr
      simp [hcid r hr, hcid root hroot]
    omega

namespace Overlap

/-- Numbered requests, of which some come between `Len` and `Recent` while the ring grows: the
detail view of the newest one is of no instant. -/
theorem not_consistent_numbered (U : Unicode) {capacity : ℤ} {a b m d : ℕ} (hm : m ≠ 0)
    (hpos : a + b ≠ 0) (hcap : a + b < (max 1 capacity).toNat) :
    ¬ (numberedOverlap a b m d).Consistent U capacity := by
  intro h
  obtain ⟨s, ⟨w, hw, rfl⟩, hresult⟩ := h (.readDetail (numbered (a + b + m - 1)).id)
  rw [range_of_append hw, MemorySink.call_eq] at hresult
  have hlenEq : ((numberedOverlap a b m d).atLen capacity).len = a + b := by
    rw [atLen, MemorySink.len, MemorySink.size_ofHistory]
    simp only [numberedOverlap, List.length_append, List.length_map, List.length_range,
      List.length_range']
    omega
  have hrec : (numberedOverlap a b m d).atRecent capacity =
      .ofHistory capacity ((List.range (a + b + m)).map numbered) := by
    rw [atRecent]
    simp only [numberedOverlap, ← List.map_append, range_append_range']
  rw [result, hlenEq, hrec] at hresult
  injection hresult with hresult
  -- the snapshot has the newest request and `a + b` records
  have hnew : (numbered (a + b + m - 1)).id ∈
      ((MemorySink.ofHistory capacity ((List.range (a + b + m)).map numbered)).recent (a + b)).map
        Record.id := by
    rw [recent_numbered, show a + b + m = (a + b + m - 1) + 1 by omega, List.range_succ,
      List.map_append, List.reverse_append, show min (a + b) (max 1 capacity).toNat =
      (a + b - 1) + 1 by omega]
    simp
  have hsnap : ((MemorySink.ofHistory capacity ((List.range (a + b + m)).map numbered)).recent
      (a + b)).length = a + b := by
    rw [MemorySink.length_recent, MemorySink.size_ofHistory, List.length_map, List.length_range]
    omega
  rcases detailOf_length (nodup_recent_numbered capacity (a + b + m) (a + b))
    numbered_correlationID with
    ⟨habs, -⟩ | ⟨-, d, hd, hdlen⟩
  · exact habs hnew
  · -- at an instant with this request, the ring has more
    rw [hd, eq_comm] at hresult
    rcases detailOf_length (nodup_recent_numbered capacity (a + w.length) _)
      numbered_correlationID with
      ⟨-, herr⟩ | ⟨hin, d', hd', hd'len⟩
    · rw [herr] at hresult
      cases hresult
    · rw [hd'] at hresult
      cases hresult
      have hlt := mem_recent_numbered hin
      rw [MemorySink.length_recent, MemorySink.len, MemorySink.size_ofHistory, List.length_map,
        List.length_range] at hd'len
      omega

/-- **Reads of the ring are consistent**, for all records that can be written before and during
them, exactly when nothing is written between `Len` and `Recent`, or the ring is empty or full
when `Len` is called. -/
theorem consistent_iff (U : Unicode) (capacity : ℤ) (a b m d : ℕ) :
    (∀ o : Overlap, o.past.length = a → o.untilLen.length = b → o.untilRecent.length = m →
      o.untilEnd.length = d →
      o.Consistent U capacity) ↔ m = 0 ∨ a + b = 0 ∨ (max 1 capacity).toNat ≤ a + b := by
  constructor
  · intro h
    by_contra hnot
    simp only [not_or, not_le] at hnot
    refine not_consistent_numbered U hnot.1 hnot.2.1 hnot.2.2
      (h (numberedOverlap a b m d) ?_ ?_ ?_ ?_) <;> simp [numberedOverlap]
  · rintro hcond o rfl rfl rfl rfl
    have hlen : (o.atLen capacity).len =
        min (o.past.length + o.untilLen.length) (max 1 capacity).toNat := by
      rw [MemorySink.len, atLen, MemorySink.size_ofHistory, List.length_append]
    rcases hcond with hquiet | hempty | hfull
    · exact consistent_of_quiet (List.length_eq_zero_iff.mp hquiet)
    · exact consistent_of_empty (by omega)
    · exact consistent_of_full (by omega)

/-- A request and, between `Len` and `Recent`, its response. -/
def lateResponse : Overlap :=
  ⟨[.request (.blank (str "r") 0 (str "c"))], [], [.response (.blank (str "e") 1 (str "c"))], []⟩

/-- The response is listed as an orphan although its request is in the ring all the time. -/
theorem not_consistent_lateResponse :
    ¬ lateResponse.Consistent .asciiOnly 2 ∧
      (∃ row next, lateResponse.result .asciiOnly 2
        (.readRoots ⟨10, none, none, none, ⟨[]⟩⟩ 10 none) = .roots ([row], next) ∧
        row.kind = .orphanResponse ∧ row.correlationID = str "c") ∧
      ∀ s, lateResponse.Instant 2 s →
        Record.request (.blank (str "r") 0 (str "c")) ∈ s.recent s.len := by
  have hinst : ∀ s, lateResponse.Instant 2 s →
      s = .ofHistory 2 [.request (.blank (str "r") 0 (str "c"))] ∨
        s = .ofHistory 2 [.request (.blank (str "r") 0 (str "c")),
          .response (.blank (str "e") 1 (str "c"))] := by
    rintro s ⟨w, hw, rfl⟩
    cases w with
    | nil => exact .inl rfl
    | cons x w =>
      obtain ⟨hx, hnil⟩ : x = _ ∧ w <+: [] := List.cons_prefix_cons.mp hw
      rw [hx, List.prefix_nil.mp hnil]
      exact .inr rfl
  refine ⟨fun h => ?_, ⟨_, none, rfl, rfl, rfl⟩, fun s hs => ?_⟩
  · obtain ⟨s, hs, hresult⟩ := h (.readRoots ⟨10, none, none, none, ⟨[]⟩⟩ 10 none)
    -- alone, the first row is the request
    have hkind : ∃ row rows next, s.call .asciiOnly
        (.readRoots ⟨10, none, none, none, ⟨[]⟩⟩ 10 none) = .roots (row :: rows, next) ∧
        row.kind = .request := by
      rcases hinst s hs with rfl | rfl <;> exact ⟨_, _, _, rfl, rfl⟩
    obtain ⟨row, rows, next, hrows, hrow⟩ := hkind
    rw [hrows] at hresult
    injection hresult with hresult
    cases hresult
    cases hrow
  · rcases hinst s hs with rfl | rfl
    · exact List.mem_singleton.mpr rfl
    · exact List.mem_cons_of_mem _ (List.mem_singleton.mpr rfl)

end Overlap

end HttpCatch.Sinks

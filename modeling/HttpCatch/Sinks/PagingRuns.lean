import HttpCatch.Library.KeysetRuns
import HttpCatch.Sinks.SQLiteRoots
import HttpCatch.Sinks.Sweeper

/-!
# Paging the SQLite store while it is written and swept

A client that pages through `GET /requests` holds nothing in the server: between two pages workers
write records and the sweeper deletes rows. `Tables.apply` is one such operation on the tables and
`applyRecords` the same on the records whose rows are in them (`apply_stored`); so each page is
read from the rows of some records, and `Library/KeysetRuns` says what the pages together are.

The ids of all records that are ever written are taken to be distinct, as UUIDs are.

* `sqlite_paging_runs` — whatever happens between the pages, no record is listed twice, each is
  listed as it was when its page was read, one that was there all the time is listed, and paging
  comes to an end.
-/

namespace HttpCatch.Sinks

open HttpCatch.Go HttpCatch.Sql HttpCatch.Capture HttpCatch.Inspect HttpCatch.Keyset

/-- What may happen to the store between two reads. -/
inductive StoreOp where
  | write (rec : Record)
  | sweep (order : OrderBy) (faults : SweepFaults) (now : ℤ) (pol : SweeperPolicy)

/-- The record that an operation writes. -/
def StoreOp.record? : StoreOp → Option Record
  | .write rec => some rec
  | .sweep .. => none

/-- One operation; a write that fails leaves the tables. -/
def Tables.apply (t : Tables) : StoreOp → Tables
  | .write rec =>
    match t.write rec with
    | .ok t' => t'
    | .error _ => t
  | .sweep order faults now pol => (Sinks.sweep order faults now pol t).1

/-- The tables at each read, the operations before it being given. -/
def tablesAt : Tables → List (List StoreOp) → List Tables
  | _, [] => []
  | t, ops :: rest => ops.foldl Tables.apply t :: tablesAt (ops.foldl Tables.apply t) rest

/-! ### The records in the tables -/

/-- The rows of a record are there. -/
def inTables (t : Tables) (rec : Record) : Bool :=
  (requestRow? rec).all (· ∈ t.capturedRequests) && (eventRow? rec).all (· ∈ t.events)

/-- The same operation on the records. -/
def applyRecords (rs : List Record) : StoreOp → List Record
  | .write rec => if Storable (rs ++ [rec]) then rs ++ [rec] else rs
  | .sweep order faults now pol =>
    rs.filter (inTables (Sinks.sweep order faults now pol (stored rs)).1)

/-- The records at each read. -/
def recordsAt : List Record → List (List StoreOp) → List (List Record)
  | _, [] => []
  | rs, ops :: rest => ops.foldl applyRecords rs :: recordsAt (ops.foldl applyRecords rs) rest

/-- The records that some operations write. -/
def written (ops : List StoreOp) : List Record := ops.filterMap StoreOp.record?

section Records

variable {rs : List Record} {op : StoreOp}

theorem Storable.sublist {rs' : List Record} (h : Storable rs) (hsub : rs'.Sublist rs) :
    Storable rs' :=
  ⟨fun r hr => h.body r (hsub.subset hr), h.id.sublist hsub⟩

/-- Rows filtered in their table are the rows of the records that are still there. -/
theorem filterMap_filter_rows {row? : Record → Option Row} {keep : Row → Bool}
    {there : Record → Bool}
    (h : ∀ rec ∈ rs, ∀ row, row? rec = some row → keep row = there rec) :
    (rs.filterMap row?).filter keep = (rs.filter there).filterMap row? := by
  induction rs with
  | nil => rfl
  | cons rec rs ih =>
    have ih := ih fun rec' hrec' => h rec' (List.mem_cons_of_mem _ hrec')
    have hrec := h rec List.mem_cons_self
    cases hrow : row? rec with
    | none => by_cases ht : there rec <;> simp [hrow, ht, ih]
    | some row =>
      have hkeep := hrec row hrow
      by_cases ht : there rec
      · simp [hrow, ht, hkeep, ih]
      · simp [hrow, ht, hkeep, ih]

/-- A sweep of a table is a filter of its rows. -/
theorem sweepTable_filter (order : OrderBy) (now : ℤ) (pol : SweeperPolicy) (table : String)
    (rows : List Row) : ∃ keep : Row → Bool, sweepTable order now pol table rows =
      rows.filter keep := by
  rw [sweepTable]
  split_ifs
  · exact ⟨_, rfl⟩
  · exact ⟨_, rfl⟩

/-- The rows left by a filter of each table are those of the records still in the tables. -/
theorem stored_filter (keepRequest keepEvent : Row → Bool) :
    (⟨(stored rs).capturedRequests.filter keepRequest, (stored rs).events.filter keepEvent⟩ :
        Tables) =
      stored (rs.filter (inTables ⟨(stored rs).capturedRequests.filter keepRequest,
        (stored rs).events.filter keepEvent⟩)) := by
  have hrequest : ∀ rec ∈ rs, ∀ row, requestRow? rec = some row →
      keepRequest row = inTables ⟨(stored rs).capturedRequests.filter keepRequest,
        (stored rs).events.filter keepEvent⟩ rec := by
    intro rec hrec row hrow
    have hmem : row ∈ (stored rs).capturedRequests := List.mem_filterMap.mpr ⟨rec, hrec, hrow⟩
    have hev : eventRow? rec = none := by
      cases rec with
      | request r => rfl
      | response ev => cases hrow
      | outbound ev => cases hrow
    simp [inTables, hrow, hev, hmem]
  have hevent : ∀ rec ∈ rs, ∀ row, eventRow? rec = some row →
      keepEvent row = inTables ⟨(stored rs).capturedRequests.filter keepRequest,
        (stored rs).events.filter keepEvent⟩ rec := by
    intro rec hrec row hrow
    have hmem : row ∈ (stored rs).events := List.mem_filterMap.mpr ⟨rec, hrec, hrow⟩
    have hreq : requestRow? rec = none := by
      cases rec with
      | request r => cases hrow
      | response ev => rfl
      | outbound ev => rfl
    simp [inTables, hrow, hreq, hmem]
  rw [stored, Tables.mk.injEq]
  exact ⟨filterMap_filter_rows hrequest, filterMap_filter_rows hevent⟩

/-- All rows of stored records are there. -/
theorem inTables_stored : rs.filter (inTables (stored rs)) = rs := by
  rw [List.filter_eq_self]
  intro rec hrec
  have hmem : ∀ row? : Record → Option Row, (row? rec).all (· ∈ rs.filterMap row?) = true := by
    intro row?
    cases hrow : row? rec with
    | none => rfl
    | some row => simpa using ⟨rec, hrec, hrow⟩
  rw [inTables, Bool.and_eq_true]
  exact ⟨hmem requestRow?, hmem eventRow?⟩

/-- A sweep leaves the rows of some of the records. -/
theorem sweep_stored (order : OrderBy) (faults : SweepFaults) (now : ℤ) (pol : SweeperPolicy) :
    (sweep order faults now pol (stored rs)).1 =
      stored (rs.filter (inTables (sweep order faults now pol (stored rs)).1)) := by
  by_cases hoff : pol.maxAge = 0 ∧ pol.maxCount = 0
  · rw [sweep, if_pos hoff, inTables_stored]
  · by_cases hf : faults = .none
    · obtain ⟨keepRequest, hrequest⟩ :=
        sweepTable_filter order now pol "captured_requests" (stored rs).capturedRequests
      obtain ⟨keepEvent, hevent⟩ := sweepTable_filter order now pol "events" (stored rs).events
      rw [hf, sweep_none order hoff, hrequest, hevent]
      exact stored_filter keepRequest keepEvent
    · obtain ⟨err, herr⟩ := @sweep_fault pol now (stored rs) order faults hf hoff
      rw [herr, inTables_stored]

/-- **An operation on the tables is the operation on the records.** -/
theorem apply_stored (hs : Storable rs) (op : StoreOp) :
    (stored rs).apply op = stored (applyRecords rs op) ∧ Storable (applyRecords rs op) := by
  cases op with
  | write rec =>
    rw [Tables.apply, applyRecords]
    cases hw : (stored rs).write rec with
    | error e =>
      have hnot : ¬ Storable (rs ++ [rec]) := by
        intro h
        rw [(write_stored hs).mpr ⟨h, rfl⟩] at hw
        cases hw
      rw [if_neg hnot]
      exact ⟨rfl, hs⟩
    | ok t =>
      obtain ⟨h, rfl⟩ := (write_stored hs).mp hw
      rw [if_pos h]
      exact ⟨rfl, h⟩
  | sweep order faults now pol =>
    exact ⟨sweep_stored order faults now pol, hs.sublist List.filter_sublist⟩

theorem applyRecords_sublist (rs : List Record) (op : StoreOp) :
    (applyRecords rs op).Sublist (rs ++ op.record?.toList) := by
  cases op with
  | write rec =>
    rw [applyRecords]
    split_ifs
    · exact .refl _
    · exact List.sublist_append_left _ _
  | sweep order faults now pol =>
    rw [StoreOp.record?, Option.toList_none, List.append_nil]
    exact List.filter_sublist

/-- Some operations after each other, on the tables and on the records. -/
theorem foldl_apply_stored (hs : Storable rs) (ops : List StoreOp) :
    ops.foldl Tables.apply (stored rs) = stored (ops.foldl applyRecords rs) ∧
      Storable (ops.foldl applyRecords rs) := by
  induction ops generalizing rs with
  | nil => exact ⟨rfl, hs⟩
  | cons op ops ih =>
    obtain ⟨heq, hs'⟩ := apply_stored hs op
    rw [List.foldl_cons, List.foldl_cons, heq]
    exact ih hs'

theorem foldl_applyRecords_sublist (rs : List Record) (ops : List StoreOp) :
    (ops.foldl applyRecords rs).Sublist (rs ++ written ops) := by
  induction ops generalizing rs with
  | nil => simp [written]
  | cons op ops ih =>
    rw [List.foldl_cons]
    refine (ih _).trans (((applyRecords_sublist rs op).append_right _).trans ?_)
    rw [List.append_assoc, written, written]
    cases h : op.record? <;> simp [h]

/-- At each read the tables hold the rows of the records of that time. -/
theorem tablesAt_stored (hs : Storable rs) (batches : List (List StoreOp)) :
    tablesAt (stored rs) batches = (recordsAt rs batches).map stored := by
  induction batches generalizing rs with
  | nil => rfl
  | cons ops rest ih =>
    obtain ⟨heq, hs'⟩ := foldl_apply_stored hs ops
    rw [tablesAt, recordsAt, List.map_cons, heq, ih hs']

theorem storable_recordsAt (hs : Storable rs) (batches : List (List StoreOp)) :
    ∀ rs' ∈ recordsAt rs batches, Storable rs' := by
  induction batches generalizing rs with
  | nil => simp [recordsAt]
  | cons ops rest ih =>
    have hs' := (foldl_apply_stored hs ops).2
    rw [recordsAt, List.forall_mem_cons]
    exact ⟨hs', ih hs'⟩

/-- The records of each read are among those written before. -/
theorem recordsAt_sublist (rs : List Record) (batches : List (List StoreOp)) :
    ∀ rs' ∈ recordsAt rs batches, rs'.Sublist (rs ++ written batches.flatten) := by
  induction batches generalizing rs with
  | nil => simp [recordsAt]
  | cons ops rest ih =>
    have hfirst := foldl_applyRecords_sublist rs ops
    have hsplit : written (ops :: rest).flatten = written ops ++ written rest.flatten := by
      rw [written, List.flatten_cons, List.filterMap_append]
      rfl
    rw [recordsAt, List.forall_mem_cons, hsplit, ← List.append_assoc]
    refine ⟨hfirst.trans (List.sublist_append_left _ _), fun rs' hrs' => ?_⟩
    exact (ih _ rs' hrs').trans (hfirst.append_right _)

theorem length_recordsAt (rs : List Record) (batches : List (List StoreOp)) :
    (recordsAt rs batches).length = batches.length := by
  induction batches generalizing rs with
  | nil => rfl
  | cons ops rest ih => rw [recordsAt, List.length_cons, List.length_cons, ih]

end Records

/-! ### The pages -/

/-- The records at each read, out of all that were ever written. -/
structure Snapshots (all : List Record) (views : List (List Record)) : Prop where
  storable : ∀ rs ∈ views, Storable rs
  among : ∀ rs ∈ views, rs.Sublist all
  unique : (all.map Record.id).Nodup

/-- The records at the reads of a run. -/
theorem snapshots_recordsAt {batches : List (List StoreOp)}
    (hid : ((written batches.flatten).map Record.id).Nodup) :
    Snapshots (written batches.flatten) (recordsAt [] batches) :=
  ⟨storable_recordsAt ⟨by simp, by simp⟩ batches, recordsAt_sublist [] batches, hid⟩

/-- The pages that a client reads, one from each state of the tables. -/
def sqlitePages (U : Unicode) (q : InspectQuery) (limit : ℕ) (tables : List Tables) :
    List (List RootRow) × Bool :=
  follow (tables.map fun t => SQLiteSink.readRoots U t q limit) none

section Pages

variable {U : Unicode} {q : InspectQuery} {limit : ℕ} {all : List Record}
  {views : List (List Record)}

theorem Snapshots.ids (h : Snapshots all views) {rs : List Record} (hrs : rs ∈ views) :
    (rs.map Record.id).Nodup :=
  h.unique.sublist ((h.among rs hrs).map _)

/-- An id belongs to one record. -/
theorem Snapshots.eq_of_id (h : Snapshots all views) {rs rs' : List Record} (hrs : rs ∈ views)
    (hrs' : rs' ∈ views) {rec rec' : Record} (hrec : rec ∈ rs) (hrec' : rec' ∈ rs')
    (hid : rec.id = rec'.id) : rec = rec' :=
  List.inj_on_of_nodup_map h.unique ((h.among rs hrs).subset hrec)
    ((h.among rs' hrs').subset hrec') hid

theorem Snapshots.newest (h : Snapshots all views) :
    ∀ rows ∈ views.map (fun rs => sqlRows U rs q), Newest RootRow.cursor rows := by
  intro rows hrows
  obtain ⟨rs, hrs, rfl⟩ := List.mem_map.mp hrows
  exact newest_sqlRows (h.storable rs hrs) (h.ids hrs) q

/-- The pages are pages of the rows of the records of each time. -/
theorem sqlitePages_eq (h : Snapshots all views) (hl : 0 < limit) :
    sqlitePages U q limit (views.map stored) =
      follow (readers RootRow.cursor limit (views.map fun rs => sqlRows U rs q)) none := by
  rw [sqlitePages, readers, List.map_map, List.map_map]
  refine follow_congr (fun k => storedCursor k = k) ?_ ?_ (by simp)
  · rw [List.forall₂_map_left_iff, List.forall₂_map_right_iff, List.forall₂_same]
    intro rs hrs c hc
    dsimp only [Function.comp_apply]
    rw [readRoots_eq (h.storable rs hrs) (h.ids hrs)]
    cases c with
    | none => rfl
    | some k => rw [Option.map_some, hc k rfl]
  · intro g hg c k hk
    obtain ⟨rs, hrs, rfl⟩ := List.mem_map.mp hg
    have hs := h.storable rs hrs
    -- a cursor is the position of a row
    obtain ⟨-, ⟨row, hrow, rfl⟩, -⟩ := page_next ((newest_sqlRows hs (h.ids hrs) q).after c) hl hk
    exact storedCursor_sqlRows hs (mem_after.mp (List.mem_of_getElem? hrow)).1

theorem sqlitePages_newest (h : Snapshots all views) (hl : 0 < limit) :
    Newest RootRow.cursor (sqlitePages U q limit (views.map stored)).1.flatten := by
  rw [sqlitePages_eq h hl]
  exact follow_newest h.newest hl

/-- Every row was made, when its page was read, from a record of that time. -/
theorem sqlitePages_from (h : Snapshots all views) (hl : 0 < limit) :
    List.Forall₂
      (fun p rs => ∀ row ∈ p, ∃ rec ∈ rs, sqlKeeps U rs q rec = true ∧ sqlRoot rs rec = row)
      (sqlitePages U q limit (views.map stored)).1
      (views.take (sqlitePages U q limit (views.map stored)).1.length) := by
  have hfrom := @follow_from _ _ _ RootRow.cursor limit (views.map fun rs => sqlRows U rs q) none
  rw [← sqlitePages_eq h hl, ← List.map_take, List.forall₂_map_right_iff] at hfrom
  rw [List.forall₂_iff_get] at hfrom ⊢
  refine ⟨hfrom.1, fun i hp hv row hrow => ?_⟩
  have hrs := List.mem_of_mem_take (List.get_mem _ ⟨i, hv⟩)
  exact (mem_sqlRows (h.storable _ hrs)).mp (hfrom.2 i hp hv row hrow)

/-- The same of all pages together. -/
theorem mem_sqlitePages (h : Snapshots all views) (hl : 0 < limit) {row : RootRow}
    (hrow : row ∈ (sqlitePages U q limit (views.map stored)).1.flatten) :
    ∃ rs ∈ views.take (sqlitePages U q limit (views.map stored)).1.length,
      ∃ rec ∈ rs, sqlRoot rs rec = row := by
  obtain ⟨p, hp, hrowp⟩ := List.mem_flatten.mp hrow
  obtain ⟨i, hi, rfl⟩ := List.getElem_of_mem hp
  have hfrom := sqlitePages_from (U := U) (q := q) h hl
  have hi' := hfrom.length_eq ▸ hi
  obtain ⟨rec, hrec, -, heq⟩ := hfrom.get hi hi' row hrowp
  exact ⟨_, List.get_mem _ ⟨i, hi'⟩, rec, hrec, heq⟩

/-- No record is listed twice, not even as it was at two times. -/
theorem sqlitePages_once (h : Snapshots all views) (hl : 0 < limit) :
    ((sqlitePages U q limit (views.map stored)).1.flatten.map fun row => row.cursor.id).Nodup := by
  refine List.Nodup.map_on ?_ (List.Nodup.of_map RootRow.cursor (sqlitePages_newest h hl).nodup)
  intro row hrow row' hrow' hid
  have hcursor : row.cursor = row'.cursor := by
    obtain ⟨rs, hrs, rec, hrec, rfl⟩ := mem_sqlitePages h hl hrow
    obtain ⟨rs', hrs', rec', hrec', rfl⟩ := mem_sqlitePages h hl hrow'
    rw [sqlRoot_cursor, sqlRoot_cursor] at hid ⊢
    have heq : rec = rec' :=
      h.eq_of_id (List.mem_of_mem_take hrs) (List.mem_of_mem_take hrs') hrec hrec' hid
    rw [heq]
  exact List.inj_on_of_nodup_map (sqlitePages_newest h hl).nodup hrow hrow' hcursor

/-- A record that was kept at every read is listed. -/
theorem sqlitePages_complete (h : Snapshots all views) (hl : 0 < limit)
    (hend : (sqlitePages U q limit (views.map stored)).2 = true) {rec : Record}
    (hrec : ∀ rs ∈ views.take (sqlitePages U q limit (views.map stored)).1.length,
      rec ∈ rs ∧ sqlKeeps U rs q rec = true) :
    ∃ rs ∈ views, sqlRoot rs rec ∈ (sqlitePages U q limit (views.map stored)).1.flatten := by
  have hkey : (⟨unixNano rec.timestamp, rec.id⟩ : Cursor) ∈
      (sqlitePages U q limit (views.map stored)).1.flatten.map RootRow.cursor := by
    rw [sqlitePages_eq h hl] at hend hrec ⊢
    refine follow_complete h.newest hl hend (by simp) fun rows hrows => ?_
    rw [← List.map_take] at hrows
    obtain ⟨rs, hrs, rfl⟩ := List.mem_map.mp hrows
    obtain ⟨hmem, hkeeps⟩ := hrec rs hrs
    refine List.mem_map.mpr ⟨sqlRoot rs rec, ?_, sqlRoot_cursor rec⟩
    exact (mem_sqlRows (h.storable rs (List.mem_of_mem_take hrs))).mpr ⟨rec, hmem, hkeeps, rfl⟩
  obtain ⟨row, hrow, hcursor⟩ := List.mem_map.mp hkey
  obtain ⟨rs, hrs, rec', hrec', rfl⟩ := mem_sqlitePages h hl hrow
  -- the row of that position is the record's own
  have hid : rec'.id = rec.id := by
    rw [sqlRoot_cursor] at hcursor
    exact congrArg Cursor.id hcursor
  have hview := List.mem_of_mem_take hrs
  rw [h.eq_of_id hview hview hrec' (hrec rs hrs).1 hid] at hrow
  exact ⟨rs, hview, hrow⟩

theorem sqlitePages_ends (h : Snapshots all views) (hl : 0 < limit)
    (hlen : all.length < limit * views.length) :
    (sqlitePages U q limit (views.map stored)).2 = true := by
  have hkeys : ∀ rows ∈ views.map (fun rs => sqlRows U rs q), ∀ row ∈ rows,
      row.cursor ∈ all.map fun rec => (⟨unixNano rec.timestamp, rec.id⟩ : Cursor) := by
    intro rows hrows row hrow
    obtain ⟨rs, hrs, rfl⟩ := List.mem_map.mp hrows
    obtain ⟨rec, hrec, -, rfl⟩ := (mem_sqlRows (h.storable rs hrs)).mp hrow
    rw [sqlRoot_cursor]
    exact List.mem_map.mpr ⟨rec, (h.among rs hrs).subset hrec, rfl⟩
  rw [sqlitePages_eq h hl]
  apply follow_ends h.newest hl hkeys
  rw [List.length_map, List.length_map]
  exact hlen

end Pages

/-- **Paging through a store that is being written and swept.** Before each page any operations
may happen. Then

* the pages list records newest first and none twice;
* each row stands for a record that the query kept in the tables its page was read from, as it was
  then;
* a record that the query kept at every read is listed, if paging came to its end;
* paging does come to its end, once there were more reads than the records fill pages. -/
theorem sqlite_paging_runs (U : Unicode) (q : InspectQuery) {limit : ℕ} (hl : 0 < limit)
    (batches : List (List StoreOp)) (hid : ((written batches.flatten).map Record.id).Nodup) :
    let views := recordsAt [] batches
    let pages := sqlitePages U q limit (tablesAt (stored []) batches)
    (Newest RootRow.cursor pages.1.flatten ∧
        (pages.1.flatten.map fun row => row.cursor.id).Nodup) ∧
      List.Forall₂
        (fun p rs => ∀ row ∈ p, ∃ rec ∈ rs, sqlKeeps U rs q rec = true ∧ sqlRoot rs rec = row)
        pages.1 (views.take pages.1.length) ∧
      (pages.2 = true → ∀ rec, (∀ rs ∈ views.take pages.1.length,
        rec ∈ rs ∧ sqlKeeps U rs q rec = true) → ∃ rs ∈ views, sqlRoot rs rec ∈ pages.1.flatten) ∧
      ((written batches.flatten).length < limit * batches.length → pages.2 = true) := by
  have h := snapshots_recordsAt hid
  intro views pages
  have hpages : pages = sqlitePages U q limit (views.map stored) := by
    rw [← tablesAt_stored ⟨by simp, by simp⟩ batches]
  rw [hpages]
  refine ⟨⟨sqlitePages_newest h hl, sqlitePages_once h hl⟩, sqlitePages_from h hl, ?_, ?_⟩
  · intro hend rec hrec
    exact sqlitePages_complete h hl hend hrec
  · intro hlen
    rw [← length_recordsAt [] batches] at hlen
    exact sqlitePages_ends h hl hlen

/-- Two records are paged one by one; before the second page a third is written and the first is
swept. -/
def pagingRun : List (List StoreOp) :=
  [[.write (.request (.blank (str "a") 2 (str "c"))),
      .write (.request (.blank (str "b") 3 (str "d")))],
    [.write (.response (.blank (str "e") 4 (str "d"))),
      .sweep (fun _ rows => rows) .none 5 ⟨0, 1⟩], [], []]

theorem sqlite_paging_runs_swept :
    (sqlitePages .asciiOnly ⟨1, none, none, none, ⟨[]⟩⟩ 1 (tablesAt (stored []) pagingRun)).2 =
        true ∧
      ((sqlitePages .asciiOnly ⟨1, none, none, none, ⟨[]⟩⟩ 1
        (tablesAt (stored []) pagingRun)).1.flatten.map fun row => row.cursor.id).Nodup := by
  obtain ⟨⟨-, honce⟩, -, -, hend⟩ := @sqlite_paging_runs .asciiOnly ⟨1, none, none, none, ⟨[]⟩⟩ 1
    (by decide) pagingRun (by decide)
  exact ⟨hend (by decide), honce⟩

end HttpCatch.Sinks

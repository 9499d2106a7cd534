import HttpCatch.Sinks.Readers

/-!
# The list and the histogram over both readers

`internal/admin/inspect.go`: `GET /requests` asks memory first and turns to SQLite where
memory does not fill a page (`gatherRoots`); `GET /requests/aggregate` asks SQLite where there
is one (`gatherAggregation`).

* `gatherRoots_complete` — when following the cursors shows every record of SQLite once.
* `gatherRoots_classified` — when every row of every page is classified by all the records, and
  not only by those that are still in the ring.
* `gatherAggregation_total` — when the histogram counts the rows of the list.
-/

namespace HttpCatch.Admin

open HttpCatch.Go HttpCatch.Capture HttpCatch.SearchQL HttpCatch.Inspect HttpCatch.Keyset
  HttpCatch.Sinks

/-! ### The handlers' work -/

/-- The label of where the rows were read. -/
inductive ReadSource where
  /-- `memory`. -/
  | memory
  /-- `sqlite`. -/
  | sqlite
  /-- `memory+sqlite`. -/
  | memorySQLite
  /-- `none`. -/
  | none
  deriving DecidableEq

/-- `hasNonTemporalFilter`. -/
def hasNonTemporalFilter (q : InspectQuery) : Bool := q.query.hasNonTemporalTerm

/-- The rows of memory and those of SQLite that memory does not have, as a page. -/
def mergeRoots (limit : ℕ) (memRows sqlRows : List RootRow) : List RootRow × Option Cursor :=
  let memIDs := memRows.map RootRow.id
  page RootRow.cursor limit
    (newestFirst RootRow.cursor (memRows ++ sqlRows.filter fun row => row.id ∉ memIDs))

/-- `gatherRoots`. -/
def gatherRoots (q : InspectQuery) (memReader sqlReader : Option Reader) :
    Except GoString (List RootRow × Option Cursor × ReadSource) :=
  -- a filter by terms is not for memory
  match (if hasNonTemporalFilter q then Option.none else memReader), sqlReader with
  | .none, .none => .ok ([], .none, .none)
  | .none, some sqlReader => do
    let (rows, next) ← sqlReader.readRoots q q.limit q.cursor
    return (rows, next, .sqlite)
  | some memReader, sqlReader => do
    let (memRows, memNext) ← memReader.readRoots q q.limit q.cursor
    match (if q.limit ≤ memRows.length then Option.none else sqlReader) with
    | .none => return (memRows, memNext, .memory)
    | some sqlReader =>
      let (sqlRows, _) ← sqlReader.readRoots q q.limit q.cursor
      let (rows, next) := mergeRoots q.limit memRows sqlRows
      let source :=
        if memRows ≠ [] ∧ sqlRows ≠ [] then .memorySQLite else if sqlRows ≠ [] then .sqlite
          else .memory
      return (rows, next, source)

/-- `gatherAggregation`. -/
def gatherAggregation (q : InspectQuery) (bucketCount : ℤ) (memReader sqlReader : Option Reader) :
    Except GoString Aggregation :=
  match sqlReader, memReader with
  | some sqlReader, _ => sqlReader.aggregateRoots q bucketCount
  | .none, some memReader => memReader.aggregateRoots q bucketCount
  | .none, .none => .ok ⟨0, []⟩

/-- A client's request for the page at a cursor. -/
def gatherPage (q : InspectQuery) (memReader sqlReader : Option Reader) (c : Option Cursor) :
    List RootRow × Option Cursor :=
  match gatherRoots { q with cursor := c } memReader sqlReader with
  | .ok (rows, next, _) => (rows, next)
  | .error _ => ([], .none)

section Readers

variable (U : Unicode)

/-- The reader of the ring. -/
def memReader (s : MemorySink) : Reader :=
  ⟨fun q limit cursor => .ok (s.readRoots U q limit cursor),
    fun q bucketCount => .ok (s.aggregateRoots U q bucketCount)⟩

/-- The reader of the tables. -/
def sqlReader (t : Tables) : Reader :=
  ⟨fun q limit cursor => .ok (SQLiteSink.readRoots U t q limit cursor),
    fun q bucketCount => .ok (SQLiteSink.aggregateRoots U t q bucketCount)⟩

end Readers

/-! ### What a page is -/

section Pages

variable {U : Unicode} {s : MemorySink} {t : Tables} {q : InspectQuery}

theorem gatherPage_neither (c : Option Cursor) : gatherPage q none none c = ([], none) := by
  unfold gatherPage gatherRoots
  split_ifs <;> rfl

theorem gatherPage_sqlite (c : Option Cursor) :
    gatherPage q none (some (sqlReader U t)) c =
      SQLiteSink.readRoots U t { q with cursor := c } q.limit c := by
  unfold gatherPage gatherRoots
  split_ifs <;> rfl

theorem gatherPage_terms {mem : Option Reader} (hq : q.query.terms ≠ []) (sql : Option Reader)
    (c : Option Cursor) :
    gatherPage q mem sql c = gatherPage q none sql c := by
  have h : ∀ c, hasNonTemporalFilter { q with cursor := c } = true := fun c =>
    decide_eq_true (List.length_pos_iff.mpr hq)
  unfold gatherPage gatherRoots
  rw [h, if_pos rfl, if_pos rfl]

theorem gatherPage_memory (hq : q.query.terms = []) (c : Option Cursor) :
    gatherPage q (some (memReader U s)) none c =
      s.readRoots U { q with cursor := c } q.limit c := by
  have h : ∀ c, hasNonTemporalFilter { q with cursor := c } = false := fun c => by
    rw [hasNonTemporalFilter, Query.hasNonTemporalTerm, hq]
    rfl
  unfold gatherPage gatherRoots
  rw [h, if_neg Bool.false_ne_true]
  simp only [memReader, ite_self]
  rfl

theorem gatherPage_both (hq : q.query.terms = []) (c : Option Cursor) :
    gatherPage q (some (memReader U s)) (some (sqlReader U t)) c =
      if q.limit ≤ (s.readRoots U { q with cursor := c } q.limit c).1.length then
        s.readRoots U { q with cursor := c } q.limit c
      else mergeRoots q.limit (s.readRoots U { q with cursor := c } q.limit c).1
        (SQLiteSink.readRoots U t { q with cursor := c } q.limit c).1 := by
  have h : ∀ c, hasNonTemporalFilter { q with cursor := c } = false := fun c => by
    rw [hasNonTemporalFilter, Query.hasNonTemporalTerm, hq]
    rfl
  unfold gatherPage gatherRoots
  rw [h, if_neg Bool.false_ne_true]
  by_cases hfull : q.limit ≤ (s.readRoots U { q with cursor := c } q.limit c).1.length
  · rw [if_pos hfull]
    simp only [memReader, bind, Except.bind, hfull, if_true]
    rfl
  · rw [if_neg hfull]
    simp only [memReader, sqlReader, bind, Except.bind, hfull, if_false]
    rfl

/-- What a page over both readers is cut from: the rows of memory after a cursor, and those of a
page of SQLite, one for each id. -/
structure Merged (limit : ℕ) (mem sql rows : List RootRow) : Prop where
  newest : Newest RootRow.cursor rows
  memory : ∀ row ∈ mem, row ∈ rows
  among : ∀ row ∈ rows, row ∈ mem ∨ row ∈ sql.take limit
  sqlite : mem.length < limit → ∀ row ∈ sql.take limit, row.id ∈ rows.map RootRow.id

/-- The rows of memory alone, where they fill the page. -/
theorem Merged.of_full {limit : ℕ} {mem sql : List RootRow} (hmem : Newest RootRow.cursor mem)
    (hfull : limit ≤ mem.length) : Merged limit mem sql mem :=
  ⟨hmem, fun _ => id, fun _ => .inl, fun h => absurd hfull h.not_ge⟩

/-- The rows that `mergeRoots` sorts. -/
theorem Merged.of_short {limit : ℕ} {mem sql : List RootRow} (hmem : Newest RootRow.cursor mem)
    (hsql : Newest RootRow.cursor sql) :
    Merged limit mem sql (newestFirst RootRow.cursor
      (mem ++ (sql.take limit).filter fun row => row.id ∉ mem.map RootRow.id)) := by
  have hpage : ((sql.take limit).map RootRow.cursor).Nodup :=
    ((List.take_sublist limit sql).map RootRow.cursor).nodup hsql.nodup
  refine ⟨newest_newestFirst ?_, fun row hrow => ?_, fun row hrow => ?_, fun _ row hrow => ?_⟩
  · rw [List.map_append, List.nodup_append]
    refine ⟨hmem.nodup, (List.filter_sublist.map RootRow.cursor).nodup hpage, ?_⟩
    -- two rows in the same place have the same id
    intro c hc d hd hcd
    obtain ⟨row, hrow, rfl⟩ := List.mem_map.mp hc
    obtain ⟨row', hrow', rfl⟩ := List.mem_map.mp hd
    have hno : row'.id ∉ mem.map RootRow.id := of_decide_eq_true (List.mem_filter.mp hrow').2
    exact hno (List.mem_map.mpr ⟨row, hrow, congrArg Cursor.id hcd⟩)
  · exact mem_newestFirst.mpr (List.mem_append_left _ hrow)
  · exact (List.mem_append.mp (mem_newestFirst.mp hrow)).imp_right List.mem_of_mem_filter
  · by_cases hin : row.id ∈ mem.map RootRow.id
    · obtain ⟨row', hrow', hids⟩ := List.mem_map.mp hin
      exact List.mem_map.mpr ⟨row', mem_newestFirst.mpr (List.mem_append_left _ hrow'), hids⟩
    · refine List.mem_map.mpr ⟨row, mem_newestFirst.mpr (List.mem_append_right _ ?_), rfl⟩
      exact List.mem_filter.mpr ⟨hrow, decide_eq_true hin⟩

/-- The page in terms of the rows that the readers list. -/
theorem gatherPage_rows {rs : List Record} (hs : Storable rs) (hid : (rs.map Record.id).Nodup)
    (hq : q.query.terms = []) (c : Option Cursor) :
    gatherPage q (some (memReader U s)) (some (sqlReader U (stored rs))) c =
      let mem := page RootRow.cursor q.limit (after RootRow.cursor c (memRows U (s.recent s.len) q))
      if q.limit ≤ mem.1.length then mem else mergeRoots q.limit mem.1 (page RootRow.cursor q.limit
        (after RootRow.cursor (c.map storedCursor) (sqlRows U rs q))).1 := by
  rw [gatherPage_both hq, memory_readRoots_eq, readRoots_eq hs hid]
  rfl

/-- **A page over both readers** is a page of such rows. -/
theorem gatherPage_merged {rs : List Record} (hs : Storable rs) (hid : (rs.map Record.id).Nodup)
    (hring : ((s.recent s.len).map Record.id).Nodup) (hq : q.query.terms = [])
    (c : Option Cursor) :
    ∃ rows, Merged q.limit (after RootRow.cursor c (memRows U (s.recent s.len) q))
        (after RootRow.cursor (c.map storedCursor) (sqlRows U rs q)) rows ∧
      gatherPage q (some (memReader U s)) (some (sqlReader U (stored rs))) c =
        page RootRow.cursor q.limit rows := by
  have hM := (newest_memRows (U := U) hring q).after c
  have hQ := (newest_sqlRows (U := U) hs hid q).after (c.map storedCursor)
  rw [gatherPage_rows hs hid hq]
  dsimp only
  split_ifs with hfull
  · rw [page, List.length_take] at hfull
    exact ⟨_, .of_full hM (by omega), rfl⟩
  · rw [page, List.length_take] at hfull
    have hall : (page RootRow.cursor q.limit
        (after RootRow.cursor c (memRows U (s.recent s.len) q))).1 =
          after RootRow.cursor c (memRows U (s.recent s.len) q) :=
      List.take_of_length_le (by omega)
    refine ⟨_, .of_short hM hQ, ?_⟩
    rw [mergeRoots, hall]
    rfl

end Pages

/-! ### The keys of the list -/

/-- The positions of the roots among some records that are in a time window, newest first. -/
def rootKeys (rs : List Record) (since until_ : Option ℤ) : List Cursor :=
  newestFirst id ((rs.filter fun rec => isRoot rs rec && inWindow since until_ rec.timestamp).map
    fun rec => ⟨rec.timestamp, rec.id⟩)

section Keys

variable {U : Unicode} {rs : List Record} {s : MemorySink}

theorem mem_rootKeys {since until_ : Option ℤ} {c : Cursor} :
    c ∈ rootKeys rs since until_ ↔
      ∃ rec ∈ rs, isRoot rs rec = true ∧ inWindow since until_ rec.timestamp = true ∧
        c = ⟨rec.timestamp, rec.id⟩ := by
  rw [rootKeys, mem_newestFirst, List.mem_map]
  constructor
  · rintro ⟨rec, hrec, rfl⟩
    obtain ⟨hmem, hkeep⟩ := List.mem_filter.mp hrec
    obtain ⟨hroot, hwin⟩ := (Bool.and_eq_true _ _).mp hkeep
    exact ⟨rec, hmem, hroot, hwin, rfl⟩
  · rintro ⟨rec, hmem, hroot, hwin, rfl⟩
    exact ⟨rec, List.mem_filter.mpr ⟨hmem, (Bool.and_eq_true _ _).mpr ⟨hroot, hwin⟩⟩, rfl⟩

theorem sorted_rootKeys (hid : (rs.map Record.id).Nodup) (since until_ : Option ℤ) :
    (rootKeys rs since until_).SortedGT := by
  rw [← newest_id]
  refine newest_newestFirst (List.Nodup.of_map Cursor.id ?_)
  rw [List.map_id, List.map_map]
  exact (List.filter_sublist.map Record.id).nodup hid

variable {q : InspectQuery}

theorem memRows_keys (hid : (rs.map Record.id).Nodup) (hq : q.query = ⟨[]⟩) :
    (memRows U rs q).map RootRow.cursor = rootKeys rs q.since q.until_ :=
  sorted_ext (newest_memRows hid q) (sorted_rootKeys hid _ _) fun _ => (mem_memCursors hq).trans
    mem_rootKeys.symm

theorem sqlRows_keys (hs : Storable rs) (hid : (rs.map Record.id).Nodup)
    (hts : ∀ rec ∈ rs, Representable rec.timestamp) (hq : q.query = ⟨[]⟩) :
    (sqlRows U rs q).map RootRow.cursor = rootKeys rs (q.since.map unixNano)
    (q.until_.map unixNano) :=
  sorted_ext (newest_sqlRows hs hid q) (sorted_rootKeys hid _ _)
    fun _ => (mem_sqlCursors hs hts hq).trans mem_rootKeys.symm

theorem nodup_ring (hid : (rs.map Record.id).Nodup) (hsub : (s.recent s.len).Subperm rs) :
    ((s.recent s.len).map Record.id).Nodup := by
  obtain ⟨l, hperm, hl⟩ := hsub
  exact (hperm.map Record.id).nodup_iff.mp ((hl.map Record.id).nodup hid)

variable (hs : Storable rs) (hid : (rs.map Record.id).Nodup)
  (hts : ∀ rec ∈ rs, Representable rec.timestamp) (hsub : (s.recent s.len).Subperm rs)

include hs hid hts hsub

/-- A row of SQLite and a row of memory with the same id are in the same place. -/
theorem id_iff_cursor {rows : List RootRow}
    (hrows : ∀ row ∈ rows, row ∈ memRows U (s.recent s.len) q) {row : RootRow}
    (hrow : row ∈ sqlRows U rs q) :
    row.id ∈ rows.map RootRow.id ↔ row.cursor ∈ rows.map RootRow.cursor := by
  constructor
  · intro h
    obtain ⟨row', hrow', hids⟩ := List.mem_map.mp h
    obtain ⟨rec', hrec', -, rfl⟩ := mem_memRows.mp (hrows row' hrow')
    obtain ⟨rec, hrec, -, rfl⟩ := (mem_sqlRows hs).mp hrow
    have hid' : rec'.id = rec.id := by
      have h₁ := congrArg Cursor.id (@memRoot_cursor (s.recent s.len) rec')
      have h₂ := congrArg Cursor.id (@sqlRoot_cursor rs rec)
      exact (h₁.symm.trans hids).trans h₂
    obtain rfl : rec' = rec := List.inj_on_of_nodup_map hid (hsub.subset hrec') hrec hid'
    refine List.mem_map.mpr ⟨_, hrow', ?_⟩
    rw [memRoot_cursor, sqlRoot_cursor, unixNano_of_representable (hts _ hrec)]
  · intro h
    obtain ⟨row', hrow', hcur⟩ := List.mem_map.mp h
    exact List.mem_map.mpr ⟨row', hrow', congrArg Cursor.id hcur⟩

/-- **The positions on a page are those of a merged page** of the two lists of roots. -/
theorem gatherPage_keys (hq : q.query = ⟨[]⟩) {c : Option Cursor}
    (hc : ∀ k ∈ c, storedCursor k = k) :
    ((gatherPage q (some (memReader U s)) (some (sqlReader U (stored rs))) c).1.map RootRow.cursor,
      (gatherPage q (some (memReader U s)) (some (sqlReader U (stored rs))) c).2) =
      mergedPage q.limit (after id c (rootKeys (s.recent s.len) q.since q.until_))
        (after id c (rootKeys rs (q.since.map unixNano) (q.until_.map unixNano))) := by
  have hc' : c.map storedCursor = c := by
    cases c with
    | none => rfl
    | some k => exact congrArg some (hc k rfl)
  rw [gatherPage_rows hs hid (congrArg Query.terms hq), hc',
    ← memRows_keys (U := U) (nodup_ring hid hsub) hq, ← sqlRows_keys (U := U) hs hid hts hq,
    ← after_map, ← after_map, mergedPage]
  have hlen : (page RootRow.cursor q.limit
      (after RootRow.cursor c (memRows U (s.recent s.len) q))).1.length =
      (((after RootRow.cursor c (memRows U (s.recent s.len) q)).map RootRow.cursor).take
        q.limit).length := by
    rw [page, ← List.map_take, List.length_map]
  rw [← hlen]
  dsimp only
  split_ifs with hfull
  · exact page_map _ _
  · rw [mergeRoots, page_map, newestFirst_map, merge, List.map_append, page, page, ← List.map_take,
      ← List.map_take, List.filter_map]
    -- taking out ids that memory has is taking out positions that memory has
    refine congrArg (fun l => page id q.limit (newestFirst id (_ ++ List.map RootRow.cursor l)))
      (List.filter_congr ?_)
    intro row hrow
    have hiff := @id_iff_cursor U rs s q hs hid hts hsub
      ((after RootRow.cursor c (memRows U (s.recent s.len) q)).take q.limit)
      (fun row' h => (mem_after.mp (List.mem_of_mem_take h)).1) row
        (mem_after.mp (List.mem_of_mem_take hrow)).1
    exact decide_eq_decide.mpr (not_congr hiff)

/-- Following the cursors of `gatherRoots` is following those of merged pages. -/
theorem walk_gather (hq : q.query = ⟨[]⟩) (hl : 0 < q.limit) (n : ℕ) :
    (walk (gatherPage q (some (memReader U s)) (some (sqlReader U (stored rs)))) n none).map
        (List.map (List.map RootRow.cursor)) =
      walkTwo q.limit n (rootKeys (s.recent s.len) q.since q.until_)
        (rootKeys rs (q.since.map unixNano) (q.until_.map unixNano)) := by
  have hM := sorted_rootKeys (nodup_ring hid hsub) q.since q.until_
  have hQ := sorted_rootKeys hid (q.since.map unixNano) (q.until_.map unixNano)
  -- a cursor is the position of a record in the tables, whose timestamp fits
  have hstored : ∀ k, k ∈ rootKeys (s.recent s.len) q.since q.until_ ∨
      k ∈ rootKeys rs (q.since.map unixNano) (q.until_.map unixNano) → storedCursor k = k := by
    intro k hk
    obtain ⟨rec, hrec, rfl⟩ : ∃ rec ∈ rs, k = ⟨rec.timestamp, rec.id⟩ := by
      rcases hk with hk | hk
      · obtain ⟨rec, hrec, -, -, rfl⟩ := mem_rootKeys.mp hk
        exact ⟨rec, hsub.subset hrec, rfl⟩
      · obtain ⟨rec, hrec, -, -, rfl⟩ := mem_rootKeys.mp hk
        exact ⟨rec, hrec, rfl⟩
    rw [storedCursor, unixNano_of_representable (hts rec hrec)]
  have hwalk := walk_mergedPage hl hM hQ n none
  rw [after_none, after_none] at hwalk
  rw [← walk_map RootRow.cursor (fun _ => rfl), ← hwalk]
  refine walk_congr (fun k => storedCursor k = k)
    (fun c hc => gatherPage_keys hs hid hts hsub hq hc) (fun c k hk => ?_) n none
    (by simp)
  obtain ⟨hkey, -⟩ := (mergedPage_spec hl (sorted_after hM c) (sorted_after hQ c)).2.2 k hk
  exact hstored k (hkey.imp (fun h => (mem_after.mp h).1) fun h => (mem_after.mp h).1)

end Keys

/-! ### Completeness of the list -/

/-- **Paging the list over both readers.** Memory holds part of the records that SQLite holds.
Paging ends, and the pages list each root of SQLite once, newest first, exactly when the keys
of the two readers are `Covered`: it goes on as long as there are roots. -/
theorem gatherRoots_complete (U : Unicode) (rs : List Record) (hid : (rs.map Record.id).Nodup)
    (tables : Tables) (hw : (stored []).writeAll rs = .ok tables)
    (hts : ∀ rec ∈ rs, Representable rec.timestamp) (s : MemorySink)
    (hsub : (s.recent s.len).Subperm rs) (since until_ : Option ℤ) (limit n : ℕ) (hl : 0 < limit)
    (hn : 2 * rs.length < n) :
    ∃ pages sqlPages,
      walk (gatherPage ⟨limit, none, since, until_, ⟨[]⟩⟩ (some (memReader U s))
        (some (sqlReader U tables))) n none = some pages ∧
      walk (SQLiteSink.readRoots U tables ⟨limit, none, since, until_, ⟨[]⟩⟩ limit) n none =
        some sqlPages ∧
      (Newest RootRow.cursor pages.flatten ∧
          (∀ row ∈ sqlPages.flatten, row.cursor ∈ pages.flatten.map RootRow.cursor) ↔
        Covered limit (rootKeys (s.recent s.len) since until_)
          (rootKeys rs (since.map unixNano) (until_.map unixNano))) := by
  obtain ⟨hs, rfl⟩ := writeAll_ok.mp hw
  have hM := sorted_rootKeys (nodup_ring hid hsub) since until_
  have hQ := sorted_rootKeys hid (since.map unixNano) (until_.map unixNano)
  have hlen : (rootKeys (s.recent s.len) since until_).length +
      (rootKeys rs (since.map unixNano) (until_.map unixNano)).length < n := by
    have h : ∀ (l : List Record) (a b : Option ℤ), (rootKeys l a b).length ≤ l.length :=
      fun l a b => by
      rw [rootKeys, (newestFirst_perm _).length_eq, List.length_map]
      exact List.length_filter_le _ _
    have := h (s.recent s.len) since until_
    have := h rs (since.map unixNano) (until_.map unixNano)
    have := hsub.length_le
    omega
  obtain ⟨keys, hkeys⟩ := walkTwo_ends hl hM hQ hlen
  have hgather := @walk_gather U rs s ⟨limit, none, since, until_, ⟨[]⟩⟩ hs hid hts hsub rfl hl n
  rw [hkeys] at hgather
  obtain ⟨pages, hpages, rfl⟩ := Option.map_eq_some_iff.mp hgather
  obtain ⟨sqlPages, hsqlPages, hrows⟩ :=
    walk_readRoots (U := U) hs hid ⟨limit, none, since, until_, ⟨[]⟩⟩ hl
      (show rs.length < n by omega)
  refine ⟨pages, sqlPages, hpages, hsqlPages, ?_⟩
  have hflat : (pages.map (List.map RootRow.cursor)).flatten = pages.flatten.map RootRow.cursor :=
    List.map_flatten.symm
  rw [← walkTwo_complete_iff hl hM hQ hkeys, hflat, hrows,
    ← @sqlRows_keys U rs ⟨limit, none, since, until_, ⟨[]⟩⟩ hs hid hts rfl]
  have hsorted := (walkTwo_sorted hl hM hQ hkeys).1
  rw [hflat] at hsorted
  simp only [List.forall_mem_map]
  exact ⟨And.right, fun h => ⟨hsorted, h⟩⟩

/-- The ring holds the oldest of three requests, which the first page of SQLite does not reach: so
the first page goes on to a second, which lists it. -/
theorem gatherRoots_complete_one :
    let records : List Record := [.request (.blank (str "a") 2 (str "x")),
      .request (.blank (str "b") 1 (str "y")), .request (.blank (str "c") 0 (str "z"))]
    ∃ pages sqlPages, walk (gatherPage ⟨2, none, none, none, ⟨[]⟩⟩
        (some (memReader .asciiOnly (records.foldl MemorySink.write (.new 1))))
        (some (sqlReader .asciiOnly (stored records)))) 7 none = some pages ∧
      walk (SQLiteSink.readRoots .asciiOnly (stored records) ⟨2, none, none, none, ⟨[]⟩⟩ 2) 7 none =
        some sqlPages ∧
      Newest RootRow.cursor pages.flatten ∧
      ∀ row ∈ sqlPages.flatten, row.cursor ∈ pages.flatten.map RootRow.cursor := by
  intro records
  obtain ⟨pages, sqlPages, h, h', hiff⟩ :=
    gatherRoots_complete .asciiOnly records (by decide) _ (writeAll_ok.mpr ⟨by decide, rfl⟩)
      (by decide) (records.foldl MemorySink.write (.new 1))
      (List.Sublist.subperm (by decide)) none none 2 7 (by decide) (by decide)
  refine ⟨pages, sqlPages, h, h', hiff.mpr ?_⟩
  rw [covered_short (by decide)]
  rintro (_ | _ | j) hlt
  · exact ⟨⟨0, str "c"⟩, by decide, by decide⟩
  · exact absurd hlt (by decide)
  · -- nothing is left after the three
    rw [left, List.drop_eq_nil_of_le] at hlt
    · simp at hlt
    · exact le_trans (show _ ≤ 4 by decide) (by omega)

/-- Memory is empty and SQLite has two requests: the first page is full and has no cursor, so the
second request is never listed. -/
theorem gatherRoots_stops_early :
    (walk (gatherPage ⟨1, none, none, none, ⟨[]⟩⟩ (some (memReader .asciiOnly (.new 1)))
        (some (sqlReader .asciiOnly (stored [.request (.blank (str "a") 0 (str "c")),
          .request (.blank (str "b") 1 (str "d"))]))))
        5 none).map (List.map (List.map RootRow.id)) = some [[str "b"]] ∧
      (walk (SQLiteSink.readRoots .asciiOnly
        (stored [.request (.blank (str "a") 0 (str "c")), .request (.blank (str "b") 1 (str "d"))])
        ⟨1, none, none, none, ⟨[]⟩⟩ 1) 5 none).map (List.map (List.map RootRow.id)) =
          some [[str "b"], [str "a"]] := by
  decide

/-! ### Kinds and counts -/

/-- A row says of its record what all the records say: an orphan has no request, and a request
has the events counted. -/
structure WellClassified (rs : List Record) (row : RootRow) : Prop where
  orphan : row.kind ≠ .request → ∀ r, Record.request r ∈ rs → r.correlationID ≠ row.correlationID
  counts : row.kind = .request → row.eventCount = some (correlated rs row.correlationID).length ∧
    row.hasEvents = some (decide (correlated rs row.correlationID ≠ []))

/-- The ring holds enough of the records to tell orphans and to count events, for its records in
the window: an event without a request in the ring has none at all, and the events of a request
are all in the ring. -/
structure RingSuffices (rs ring : List Record) (since until_ : Option ℤ) : Prop where
  orphan : ∀ ev ∈ ring, ev.isRequest = false → inWindow since until_ ev.timestamp = true →
    ev.correlationID ∉ requestCorrs ring → ev.correlationID ∉ requestCorrs rs
  counts : ∀ r, Record.request r ∈ ring → inWindow since until_ r.timestamp = true →
    ∀ ev ∈ correlated rs r.correlationID, ev ∈ ring

section Kinds

variable {U : Unicode} {rs ring : List Record} {s : MemorySink}

theorem wellClassified_event {row : RootRow} (hk : row.kind ≠ .request) :
    WellClassified rs row ↔ row.correlationID ∉ requestCorrs rs := by
  rw [mem_requestCorrs]
  constructor
  · rintro h ⟨r, hr, hcid⟩
    exact h.orphan hk r hr hcid
  · intro h
    exact ⟨fun _ r hr hcid => h ⟨r, hr, hcid⟩, fun hreq => absurd hreq hk⟩

theorem memRoot_event {ev : Record} (h : ev.isRequest = false) :
    (memRoot ring ev).kind ≠ .request ∧ (memRoot ring ev).correlationID = ev.correlationID := by
  cases ev with
  | request r => cases h
  | response ev => exact ⟨nofun, rfl⟩
  | outbound ev => exact ⟨nofun, rfl⟩

theorem eventCounts_eq (cid : GoString) : eventCounts ring cid = (correlated ring cid).length :=
  List.countP_eq_length_filter

/-- The ring counts the events of a request right exactly when it has them all. -/
theorem wellClassified_request (hid : (rs.map Record.id).Nodup) (hsub : ring.Subperm rs)
    (r : CapturedRequest) :
    WellClassified rs (memRoot ring (.request r)) ↔ ∀ ev ∈ correlated rs r.correlationID,
      ev ∈ ring := by
  have hle : (correlated ring r.correlationID).Subperm (correlated rs r.correlationID) :=
    hsub.filter _
  constructor
  · intro h ev hev
    have hcount : (eventCounts ring r.correlationID : ℤ) = (correlated rs r.correlationID).length :=
      Option.some.inj (h.counts rfl).1
    have hlen : (correlated rs r.correlationID).length ≤
        (correlated ring r.correlationID).length := by
      rw [eventCounts_eq] at hcount
      omega
    exact (mem_correlated.mp ((hle.perm_of_length_le hlen).mem_iff.mpr hev)).1
  · intro h
    have hnd : (correlated rs r.correlationID).Nodup := (List.Nodup.of_map _ hid).filter _
    have hge : (correlated rs r.correlationID).length ≤ (correlated ring r.correlationID).length :=
      (List.subperm_of_subset hnd fun ev hev =>
        mem_correlated.mpr ⟨h ev hev, (mem_correlated.mp hev).2⟩).length_le
    have hcount : eventCounts ring r.correlationID = (correlated rs r.correlationID).length := by
      rw [eventCounts_eq]
      exact le_antisymm hle.length_le hge
    refine ⟨fun hk => absurd rfl hk, fun _ => ⟨?_, ?_⟩⟩
    · exact congrArg (fun n : ℕ => some (n : ℤ)) hcount
    · refine congrArg some (decide_eq_decide.mpr ?_)
      rw [hcount]
      exact List.length_pos_iff

theorem wellClassified_sqlRoot {rec : Record} (h : isRoot rs rec = true) :
    WellClassified rs (sqlRoot rs rec) := by
  have hno : rec.isRequest = false → rec.correlationID ∉ requestCorrs rs := by
    intro hev hreq
    rw [isRoot, hev, hasRequest_iff.mpr hreq] at h
    cases h
  cases rec with
  | request r => exact ⟨fun hk => absurd rfl hk, fun _ => ⟨rfl, rfl⟩⟩
  | response ev => exact (wellClassified_event fun hk => by cases hk).mpr (hno rfl)
  | outbound ev => exact (wellClassified_event fun hk => by cases hk).mpr (hno rfl)

/-- The rows of a page are rows of one of the readers. -/
theorem mem_gatherPage (hs : Storable rs) (hid : (rs.map Record.id).Nodup)
    (hring : ((s.recent s.len).map Record.id).Nodup) {q : InspectQuery} (hq : q.query.terms = [])
    {c : Option Cursor} {row : RootRow}
    (h : row ∈ (gatherPage q (some (memReader U s)) (some (sqlReader U (stored rs))) c).1) :
    row ∈ memRows U (s.recent s.len) q ∨ row ∈ sqlRows U rs q := by
  obtain ⟨rows, hrows, hpage⟩ := @gatherPage_merged U s q rs hs hid hring hq c
  rw [hpage] at h
  exact (hrows.among row (List.mem_of_mem_take h)).imp (fun h => (mem_after.mp h).1)
    fun h => (mem_after.mp (List.mem_of_mem_take h)).1

/-- All rows of memory make a page of their own, which is the last. -/
theorem gatherPage_whole {q : InspectQuery} (hq : q.query.terms = []) {t : Tables}
    (hlimit : q.limit = (memRows U (s.recent s.len) q).length) :
    gatherPage q (some (memReader U s)) (some (sqlReader U t)) none =
      (memRows U (s.recent s.len) q, none) := by
  have hpage : s.readRoots U { q with cursor := none } q.limit none =
      (memRows U (s.recent s.len) q, none) := by
    rw [memory_readRoots_eq, after_none]
    exact page_short hlimit.ge
  rw [gatherPage_both hq, hpage, if_pos hlimit.le]

end Kinds

/-- **When the pages classify their rows by all the records.** Every row of every page, whatever
the limit and the cursor, has the kind and the counts that the records of both readers say
exactly when the ring holds enough of them. -/
theorem gatherRoots_classified (U : Unicode) (rs : List Record) (hid : (rs.map Record.id).Nodup)
    (tables : Tables) (hw : (stored []).writeAll rs = .ok tables) (s : MemorySink)
    (hsub : (s.recent s.len).Subperm rs) (since until_ : Option ℤ) :
    (∀ limit c, 0 < limit → ∀ row ∈
      (gatherPage ⟨limit, none, since, until_, ⟨[]⟩⟩ (some (memReader U s))
        (some (sqlReader U tables)) c).1, WellClassified rs row) ↔
      RingSuffices rs (s.recent s.len) since until_ := by
  obtain ⟨hs, rfl⟩ := writeAll_ok.mp hw
  constructor
  · intro h
    -- on one page that has all rows of memory
    have hall : ∀ rec ∈ s.recent s.len, isRoot (s.recent s.len) rec = true →
        inWindow since until_ rec.timestamp = true →
        WellClassified rs (memRoot (s.recent s.len) rec) := by
      intro rec hrec hroot hwin
      have hrow : memRoot (s.recent s.len) rec ∈ memRows U (s.recent s.len)
          ⟨0, none, since, until_, ⟨[]⟩⟩ := by
        refine mem_memRows.mpr ⟨rec, hrec, ?_, rfl⟩
        rw [memKeeps, memSelected_nil rfl, Bool.and_eq_true]
        exact ⟨hwin, hroot⟩
      refine h (memRows U (s.recent s.len) ⟨0, none, since, until_, ⟨[]⟩⟩).length none
        (List.length_pos_of_mem hrow) _ ?_
      rw [gatherPage_whole rfl rfl]
      exact hrow
    constructor
    · intro ev hev hevent hwin hno
      obtain ⟨hkind, hcid⟩ := @memRoot_event (s.recent s.len) ev hevent
      have hroot : isRoot (s.recent s.len) ev = true := by
        rw [isRoot, hevent, Bool.false_or, Bool.not_eq_true', Bool.eq_false_iff]
        exact fun hreq => hno (hasRequest_iff.mp hreq)
      rw [← hcid]
      exact (wellClassified_event hkind).mp (hall ev hev hroot hwin)
    · intro r hr hwin
      exact (wellClassified_request hid hsub r).mp (hall (.request r) hr rfl hwin)
  · intro h limit c hl row hrow
    rcases mem_gatherPage hs hid (nodup_ring hid hsub) rfl hrow with hrow | hrow
    · obtain ⟨rec, hrec, hkeep, rfl⟩ := mem_memRows.mp hrow
      rw [memKeeps, memSelected_nil rfl, Bool.and_eq_true] at hkeep
      obtain ⟨hwin, hroot⟩ := hkeep
      cases hevent : rec.isRequest with
      | true =>
        cases rec with
        | request r => exact (wellClassified_request hid hsub r).mpr (h.counts r hrec hwin)
        | response ev => cases hevent
        | outbound ev => cases hevent
      | false =>
        obtain ⟨hkind, hcid⟩ := @memRoot_event (s.recent s.len) rec hevent
        rw [wellClassified_event hkind, hcid]
        refine h.orphan rec hrec hevent hwin fun hreq => ?_
        rw [isRoot, hevent, hasRequest_iff.mpr hreq] at hroot
        cases hroot
    · obtain ⟨rec, -, hkeep, rfl⟩ := (mem_sqlRows hs).mp hrow
      rw [sqlKeeps, Bool.and_eq_true] at hkeep
      exact wellClassified_sqlRoot hkeep.1

/-- A ring that has a request and its response: the request is listed, with its event counted. -/
theorem gatherRoots_classified_pair :
    let records : List Record :=
      [.request (.blank (str "r") 0 (str "c")), .response (.blank (str "e") 1 (str "c"))]
    WellClassified records (memRoot records (.request (.blank (str "r") 0 (str "c")))) ∧
      memRoot records (.request (.blank (str "r") 0 (str "c"))) ∈
        (gatherPage ⟨1, none, none, none, ⟨[]⟩⟩
        (some (memReader .asciiOnly
          (((MemorySink.new 2).write (.request (.blank (str "r") 0 (str "c")))).write
          (.response (.blank (str "e") 1 (str "c"))))))
            (some (sqlReader .asciiOnly (stored records))) none).1 := by
  have hsame : ((((MemorySink.new 2).write (.request (.blank (str "r") 0 (str "c")))).write
      (.response (.blank (str "e") 1 (str "c")))).recent 2).Perm
        [.request (.blank (str "r") 0 (str "c")), .response (.blank (str "e") 1 (str "c"))] := by
          decide
  have hpages := (gatherRoots_classified .asciiOnly
    [.request (.blank (str "r") 0 (str "c")), .response (.blank (str "e") 1 (str "c"))]
      (by decide) _
    (writeAll_ok.mpr ⟨by decide, rfl⟩) _ hsame.subperm none none).mpr
      ⟨by decide, fun r _ _ ev hev => hsame.mem_iff.mpr (mem_correlated.mp hev).1⟩
  refine ⟨hpages 1 none (by decide) _ ?_, ?_⟩
  all_goals decide

/-- The ring has only room for the response, which is listed as an orphan; its request is in
SQLite. -/
theorem gatherRoots_evicted_request :
    (gatherPage ⟨1, none, none, none, ⟨[]⟩⟩
        (some (memReader .asciiOnly
          (((MemorySink.new 1).write (.request (.blank (str "r") 0 (str "c")))).write
          (.response (.blank (str "e") 1 (str "c"))))))
        (some (sqlReader .asciiOnly
          (stored [.request (.blank (str "r") 0 (str "c")),
            .response (.blank (str "e") 1 (str "c"))]))) none).1.map
        (fun row => (row.id, row.kind, row.correlationID)) = [(str "e", .orphanResponse, str "c")] ∧
      hasRequest [.request (.blank (str "r") 0 (str "c")), .response (.blank (str "e") 1 (str "c"))]
        (str "c") = true := by
  decide

/-! ### The total of the histogram -/

/-- Whatever the limit, following the cursors of the list ends, and there are as many rows with
different ids as the histogram counts. -/
def TotalAgrees (q : InspectQuery) (memReader sqlReader : Option Reader) : Prop :=
  ∀ limit, 0 < limit → ∀ bucketCount, ∃ n pages aggregation,
    walk (gatherPage { q with limit := limit } memReader sqlReader) n none = some pages ∧
      gatherAggregation { q with limit := limit } bucketCount memReader sqlReader =
      .ok aggregation ∧
      (pages.flatten.map RootRow.id).dedup.length = aggregation.total

section Windows

variable (rs : List Record) (since until_ : Option ℤ)

/-- Each root is in the window where it is in that of SQLite, which compares 64-bit numbers. -/
def SameWindow : Prop :=
  ∀ rec ∈ rs, isRoot rs rec = true →
    inWindow since until_ rec.timestamp = sqlInWindow since until_ rec.timestamp

/-- No root is in the window, and one at most in that of SQLite. -/
def LoneRow : Prop :=
  (∀ rec ∈ rs, isRoot rs rec = true → inWindow since until_ rec.timestamp = false) ∧
    (rs.filter fun rec => isRoot rs rec && sqlInWindow since until_ rec.timestamp).length ≤ 1

/-- The roots in the window that are from before the times that fit in 64 bits. -/
def tooOld : List Record :=
  rs.filter fun rec => isRoot rs rec && inWindow since until_ rec.timestamp &&
    decide (rec.timestamp < -2 ^ 63)

end Windows

section Totals

variable {U : Unicode} {rs : List Record} {s : MemorySink}

theorem nodup_sqlIds (hs : Storable rs) (hid : (rs.map Record.id).Nodup) (q : InspectQuery) :
    ((sqlRows U rs q).map RootRow.id).Nodup :=
  ((newestFirst_perm _).map RootRow.id).nodup_iff.mpr (nodup_unionRows hs hid q)

theorem nodup_memIds (hid : (rs.map Record.id).Nodup) (q : InspectQuery) :
    ((memRows U rs q).map RootRow.id).Nodup :=
  ((newestFirst_perm _).map RootRow.id).nodup_iff.mpr (nodup_candidates hid q)

theorem totalAgrees_sqlite (hs : Storable rs) (hid : (rs.map Record.id).Nodup) (q : InspectQuery) :
    TotalAgrees q none (some (sqlReader U (stored rs))) := by
  intro limit hl bucketCount
  obtain ⟨pages, hw, hrows⟩ :=
    walk_readRoots (U := U) hs hid { q with limit := limit } hl (Nat.lt_succ_self rs.length)
  refine ⟨rs.length + 1, pages, _, ?_, rfl, ?_⟩
  · rw [← hw]
    refine congrArg (fun fetch => walk fetch _ none) (funext fun c => ?_)
    rw [gatherPage_sqlite]
    rfl
  · rw [hrows, (nodup_sqlIds hs hid _).dedup, List.length_map]
    exact (aggregateRoots_total _ _).symm

variable {q : InspectQuery}

/-- Without terms, memory alone agrees with itself. -/
theorem totalAgrees_memory (hid : ((s.recent s.len).map Record.id).Nodup)
    (hq : q.query.terms = []) : TotalAgrees q (some (memReader U s)) none := by
  intro limit hl bucketCount
  obtain ⟨pages, hw, hrows⟩ :=
    walk_memory (U := U) s hid { q with limit := limit } hl (Nat.lt_succ_self _)
  refine ⟨(s.recent s.len).length + 1, pages, _, ?_, rfl, ?_⟩
  · rw [← hw]
    refine congrArg (fun fetch => walk fetch _ none) (funext fun c => ?_)
    exact @gatherPage_memory U s { q with limit := limit } hq c
  · rw [hrows, (nodup_memIds hid _).dedup, List.length_map]
    exact (memory_aggregateRoots_total _ _ _).symm

/-- With terms, the list over memory alone is empty, and the histogram counts what matches. -/
theorem totalAgrees_memory_terms (hq : q.query.terms ≠ []) :
    TotalAgrees q (some (memReader U s)) none ↔ ∀ rec ∈ s.recent s.len,
      memKeeps U (s.recent s.len) q rec = false := by
  have hfetch : ∀ limit, gatherPage { q with limit := limit } (some (memReader U s)) none =
      fun _ => ([], none) := fun limit =>
    funext fun c => (@gatherPage_terms { q with limit := limit } _ hq none c).trans
      (gatherPage_neither c)
  have htotal : ∀ limit bucketCount,
      (s.aggregateRoots U { q with limit := limit } bucketCount).total = 0 ↔
      ∀ rec ∈ s.recent s.len, memKeeps U (s.recent s.len) q rec = false := by
    intro limit bucketCount
    rw [memory_aggregateRoots_total, length_memRows, List.length_eq_zero_iff,
      List.filter_eq_nil_iff]
    simp only [Bool.not_eq_true]
    rfl
  constructor
  · intro h
    obtain ⟨n, pages, aggregation, hw, hagg, hlen⟩ := h 1 Nat.one_pos 0
    rw [hfetch] at hw
    have hpages : pages.flatten = [] := by
      cases n with
      | zero => simp [walk] at hw
      | succ n =>
        obtain rfl : [[]] = pages := by simpa [walk] using hw
        rfl
    obtain rfl : s.aggregateRoots U { q with limit := 1 } 0 = aggregation := Except.ok.inj hagg
    rw [hpages] at hlen
    exact (htotal 1 0).mp hlen.symm
  · intro h limit hl bucketCount
    refine ⟨1, [[]], _, ?_, rfl, ?_⟩
    · rw [hfetch]
      rfl
    · exact ((htotal limit bucketCount).mpr h).symm

theorem mem_memIds (hsame : (s.recent s.len).Perm rs) (hq : q.query = ⟨[]⟩) {i : GoString} :
    i ∈ (memRows U (s.recent s.len) q).map RootRow.id ↔
      ∃ rec ∈ rs, isRoot rs rec = true ∧ inWindow q.since q.until_ rec.timestamp = true ∧
        rec.id = i := by
  have hmap : ((memRows U (s.recent s.len) q).map RootRow.cursor).map Cursor.id =
      (memRows U (s.recent s.len) q).map RootRow.id := List.map_map
  rw [← hmap, List.mem_map]
  simp only [mem_memCursors hq, isRoot_congr fun _ => hsame.mem_iff, hsame.mem_iff]
  constructor
  · rintro ⟨c, ⟨rec, hrec, hroot, hwin, rfl⟩, rfl⟩
    exact ⟨rec, hrec, hroot, hwin, rfl⟩
  · rintro ⟨rec, hrec, hroot, hwin, rfl⟩
    exact ⟨_, ⟨rec, hrec, hroot, hwin, rfl⟩, rfl⟩

theorem sqlKeeps_nil (hq : q.query = ⟨[]⟩) (rec : Record) :
    sqlKeeps U rs q rec = (isRoot rs rec && sqlInWindow q.since q.until_ rec.timestamp) := by
  rw [sqlKeeps, sqlSelected_nil hq, Bool.and_true]

theorem mem_sqlIds (hs : Storable rs) (hq : q.query = ⟨[]⟩) {i : GoString} :
    i ∈ (sqlRows U rs q).map RootRow.id ↔
      ∃ rec ∈ rs, isRoot rs rec = true ∧ sqlInWindow q.since q.until_ rec.timestamp = true ∧
        rec.id = i := by
  have hrow : ∀ rec, (sqlRoot rs rec).id = rec.id := fun rec =>
    congrArg Cursor.id (sqlRoot_cursor rec)
  simp only [List.mem_map, mem_sqlRows hs, sqlKeeps_nil hq, Bool.and_eq_true]
  constructor
  · rintro ⟨row, ⟨rec, hrec, ⟨hroot, hwin⟩, rfl⟩, rfl⟩
    exact ⟨rec, hrec, hroot, hwin, (hrow rec).symm⟩
  · rintro ⟨rec, hrec, hroot, hwin, rfl⟩
    exact ⟨_, ⟨rec, hrec, ⟨hroot, hwin⟩, rfl⟩, hrow rec⟩

/-- The readers have rows of the same ids exactly when a root is in the window where it is in the
one of SQLite. -/
theorem same_ids_iff (hs : Storable rs) (hid : (rs.map Record.id).Nodup)
    (hsame : (s.recent s.len).Perm rs) (hq : q.query = ⟨[]⟩) :
    (∀ i, i ∈ (memRows U (s.recent s.len) q).map RootRow.id ↔
        i ∈ (sqlRows U rs q).map RootRow.id) ↔ SameWindow rs q.since q.until_ := by
  have hone : ∀ rec ∈ rs, isRoot rs rec = true → ∀ W : ℤ → Bool,
      (∃ rec' ∈ rs, isRoot rs rec' = true ∧ W rec'.timestamp = true ∧ rec'.id = rec.id) ↔
        W rec.timestamp = true := by
    intro rec hrec hroot W
    constructor
    · rintro ⟨rec', hrec', -, hwin, hids⟩
      obtain rfl := List.inj_on_of_nodup_map hid hrec' hrec hids
      exact hwin
    · exact fun hwin => ⟨rec, hrec, hroot, hwin, rfl⟩
  simp only [mem_memIds hsame hq, mem_sqlIds hs hq]
  constructor
  · intro h rec hrec hroot
    have hiff := h rec.id
    rw [hone rec hrec hroot, hone rec hrec hroot] at hiff
    exact Bool.eq_iff_iff.mpr hiff
  · intro h i
    refine exists_congr fun rec => and_congr_right fun hrec => and_congr_right fun hroot => ?_
    rw [h rec hrec hroot]

/-- The rows of memory are none exactly when no root is in the window. -/
theorem memRows_eq_nil (hsame : (s.recent s.len).Perm rs) (hq : q.query = ⟨[]⟩) :
    memRows U (s.recent s.len) q = [] ↔
      ∀ rec ∈ rs, isRoot rs rec = true → inWindow q.since q.until_ rec.timestamp = false := by
  rw [← List.map_eq_nil_iff (f := RootRow.id), List.eq_nil_iff_forall_not_mem]
  simp only [mem_memIds hsame hq]
  constructor
  · intro h rec hrec hroot
    exact Bool.eq_false_iff.mpr fun hwin => h rec.id ⟨rec, hrec, hroot, hwin, rfl⟩
  · rintro h i ⟨rec, hrec, hroot, hwin, -⟩
    rw [h rec hrec hroot] at hwin
    cases hwin

theorem length_sqlRows (hs : Storable rs) (hq : q.query = ⟨[]⟩) :
    (sqlRows U rs q).length = (rs.filter fun rec =>
      isRoot rs rec && sqlInWindow q.since q.until_ rec.timestamp).length := by
  rw [sqlRows, (newestFirst_perm _).length_eq, (unionRows_perm hs q).length_eq, List.length_map]
  exact congrArg List.length (List.filter_congr fun rec _ => sqlKeeps_nil hq rec)

/-- The list has as many rows of different ids as SQLite has rows. -/
def CountsRows (U : Unicode) (rs : List Record) (s : MemorySink) (q : InspectQuery) : Prop :=
  ∃ n pages,
    walk (gatherPage q (some (memReader U s)) (some (sqlReader U (stored rs)))) n none =
      some pages ∧
    (pages.flatten.map RootRow.id).dedup.length = (sqlRows U rs q).length

/-- The histogram is that of SQLite. -/
theorem totalAgrees_both :
    TotalAgrees q (some (memReader U s)) (some (sqlReader U (stored rs))) ↔
      ∀ limit, 0 < limit → CountsRows U rs s { q with limit := limit } := by
  refine forall₂_congr fun limit _ => ?_
  constructor
  · intro h
    obtain ⟨n, pages, aggregation, hw, hagg, hlen⟩ := h 0
    obtain rfl : SQLiteSink.aggregateRoots U (stored rs) { q with limit := limit } 0 =
        aggregation := Except.ok.inj hagg
    exact ⟨n, pages, hw, hlen.trans (aggregateRoots_total _ _)⟩
  · rintro ⟨n, pages, hw, hlen⟩ bucketCount
    exact ⟨n, pages, _, hw, rfl, hlen.trans (aggregateRoots_total _ _).symm⟩

/-- A first page without a cursor is all of the list. -/
theorem countsRows_single {rows : List RootRow}
    (h : gatherPage q (some (memReader U s)) (some (sqlReader U (stored rs))) none =
      (rows, none)) :
    CountsRows U rs s q ↔ (rows.map RootRow.id).dedup.length = (sqlRows U rs q).length := by
  constructor
  · rintro ⟨n, pages, hw, hlen⟩
    cases n with
    | zero => simp [walk] at hw
    | succ n =>
      rw [walk, h] at hw
      obtain rfl : [rows] = pages := by simpa using hw
      rwa [List.flatten_singleton] at hlen
  · intro hlen
    exact ⟨1, [rows], by rw [walk, h], by rwa [List.flatten_singleton]⟩

/-- Two lists of ids with the same elements, the second without repetition. -/
theorem dedup_length {ids ids' : List GoString} (h : ids'.Nodup) (hmem : ∀ i, i ∈ ids ↔ i ∈ ids') :
    ids.dedup.length = ids'.length :=
  ((List.perm_ext_iff_of_nodup ids.nodup_dedup h).mpr fun i =>
    List.mem_dedup.trans (hmem i)).length_eq

/-- A cursor that is not too old, after which SQLite has no row that is newer. -/
theorem lt_of_lt_storedCursor {c : Cursor} (hc : -2 ^ 63 ≤ c.timestamp) {k : Cursor}
    (hk : Representable k.timestamp) (h : k < storedCursor c) : k < c := by
  by_cases hfit : c.timestamp < 2 ^ 63
  · rwa [storedCursor, unixNano_of_representable ⟨hc, hfit⟩] at h
  · exact (Cursor.lt_iff _ _).mpr (.inl (hk.2.trans_le (not_lt.mp hfit)))

variable (hs : Storable rs) (hid : (rs.map Record.id).Nodup) (hq : q.query = ⟨[]⟩)

include hs hid hq

/-- A first page that has room for all rows: the list has the ids of both readers. -/
theorem countsRows_wide (hring : ((s.recent s.len).map Record.id).Nodup)
    (hmem : (memRows U (s.recent s.len) q).length < q.limit)
    (hwide : (memRows U (s.recent s.len) q ++ sqlRows U rs q).length ≤ q.limit) :
    CountsRows U rs s q ↔ ∀ i ∈ (memRows U (s.recent s.len) q).map RootRow.id,
      i ∈ (sqlRows U rs q).map RootRow.id := by
  obtain ⟨rows, hrows, hpage⟩ :=
    @gatherPage_merged U s q rs hs hid hring (congrArg Query.terms hq) none
  rw [Option.map_none, after_none, after_none] at hrows
  rw [List.length_append] at hwide
  have htake : (sqlRows U rs q).take q.limit = sqlRows U rs q :=
    List.take_of_length_le (by omega)
  have hall : ∀ i, i ∈ rows.map RootRow.id ↔
      i ∈ (memRows U (s.recent s.len) q).map RootRow.id ∨
        i ∈ (sqlRows U rs q).map RootRow.id := by
    intro i
    constructor
    · intro hi
      obtain ⟨row, hrow, rfl⟩ := List.mem_map.mp hi
      have hsplit := hrows.among row hrow
      rw [htake] at hsplit
      exact hsplit.imp List.mem_map_of_mem List.mem_map_of_mem
    · rintro (hi | hi)
      · obtain ⟨row, hrow, rfl⟩ := List.mem_map.mp hi
        exact List.mem_map_of_mem (hrows.memory row hrow)
      · obtain ⟨row, hrow, rfl⟩ := List.mem_map.mp hi
        rw [← htake] at hrow
        exact hrows.sqlite hmem row hrow
  have hlen : rows.length ≤ q.limit := by
    have hsub : rows ⊆ memRows U (s.recent s.len) q ++ sqlRows U rs q := fun row hrow => by
      have hsplit := hrows.among row hrow
      rw [htake] at hsplit
      exact List.mem_append.mpr hsplit
    have := (List.subperm_of_subset (List.Nodup.of_map _ hrows.newest.nodup) hsub).length_le
    rw [List.length_append] at this
    omega
  rw [page_short hlen] at hpage
  rw [countsRows_single hpage]
  have hnd := nodup_sqlIds (U := U) hs hid q
  constructor
  · intro hcount i hi
    -- no id of memory is one too many
    have hsub : (sqlRows U rs q).map RootRow.id ⊆ (rows.map RootRow.id).dedup := fun i hi =>
      List.mem_dedup.mpr ((hall i).mpr (.inr hi))
    have hperm := (List.subperm_of_subset hnd hsub).perm_of_length_le
      (by rw [hcount, List.length_map])
    exact hperm.mem_iff.mpr (List.mem_dedup.mpr ((hall i).mpr (.inl hi)))
  · intro hsub
    rw [dedup_length hnd fun i => (hall i).trans ⟨fun h => h.elim (hsub i) id, .inr⟩,
      List.length_map]

/-- What the count needs, whatever the limit: the readers have rows of the same ids, or memory has
none and SQLite one at most. -/
theorem of_countsRows (hring : ((s.recent s.len).map Record.id).Nodup)
    (h : ∀ limit, 0 < limit → CountsRows U rs s { q with limit := limit }) :
    (∀ i, i ∈ (memRows U (s.recent s.len) q).map RootRow.id ↔
        i ∈ (sqlRows U rs q).map RootRow.id) ∨
      memRows U (s.recent s.len) q = [] ∧ (sqlRows U rs q).length ≤ 1 := by
  by_cases hne : memRows U (s.recent s.len) q = []
  · -- pages of one row
    obtain ⟨rows, hrows, hpage⟩ := @gatherPage_merged U s { q with limit := 1 } rs hs hid hring
      (congrArg Query.terms hq) none
    have hmem : memRows U (s.recent s.len) { q with limit := 1 } = [] := hne
    rw [Option.map_none, after_none, after_none, hmem] at hrows
    have hone : rows.length ≤ 1 := by
      have hsub : rows ⊆ (sqlRows U rs { q with limit := 1 }).take 1 := fun row hrow =>
        (hrows.among row hrow).resolve_left List.not_mem_nil
      have := (List.subperm_of_subset (List.Nodup.of_map _ hrows.newest.nodup) hsub).length_le
      exact this.trans (List.length_take_le 1 _)
    rw [page_short hone] at hpage
    have hcount := (countsRows_single hpage).mp (h 1 Nat.one_pos)
    have hle := (List.dedup_sublist (rows.map RootRow.id)).length_le
    rw [hcount, List.length_map] at hle
    exact .inr ⟨hne, hle.trans hone⟩
  · have hsub := (countsRows_wide (U := U)
      (q := { q with limit := (memRows U (s.recent s.len) q ++ sqlRows U rs q).length + 1 })
      hs hid hq hring (by rw [List.length_append]; exact Nat.lt_succ_of_le (Nat.le_add_right _ _))
      (Nat.le_succ _)).mp (h _ (Nat.succ_pos _))
    -- one page with the rows of memory
    have hcount := (countsRows_single (gatherPage_whole
      (q := { q with limit := (memRows U (s.recent s.len) q).length }) (congrArg Query.terms hq)
      rfl)).mp (h _ (List.length_pos_iff.mpr hne))
    have hnd : ((memRows U (s.recent s.len) q).map RootRow.id).Nodup := nodup_memIds hring q
    have hle : ((sqlRows U rs q).map RootRow.id).length ≤
        ((memRows U (s.recent s.len) q).map RootRow.id).length := by
      rw [List.length_map, ← show _ = (sqlRows U rs q).length from hcount]
      exact (List.dedup_sublist _).length_le
    exact .inl fun i => ((List.subperm_of_subset hnd hsub).perm_of_length_le hle).mem_iff

/-- Where one root at most is too old, no cursor is, and the cursors descend. -/
theorem gatherPage_next (hsame : (s.recent s.len).Perm rs) (hl : 0 < q.limit)
    (hold : (tooOld rs q.since q.until_).length ≤ 1) {c : Option Cursor}
    (hc : ∀ k ∈ c, -2 ^ 63 ≤ k.timestamp) {k : Cursor}
    (hk : (gatherPage q (some (memReader U s)) (some (sqlReader U (stored rs))) c).2 = some k) :
    -2 ^ 63 ≤ k.timestamp ∧
      k ∈ (memRows U (s.recent s.len) q ++ sqlRows U rs q).map RootRow.cursor ∧
      ∀ k' ∈ c, k < k' := by
  have hring : ((s.recent s.len).map Record.id).Nodup :=
    (hsame.map Record.id).nodup_iff.mpr hid
  obtain ⟨rows, hrows, hpage⟩ :=
    @gatherPage_merged U s q rs hs hid hring (congrArg Query.terms hq) c
  rw [hpage] at hk
  obtain ⟨hlt, ⟨row, hrow, rfl⟩, hdrop⟩ := page_next hrows.newest hl hk
  have hsql : ∀ row ∈ (after RootRow.cursor (c.map storedCursor) (sqlRows U rs q)).take q.limit,
      row ∈ sqlRows U rs q ∧ Representable row.cursor.timestamp ∧
        ∀ k' ∈ c.map storedCursor, row.cursor < k' := by
    intro row hrow
    obtain ⟨hmem, hafter⟩ := mem_after.mp (List.mem_of_mem_take hrow)
    obtain ⟨rec, -, -, rfl⟩ := (mem_sqlRows hs).mp hmem
    exact ⟨hmem, by rw [sqlRoot_cursor]; exact unixNano_representable _, hafter⟩
  -- a row that is too old is a row of memory, and so is each row after it
  have htoo : ∀ row ∈ rows, row.cursor.timestamp < -2 ^ 63 →
      ∃ rec ∈ tooOld rs q.since q.until_, row.cursor = ⟨rec.timestamp, rec.id⟩ := by
    intro row hrow hts
    rcases hrows.among row hrow with hmem | hmem
    · have hcur := (mem_memCursors hq).mp (List.mem_map_of_mem (mem_after.mp hmem).1)
      obtain ⟨rec, hrec, hroot, hwin, heq⟩ := hcur
      rw [isRoot_congr fun _ => hsame.mem_iff] at hroot
      refine ⟨rec, List.mem_filter.mpr ⟨hsame.mem_iff.mp hrec, ?_⟩, heq⟩
      rw [heq] at hts
      rw [hroot, hwin, decide_eq_true hts]
      rfl
    · exact absurd hts (hsql row hmem).2.1.1.not_gt
  refine ⟨?_, ?_, ?_⟩
  · by_contra hts
    obtain ⟨row', hrow'⟩ : ∃ row', row' ∈ rows.drop q.limit :=
      List.exists_mem_of_length_pos (by rw [List.length_drop]; omega)
    have hbelow : row'.cursor < row.cursor := by
      rw [← hdrop] at hrow'
      exact (mem_after.mp hrow').2 _ rfl
    have hts' : row'.cursor.timestamp < -2 ^ 63 := by
      rcases (Cursor.lt_iff _ _).mp hbelow with h | ⟨h, -⟩ <;> omega
    obtain ⟨rec, hrec, heq⟩ := htoo row (List.mem_of_getElem? hrow) (not_le.mp hts)
    obtain ⟨rec', hrec', heq'⟩ := htoo row' (List.mem_of_mem_drop hrow') hts'
    obtain rfl : rec = rec' := by
      by_contra hne
      have htwo : [rec, rec'].Subperm (tooOld rs q.since q.until_) :=
        List.subperm_of_subset (by simpa using hne) (by simp [hrec, hrec'])
      exact absurd (htwo.length_le.trans hold) (by simp)
    exact absurd hbelow (by rw [heq, heq']; exact lt_irrefl _)
  · refine List.mem_map_of_mem (List.mem_append.mpr ?_)
    exact (hrows.among row (List.mem_of_getElem? hrow)).imp (fun h => (mem_after.mp h).1)
      fun h => (hsql row h).1
  · intro k' hk'
    rcases hrows.among row (List.mem_of_getElem? hrow) with h | h
    · exact (mem_after.mp h).2 k' hk'
    · obtain ⟨-, hrep, hafter⟩ := hsql row h
      exact lt_of_lt_storedCursor (hc k' hk') hrep
        (hafter _ (Option.mem_map_of_mem storedCursor hk'))

/-- No row of memory is left out of the list. -/
theorem gatherPage_lists (hring : ((s.recent s.len).map Record.id).Nodup) (hl : 0 < q.limit)
    {row : RootRow} (hrow : row ∈ memRows U (s.recent s.len) q) (c : Option Cursor)
    (hc : ∀ k ∈ c, row.cursor < k) :
    row ∈ (gatherPage q (some (memReader U s)) (some (sqlReader U (stored rs))) c).1 ∨
      ∃ k ∈ (gatherPage q (some (memReader U s)) (some (sqlReader U (stored rs))) c).2,
        row.cursor < k := by
  obtain ⟨rows, hrows, hpage⟩ :=
    @gatherPage_merged U s q rs hs hid hring (congrArg Query.terms hq) c
  have hin : row ∈ rows := hrows.memory row (mem_after.mpr ⟨hrow, hc⟩)
  rw [hpage]
  cases hk : (page RootRow.cursor q.limit rows).2 with
  | none =>
    left
    rwa [(page_none hl hk).2]
  | some k =>
    obtain ⟨-, -, hdrop⟩ := page_next hrows.newest hl hk
    rw [← List.take_append_drop q.limit rows, List.mem_append, ← hdrop] at hin
    exact hin.imp_right fun h => ⟨k, rfl, (mem_after.mp h).2 k rfl⟩

/-- Where the readers have rows of the same ids and one root at most is too old, paging ends and
the count is right. -/
theorem countsRows_same (hsame : (s.recent s.len).Perm rs) (hl : 0 < q.limit)
    (hold : (tooOld rs q.since q.until_).length ≤ 1)
    (hids : ∀ i, i ∈ (memRows U (s.recent s.len) q).map RootRow.id ↔
        i ∈ (sqlRows U rs q).map RootRow.id) : CountsRows U rs s q := by
  have hring : ((s.recent s.len).map Record.id).Nodup :=
    (hsame.map Record.id).nodup_iff.mpr hid
  obtain ⟨pages, hw⟩ := walk_ends (fun k => -2 ^ 63 ≤ k.timestamp)
    ((memRows U (s.recent s.len) q ++ sqlRows U rs q).map RootRow.cursor)
    (fun c k hc hk => gatherPage_next hs hid hq hsame hl hold hc hk) (c := none) (by simp)
    (Nat.lt_succ_self _)
  refine ⟨_, pages, hw, ?_⟩
  rw [dedup_length (nodup_sqlIds (U := U) hs hid q) fun i => ?_, List.length_map]
  constructor
  · intro hi
    obtain ⟨row, hrow, rfl⟩ := List.mem_map.mp hi
    rcases walk_forall (fun c row => mem_gatherPage hs hid hring (congrArg Query.terms hq)) hw row
      hrow with h | h
    · exact (hids _).mp (List.mem_map_of_mem h)
    · exact List.mem_map_of_mem h
  · intro hi
    obtain ⟨row, hrow, rfl⟩ := List.mem_map.mp ((hids i).mpr hi)
    exact List.mem_map_of_mem
      (walk_lists (gatherPage_lists hs hid hq hring hl hrow) (by simp) hw)

end Totals

-- two requests from before 1677: SQLite takes the cursor of the first for one of the year 2262,
-- and the page after it leads back to the page before it
example :
    let records : List Record := [.request (.blank (str "a") (2 ^ 63 - 7) (str "1")),
      .request (.blank (str "b") (2 ^ 63 - 8) (str "2")), .request (.blank (str "c") 0 (str "3")),
      .request (.blank (str "d") (-2 ^ 63 - 5) (str "4")),
      .request (.blank (str "e") (-2 ^ 63 - 10) (str "5"))]
    let next := fun c => (gatherPage ⟨2, none, none, none, ⟨[]⟩⟩
      (some (memReader .asciiOnly (records.foldl MemorySink.write (.new 5))))
      (some (sqlReader .asciiOnly (stored records))) c).2
    next none = some ⟨2 ^ 63 - 8, str "b"⟩ ∧
      next (some ⟨2 ^ 63 - 8, str "b"⟩) = some ⟨-2 ^ 63 - 5, str "d"⟩ ∧
      next (some ⟨-2 ^ 63 - 5, str "d"⟩) = some ⟨2 ^ 63 - 8, str "b"⟩ := by
  decide

end HttpCatch.Admin

import HttpCatch.Inspect.Cursor
import HttpCatch.Sinks.MemoryReader
import HttpCatch.Sinks.SQLiteRoots

/-!
# The two readers, side by side

The memory reader and the SQLite reader make the list of roots by different means, and are
paged in the same way.

* `readRoots_pages` — either reader, paged to the end, returns the rows of a query once each
  and newest first, and every page but the last is full; memory panics for the greatest `int`.
* `readRoots_window` — without terms, the two return the same roots for the same records
  exactly when no root is `Astray`: SQLite compares a bound of the time window after reducing
  it to 64 bits, and a bound outside the years 1678 to 2262 then names another instant.
* `cursor_survives` — the cursor of a row of SQLite comes back from the client as it was; that
  of a row of the ring, if its timestamp fits into 64 bits.
-/

namespace HttpCatch.Sinks

open HttpCatch.Go HttpCatch.Capture HttpCatch.SearchQL HttpCatch.Inspect HttpCatch.Keyset

/-! ### Limits

`ReadRoots` takes its limit as an `int` and computes `limit + 1`, which wraps for the greatest
one. `none` stands for a panic. -/

section Limits

variable {α : Type}

/-- `l[i]`. -/
def index? (l : List α) (i : ℤ) : Option α := if 0 ≤ i then l[i.toNat]? else none

/-- `l[:n]`. -/
def slice? (l : List α) (n : ℤ) : Option (List α) :=
  if 0 ≤ n ∧ n ≤ l.length then some (l.take n.toNat) else none

/-- `if len(page) > limit { last := page[limit-1]; ... }`. -/
def cutPage? (page : List RootRow) (limit : ℤ) : Option (List RootRow × Option Cursor) :=
  if limit < page.length then do
    let last ← index? page (limit - 1)
    let page ← slice? page limit
    return (page, some last.cursor)
  else some (page, none)

variable (U : Unicode)

/-- `MemorySink.ReadRoots`. -/
def MemorySink.readRoots? (s : MemorySink) (q : InspectQuery) (limit : ℤ)
    (cursor : Option Cursor) : Option (List RootRow × Option Cursor) := do
  let all := s.recent s.len
  let rows := after RootRow.cursor cursor (newestFirst RootRow.cursor (candidates U all q))
  let take := min ((limit + 1).bmod (2 ^ 64)) rows.length
  let page ← slice? rows take
  cutPage? page limit

/-- `SQLiteSink.ReadRoots`: a negative `LIMIT` is none. -/
def SQLiteSink.readRoots? (t : Tables) (q : InspectQuery) (limit : ℤ) (cursor : Option Cursor) :
    Option (List RootRow × Option Cursor) :=
  let fetch := (limit + 1).bmod (2 ^ 64)
  let rows := newestFirst RootRow.cursor (unionRows U t q cursor)
  cutPage? (if fetch < 0 then rows else rows.take fetch.toNat) limit

variable {U}

theorem cutPage?_eq (rows : List RootRow) {limit : ℕ} (hl : 0 < limit) :
    cutPage? rows limit = some (page RootRow.cursor limit rows) := by
  unfold cutPage?
  split_ifs with hlt
  · have hlen : limit < rows.length := by omega
    have hindex : index? rows (limit - 1) = rows[limit - 1]? := by
      rw [index?, if_pos (by omega)]
      congr 1
      omega
    have hslice : slice? rows limit = some (rows.take limit) := by
      rw [slice?, if_pos ⟨by omega, by omega⟩, Int.toNat_natCast]
    rw [hindex, hslice, page, if_pos hlen,
      List.getElem?_eq_getElem (show limit - 1 < rows.length by omega)]
    rfl
  · rw [page_short (by omega)]

theorem succ_bmod {limit : ℕ} (hl : limit + 1 < 2 ^ 63) :
    ((limit : ℤ) + 1).bmod (2 ^ 64) = limit + 1 :=
  unixNano_of_representable ⟨by omega, by omega⟩

/-- The greatest limit wraps to the least. -/
theorem succ_bmod_greatest : (((2 ^ 63 - 1 : ℕ) : ℤ) + 1).bmod (2 ^ 64) = -2 ^ 63 := by decide

theorem memory_readRoots?_eq (s : MemorySink) (q : InspectQuery) {limit : ℕ} (hl : 0 < limit)
    (hfit : limit + 1 < 2 ^ 63) (cursor : Option Cursor) :
    s.readRoots? U q limit cursor = some (s.readRoots U q limit cursor) := by
  have hslice : ∀ rows : List RootRow,
      slice? rows (min ((limit : ℤ) + 1) rows.length) = some (rows.take (limit + 1)) := by
    intro rows
    rw [slice?, if_pos ⟨by omega, min_le_right _ _⟩, ← Nat.cast_succ, ← Nat.cast_min,
      Int.toNat_natCast, ← List.take_eq_take_min]
  simp only [MemorySink.readRoots?, succ_bmod hfit, hslice]
  exact cutPage?_eq _ hl

/-- The greatest limit makes the bound of the slice negative. -/
theorem memory_readRoots?_greatest (s : MemorySink) (q : InspectQuery) (cursor : Option Cursor) :
    s.readRoots? U q (2 ^ 63 - 1 : ℕ) cursor = none := by
  simp only [MemorySink.readRoots?, succ_bmod_greatest]
  rw [slice?, if_neg (by omega)]
  rfl

theorem sqlite_readRoots?_eq (t : Tables) (q : InspectQuery) {limit : ℕ} (hl : 0 < limit)
    (hint : limit < 2 ^ 63) (cursor : Option Cursor) :
    SQLiteSink.readRoots? U t q limit cursor = some (SQLiteSink.readRoots U t q limit cursor) := by
  rw [SQLiteSink.readRoots?, cutPage?_eq _ hl, SQLiteSink.readRoots]
  refine congrArg some ?_
  by_cases hfit : limit + 1 < 2 ^ 63
  · rw [succ_bmod hfit, if_neg (by omega)]
    rfl
  · -- without a limit there may be rows more than the one that shows that some are left
    obtain rfl : limit = 2 ^ 63 - 1 := by omega
    rw [succ_bmod_greatest, if_pos (by decide), page_take_succ]

end Limits

/-! ### Paging -/

/-- Follow the cursors of a reader from `c` to the end, where it does not panic. -/
def walk? (fetch : Option Cursor → Option (List RootRow × Option Cursor)) :
    ℕ → Option Cursor → Option (List (List RootRow))
  | 0, _ => none
  | n + 1, c =>
    match fetch c with
    | none => none
    | some (p, none) => some [p]
    | some (p, some k) => (walk? fetch n (some k)).map (p :: ·)

theorem walk?_eq {fetch : Option Cursor → Option (List RootRow × Option Cursor)}
    {fetch' : Option Cursor → List RootRow × Option Cursor} (h : ∀ c, fetch c = some (fetch' c))
    (n : ℕ) (c : Option Cursor) : walk? fetch n c = walk fetch' n c := by
  induction n generalizing c with
  | zero => rfl
  | succ n ih =>
    rw [walk?, walk, h]
    rcases fetch' c with ⟨p, _ | k⟩
    · rfl
    · simp only [ih]

/-- Following the cursors of a reader from the start ends, in at most `n` pages and without a
panic; every page but the last is full, and the pages hold the rows, newest first. -/
def PagesOf (fetch : Option Cursor → Option (List RootRow × Option Cursor)) (limit : ℤ) (n : ℕ)
    (rows : List RootRow) : Prop :=
  ∃ pages, walk? fetch n none = some pages ∧ (∀ p ∈ pages.dropLast, (p.length : ℤ) = limit) ∧
    Newest RootRow.cursor pages.flatten ∧ pages.flatten.Perm rows

section Pages

variable {U : Unicode}

theorem memory_full {s : MemorySink} {q : InspectQuery} {limit : ℕ} {c : Option Cursor} {k : Cursor}
    (h : (s.readRoots U q limit c).2 = some k) : (s.readRoots U q limit c).1.length = limit := by
  rw [memory_readRoots_eq] at h ⊢
  exact page_full h

theorem sqlite_full {t : Tables} {q : InspectQuery} {limit : ℕ} {c : Option Cursor} {k : Cursor}
    (h : (SQLiteSink.readRoots U t q limit c).2 = some k) :
    (SQLiteSink.readRoots U t q limit c).1.length = limit :=
  page_full h

theorem memory_pages (s : MemorySink) (hid : ((s.recent s.len).map Record.id).Nodup)
    (q : InspectQuery) {limit : ℕ} (hl : 0 < limit) (hfit : limit + 1 < 2 ^ 63) {n : ℕ}
    (hn : (s.recent s.len).length < n) :
    PagesOf (s.readRoots? U q limit) limit n
      (((s.recent s.len).filter (memKeeps U (s.recent s.len) q)).map
        (memRoot (s.recent s.len))) := by
  obtain ⟨pages, hw, hrows⟩ := walk_memory (U := U) s hid q hl hn
  refine ⟨pages, ?_, fun p hp => ?_, ?_, ?_⟩
  · rw [walk?_eq (memory_readRoots?_eq s q hl hfit), hw]
  · exact_mod_cast walk_full (fun c k hk => memory_full hk) hw p hp
  · rw [hrows]
    exact newest_memRows hid q
  · rw [hrows]
    exact newestFirst_perm _

theorem sqlite_pages {rs : List Record} (hs : Storable rs) (hid : (rs.map Record.id).Nodup)
    (q : InspectQuery) {limit : ℕ} (hl : 0 < limit) (hint : limit < 2 ^ 63) {n : ℕ}
    (hn : rs.length < n) :
    PagesOf (SQLiteSink.readRoots? U (stored rs) q limit) limit n
      ((rs.filter (sqlKeeps U rs q)).map (sqlRoot rs)) := by
  obtain ⟨pages, hw, hrows⟩ := walk_readRoots (U := U) hs hid q hl hn
  refine ⟨pages, ?_, fun p hp => ?_, ?_, ?_⟩
  · rw [walk?_eq (sqlite_readRoots?_eq _ q hl hint), hw]
  · exact_mod_cast walk_full (fun c k hk => sqlite_full hk) hw p hp
  · rw [hrows]
    exact newest_sqlRows hs hid q
  · rw [hrows]
    exact (newestFirst_perm _).trans (unionRows_perm hs q)

end Pages

/-- **Paging one reader loses and repeats nothing**, except that memory panics for the greatest
`int` as the limit. The rows are those of the records that the query keeps. -/
theorem readRoots_pages (U : Unicode) (q : InspectQuery) (limit : ℤ) (hl : 1 ≤ limit)
    (hint : limit < 2 ^ 63) :
    (∀ s : MemorySink, ((s.recent s.len).map Record.id).Nodup → ∀ n, (s.recent s.len).length < n →
      (PagesOf (s.readRoots? U q limit) limit n
          (((s.recent s.len).filter (memKeeps U (s.recent s.len) q)).map
            (memRoot (s.recent s.len))) ↔
        limit ≠ 2 ^ 63 - 1)) ∧
    ∀ (rs : List Record) (tables : Tables), (rs.map Record.id).Nodup →
      (stored []).writeAll rs = .ok tables → ∀ n, rs.length < n →
        PagesOf (SQLiteSink.readRoots? U tables q limit) limit n
          ((rs.filter (sqlKeeps U rs q)).map (sqlRoot rs)) := by
  obtain ⟨limit, rfl⟩ := Int.eq_ofNat_of_zero_le (by omega : 0 ≤ limit)
  refine ⟨fun s hid n hn => ⟨?_, fun hne => memory_pages s hid q (by omega) (by omega) hn⟩, ?_⟩
  · rintro ⟨pages, hw, -⟩ hmax
    obtain rfl : limit = 2 ^ 63 - 1 := by omega
    cases n with
    | zero => cases hw
    | succ n =>
      rw [walk?, memory_readRoots?_greatest] at hw
      cases hw
  · intro rs tables hid hwrite n hn
    obtain ⟨hs, rfl⟩ := writeAll_ok.mp hwrite
    exact sqlite_pages hs hid q (by omega) (by omega) hn

/-- Two records of the same instant, on pages of one row. -/
theorem readRoots_pages_tie :
    let records : List Record :=
      [.request (.blank (str "a") 0 (str "c")), .response (.blank (str "b") 0 (str "d"))]
    PagesOf ((records.foldl MemorySink.write (.new 2)).readRoots? .asciiOnly
        ⟨1, none, none, none, ⟨[]⟩⟩ 1) 1 3 (records.reverse.map (memRoot records.reverse)) ∧
      PagesOf (SQLiteSink.readRoots? .asciiOnly (stored records) ⟨1, none, none, none, ⟨[]⟩⟩ 1) 1 3
        (records.map (sqlRoot records)) := by
  intro records
  obtain ⟨hmem, hsql⟩ :=
    readRoots_pages .asciiOnly ⟨1, none, none, none, ⟨[]⟩⟩ 1 (by decide) (by decide)
  have hring : (records.foldl MemorySink.write (.new 2)).recent
      (records.foldl MemorySink.write (.new 2)).len = records.reverse := by decide
  have hkept : records.reverse.filter (memKeeps .asciiOnly records.reverse
      ⟨1, none, none, none, ⟨[]⟩⟩) = records.reverse := by decide
  have hpages := hmem (records.foldl MemorySink.write (.new 2)) (by decide) 3 (by decide)
  rw [hring, hkept] at hpages
  exact ⟨hpages.mpr (by decide),
    hsql records _ (by decide) (writeAll_ok.mpr ⟨by decide, rfl⟩) 3 (by decide)⟩

/-- The greatest limit, on an empty ring and on empty tables. -/
theorem readRoots_greatest_limit :
    (MemorySink.new 1).readRoots? .asciiOnly ⟨1, none, none, none, ⟨[]⟩⟩ (2 ^ 63 - 1) none = none ∧
      SQLiteSink.readRoots? .asciiOnly (stored []) ⟨1, none, none, none, ⟨[]⟩⟩ (2 ^ 63 - 1) none =
        some ([], none) := by
  decide

/-! ### The time window -/

/-- The instant is in the window and not in the one that SQLite compares with, or the other way
round. -/
def Astray (since until_ : Option ℤ) (ts : ℤ) : Prop :=
  inWindow since until_ ts ≠ inWindow (since.map unixNano) (until_.map unixNano) ts

section Window

variable {U : Unicode} {rs : List Record}

theorem sqlInWindow_eq {since until_ : Option ℤ} {ts : ℤ} (h : Representable ts) :
    sqlInWindow since until_ ts = inWindow (since.map unixNano) (until_.map unixNano) ts := by
  rw [sqlInWindow, inWindow, unixNano_of_representable h, Option.all_map, Option.all_map]

theorem not_astray {since until_ : Option ℤ} (hsince : ∀ t ∈ since, Representable t)
    (huntil : ∀ t ∈ until_, Representable t) (ts : ℤ) : ¬Astray since until_ ts := by
  have hmap : ∀ o : Option ℤ, (∀ t ∈ o, Representable t) → o.map unixNano = o := by
    intro o ho
    cases o with
    | none => rfl
    | some t => exact congrArg some (unixNano_of_representable (ho t rfl))
  rw [Astray, hmap since hsince, hmap until_ huntil]
  exact fun h => h rfl

theorem hasRequest_iff {cid : GoString} : hasRequest rs cid = true ↔ cid ∈ requestCorrs rs := by
  rw [mem_requestCorrs, hasRequest, List.any_eq_true]
  constructor
  · rintro ⟨rec, hrec, h⟩
    cases rec with
    | request r => exact ⟨r, hrec, of_decide_eq_true h⟩
    | response ev => simp [Record.isRequest] at h
    | outbound ev => simp [Record.isRequest] at h
  · rintro ⟨r, hr, rfl⟩
    exact ⟨.request r, hr, by simp [Record.isRequest, Record.correlationID]⟩

/-- Without terms, memory keeps the roots in the window. -/
theorem memSelected_nil {q : InspectQuery} (hq : q.query = ⟨[]⟩) (rec : Record) :
    memSelected U rs q rec = isRoot rs rec := by
  have hcorr : ∀ cid, decide (cid ∉ requestCorrs rs) = !hasRequest rs cid := by
    intro cid
    cases h : hasRequest rs cid with
    | true => simpa using hasRequest_iff.mp h
    | false => simpa using fun hc => by simpa [h] using hasRequest_iff.mpr hc
  cases rec with
  | request r => simp [memSelected, isRoot, Record.isRequest, compilePredicate, hq]
  | response ev =>
    simp [memSelected, isRoot, Record.isRequest, Record.correlationID, matchOrphanResponse, hq,
      hcorr, InspectQuery.hasRequestOnlyFilter, Query.hasRequestOnlyTerm]
  | outbound ev =>
    simp [memSelected, isRoot, Record.isRequest, Record.correlationID, matchOrphanOutbound, hq,
      hcorr, InspectQuery.hasRequestOnlyFilter, Query.hasRequestOnlyTerm]

/-- Without terms, SQLite keeps the roots in the window. -/
theorem sqlSelected_nil {q : InspectQuery} (hq : q.query = ⟨[]⟩) (rec : Record) :
    sqlSelected U rs q rec = true := by
  have hfilter : q.hasRequestOnlyFilter = false := by
    rw [InspectQuery.hasRequestOnlyFilter, hq]; rfl
  have hcond : orphanCond U q.query = none := by rw [hq]; rfl
  cases rec with
  | request r => rw [sqlSelected, hq]; rfl
  | response ev => simp [sqlSelected, hfilter, hcond, Sql.holds]
  | outbound ev => simp [sqlSelected, hfilter, hcond, Sql.holds]

theorem mem_sqlCursors (hs : Storable rs) (hts : ∀ rec ∈ rs, Representable rec.timestamp)
    {q : InspectQuery} (hq : q.query = ⟨[]⟩) {c : Cursor} :
    c ∈ (sqlRows U rs q).map RootRow.cursor ↔ ∃ rec ∈ rs, isRoot rs rec = true ∧
      inWindow (q.since.map unixNano) (q.until_.map unixNano) rec.timestamp = true ∧
        c = ⟨rec.timestamp, rec.id⟩ := by
  rw [List.mem_map]
  constructor
  · rintro ⟨row, hrow, rfl⟩
    obtain ⟨rec, hrec, hkeep, rfl⟩ := (mem_sqlRows hs).mp hrow
    rw [sqlKeeps, sqlSelected_nil hq, sqlInWindow_eq (hts rec hrec), Bool.and_true,
      Bool.and_eq_true] at hkeep
    exact ⟨rec, hrec, hkeep.1, hkeep.2,
      by rw [sqlRoot_cursor, unixNano_of_representable (hts rec hrec)]⟩
  · rintro ⟨rec, hrec, hroot, hwin, rfl⟩
    refine ⟨sqlRoot rs rec, (mem_sqlRows hs).mpr ⟨rec, hrec, ?_, rfl⟩, ?_⟩
    · rw [sqlKeeps, sqlSelected_nil hq, sqlInWindow_eq (hts rec hrec), Bool.and_true,
        Bool.and_eq_true]
      exact ⟨hroot, hwin⟩
    · rw [sqlRoot_cursor, unixNano_of_representable (hts rec hrec)]

theorem mem_memCursors {q : InspectQuery} (hq : q.query = ⟨[]⟩) {c : Cursor} :
    c ∈ (memRows U rs q).map RootRow.cursor ↔ ∃ rec ∈ rs, isRoot rs rec = true ∧
      inWindow q.since q.until_ rec.timestamp = true ∧ c = ⟨rec.timestamp, rec.id⟩ := by
  rw [List.mem_map]
  constructor
  · rintro ⟨row, hrow, rfl⟩
    obtain ⟨rec, hrec, hkeep, rfl⟩ := mem_memRows.mp hrow
    rw [memKeeps, memSelected_nil hq, Bool.and_eq_true] at hkeep
    exact ⟨rec, hrec, hkeep.2, hkeep.1, memRoot_cursor rec⟩
  · rintro ⟨rec, hrec, hroot, hwin, rfl⟩
    refine ⟨memRoot rs rec, mem_memRows.mpr ⟨rec, hrec, ?_, rfl⟩, memRoot_cursor rec⟩
    rw [memKeeps, memSelected_nil hq, Bool.and_eq_true]
    exact ⟨hwin, hroot⟩

theorem isRoot_congr {all : List Record} (h : ∀ rec, rec ∈ all ↔ rec ∈ rs) (rec : Record) :
    isRoot all rec = isRoot rs rec := by
  have : hasRequest all rec.correlationID = hasRequest rs rec.correlationID := by
    rw [Bool.eq_iff_iff, hasRequest, hasRequest, List.any_eq_true, List.any_eq_true]
    simp only [h]
  rw [isRoot, isRoot, this]

end Window

/-- **The roots of a time window, in SQLite and in memory.** Paging either reader without terms
ends; SQLite returns exactly the roots since one bound and before the other, and so the same
ids as memory for the same records, exactly when no root is astray. None is where the bounds
are absent or can be told in 64 bits. -/
theorem readRoots_window (U : Unicode) (rs : List Record) (hid : (rs.map Record.id).Nodup)
    (tables : Tables) (hw : (stored []).writeAll rs = .ok tables)
    (hts : ∀ rec ∈ rs, Representable rec.timestamp) (s : MemorySink)
    (hsame : (s.recent s.len).Perm rs) (since until_ : Option ℤ) (limit n : ℕ) (hl : 0 < limit)
    (hn : rs.length < n) :
    (∃ pages pages',
      walk (SQLiteSink.readRoots U tables ⟨limit, none, since, until_, ⟨[]⟩⟩ limit) n none =
        some pages ∧
      walk (s.readRoots U ⟨limit, none, since, until_, ⟨[]⟩⟩ limit) n none = some pages' ∧
      ((∀ id, id ∈ pages.flatten.map RootRow.id ↔
            ∃ rec ∈ rs, isRoot rs rec = true ∧ inWindow since until_ rec.timestamp = true ∧
            id = rec.id) ∧
          pages.flatten.map RootRow.id = pages'.flatten.map RootRow.id ↔
        ∀ rec ∈ rs, isRoot rs rec = true → ¬Astray since until_ rec.timestamp)) ∧
      ((∀ t ∈ since, Representable t) → (∀ t ∈ until_, Representable t) →
        ∀ ts, ¬Astray since until_ ts) := by
  refine ⟨?_, not_astray⟩
  obtain ⟨hs, rfl⟩ := writeAll_ok.mp hw
  have hid' : ((s.recent s.len).map Record.id).Nodup := (hsame.map Record.id).nodup_iff.mpr hid
  obtain ⟨pages, hpages, hrows⟩ :=
    walk_readRoots (U := U) hs hid ⟨limit, none, since, until_, ⟨[]⟩⟩ hl hn
  obtain ⟨pages', hpages', hrows'⟩ :=
    walk_memory (U := U) s hid' ⟨limit, none, since, until_, ⟨[]⟩⟩ hl
      (by rw [hsame.length_eq]; exact hn)
  refine ⟨pages, pages', hpages, hpages', ?_⟩
  have hcur : ∀ rows : List RootRow, rows.map RootRow.id =
      (rows.map RootRow.cursor).map Cursor.id := fun rows => by
    rw [List.map_map]
    rfl
  rw [hrows, hrows', hcur, hcur]
  have hsql : ∀ c, c ∈ (sqlRows U rs ⟨limit, none, since, until_, ⟨[]⟩⟩).map RootRow.cursor ↔ _ :=
    fun c => mem_sqlCursors hs hts rfl
  have hmem : ∀ c, c ∈ (memRows U (s.recent s.len) ⟨limit, none, since, until_, ⟨[]⟩⟩).map
      RootRow.cursor ↔
      ∃ rec ∈ rs, isRoot rs rec = true ∧ inWindow since until_ rec.timestamp = true ∧
        c = ⟨rec.timestamp, rec.id⟩ := by
    intro c
    rw [mem_memCursors rfl]
    simp only [isRoot_congr fun rec => hsame.mem_iff, hsame.mem_iff]
  constructor
  · rintro ⟨hall, -⟩ rec hrec hroot hastray
    -- ids being unique, the id of a root is returned exactly when the root itself is
    have hone : ∀ rec' ∈ rs, rec'.id = rec.id → rec' = rec := fun rec' hrec' h =>
      List.inj_on_of_nodup_map hid hrec' hrec h
    refine hastray (Bool.eq_iff_iff.mpr ?_)
    have hiff := hall rec.id
    rw [List.mem_map] at hiff
    constructor
    · intro hin
      obtain ⟨c, hc, hcid⟩ := hiff.mpr ⟨rec, hrec, hroot, hin, rfl⟩
      obtain ⟨rec', hrec', -, hin', rfl⟩ := (hsql c).mp hc
      rwa [hone rec' hrec' hcid] at hin'
    · intro hin
      obtain ⟨rec', hrec', -, hin', hid'⟩ :=
        hiff.mp ⟨_, (hsql _).mpr ⟨rec, hrec, hroot, hin, rfl⟩, rfl⟩
      rwa [hone rec' hrec' hid'.symm] at hin'
  · intro hno
    have hin : ∀ rec ∈ rs, isRoot rs rec = true →
        inWindow since until_ rec.timestamp =
        inWindow (since.map unixNano) (until_.map unixNano) rec.timestamp :=
      fun rec hrec hroot => not_not.mp (hno rec hrec hroot)
    have hsql' : ∀ c, c ∈ (sqlRows U rs ⟨limit, none, since, until_, ⟨[]⟩⟩).map RootRow.cursor ↔
        ∃ rec ∈ rs, isRoot rs rec = true ∧ inWindow since until_ rec.timestamp = true ∧
        c = ⟨rec.timestamp, rec.id⟩ := by
      intro c
      rw [hsql c]
      refine exists_congr fun rec => and_congr_right fun hrec => and_congr_right fun hroot => ?_
      rw [hin rec hrec hroot]
    have heq : (sqlRows U rs ⟨limit, none, since, until_, ⟨[]⟩⟩).map RootRow.cursor =
        (memRows U (s.recent s.len) ⟨limit, none, since, until_, ⟨[]⟩⟩).map RootRow.cursor :=
      sorted_ext (newest_sqlRows hs hid _) (newest_memRows hid' _) fun c => (hsql' c).trans
        (hmem c).symm
    refine ⟨fun id => ?_, by rw [heq]⟩
    rw [List.mem_map]
    constructor
    · rintro ⟨c, hc, rfl⟩
      obtain ⟨rec, hrec, hroot, hwin, rfl⟩ := (hsql' c).mp hc
      exact ⟨rec, hrec, hroot, hwin, rfl⟩
    · rintro ⟨rec, hrec, hroot, hwin, rfl⟩
      exact ⟨_, (hsql' _).mpr ⟨rec, hrec, hroot, hwin, rfl⟩, rfl⟩

/-- The window from the epoch on has a request of that instant in both. -/
theorem readRoots_window_epoch :
    ∃ pages pages',
      walk (SQLiteSink.readRoots .asciiOnly (stored [.request (.blank (str "r") 0 (str "c"))])
        ⟨1, none, some 0, none, ⟨[]⟩⟩ 1) 2 none = some pages ∧
      walk (((MemorySink.new 1).write (.request (.blank (str "r") 0 (str "c")))).readRoots
        .asciiOnly ⟨1, none, some 0, none, ⟨[]⟩⟩ 1) 2 none = some pages' ∧
      pages.flatten.map RootRow.id = pages'.flatten.map RootRow.id := by
  obtain ⟨⟨pages, pages', h, h', hiff⟩, hno⟩ :=
    readRoots_window .asciiOnly [.request (.blank (str "r") 0 (str "c"))] (by decide) _
      (writeAll_ok.mpr ⟨by decide, rfl⟩) (by decide)
      ((MemorySink.new 1).write (.request (.blank (str "r") 0 (str "c")))) (by decide) (some 0)
      none 1 2 (by decide) (by decide)
  exact ⟨pages, pages', h, h', (hiff.mpr fun rec _ _ => hno (by decide) (by simp) _).2⟩

/-- Days from the Unix epoch to a date of the Gregorian calendar; a year starts in March here,
so that the leap day is its last. -/
def daysFromCivil (year month day : ℤ) : ℤ :=
  let y := if month ≤ 2 then year - 1 else year
  let m := if 2 < month then month - 3 else month + 9
  365 * y + y / 4 - y / 100 + y / 400 + (153 * m + 2) / 5 + day - 719469

/-- The instant of a date and a time of the day, in UTC. -/
def utc (year month day hour minute second : ℤ) : ℤ :=
  (((daysFromCivil year month day * 24 + hour) * 60 + minute) * 60 + second) * 10 ^ 9

example : utc 1970 1 1 0 0 0 = 0 ∧ utc 2000 2 29 12 0 0 = 951825600 * 10 ^ 9 := by decide

/-- A request of 1970 and a window until the end of the year 9999: memory returns the request,
SQLite nothing. -/
theorem readRoots_until_9999 :
    walk (SQLiteSink.readRoots .asciiOnly (stored [.request (.blank (str "r") 0 (str "c"))])
        ⟨1, none, none, some (utc 9999 12 31 23 59 59), ⟨[]⟩⟩ 1) 2 none = some [[]] ∧
      (walk (((MemorySink.new 1).write (.request (.blank (str "r") 0 (str "c")))).readRoots
        .asciiOnly ⟨1, none, none, some (utc 9999 12 31 23 59 59), ⟨[]⟩⟩ 1) 2 none).map
          (fun pages => pages.flatten.map RootRow.id) = some [str "r"] ∧
      inWindow none (some (utc 9999 12 31 23 59 59)) 0 = true := by decide

/-! ### Cursors on the wire -/

/-- The cursor of the row comes back from the client as it was. -/
def SurvivesWire (row : RootRow) : Prop := decodeCursor row.cursor.encode = .ok row.cursor

theorem representable_of_mem_sqlite {U : Unicode} {rs : List Record} (hs : Storable rs)
    (hid : (rs.map Record.id).Nodup) {q : InspectQuery} {limit : ℕ} {c : Option Cursor}
    {row : RootRow} (h : row ∈ (SQLiteSink.readRoots U (stored rs) q limit c).1) :
    Representable row.timestamp := by
  rw [readRoots_eq hs hid] at h
  have hrow : row ∈ sqlRows U rs q := List.mem_of_mem_filter (List.mem_of_mem_take h)
  obtain ⟨rec, -, -, rfl⟩ := (mem_sqlRows hs).mp hrow
  have hts : (sqlRoot rs rec).timestamp = unixNano rec.timestamp :=
    congrArg Cursor.timestamp (sqlRoot_cursor rec)
  rw [hts]
  exact unixNano_representable _

/-- **Which cursors survive the wire**: of the rows of SQLite all with an id, of the rows of the
ring those whose timestamp is an `int64` of nanoseconds. -/
theorem cursor_survives (U : Unicode) :
    (∀ (s : MemorySink) (q : InspectQuery) (limit : ℕ) (c : Option Cursor),
      ∀ row ∈ (s.readRoots U q limit c).1, SurvivesWire row ↔
      Representable row.timestamp ∧ row.id ≠ []) ∧
    ∀ (rs : List Record) (tables : Tables), (rs.map Record.id).Nodup →
      (stored []).writeAll rs = .ok tables →
      ∀ (q : InspectQuery) (limit : ℕ) (c : Option Cursor),
        ∀ row ∈ (SQLiteSink.readRoots U tables q limit c).1,
        SurvivesWire row ↔ row.id ≠ [] := by
  constructor
  · intro s q limit c row _
    exact decodeCursor_encode row.cursor
  · intro rs tables hid hwrite q limit c row hrow
    obtain ⟨hs, rfl⟩ := writeAll_ok.mp hwrite
    have hrep : Representable row.cursor.timestamp := representable_of_mem_sqlite hs hid hrow
    rw [SurvivesWire, decodeCursor_encode, and_iff_right hrep]
    rfl

/-- The last second of the year 9999, which the Events API accepts. -/
def endOf9999 : ℤ := 253402300799 * 10 ^ 9

/-- A response event of the year 9999 in the ring: its cursor comes back as another instant. -/
theorem cursor_lost_9999 :
    let s := (MemorySink.new 1).write (.response (.blank (str "e") endOf9999 (str "c")))
    ∃ row ∈ (s.readRoots .asciiOnly ⟨1, none, none, none, ⟨[]⟩⟩ 1 none).1,
      row.timestamp = endOf9999 ∧ ¬ SurvivesWire row := by
  refine ⟨_, List.mem_singleton.mpr rfl, rfl, ?_⟩
  rw [SurvivesWire, decodeCursor_encode]
  rintro ⟨⟨-, hlt⟩, -⟩
  exact absurd hlt (by decide)

end HttpCatch.Sinks

import HttpCatch.Admin.Narrowing
import HttpCatch.Admin.RequestQuery
import HttpCatch.Admin.SavedViews
import HttpCatch.Sinks.PagingRuns

/-!
# The JSON export

`collectAllRecords` of `internal/admin/ui/app.js` fetches `GET /requests` page by page, with the
parameters of the page that is open, and puts the records of all answers together. Between two
fetches the store may change, so that there is one `ReadSources` for each fetch.

A cursor goes from the reader through JSON into a parameter of the next URL, and from there back
to the reader. That the browser is logged in and the connection holds is taken for granted.

* `collectAllRecords_exports` — the export is what the query selects, newest first, up to ten
  thousand records, and has no record twice though the store changes meanwhile.
-/

namespace HttpCatch.Admin.Export

open HttpCatch.Go HttpCatch.Capture HttpCatch.SearchQL HttpCatch.Inspect HttpCatch.Url
  HttpCatch.Keyset HttpCatch.Sinks HttpCatch.Admin

/-! ### The script -/

/-- `params`, where `window.location.search` is given. -/
def exportParams (search : GoString) : Values :=
  setParam (str "limit") (str "200")
    ((SavedViews.searchParams search).filter fun e => e.1 ≠ str "cursor")

/-- `MAX_PAGES`. -/
def maxPages : ℕ := 50

/-- `fetch("/requests?" + …)`: `data.records` and `data.next_cursor`, unless the status is an
error. -/
def fetchRequests (U : Unicode) (rs : ReadSources) (query : GoString) :
    Option (List RootRow × Option GoString) :=
  match (requestsHandler U rs (urlQuery query)).response with
  | .roots _ _ rows next => some (rows, next)
  | _ => none

/-- `fetchPage`, from the first of the pages that are left on; what it adds to `all`, or none when
it throws. -/
def fetchPage (U : Unicode) (params : Values) : List ReadSources → GoString → Option (List RootRow)
  | [], _ => some []
  | rs :: rest, cursor =>
    match fetchRequests U rs
        (serialize (if cursor = [] then params else setParam (str "cursor") cursor params)) with
    | none => none
    | some (records, next) =>
      if next.getD [] = [] then some records
      else (fetchPage U params rest (next.getD [])).map (records ++ ·)

/-- `collectAllRecords`, the server being given at each fetch. -/
def collectAllRecords (U : Unicode) (servers : List ReadSources) (search : GoString) :
    Option (List RootRow) :=
  fetchPage U (exportParams search) (servers.take maxPages) []

/-! ### The parameters -/

section Parameters

variable {U : Unicode} {values : Values} {q : InspectQuery}

theorem errorOf_eq_nil {α : Type} {default a : α} {x : Except FieldError α} :
    errorOf x = [] ∧ valueOf default x = a ↔ x = .ok a := by
  cases x <;> simp [errorOf, valueOf]

/-- Parameters that are accepted. -/
theorem parseInspectQuery_eq_ok : parseInspectQuery U values = (q, []) ↔
    (∀ e ∈ values, e.1 ∈ knownQueryKeys) ∧
      parseLimit (values.get (str "limit")) = .ok q.limit ∧
      parseCursor (values.get (str "cursor")) = .ok q.cursor ∧
      parseTime (str "since") (values.get (str "since")) = .ok q.since ∧
      parseTime (str "until") (values.get (str "until")) = .ok q.until_ ∧
      parseQ U (values.get (str "q")) = .ok q.query := by
  have hknown : (values.map Prod.fst).dedup.filter (fun key => key ∉ knownQueryKeys) = [] ↔
      ∀ e ∈ values, e.1 ∈ knownQueryKeys := by
    rw [List.filter_eq_nil_iff]
    simp
  obtain ⟨limit, cursor, since, until_, query⟩ := q
  rw [parseInspectQuery]
  simp only
  split_ifs with hunknown
  · rw [Ne, hknown] at hunknown
    simp only [hunknown, false_and, iff_false]
    intro h
    exact hunknown (hknown.mp (List.map_eq_nil_iff.mp (Prod.mk.inj h).2))
  · rw [not_not, hknown] at hunknown
    simp only [Prod.mk.injEq, InspectQuery.mk.injEq, List.append_eq_nil_iff]
    constructor
    · rintro ⟨⟨hlimit, hcursor, hsince, huntil, hquery⟩, ⟨⟨⟨elimit, ecursor⟩, esince⟩, euntil⟩,
        equery⟩
      exact ⟨hunknown, errorOf_eq_nil.mp ⟨elimit, hlimit⟩, errorOf_eq_nil.mp ⟨ecursor, hcursor⟩,
        errorOf_eq_nil.mp ⟨esince, hsince⟩, errorOf_eq_nil.mp ⟨euntil, huntil⟩,
        errorOf_eq_nil.mp ⟨equery, hquery⟩⟩
    · rintro ⟨-, hlimit, hcursor, hsince, huntil, hquery⟩
      rw [hlimit, hcursor, hsince, huntil, hquery]
      simp [valueOf, errorOf]

/-- The keys that are there after `set`. -/
theorem mem_setParam {name value : GoString} {entries : List (GoString × GoString)}
    {e : GoString × GoString} (h : e ∈ setParam name value entries) : e.1 = name ∨ e ∈ entries := by
  induction entries with
  | nil => simp_all [setParam]
  | cons entry entries ih =>
    rw [setParam] at h
    split_ifs at h with hname
    · rcases List.mem_cons.mp h with rfl | h
      · exact .inl rfl
      · exact .inr (List.mem_cons_of_mem _ (List.mem_of_mem_filter h))
    · rcases List.mem_cons.mp h with rfl | h
      · exact .inr List.mem_cons_self
      · exact (ih h).imp_right (List.mem_cons_of_mem _)

/-- The parameters of a later page ask the same query, from its cursor on. -/
theorem parseInspectQuery_setCursor (h : parseInspectQuery U values = (q, [])) {k : Cursor}
    (hk : decodeCursor k.encode = .ok k) :
    parseInspectQuery U (setParam (str "cursor") k.encode values) =
      ({ q with cursor := some k }, []) := by
  obtain ⟨hkeys, hlimit, -, hsince, huntil, hquery⟩ := parseInspectQuery_eq_ok.mp h
  have hother : ∀ key, key ≠ str "cursor" →
      Values.get (setParam (str "cursor") k.encode values) key = values.get key := by
    intro key hkey
    rw [Values.get, Values.get, getParam_setParam_of_ne hkey]
  have hne : k.encode ≠ [] := by
    intro hempty
    rw [hempty] at hk
    cases hk
  refine parseInspectQuery_eq_ok.mpr ⟨?_, ?_, ?_, ?_, ?_, ?_⟩
  · intro e he
    rcases mem_setParam he with hname | he
    · rw [hname]
      decide
    · exact hkeys e he
  · rwa [hother _ (by decide)]
  · rw [Values.get, getParam_setParam_self, Option.getD_some, parseCursor, if_neg hne, hk]
  · rwa [hother _ (by decide)]
  · rwa [hother _ (by decide)]
  · rwa [hother _ (by decide)]

/-- What the script asks for has no cursor at first, and two hundred rows a page. -/
theorem exportParams_query {search : GoString}
    (h : parseInspectQuery U (exportParams search) = (q, [])) :
    q.limit = 200 ∧ q.cursor = none := by
  obtain ⟨-, hlimit, hcursor, -⟩ := parseInspectQuery_eq_ok.mp h
  have hfiltered : getParam ((SavedViews.searchParams search).filter fun e => e.1 ≠ str "cursor")
      (str "cursor") = none := by
    rw [getParam, Option.map_eq_none_iff, List.find?_eq_none]
    intro e he
    simpa using (List.mem_filter.mp he).2
  constructor
  · rw [exportParams, Values.get, getParam_setParam_self] at hlimit
    exact (Except.ok.inj (hlimit.symm.trans rfl))
  · rw [exportParams, Values.get, getParam_setParam_of_ne (by decide), hfiltered] at hcursor
    exact (Except.ok.inj hcursor).symm

end Parameters

/-! ### The pages -/

section Pages

variable {U : Unicode} {q : InspectQuery} {params : Values} {t : Tables} {mem : Option Reader}

/-- The readers of a server that has the tables; the ring may be read too. -/
def serverOf (U : Unicode) (state : Option Reader × Tables) : ReadSources :=
  ⟨state.1, some (sqlReader U state.2)⟩

/-- A query that SQLite alone answers: one with terms, or there is no ring. -/
def OnlySQLite (q : InspectQuery) (mem : Option Reader) : Prop := q.query.terms ≠ [] ∨ mem = none

/-- The query is run: its parameters are accepted and it passes the gate. -/
structure Accepted (U : Unicode) (params : Values) (q : InspectQuery) : Prop where
  parsed : parseInspectQuery U params = (q, [])
  gate : (q.query.isUnindexedScan && !requiresNarrowing q) = false

theorem gatherRoots_sqlite (h : OnlySQLite q mem) :
    gatherRoots q mem (some (sqlReader U t)) =
      .ok ((SQLiteSink.readRoots U t q q.limit q.cursor).1,
        (SQLiteSink.readRoots U t q q.limit q.cursor).2, .sqlite) := by
  have hnone : (if hasNonTemporalFilter q then none else mem) = none := by
    rcases h with hterms | rfl
    · have : hasNonTemporalFilter q = true := decide_eq_true (List.length_pos_iff.mpr hterms)
      rw [if_pos this]
    · rw [ite_self]
  unfold gatherRoots
  rw [hnone]
  rfl

/-- A fetch gives a page of the tables, with the cursor as text. -/
theorem fetchRequests_eq (hq : Accepted U params q) (h : OnlySQLite q mem) :
    fetchRequests U (serverOf U (mem, t)) (serialize params) =
      some ((SQLiteSink.readRoots U t q q.limit q.cursor).1,
        (SQLiteSink.readRoots U t q q.limit q.cursor).2.map Cursor.encode) := by
  rw [fetchRequests, urlQuery_serialize, requestsHandler, hq.parsed]
  simp only [hq.gate, Bool.false_eq_true, if_false, serverOf, gatherRoots_sqlite h]

/-- A cursor as the script holds it. -/
def cursorText (c : Option Cursor) : GoString := (c.map Cursor.encode).getD []

theorem encode_ne_nil {k : Cursor} (hk : decodeCursor k.encode = .ok k) : k.encode ≠ [] := by
  intro hempty
  rw [hempty] at hk
  cases hk

/-- The parameters of each page are accepted. -/
theorem Accepted.page (hq : Accepted U params q) (hcursor : q.cursor = none) {c : Option Cursor}
    (hc : ∀ k ∈ c, decodeCursor k.encode = .ok k) :
    Accepted U (if cursorText c = [] then params else setParam (str "cursor") (cursorText c) params)
      { q with cursor := c } := by
  cases c with
  | none =>
    rw [cursorText, Option.map_none, Option.getD_none, if_pos rfl, ← hcursor]
    exact hq
  | some k =>
    have hk := hc k rfl
    rw [cursorText, Option.map_some, Option.getD_some, if_neg (encode_ne_nil hk)]
    exact ⟨parseInspectQuery_setCursor hq.parsed hk, hq.gate⟩

/-- **The script follows the cursors of the reader.** -/
theorem fetchPage_eq (hq : Accepted U params q) (hcursor : q.cursor = none)
    {states : List (Option Reader × Tables)} (honly : ∀ st ∈ states, OnlySQLite q st.1)
    (hnext : ∀ st ∈ states, ∀ c k, (SQLiteSink.readRoots U st.2 q q.limit c).2 = some k →
      decodeCursor k.encode = .ok k)
    {c : Option Cursor} (hc : ∀ k ∈ c, decodeCursor k.encode = .ok k) :
    fetchPage U params (states.map (serverOf U)) (cursorText c) =
      some (follow (states.map fun st => SQLiteSink.readRoots U st.2 q q.limit) c).1.flatten := by
  induction states generalizing c with
  | nil => rfl
  | cons st states ih =>
    obtain ⟨mem, t⟩ := st
    have hfetch := fetchRequests_eq (t := t) (hq.page hcursor hc) (honly _ List.mem_cons_self)
    have hsame : SQLiteSink.readRoots U t { q with cursor := c } q.limit c =
        SQLiteSink.readRoots U t q q.limit c := rfl
    rw [hsame] at hfetch
    rw [List.map_cons, List.map_cons, fetchPage, hfetch]
    cases hk : (SQLiteSink.readRoots U t q q.limit c).2 with
    | none =>
      rw [follow_last hk, List.flatten_singleton]
      exact if_pos rfl
    | some k =>
      have hdecode := hnext (mem, t) List.mem_cons_self c k hk
      rw [follow_next hk, List.flatten_cons]
      dsimp only [Option.map_some, Option.getD_some]
      rw [if_neg (encode_ne_nil hdecode)]
      have hrest := ih (fun st hst => honly st (List.mem_cons_of_mem _ hst))
        (fun st hst => hnext st (List.mem_cons_of_mem _ hst)) (c := some k) (by simpa using hdecode)
      rw [cursorText, Option.map_some, Option.getD_some] at hrest
      rw [hrest, Option.map_some]

/-- The cursors that the reader hands out survive the way through the URL. -/
theorem decodeCursor_readRoots {all : List Record} {views : List (List Record)}
    (h : Snapshots all views) (hne : ∀ rec ∈ all, rec.id ≠ []) {limit : ℕ} (hl : 0 < limit)
    {rs : List Record} (hrs : rs ∈ views) {c : Option Cursor} {k : Cursor}
    (hk : (SQLiteSink.readRoots U (stored rs) q limit c).2 = some k) :
    decodeCursor k.encode = .ok k := by
  have hs := h.storable rs hrs
  rw [readRoots_eq hs (h.ids hrs)] at hk
  obtain ⟨-, ⟨row, hrow, rfl⟩, -⟩ := page_next ((newest_sqlRows hs (h.ids hrs) q).after _) hl hk
  obtain ⟨rec, hrec, -, rfl⟩ := (mem_sqlRows hs).mp (mem_after.mp (List.mem_of_getElem? hrow)).1
  rw [sqlRoot_cursor]
  exact (decodeCursor_encode _).mpr
    ⟨unixNano_representable _, hne rec ((h.among rs hrs).subset hrec)⟩

/-- What is exported from tables that hold the rows of the records of each time. -/
theorem collectAllRecords_eq {all : List Record} {views : List (List Record)}
    (h : Snapshots all views) (hne : ∀ rec ∈ all, rec.id ≠ []) (hlen : views.length = maxPages)
    {search : GoString} (hq : Accepted U (exportParams search) q) {mems : List (Option Reader)}
    (hmems : mems.length = maxPages) (honly : ∀ mem ∈ mems, OnlySQLite q mem) :
    collectAllRecords U ((mems.zip (views.map stored)).map (serverOf U)) search =
      some (sqlitePages U q 200 (views.map stored)).1.flatten := by
  obtain ⟨hlimit, hcursor⟩ := exportParams_query hq.parsed
  have hall : ((mems.zip (views.map stored)).map (serverOf U)).take maxPages =
      (mems.zip (views.map stored)).map (serverOf U) := by
    apply List.take_of_length_le
    rw [List.length_map, List.length_zip, hmems]
    exact min_le_left _ _
  have hreaders : (mems.zip (views.map stored)).map (fun st => SQLiteSink.readRoots U st.2 q 200) =
      (views.map stored).map fun t => SQLiteSink.readRoots U t q 200 := by
    have htables : (mems.zip (views.map stored)).map Prod.snd = views.map stored :=
      List.map_snd_zip (by rw [List.length_map, hlen, hmems])
    calc (mems.zip (views.map stored)).map (fun st => SQLiteSink.readRoots U st.2 q 200)
        = ((mems.zip (views.map stored)).map Prod.snd).map
            fun t => SQLiteSink.readRoots U t q 200 := by rw [List.map_map]; rfl
      _ = (views.map stored).map fun t => SQLiteSink.readRoots U t q 200 := by rw [htables]
  have hpages := @fetchPage_eq U q _ hq hcursor (mems.zip (views.map stored))
    (fun st hst => honly st.1 (List.of_mem_zip hst).1) ?_ none (by simp)
  · rw [collectAllRecords, hall]
    refine hpages.trans ?_
    rw [sqlitePages, hlimit, hreaders]
  · intro st hst c k hk
    obtain ⟨rs, hrs, heq⟩ := List.mem_map.mp (List.of_mem_zip hst).2
    rw [← heq] at hk
    exact decodeCursor_readRoots h hne (by rw [hlimit]; decide) hrs hk

end Pages

/-- **What the export has.** The parameters of the page are accepted and SQLite alone answers.

* From a store that stays as it is come the rows of the query, newest first, up to ten thousand.
* Whatever is written and swept between the fetches, the records come newest first and none
  twice; and if fewer than ten thousand were ever written, each that the query kept at every fetch
  is there.

The script puts no window of time where the URL has none, though the page that is open shows the
last fifteen minutes then. -/
theorem collectAllRecords_exports (U : Unicode) (search : GoString) {q : InspectQuery}
    (hq : Accepted U (exportParams search) q) {mems : List (Option Reader)}
    (hmems : mems.length = maxPages) (honly : ∀ mem ∈ mems, OnlySQLite q mem) :
    (∀ rs, Storable rs → (rs.map Record.id).Nodup → (∀ rec ∈ rs, rec.id ≠ []) →
      collectAllRecords U (mems.map fun mem => serverOf U (mem, stored rs)) search =
        some ((sqlRows U rs q).take 10000)) ∧
    ∀ batches, batches.length = maxPages → ((written batches.flatten).map Record.id).Nodup →
      (∀ rec ∈ written batches.flatten, rec.id ≠ []) →
      ∃ rows, collectAllRecords U ((mems.zip (tablesAt (stored []) batches)).map (serverOf U))
          search = some rows ∧
        Newest RootRow.cursor rows ∧ (rows.map fun row => row.cursor.id).Nodup ∧
        ((written batches.flatten).length < 10000 → ∀ rec,
          (∀ rs ∈ recordsAt [] batches, rec ∈ rs ∧ sqlKeeps U rs q rec = true) →
            ∃ rs ∈ recordsAt [] batches, sqlRoot rs rec ∈ rows) := by
  constructor
  · intro rs hs hid hne
    have h : Snapshots rs (List.replicate maxPages rs) :=
      ⟨fun rs' h => by rwa [List.eq_of_mem_replicate h],
        fun rs' h => by rw [List.eq_of_mem_replicate h], hid⟩
    have hzip : mems.zip ((List.replicate maxPages rs).map stored) =
        mems.map fun mem => (mem, stored rs) := by
      rw [List.map_replicate, List.map_prod_left_eq_zip, List.map_const', hmems]
    have hrows := collectAllRecords_eq h hne List.length_replicate hq hmems honly
    rw [hzip, List.map_map] at hrows
    refine hrows.trans (congrArg some ?_)
    rw [sqlitePages_eq h (by decide), List.map_replicate,
      follow_replicate (newest_sqlRows hs hid q) (by decide), after_none]
    rfl
  · intro batches hlen hid hne
    have h := snapshots_recordsAt hid
    have hviews : (recordsAt [] batches).length = maxPages :=
      (length_recordsAt [] batches).trans hlen
    have hrows := collectAllRecords_eq h hne hviews hq hmems honly
    rw [← tablesAt_stored ⟨by simp, by simp⟩ batches] at hrows
    refine ⟨_, hrows, ?_⟩
    rw [tablesAt_stored ⟨by simp, by simp⟩ batches]
    refine ⟨sqlitePages_newest h (by decide), sqlitePages_once h (by decide), ?_⟩
    intro hfew rec hrec
    have hend : (sqlitePages U q 200 ((recordsAt [] batches).map stored)).2 = true := by
      apply sqlitePages_ends h (by decide)
      rw [hviews]
      exact hfew
    exact sqlitePages_complete h (by decide) hend fun rs hrs => hrec rs (List.mem_of_mem_take hrs)

/-- The parameters of the page of a service. -/
def servicePage : Values := exportParams (str "?q=service%3Aweb")

/-- A request to the service. -/
def webRequest : Record :=
  .request { CapturedRequest.blank (str "a") 2 (str "c") with service := str "web" }

/-- It and a later request to no service. -/
def mixedRecords : List Record := [webRequest, .request (.blank (str "b") 3 (str "d"))]

/-- The page of the service is exported, which has the one request; there is a ring too. -/
theorem collectAllRecords_exports_service :
    collectAllRecords .asciiOnly
        ((List.replicate 50 (some (memReader .asciiOnly (.new 1)))).map fun mem =>
          serverOf .asciiOnly (mem, stored mixedRecords)) (str "?q=service%3Aweb") =
      some [sqlRoot mixedRecords webRequest] := by
  have hq : Accepted .asciiOnly servicePage (parseInspectQuery .asciiOnly servicePage).1 :=
    ⟨Prod.ext rfl (by decide), by decide⟩
  have hrows : sqlRows .asciiOnly mixedRecords (parseInspectQuery .asciiOnly servicePage).1 =
      [sqlRoot mixedRecords webRequest] := by decide
  refine ((collectAllRecords_exports .asciiOnly (str "?q=service%3Aweb") hq List.length_replicate
    (fun _ _ => .inl (by decide))).1 mixedRecords (by decide) (by decide) (by decide)).trans ?_
  rw [hrows]
  rfl

end HttpCatch.Admin.Export

import HttpCatch.Admin.Browser
import HttpCatch.Sinks.MemoryReader

/-!
# Live tail

The list page of `internal/admin/ui/app.js` polls `GET /requests` for the newest 50 rows since
the timestamp of its top row and puts those it does not yet display on top of the table. The
rows are those that the filters of the page keep.

More than 50 new rows would replace the table, but a poll never fetches more than 50. What a
burst between two polls pushes out of the newest 50 is never fetched again, since the next
poll starts from the new top row, while the rows from before the burst stay displayed.

* `Tail` — the top row is as new as anything that has arrived; every poll keeps this.
* `gapless_first`, `gapless_next` — when a poll leaves no gap.
* `run_gapless` — live tail leaves no gap exactly when the first poll cuts between two
  timestamps and every later one finds all new requests among the newest 50.
-/

namespace HttpCatch.Admin.LiveTail

open HttpCatch.Go HttpCatch.Capture HttpCatch.SearchQL HttpCatch.Inspect HttpCatch.Keyset
  HttpCatch.Sinks

/-! ### A poll -/

/-- `MAX_PREPEND`. -/
def maxPrepend : ℕ := 50

/-- `deriveSince`: the timestamp of the top row; without rows, the empty text. -/
def deriveSince (rows : List RootRow) : Option ℤ := rows.head?.map RootRow.timestamp

/-- What becomes of the table. -/
inductive Decision where
  | replace
  | prepend
  deriving DecidableEq

/-- `decideReplaceOrPrepend`. -/
def decideReplaceOrPrepend (newRowCount : ℕ) : Decision :=
  if maxPrepend < newRowCount then .replace else .prepend

/-- The parameters that `buildPollURL` sets; it deletes `cursor` and leaves the filters alone. -/
structure PollURL where
  since : Option ℤ
  limit : ℕ

/-- `buildPollURL`. -/
def buildPollURL (since : Option ℤ) : PollURL := ⟨since, 50⟩

/-- What the server answers: a page of the rows since the bound, newest first. -/
def respond (arrived : List RootRow) (url : PollURL) : List RootRow :=
  (page RootRow.cursor url.limit
    (newestFirst RootRow.cursor (arrived.filter fun r => url.since.all fun t => t ≤ r.timestamp))).1

/-- `rid && seen[rid]`, `seen` being an object with a property for each id of the table, and with
those it inherits. -/
def seen (table : List RootRow) (rid : GoString) : Bool :=
  rid ≠ [] ∧ (rid ∈ table.map RootRow.id ∨ rid ∈ Browser.objectPrototype)

/-- The rows that are not displayed yet. -/
def fresh (table records : List RootRow) : List RootRow := records.filter fun r => !seen table r.id

/-- `poll`, from the answer on. -/
def poll (table records : List RootRow) : List RootRow :=
  if fresh table records = [] then table
  else
    match decideReplaceOrPrepend (fresh table records).length with
    | .replace => fresh table records
    | .prepend => fresh table records ++ table

/-- The answer is what the memory reader returns for the query of the page. -/
theorem respond_readRoots (U : Unicode) (s : MemorySink) (query : Query) (since : Option ℤ) :
    (s.readRoots U ⟨50, none, since, none, query⟩ 50 none).1 =
      respond (candidates U (s.recent s.len) ⟨50, none, none, none, query⟩)
        (buildPollURL since) := by
  have hsince : candidates U (s.recent s.len) ⟨50, none, since, none, query⟩ =
      (candidates U (s.recent s.len) ⟨50, none, none, none, query⟩).filter fun r =>
        since.all fun t => t ≤ r.timestamp := by
    rw [candidates, candidates, List.filter_map, List.filter_filter]
    refine congrArg _ (List.filter_congr fun rec _ => ?_)
    have hts : (memRoot (s.recent s.len) rec).timestamp = rec.timestamp :=
      congrArg Cursor.timestamp (memRoot_cursor rec)
    have hsel : memSelected U (s.recent s.len) ⟨50, none, since, none, query⟩ rec =
        memSelected U (s.recent s.len) ⟨50, none, none, none, query⟩ rec := by cases rec <;> rfl
    simp only [memKeeps, inWindow, Function.comp_apply, hts, hsel, Option.all_none, Bool.and_true,
      Bool.true_and]
  rw [memory_readRoots_eq, after, List.filter_eq_self.mpr (by simp), memRows, hsince]
  rfl

/-! ### Runs -/

/-- What has arrived, in this order, and what the table displays, from the top. -/
structure View where
  arrived : List RootRow
  table : List RootRow

/-- Requests arrive, and the page polls. -/
def View.step (v : View) (batch : List RootRow) : View :=
  let arrived := v.arrived ++ batch
  ⟨arrived, poll v.table (respond arrived (buildPollURL (deriveSince v.table)))⟩

/-- Polls from an empty table on, each after a batch of requests. -/
def run (batches : List (List RootRow)) : View := batches.foldl View.step ⟨[], []⟩

/-- Every request whose timestamp lies between those of displayed rows is displayed. -/
def Gapless (v : View) : Prop :=
  ∀ r ∈ v.arrived, ∀ lo ∈ v.table, ∀ hi ∈ v.table, lo.timestamp ≤ r.timestamp →
    r.timestamp ≤ hi.timestamp → r ∈ v.table

/-- The number of rows that are listed before a row. -/
def rank (rows : List RootRow) (r : RootRow) : ℕ := rows.countP fun r' => r.cursor < r'.cursor

/-- What a poll is to find: at first, no row left out has the timestamp of one that is not;
later, all the new rows among the newest 50. -/
def Fits (before batch : List RootRow) : Prop :=
  if before = [] then
    ∀ r ∈ batch, ∀ r' ∈ batch, rank batch r < 50 → 50 ≤ rank batch r' → r.timestamp ≠ r'.timestamp
  else ∀ r ∈ batch, rank (before ++ batch) r < 50

/-! ### What a poll does -/

/-- Requests as they are captured: the ids are distinct and have the length of a UUID, and no
request is older than one before it. -/
structure Captured (rows : List RootRow) : Prop where
  nodup : (rows.map RootRow.id).Nodup
  uuid : ∀ r ∈ rows, r.id.length = 36
  sorted : rows.Pairwise fun r r' => r.timestamp ≤ r'.timestamp

section Poll

variable {rows table batch : List RootRow} {r r' : RootRow}

theorem Captured.cursors (h : Captured rows) : (rows.map RootRow.cursor).Nodup := by
  refine List.Nodup.of_map Cursor.id ?_
  rw [List.map_map]
  exact h.nodup

theorem Captured.of_append (h : Captured (rows ++ batch)) : Captured rows :=
  ⟨(List.nodup_append.mp (List.map_append ▸ h.nodup)).1,
    fun r hr => h.uuid r (List.mem_append_left _ hr), (List.pairwise_append.mp h.sorted).1⟩

theorem Captured.eq_of_id (h : Captured rows) (hr : r ∈ rows) (hr' : r' ∈ rows)
    (hid : r.id = r'.id) : r = r' :=
  List.inj_on_of_nodup_map h.nodup hr hr' hid

theorem timestamp_le_of_cursor_le (h : r.cursor ≤ r'.cursor) : r.timestamp ≤ r'.timestamp := by
  rcases h.eq_or_lt with h | h
  · exact (congrArg Cursor.timestamp h).le
  · rcases (Cursor.lt_iff _ _).mp h with h | h
    · exact h.le
    · exact h.1.le

/-- The one with fewer rows before it is listed first. -/
theorem timestamp_le_of_rank_lt (h : rank rows r' < rank rows r) : r.timestamp ≤ r'.timestamp := by
  refine timestamp_le_of_cursor_le (le_of_not_gt fun hlt => ?_)
  refine absurd (List.countP_mono_left (l := rows) fun x _ hx => ?_) (not_le.mpr h)
  simp only [decide_eq_true_eq] at hx ⊢
  exact hlt.trans hx

/-- A row of the answer is one since the bound with fewer than 50 rows before it. The rows
before it are since the bound as well. -/
theorem mem_respond (h : Captured rows) {since : Option ℤ} :
    r ∈ respond rows (buildPollURL since) ↔
      r ∈ rows ∧ (∀ t ∈ since, t ≤ r.timestamp) ∧ rank rows r < 50 := by
  have hnodup :
      ((rows.filter fun r => since.all fun t => t ≤ r.timestamp).map RootRow.cursor).Nodup :=
    (List.filter_sublist.map RootRow.cursor).nodup h.cursors
  have hmem : r ∈ respond rows (buildPollURL since) ↔ _ := mem_take_newestFirst hnodup
  rw [hmem, List.mem_filter, Option.all_eq_true, and_assoc]
  simp only [decide_eq_true_eq]
  refine and_congr_right fun _ => and_congr_right fun hsince => ?_
  have hcount : (rows.filter fun r => since.all fun t => t ≤ r.timestamp).countP
      (fun r' => r.cursor < r'.cursor) = rank rows r := by
    rw [List.countP_filter]
    refine List.countP_congr fun r' _ => ?_
    simp only [Bool.and_eq_true, decide_eq_true_eq, Option.all_eq_true, and_iff_left_iff_imp]
    exact fun hlt t ht => (hsince t ht).trans (timestamp_le_of_cursor_le hlt.le)
  rw [← hcount]
  rfl

/-- The answer is listed newest first. -/
theorem respond_sorted (h : Captured rows) (since : Option ℤ) :
    (respond rows (buildPollURL since)).Pairwise fun r r' => r'.timestamp ≤ r.timestamp := by
  have hnodup :
      ((rows.filter fun r => since.all fun t => t ≤ r.timestamp).map RootRow.cursor).Nodup :=
    (List.filter_sublist.map RootRow.cursor).nodup h.cursors
  have hnewest := newest_iff.mp (newest_newestFirst hnodup)
  exact (hnewest.sublist (List.take_sublist 50 _)).imp fun hlt => timestamp_le_of_cursor_le hlt.le

/-- No name that an object inherits has the length of a UUID. -/
theorem seen_iff (hid : r.id.length = 36) :
    seen table r.id = true ↔ r.id ∈ table.map RootRow.id := by
  have hne : r.id ≠ [] := by
    intro h
    rw [h] at hid
    cases hid
  have hproto : r.id ∉ Browser.objectPrototype := by
    have hlen : Browser.objectPrototype.all (fun name => name.length ≠ 36) = true := by decide
    intro h
    exact of_decide_eq_true (List.all_eq_true.mp hlen r.id h) hid
  simp [seen, hne, hproto]

theorem mem_fresh (h : Captured rows) (htable : ∀ r ∈ table, r ∈ rows) {records : List RootRow}
    (hrecords : ∀ r ∈ records, r ∈ rows) : r ∈ fresh table records ↔ r ∈ records ∧ r ∉ table := by
  rw [fresh, List.mem_filter, Bool.not_eq_true']
  refine and_congr_right fun hr => ?_
  rw [Bool.eq_false_iff, ne_eq, seen_iff (h.uuid r (hrecords r hr)), not_iff_not, List.mem_map]
  constructor
  · rintro ⟨r', hr', hid⟩
    rwa [← h.eq_of_id (htable r' hr') (hrecords r hr) hid]
  · exact fun hr' => ⟨r, hr', rfl⟩

/-- **A poll never replaces the table**: the answer has at most 50 rows. -/
theorem poll_eq {since : Option ℤ} :
    poll table (respond rows (buildPollURL since)) =
      fresh table (respond rows (buildPollURL since)) ++ table := by
  have hlen : (fresh table (respond rows (buildPollURL since))).length ≤ 50 :=
    (List.length_filter_le _ _).trans (List.length_take_le 50 _)
  have hprepend : decideReplaceOrPrepend (fresh table (respond rows (buildPollURL since))).length =
      .prepend :=
    if_neg (not_lt.mpr hlen)
  rw [poll, hprepend]
  split_ifs with h
  · rw [h, List.nil_append]
  · rfl

/-- The top of the answer is as new as every row since the bound. -/
theorem respond_top (h : Captured rows) (since : Option ℤ) (hr : r ∈ rows)
    (hsince : ∀ t ∈ since, t ≤ r.timestamp) :
    ∃ r' ∈ respond rows (buildPollURL since), r.timestamp ≤ r'.timestamp := by
  by_cases hrank : rank rows r < 50
  · exact ⟨r, (mem_respond h).mpr ⟨hr, hsince, hrank⟩, le_rfl⟩
  · -- some row is listed first of all
    have hmem : r ∈ newestFirst RootRow.cursor
        (rows.filter fun r => since.all fun t => t ≤ r.timestamp) := by
      rw [mem_newestFirst, List.mem_filter, Option.all_eq_true]
      exact ⟨hr, by simpa using hsince⟩
    obtain ⟨first, rest, hlist⟩ := List.exists_cons_of_ne_nil (List.ne_nil_of_mem hmem)
    have hfirst : first ∈ respond rows (buildPollURL since) := by
      rw [respond, buildPollURL, hlist]
      exact List.mem_cons_self
    have hlt := ((mem_respond h).mp hfirst).2.2
    exact ⟨first, hfirst, timestamp_le_of_rank_lt (hlt.trans_le (not_lt.mp hrank))⟩

end Poll

/-! ### What holds between polls -/

/-- What is displayed has arrived, and nothing that has arrived is newer than the top row. -/
structure Tail (v : View) : Prop where
  displayed : ∀ r ∈ v.table, r ∈ v.arrived
  top : v.arrived ≠ [] → ∃ t, v.table.head? = some t ∧ ∀ r ∈ v.arrived, r.timestamp ≤ t.timestamp

section Steps

variable {v : View} {batch : List RootRow}

/-- The first poll displays the answer as it is. -/
theorem step_first (h : Captured batch) :
    View.step ⟨[], []⟩ batch = ⟨batch, respond batch (buildPollURL none)⟩ := by
  have hfresh : fresh [] (respond batch (buildPollURL none)) =
      respond batch (buildPollURL none) := by
    refine List.filter_eq_self.mpr fun r hr => ?_
    rw [Bool.not_eq_true', Bool.eq_false_iff, ne_eq, seen_iff (h.uuid r ((mem_respond h).mp hr).1)]
    exact List.not_mem_nil
  simp only [View.step, List.nil_append, deriveSince, List.head?_nil, Option.map_none, poll_eq,
    hfresh, List.append_nil]

theorem tail_first (h : Captured batch) : Tail ⟨batch, respond batch (buildPollURL none)⟩ := by
  refine ⟨fun r hr => ((mem_respond h).mp hr).1, fun hne => ?_⟩
  have hnew : ∀ r ∈ batch, ∃ r' ∈ respond batch (buildPollURL none),
      r.timestamp ≤ r'.timestamp := fun r hr => respond_top h none hr (by simp)
  obtain ⟨r, hr⟩ := List.exists_mem_of_ne_nil batch hne
  obtain ⟨r', hr', -⟩ := hnew r hr
  have hsorted := respond_sorted h none
  cases hlist : respond batch (buildPollURL none) with
  | nil => rw [hlist] at hr'; cases hr'
  | cons t rest =>
    rw [hlist] at hsorted hnew
    refine ⟨t, rfl, fun r hr => ?_⟩
    obtain ⟨r', hr', hle⟩ := hnew r hr
    rcases List.mem_cons.mp hr' with rfl | hr'
    · exact hle
    · exact hle.trans ((List.pairwise_cons.mp hsorted).1 r' hr')

/-- What a later poll makes of the table. -/
theorem step_next {t : RootRow} (ht : v.table.head? = some t) :
    v.step batch = ⟨v.arrived ++ batch,
      fresh v.table (respond (v.arrived ++ batch) (buildPollURL (some t.timestamp))) ++
      v.table⟩ := by
  simp only [View.step, deriveSince, ht, Option.map_some, poll_eq]

theorem mem_fresh_next (hv : Tail v) (h : Captured (v.arrived ++ batch)) {t r : RootRow} :
    r ∈ fresh v.table (respond (v.arrived ++ batch) (buildPollURL (some t.timestamp))) ↔
      (r ∈ v.arrived ++ batch ∧ t.timestamp ≤ r.timestamp ∧ rank (v.arrived ++ batch) r < 50) ∧
        r ∉ v.table := by
  rw [mem_fresh h (fun r hr => List.mem_append_left _ (hv.displayed r hr))
    fun r hr => ((mem_respond h).mp hr).1, mem_respond h]
  simp

theorem tail_next (hv : Tail v) (hne : v.arrived ≠ []) (h : Captured (v.arrived ++ batch)) :
    Tail (v.step batch) := by
  obtain ⟨t, ht, htop⟩ := hv.top hne
  rw [step_next ht]
  refine ⟨fun r hr => ?_, fun _ => ?_⟩
  · rcases List.mem_append.mp hr with hr | hr
    · exact ((mem_fresh_next hv h).mp hr).1.1
    · exact List.mem_append_left _ (hv.displayed r hr)
  · -- a request is older than the old top, or than some row of the answer
    have hcover : ∀ r ∈ v.arrived ++ batch, r.timestamp ≤ t.timestamp ∨
        ∃ r' ∈ fresh v.table (respond (v.arrived ++ batch) (buildPollURL (some t.timestamp))),
        r.timestamp ≤ r'.timestamp := by
      intro r hr
      rcases le_total r.timestamp t.timestamp with hle | hle
      · exact .inl hle
      · obtain ⟨r', hr', hle'⟩ := respond_top h (some t.timestamp) hr (by simpa using hle)
        by_cases hin : r' ∈ v.table
        · exact .inl (hle'.trans (htop r' (hv.displayed r' hin)))
        · exact .inr ⟨r', (mem_fresh_next hv h).mpr ⟨by simpa using (mem_respond h).mp hr', hin⟩,
            hle'⟩
    have hsorted :
        (fresh v.table (respond (v.arrived ++ batch) (buildPollURL (some t.timestamp)))).Pairwise
        fun r r' => r'.timestamp ≤ r.timestamp := (respond_sorted h _).sublist List.filter_sublist
    have hsince : ∀ r ∈ fresh v.table
        (respond (v.arrived ++ batch) (buildPollURL (some t.timestamp))),
        t.timestamp ≤ r.timestamp := fun r hr => ((mem_fresh_next hv h).mp hr).1.2.1
    cases hlist : fresh v.table
      (respond (v.arrived ++ batch) (buildPollURL (some t.timestamp))) with
    | nil =>
      rw [hlist] at hcover
      exact ⟨t, ht, fun r hr => by simpa using hcover r hr⟩
    | cons f rest =>
      rw [hlist] at hcover hsorted hsince
      refine ⟨f, rfl, fun r hr => ?_⟩
      rcases hcover r hr with hle | ⟨r', hr', hle⟩
      · exact hle.trans (hsince f List.mem_cons_self)
      · rcases List.mem_cons.mp hr' with rfl | hr'
        · exact hle
        · exact hle.trans ((List.pairwise_cons.mp hsorted).1 r' hr')

/-- **When the first poll leaves no gap.** -/
theorem gapless_first (h : Captured batch) :
    Gapless ⟨batch, respond batch (buildPollURL none)⟩ ↔ Fits [] batch := by
  have hmem : ∀ r ∈ batch, (r ∈ respond batch (buildPollURL none) ↔ rank batch r < 50) :=
    fun r hr => by
    rw [mem_respond h]
    simp [hr]
  rw [Fits, if_pos rfl]
  constructor
  · intro hgap r hr r' hr' hin hout hts
    have hdisplayed := (hmem r hr).mpr hin
    exact absurd ((hmem r' hr').mp (hgap r' hr' r hdisplayed r hdisplayed hts.le hts.ge))
      (not_lt.mpr hout)
  · intro hfits r hr lo hlo hi _ hle _
    rw [hmem r hr]
    by_contra hout
    have hlo' := ((mem_respond h).mp hlo)
    have hge := timestamp_le_of_rank_lt (hlo'.2.2.trans_le (not_lt.mp hout))
    exact hfits lo hlo'.1 r hr hlo'.2.2 (not_lt.mp hout) (le_antisymm hle hge)

/-- **When a later poll leaves no gap**, none being there: a new request that is not among the
newest 50 is between the old rows and the new top. -/
theorem gapless_next (hv : Tail v) (hne : v.arrived ≠ []) (h : Captured (v.arrived ++ batch))
    (hgap : Gapless v) :
    Gapless (v.step batch) ↔ Fits v.arrived batch := by
  obtain ⟨t, ht, htop⟩ := hv.top hne
  have ht' : t ∈ v.table := List.mem_of_mem_head? ht
  obtain ⟨t', ht'', htop'⟩ :=
    (tail_next hv hne h).top (by rw [step_next ht]; simpa using fun h => absurd h hne)
  have hnewer : ∀ r ∈ batch, t.timestamp ≤ r.timestamp := fun r hr =>
    (List.pairwise_append.mp h.sorted).2.2 t (hv.displayed t ht') r hr
  have hother : ∀ r ∈ batch, r ∉ v.table := fun r hr hin => by
    have := List.nodup_append.mp (List.map_append ▸ h.nodup)
    exact this.2.2 _ (List.mem_map_of_mem (hv.displayed r hin)) _ (List.mem_map_of_mem hr) rfl
  rw [Fits, if_neg hne]
  rw [step_next ht] at ht'' htop' ⊢
  constructor
  · intro hgap' r hr
    have hr' := List.mem_append_right v.arrived hr
    have hin := hgap' r hr' t (List.mem_append_right _ ht') t' (List.mem_of_mem_head? ht'')
        (hnewer r hr) (htop' r hr')
    exact ((mem_fresh_next hv h).mp ((List.mem_append.mp hin).resolve_right (hother r hr))).1.2.2
  · intro hfits r hr lo hlo _ _ hle _
    refine List.mem_append.mpr ?_
    rcases List.mem_append.mp hr with hr' | hr'
    · -- an old request between displayed rows was between displayed rows before
      refine .inr ?_
      rcases List.mem_append.mp hlo with hlo | hlo
      · have hge := ((mem_fresh_next hv h).mp hlo).1.2.1
        exact hgap r hr' t ht' t ht' (hge.trans hle) (htop r hr')
      · exact hgap r hr' lo hlo t ht' hle (htop r hr')
    · exact .inl ((mem_fresh_next hv h).mpr ⟨⟨hr, hnewer r hr', hfits r hr'⟩, hother r hr'⟩)

end Steps

/-! ### Whole runs -/

section Runs

variable {batches : List (List RootRow)} {batch : List RootRow}

theorem run_snoc : run (batches ++ [batch]) = (run batches).step batch := by
  rw [run, List.foldl_append]
  rfl

theorem run_arrived (batches : List (List RootRow)) : (run batches).arrived = batches.flatten := by
  induction batches using List.reverseRecOn with
  | nil => rfl
  | append_singleton batches batch ih =>
    rw [run_snoc, View.step, ih, List.flatten_append, List.flatten_singleton]

theorem flatten_snoc : (batches ++ [batch]).flatten = batches.flatten ++ batch := by
  rw [List.flatten_append, List.flatten_singleton]

/-- Before anything arrives, the table is empty. -/
theorem run_eq_nil (h : Captured batches.flatten) (hnil : batches.flatten = []) :
    run batches = ⟨[], []⟩ := by
  induction batches using List.reverseRecOn with
  | nil => rfl
  | append_singleton batches batch ih =>
    rw [flatten_snoc] at h hnil
    obtain ⟨hbatches, rfl⟩ := List.append_eq_nil_iff.mp hnil
    rw [run_snoc, ih h.of_append hbatches]
    rfl

theorem tail_run (h : Captured batches.flatten) : Tail (run batches) := by
  induction batches using List.reverseRecOn with
  | nil => exact ⟨by simp [run], fun hne => absurd rfl hne⟩
  | append_singleton batches batch ih =>
    rw [flatten_snoc] at h
    rw [run_snoc]
    by_cases hnil : batches.flatten = []
    · rw [hnil, List.nil_append] at h
      rw [run_eq_nil (by rw [hnil]; exact ⟨by simp, by simp, by simp⟩) hnil, step_first h]
      exact tail_first h
    · rw [← run_arrived] at h hnil
      exact tail_next (ih (by rw [← run_arrived]; exact h.of_append)) hnil h

/-- When one more poll leaves no gap. -/
theorem gapless_snoc (h : Captured (batches ++ [batch]).flatten) (hgap : Gapless (run batches)) :
    Gapless (run (batches ++ [batch])) ↔ Fits batches.flatten batch := by
  rw [flatten_snoc] at h
  rw [run_snoc]
  by_cases hnil : batches.flatten = []
  · rw [run_eq_nil h.of_append hnil]
    rw [hnil, List.nil_append] at h
    rw [step_first h, hnil]
    exact gapless_first h
  · have htail := tail_run h.of_append
    rw [← run_arrived] at h hnil ⊢
    exact gapless_next htail hnil h hgap

end Runs

/-- **Live tail leaves no gap exactly when every poll fits.** The first poll with anything to
display is to cut between two timestamps, every later one is to find all new requests among
the newest 50. -/
theorem run_gapless (batches : List (List RootRow)) (h : Captured batches.flatten) :
    (∀ n, Gapless (run (batches.take n))) ↔
      ∀ n batch, batches[n]? = some batch → Fits (batches.take n).flatten batch := by
  have hcaptured : ∀ n, Captured (batches.take n).flatten := by
    intro n
    rw [← List.take_append_drop n batches, List.flatten_append] at h
    exact h.of_append
  have hsucc : ∀ n batch, batches[n]? = some batch →
      batches.take (n + 1) = batches.take n ++ [batch] := fun n batch hb => by
    rw [List.take_add_one, hb]
    rfl
  constructor
  · intro hgap n batch hb
    refine (gapless_snoc ?_ (hgap n)).mp ?_
    · exact hsucc n batch hb ▸ hcaptured (n + 1)
    · exact hsucc n batch hb ▸ hgap (n + 1)
  · intro hfits n
    induction n with
    | zero =>
      intro r hr
      cases hr
    | succ n ih =>
      cases hb : batches[n]? with
      | none => rwa [List.take_add_one, hb, Option.toList_none, List.append_nil]
      | some batch =>
        rw [hsucc n batch hb]
        exact (gapless_snoc (hsucc n batch hb ▸ hcaptured (n + 1)) ih).mpr (hfits n batch hb)

/-- The `i`-th request of a burst, at the `i`-th nanosecond. -/
def burst (i : ℕ) : RootRow :=
  ⟨UInt8.ofNat i :: List.replicate 35 0x61, .request, i, [], [], [], [], [], none, none, none⟩

/-- Two requests, displayed one after the other. -/
theorem run_gapless_two : Gapless (run [[burst 0], [burst 1]]) := by
  refine (run_gapless [[burst 0], [burst 1]] ⟨by decide, by decide,
    by decide⟩).mpr (fun n batch hb => ?_) 2
  match n with
  | 0 =>
    obtain rfl := Option.some.inj hb
    rw [Fits, if_pos (by decide)]
    decide
  | 1 =>
    obtain rfl := Option.some.inj hb
    rw [Fits, if_neg (by decide)]
    decide
  | n + 2 => cases hb

/-- One request, and then 51 before the next poll: the first of them is never displayed. -/
theorem run_gap_burst : ¬Gapless (run [[burst 0], (List.range 51).map fun i => burst (i + 1)]) := by
  have hone : Gapless (run [[burst 0]]) := by
    intro r hr lo hlo hi hhi _ _
    exact hr
  intro hgap
  have hfits := (@gapless_snoc [[burst 0]] _ ⟨by decide, by decide, by decide⟩ hone).mp hgap
  rw [Fits, if_neg (by decide)] at hfits
  exact absurd (hfits (burst 1) (by decide)) (by decide)

end HttpCatch.Admin.LiveTail

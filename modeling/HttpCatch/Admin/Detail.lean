import HttpCatch.Sinks.Snapshot
import HttpCatch.Sinks.SQLiteDetail

/-!
# The detail view

`gatherDetail` of `internal/admin/inspect.go`, behind `GET /requests/{id}`: one record and the
records that share its correlation id, from the ring and from SQLite. Each reader looks for
siblings beside a root that it holds itself, so what the other store has is merged in only
where that store holds the root as well.

* `foldl_appendNew` — what merging adds.
* `gatherDetail_mem`, `gatherDetail_sql`, `gatherDetail_both` — what is shown of a root in one
  store, in the other, in both.
* `gatherDetail_shows` — the view shows every correlated record exactly when each of them is in
  a store that holds the root.
-/

namespace HttpCatch.Admin

open HttpCatch.Go HttpCatch.Capture HttpCatch.Inspect HttpCatch.Sinks

/-! ### The handler -/

/-- `ReadDetail` of a reader. -/
abbrev DetailReader := GoString → Except DetailError DetailRecord

/-- The body of the loop over the events of the other reader: an id that was seen is not
appended again. -/
def appendNew (acc : List GoString × List Record) (e : Record) : List GoString × List Record :=
  if e.id ∈ acc.1 then acc else (e.id :: acc.1, acc.2 ++ [e])

/-- `mergeDetailSiblings`. -/
def mergeDetailSiblings (primary secondary : DetailRecord) : DetailRecord :=
  let seen := primary.root.id :: primary.events.map Record.id
  let merged := (secondary.events.foldl appendNew (seen, primary.events)).2
  ⟨primary.root, merged.mergeSort detailLE⟩

/-- Merge in what the other reader has, where it has the root. -/
def withSiblings (id : GoString) (detail : DetailRecord) : Option DetailReader → DetailRecord
  | none => detail
  | some reader =>
    match reader id with
    | .ok other => mergeDetailSiblings detail other
    | .error _ => detail

/-- `gatherDetail`; a reader that is not configured is `none`. -/
def gatherDetail (id : GoString) (memReader sqlReader : Option DetailReader) :
    Except DetailError DetailRecord :=
  let fromSQL : Except DetailError DetailRecord :=
    match sqlReader with
    | none => .error .notFound
    | some sql =>
      match sql id with
      | .error e => .error e
      | .ok detail => .ok (withSiblings id detail memReader)
  match memReader with
  | none => fromSQL
  | some mem =>
    match mem id with
    | .ok detail => .ok (withSiblings id detail sqlReader)
    | .error .notFound => fromSQL
    | .error e => .error e

/-! ### What a detail view is to show -/

/-- What a reader returns for a record: the record itself out of the ring, its row read back out
of SQLite. -/
def IsCopy (J : Unmarshal) (all rs : List Record) (e r : Record) : Prop :=
  r ∈ all ∧ e = r ∨ r ∈ rs ∧ e = reread J r

/-- The order of siblings: by timestamp, then id. -/
def Earlier (a b : Record) : Prop :=
  a.timestamp < b.timestamp ∨ a.timestamp = b.timestamp ∧ a.id < b.id

/-- The detail shows the record with the id and all the others of its correlation id, each of
them once and in order. -/
structure Shows (J : Unmarshal) (all rs : List Record) (id : GoString)
  (d : DetailRecord) : Prop where
  root : ∃ r, r.id = id ∧ IsCopy J all rs d.root r
  sound : ∀ e ∈ d.events, ∃ r, IsCopy J all rs e r ∧ r.id ≠ id ∧
    r.correlationID = d.root.correlationID
  complete : ∀ r ∈ all ++ rs, r.id ≠ id → r.correlationID = d.root.correlationID →
    ∃ e ∈ d.events, IsCopy J all rs e r
  once : (d.events.map Record.id).Nodup
  order : d.events.Pairwise Earlier

/-- Each record with the correlation id of the root is in a store that holds the root. -/
def BesideRoot (all rs : List Record) (r₀ : Record) : Prop :=
  ∀ r ∈ all ++ rs, r.correlationID = r₀.correlationID → r ∈ all ∧ r₀ ∈ all ∨ r ∈ rs ∧ r₀ ∈ rs

/-! ### Sorting and merging -/

section Merging

variable {J : Unmarshal} {all rs : List Record}

theorem IsCopy.id {e r : Record} (h : IsCopy J all rs e r) : e.id = r.id := by
  obtain ⟨-, rfl⟩ | ⟨-, rfl⟩ := h
  · rfl
  · exact reread_id J r

theorem IsCopy.correlationID {e r : Record} (h : IsCopy J all rs e r) :
    e.correlationID = r.correlationID := by
  obtain ⟨-, rfl⟩ | ⟨-, rfl⟩ := h
  · rfl
  · exact reread_correlationID J r

/-- Sorted siblings with distinct ids are in order. -/
theorem pairwise_earlier {l : List Record} (h : (l.map Record.id).Nodup) :
    (l.mergeSort detailLE).Pairwise Earlier := by
  have hle : (l.mergeSort detailLE).Pairwise fun a b => detailLE a b = true := by
    refine List.pairwise_mergeSort (fun a b c hab hbc => ?_) (fun a b => ?_) l
    · simp only [detailLE, decide_eq_true_eq, not_lt] at hab hbc ⊢
      rcases hab with hab | ⟨hab, hab'⟩ <;> rcases hbc with hbc | ⟨hbc, hbc'⟩
      · exact .inl (hab.trans hbc)
      · exact .inl (hbc ▸ hab)
      · exact .inl (hab ▸ hbc)
      · exact .inr ⟨hab.trans hbc, hab'.trans hbc'⟩
    · simp only [detailLE, Bool.or_eq_true, decide_eq_true_eq, not_lt]
      rcases lt_trichotomy a.timestamp b.timestamp with h | h | h
      · exact .inl (.inl h)
      · rcases le_total a.id b.id with hid | hid
        · exact .inl (.inr ⟨h, hid⟩)
        · exact .inr (.inr ⟨h.symm, hid⟩)
      · exact .inr (.inl h)
  have hne : (l.mergeSort detailLE).Pairwise fun a b => a.id ≠ b.id :=
    List.pairwise_map.mp (((List.mergeSort_perm l detailLE).map Record.id).nodup_iff.mpr h)
  refine hle.imp₂ (fun a b hab hid => ?_) hne
  simp only [detailLE, decide_eq_true_eq, not_lt] at hab
  exact hab.imp_right fun h => ⟨h.1, lt_of_le_of_ne h.2 hid⟩

/-- Merging appends the events whose ids were not seen. -/
theorem foldl_appendNew {events : List Record} (h : (events.map Record.id).Nodup)
    (seen : List GoString) (merged : List Record) :
    (events.foldl appendNew (seen, merged)).2 = merged ++ events.filter fun e => e.id ∉ seen := by
  induction events generalizing seen merged with
  | nil => simp
  | cons e events ih =>
    rw [List.map_cons, List.nodup_cons] at h
    rw [List.foldl_cons, appendNew]
    by_cases hseen : e.id ∈ seen
    · rw [if_pos hseen, ih h.2, List.filter_cons_of_neg (by simpa using hseen)]
    · -- the ids that follow are others, so that having seen this one makes no difference
      have hrest : (events.filter fun e' => e'.id ∉ e.id :: seen) =
          events.filter fun e' => e'.id ∉ seen := by
        refine List.filter_congr fun e' he' => ?_
        have : e'.id ≠ e.id := fun heq => h.1 (heq ▸ List.mem_map_of_mem he')
        simp [this]
      rw [if_neg hseen, ih h.2, List.filter_cons_of_pos (by simpa using hseen), hrest,
        List.append_assoc]
      rfl

/-- The siblings of a root, in one store. -/
def siblings (store : List Record) (r₀ : Record) : List Record :=
  store.filter fun r => r.id ≠ r₀.id ∧ r.correlationID = r₀.correlationID

theorem mem_siblings {store : List Record} {r₀ r : Record} :
    r ∈ siblings store r₀ ↔ r ∈ store ∧ r.id ≠ r₀.id ∧ r.correlationID = r₀.correlationID := by
  simp [siblings]

theorem nodup_siblings {store : List Record} (h : (store.map Record.id).Nodup) (r₀ : Record) :
    ((siblings store r₀).map Record.id).Nodup :=
  (List.filter_sublist.map Record.id).nodup h

theorem map_reread_id (l : List Record) : (l.map (reread J)).map Record.id = l.map Record.id := by
  rw [List.map_map]
  exact List.map_congr_left fun r _ => reread_id J r

/-- A view is what it is to be when its events, before sorting, are. -/
theorem shows_mergeSort {root r₀ : Record} {l : List Record} (hroot : IsCopy J all rs root r₀)
    (hsound : ∀ e ∈ l, ∃ r, IsCopy J all rs e r ∧ r.id ≠ r₀.id ∧ r.correlationID = r₀.correlationID)
    (honce : (l.map Record.id).Nodup) :
    Shows J all rs r₀.id ⟨root, l.mergeSort detailLE⟩ ↔
      ∀ r ∈ all ++ rs, r.id ≠ r₀.id → r.correlationID = r₀.correlationID →
        ∃ e ∈ l, IsCopy J all rs e r := by
  constructor
  · intro h r hr hid hcorr
    obtain ⟨e, he, hcopy⟩ := h.complete r hr hid (hcorr.trans hroot.correlationID.symm)
    exact ⟨e, List.mem_mergeSort.mp he, hcopy⟩
  · intro h
    refine ⟨⟨r₀, rfl, hroot⟩, fun e he => ?_, fun r hr hid hcorr => ?_, ?_, pairwise_earlier honce⟩
    · rw [hroot.correlationID]
      exact hsound e (List.mem_mergeSort.mp he)
    · obtain ⟨e, he, hcopy⟩ := h r hr hid (hcorr.trans hroot.correlationID)
      exact ⟨e, List.mem_mergeSort.mpr he, hcopy⟩
    · exact ((List.mergeSort_perm l detailLE).map Record.id).nodup_iff.mpr honce

end Merging

/-! ### The three cases -/

section Cases

variable {J : Unmarshal} {all rs : List Record} {r₀ : Record}

theorem detailOf_mem (hid : (all.map Record.id).Nodup) (hr : r₀ ∈ all) :
    detailOf all r₀.id = .ok ⟨r₀, (siblings all r₀).mergeSort detailLE⟩ := by
  rw [detailOf]
  cases hfind : all.find? fun r => r.id = r₀.id with
  | none => simpa using List.find?_eq_none.mp hfind r₀ hr
  | some root =>
    have hsame : root = r₀ := List.inj_on_of_nodup_map hid (List.mem_of_find?_eq_some hfind) hr
      (by simpa using List.find?_some hfind)
    subst hsame
    rfl

theorem detailOf_absent {id : GoString} (h : ∀ r ∈ all, r.id ≠ id) :
    detailOf all id = .error .notFound := by
  rw [detailOf, List.find?_eq_none.mpr fun r hr => by simpa using h r hr]

/-- A store without a record has no other under its id. -/
theorem id_ne_of_not_mem {store other : List Record}
    (hsame : ∀ a ∈ store, ∀ b ∈ other, a.id = b.id → a = b) (hr : r₀ ∈ other) (hno : r₀ ∉ store) :
    ∀ r ∈ store, r.id ≠ r₀.id :=
  fun r hmem hid => hno (hsame r hmem r₀ hr hid ▸ hmem)

theorem mem_map_reread {l : List Record} (hl : l.Perm ((siblings rs r₀).map (reread J)))
    {e : Record} :
    e ∈ l ↔ ∃ r ∈ siblings rs r₀, e = reread J r := by
  rw [hl.mem_iff, List.mem_map]
  simp only [eq_comm]

/-- A root that only the ring holds is shown with its siblings in the ring. -/
theorem gatherDetail_mem (hmem : (all.map Record.id).Nodup) (hr : r₀ ∈ all)
    (hno : ∀ r ∈ rs, r.id ≠ r₀.id) :
    gatherDetail r₀.id (some (detailOf all)) (some (readDetail J (stored rs))) =
      .ok ⟨r₀, (siblings all r₀).mergeSort detailLE⟩ := by
  simp only [gatherDetail, detailOf_mem hmem hr, withSiblings, readDetail_absent hno]

/-- A root that only SQLite holds is shown with its siblings there. -/
theorem gatherDetail_sql (hparse : ∀ r ∈ rs, J.Parses r) (hsql : (rs.map Record.id).Nodup)
    (hr : r₀ ∈ rs) (hno : ∀ r ∈ all, r.id ≠ r₀.id) :
    ∃ l : List Record, gatherDetail r₀.id (some (detailOf all)) (some (readDetail J (stored rs))) =
        .ok ⟨reread J r₀, l.mergeSort detailLE⟩ ∧ l.Perm ((siblings rs r₀).map (reread J)) := by
  obtain ⟨l, hread, hl⟩ := readDetail_stored hparse hsql hr
  refine ⟨l, ?_, hl⟩
  simp only [gatherDetail, detailOf_absent hno, hread, withSiblings]
  rfl

/-- A root that both hold is shown with the siblings in the ring, and those of SQLite that the
ring does not have. -/
theorem gatherDetail_both (hparse : ∀ r ∈ rs, J.Parses r) (hmem : (all.map Record.id).Nodup)
    (hsql : (rs.map Record.id).Nodup) (hr : r₀ ∈ all) (hr' : r₀ ∈ rs) :
    ∃ l : List Record, gatherDetail r₀.id (some (detailOf all)) (some (readDetail J (stored rs))) =
        .ok ⟨r₀, l.mergeSort detailLE⟩ ∧ (l.map Record.id).Nodup ∧
      ∀ e, e ∈ l ↔ e ∈ siblings all r₀ ∨ ∃ r ∈ siblings rs r₀,
        e = reread J r ∧ r.id ∉ (siblings all r₀).map Record.id := by
  obtain ⟨l, hread, hl⟩ := readDetail_stored hparse hsql hr'
  have hnodup : ((l.mergeSort detailLE).map Record.id).Nodup := by
    rw [((List.mergeSort_perm l detailLE).map Record.id).nodup_iff, (hl.map Record.id).nodup_iff,
      map_reread_id]
    exact nodup_siblings hsql r₀
  have hids : ∀ x, x ∈ ((siblings all r₀).mergeSort detailLE).map Record.id ↔
      x ∈ (siblings all r₀).map Record.id :=
    fun x => ((List.mergeSort_perm _ detailLE).map Record.id).mem_iff
  refine ⟨(siblings all r₀).mergeSort detailLE ++ (l.mergeSort detailLE).filter fun e =>
    e.id ∉ r₀.id :: ((siblings all r₀).mergeSort detailLE).map Record.id, ?_, ?_, fun e => ?_⟩
  · rw [← foldl_appendNew hnodup]
    simp only [gatherDetail, detailOf_mem hmem hr, withSiblings, hread, mergeDetailSiblings]
    rfl
  · rw [List.map_append, List.nodup_append']
    refine ⟨?_, (List.filter_sublist.map Record.id).nodup hnodup, fun x hx hx' => ?_⟩
    · exact ((List.mergeSort_perm _ detailLE).map Record.id).nodup_iff.mpr (nodup_siblings hmem r₀)
    · obtain ⟨e, he, rfl⟩ := List.mem_map.mp hx'
      have hnew := (List.mem_filter.mp he).2
      simp only [decide_eq_true_eq, List.mem_cons, not_or] at hnew
      exact hnew.2 hx
  · rw [List.mem_append, List.mem_mergeSort, List.mem_filter, List.mem_mergeSort, mem_map_reread hl]
    refine or_congr_right ⟨?_, ?_⟩
    · rintro ⟨⟨r, hr, rfl⟩, hnew⟩
      simp only [decide_eq_true_eq, List.mem_cons, not_or, hids, reread_id] at hnew
      exact ⟨r, hr, rfl, hnew.2⟩
    · rintro ⟨r, hr, rfl, hnew⟩
      refine ⟨⟨r, hr, rfl⟩, ?_⟩
      simp only [decide_eq_true_eq, List.mem_cons, not_or, hids, reread_id]
      exact ⟨(mem_siblings.mp hr).2.1, hnew⟩

theorem shows_both {l : List Record} (hmem : (all.map Record.id).Nodup)
    (hsame : ∀ a ∈ all, ∀ b ∈ rs, a.id = b.id → a = b) (hin : r₀ ∈ all)
    (honce : (l.map Record.id).Nodup) (hl : ∀ e, e ∈ l ↔ e ∈ siblings all r₀ ∨ ∃ r ∈ siblings rs r₀,
      e = reread J r ∧ r.id ∉ (siblings all r₀).map Record.id) :
    Shows J all rs r₀.id ⟨r₀, l.mergeSort detailLE⟩ := by
  refine (shows_mergeSort (.inl ⟨hin, rfl⟩) (fun e he => ?_) honce).mpr fun r hr hid hcorr => ?_
  · rcases (hl e).mp he with he | ⟨r, hr, rfl, -⟩
    · exact ⟨e, .inl ⟨(mem_siblings.mp he).1, rfl⟩, (mem_siblings.mp he).2⟩
    · exact ⟨r, .inr ⟨(mem_siblings.mp hr).1, rfl⟩, (mem_siblings.mp hr).2⟩
  · by_cases hseen : r.id ∈ (siblings all r₀).map Record.id
    · -- the ring has the record
      obtain ⟨r', hr', hid'⟩ := List.mem_map.mp hseen
      have hall := (mem_siblings.mp hr').1
      have heq : r' = r := by
        rcases List.mem_append.mp hr with hr | hr
        · exact List.inj_on_of_nodup_map hmem hall hr hid'
        · exact hsame r' hall r hr hid'
      exact ⟨r', (hl r').mpr (.inl hr'), .inl ⟨heq ▸ hall, heq⟩⟩
    · rcases List.mem_append.mp hr with hr | hr
      · exact absurd (List.mem_map_of_mem (mem_siblings.mpr ⟨hr, hid, hcorr⟩)) hseen
      · exact ⟨reread J r, (hl _).mpr (.inr ⟨r, mem_siblings.mpr ⟨hr, hid, hcorr⟩, rfl, hseen⟩),
          .inr ⟨hr, rfl⟩⟩

theorem shows_mem (hmem : (all.map Record.id).Nodup)
    (hsame : ∀ a ∈ all, ∀ b ∈ rs, a.id = b.id → a = b) (hin : r₀ ∈ all)
    (hout : r₀ ∉ rs) :
    Shows J all rs r₀.id ⟨r₀, (siblings all r₀).mergeSort detailLE⟩ ↔ BesideRoot all rs r₀ := by
  have hno : ∀ r ∈ rs, r.id ≠ r₀.id :=
    id_ne_of_not_mem (fun a ha b hb h => (hsame b hb a ha h.symm).symm) hin hout
  rw [shows_mergeSort (.inl ⟨hin, rfl⟩)
    (fun e he => ⟨e, .inl ⟨(mem_siblings.mp he).1, rfl⟩, (mem_siblings.mp he).2⟩)
    (nodup_siblings hmem r₀)]
  constructor
  · intro h r hr hcorr
    refine .inl ⟨?_, hin⟩
    rcases List.mem_append.mp hr with hr' | hr'
    · exact hr'
    · obtain ⟨e, he, hcopy⟩ := h r hr (hno r hr') hcorr
      have hall := (mem_siblings.mp he).1
      exact hsame e hall r hr' hcopy.id ▸ hall
  · intro h r hr hid hcorr
    rcases h r hr hcorr with ⟨hr', -⟩ | ⟨-, habs⟩
    · exact ⟨r, mem_siblings.mpr ⟨hr', hid, hcorr⟩, .inl ⟨hr', rfl⟩⟩
    · exact absurd habs hout

theorem shows_sql {l : List Record} (hsql : (rs.map Record.id).Nodup)
    (hsame : ∀ a ∈ all, ∀ b ∈ rs, a.id = b.id → a = b) (hin : r₀ ∈ rs) (hout : r₀ ∉ all)
    (hl : l.Perm ((siblings rs r₀).map (reread J))) :
    Shows J all rs r₀.id ⟨reread J r₀, l.mergeSort detailLE⟩ ↔ BesideRoot all rs r₀ := by
  have honce : (l.map Record.id).Nodup := by
    rw [(hl.map Record.id).nodup_iff, map_reread_id]
    exact nodup_siblings hsql r₀
  have hsound : ∀ e ∈ l, ∃ r, IsCopy J all rs e r ∧ r.id ≠ r₀.id ∧
      r.correlationID = r₀.correlationID := by
    intro e he
    obtain ⟨r, hr, rfl⟩ := (mem_map_reread hl).mp he
    exact ⟨r, .inr ⟨(mem_siblings.mp hr).1, rfl⟩, (mem_siblings.mp hr).2⟩
  rw [shows_mergeSort (.inr ⟨hin, rfl⟩) hsound honce]
  constructor
  · intro h r hr hcorr
    refine .inr ⟨?_, hin⟩
    rcases List.mem_append.mp hr with hr' | hr'
    · obtain ⟨e, he, hcopy⟩ := h r hr (id_ne_of_not_mem hsame hin hout r hr') hcorr
      obtain ⟨r', hr'', rfl⟩ := (mem_map_reread hl).mp he
      have hall := (mem_siblings.mp hr'').1
      have heq : r = r' := hsame r hr' r' hall (by rw [← hcopy.id, reread_id])
      exact heq ▸ hall
    · exact hr'
  · intro h r hr hid hcorr
    rcases h r hr hcorr with ⟨-, habs⟩ | ⟨hr', -⟩
    · exact absurd habs hout
    · exact ⟨reread J r, (mem_map_reread hl).mpr ⟨r, mem_siblings.mpr ⟨hr', hid, hcorr⟩, rfl⟩,
        .inr ⟨hr', rfl⟩⟩

end Cases

/-- **The detail view shows every correlated record exactly when each of them is in a store that
holds the root.** The root itself is always found, in whichever store it is; the readers look
up siblings by their own copy of the root, and a store without one is not asked. -/
theorem gatherDetail_shows (J : Unmarshal) (s : MemorySink) (rs : List Record) (tables : Tables)
    (hw : (stored []).writeAll rs = .ok tables) (hparse : ∀ r ∈ rs, J.Parses r)
    (hmem : ((s.recent s.len).map Record.id).Nodup) (hsql : (rs.map Record.id).Nodup)
    (hsame : ∀ a ∈ s.recent s.len, ∀ b ∈ rs, a.id = b.id → a = b) (id : GoString) :
    (gatherDetail id (some s.readDetail) (some (readDetail J tables)) = .error .notFound ↔
      ∀ r ∈ s.recent s.len ++ rs, r.id ≠ id) ∧
    ∀ r₀ ∈ s.recent s.len ++ rs, r₀.id = id →
      ∃ d, gatherDetail id (some s.readDetail) (some (readDetail J tables)) = .ok d ∧
        IsCopy J (s.recent s.len) rs d.root r₀ ∧
        (Shows J (s.recent s.len) rs id d ↔ BesideRoot (s.recent s.len) rs r₀) := by
  obtain ⟨-, rfl⟩ := writeAll_ok.mp hw
  have hreader : s.readDetail = detailOf (s.recent s.len) := rfl
  rw [hreader]
  generalize s.recent s.len = all at *
  have hfound : ∀ r₀ ∈ all ++ rs, r₀.id = id →
      ∃ d, gatherDetail id (some (detailOf all)) (some (readDetail J (stored rs))) = .ok d ∧
      IsCopy J all rs d.root r₀ ∧
        (Shows J all rs id d ↔ BesideRoot all rs r₀) := by
    rintro r₀ hr₀ rfl
    by_cases hin : r₀ ∈ all <;> by_cases hin' : r₀ ∈ rs
    · obtain ⟨l, hd, honce, hl⟩ := gatherDetail_both hparse hmem hsql hin hin'
      refine ⟨_, hd, .inl ⟨hin, rfl⟩, iff_of_true (shows_both hmem hsame hin honce hl)
        fun r hr _ => ?_⟩
      exact (List.mem_append.mp hr).imp (⟨·, hin⟩) (⟨·, hin'⟩)
    · have hno := id_ne_of_not_mem (fun a ha b hb h => (hsame b hb a ha h.symm).symm) hin hin'
      exact ⟨_, gatherDetail_mem hmem hin hno, .inl ⟨hin, rfl⟩, shows_mem hmem hsame hin hin'⟩
    · obtain ⟨l, hd, hl⟩ := gatherDetail_sql hparse hsql hin' (id_ne_of_not_mem hsame hin' hin)
      exact ⟨_, hd, .inr ⟨hin', rfl⟩, shows_sql hsql hsame hin' hin hl⟩
    · exact absurd hr₀ (by simp [hin, hin'])
  refine ⟨⟨fun hnot r hr hid => ?_, fun hno => ?_⟩, hfound⟩
  · obtain ⟨d, hd, -⟩ := hfound r hr hid
    rw [hnot] at hd
    cases hd
  · simp only [gatherDetail, detailOf_absent fun r hr => hno r (List.mem_append_left _ hr),
      readDetail_absent fun r hr => hno r (List.mem_append_right _ hr)]

/-- A request in both stores, with a response that only the ring has. -/
theorem gatherDetail_shows_response :
    ∃ d, gatherDetail (str "r")
        (some (((MemorySink.new 2).write (.request (.blank (str "r") 0 (str "c")))).write
          (.response (.blank (str "e") 1 (str "c")))).readDetail)
        (some (readDetail readNull (stored [.request (.blank (str "r") 0 (str "c"))]))) = .ok d ∧
      Shows readNull [.response (.blank (str "e") 1 (str "c")),
        .request (.blank (str "r") 0 (str "c"))]
        [.request (.blank (str "r") 0 (str "c"))] (str "r") d := by
  obtain ⟨d, hd, -, hshows⟩ := (gatherDetail_shows readNull
    (((MemorySink.new 2).write (.request (.blank (str "r") 0 (str "c")))).write
      (.response (.blank (str "e") 1 (str "c"))))
    [.request (.blank (str "r") 0 (str "c"))] _ (writeAll_ok.mpr ⟨by decide, rfl⟩)
    (by intro r hr; obtain rfl := List.mem_singleton.mp hr; exact ⟨rfl, rfl,
      rfl⟩) (by decide) (by decide) (by decide)
    (str "r")).2 (.request (.blank (str "r") 0 (str "c"))) (by decide) rfl
  exact ⟨d, hd, hshows.mpr (by unfold BesideRoot; decide)⟩

/-- A request that the ring has evicted and a response that SQLite failed to store: the view of
the request does not show the response. -/
theorem gatherDetail_misses_response :
    let s := (MemorySink.new 1).write (.response (.blank (str "e") 1 (str "c")))
    ∃ d, gatherDetail (str "r") (some s.readDetail)
        (some (readDetail readNull (stored [.request (.blank (str "r") 0 (str "c"))]))) = .ok d ∧
          d.events = [] ∧
      ¬Shows readNull (s.recent s.len) [.request (.blank (str "r") 0 (str "c"))] (str "r") d := by
  obtain ⟨l, hd, hl⟩ := @gatherDetail_sql readNull [.response (.blank (str "e") 1 (str "c"))]
    [.request (.blank (str "r") 0 (str "c"))] (.request (.blank (str "r") 0 (str "c")))
    (by intro r hr; obtain rfl := List.mem_singleton.mp hr; exact ⟨rfl, rfl,
      rfl⟩) (by decide) (by decide) (by decide)
  obtain rfl : l = [] := hl.eq_nil
  rw [List.mergeSort_nil] at hd
  refine ⟨_, hd, rfl, fun h => ?_⟩
  obtain ⟨e, he, -⟩ := h.complete (.response (.blank (str "e") 1 (str "c")))
      (by decide) (by decide) rfl
  cases he

end HttpCatch.Admin

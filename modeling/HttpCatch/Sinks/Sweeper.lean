import HttpCatch.Library.Retention
import HttpCatch.Library.SqlQuery
import HttpCatch.Sinks.SQLite

/-!
# The retention sweep

`internal/sinks/sqlite_sweeper.go`: `Sweep` deletes old rows from both tables in one transaction,
by age or by number. The clock and what fails are inputs; a transaction that is not committed
leaves the tables as they were. `ORDER BY timestamp DESC` puts rows of one time in any order, so
the order is a parameter of which only `Lawful` is known.

The oldest time to keep is computed in `int64` arithmetic. `Exact` says when that does no harm.

* `sweeps_iff` — a sweep does what its policy says just when the cutoff is exact for the rows.
-/

namespace HttpCatch.Sinks

open HttpCatch.Go HttpCatch.Sql HttpCatch.Capture HttpCatch.Retention

/-- `SweeperPolicy`; an age is a number of nanoseconds. -/
structure SweeperPolicy where
  maxAge : ℤ
  maxCount : ℤ

/-- The time of a row. -/
def stamp (row : Row) : ℤ := (cell row "timestamp").int?.getD 0

/-- `DELETE FROM … WHERE c`: the rows that stay. -/
def deleteWhere (c : Row → Truth) (rows : List Row) : List Row :=
  rows.filter fun row => c row ≠ some true

/-- `LIMIT n`; a negative number is no limit. -/
def limitRows (n : ℤ) (rows : List Row) : List Row := if n < 0 then rows else rows.take n.toNat

/-- `DELETE FROM … WHERE timestamp < ?`. -/
def deleteOlder (cutoff : ℤ) : List Row → List Row :=
  deleteWhere fun row => (cell row "timestamp").lt3 (.int cutoff)

/-- `DELETE FROM … WHERE id NOT IN (SELECT id FROM … ORDER BY timestamp DESC LIMIT ?)`, the rows
standing in the given order. -/
def deleteBeyond (sorted : List Row) (maxCount : ℤ) : List Row → List Row :=
  deleteWhere fun row =>
    not3 (in3 (cell row "id") ((limitRows maxCount sorted).map fun row => cell row "id"))

/-- How the database orders the rows of a table. -/
abbrev OrderBy := String → List Row → List Row

/-- The steps of a sweep that may fail, with the error. -/
structure SweepFaults where
  beginTx : Option GoString
  deleteRequests : Option GoString
  deleteEvents : Option GoString
  commit : Option GoString
  deriving DecidableEq

/-- Nothing fails. -/
def SweepFaults.none : SweepFaults := ⟨.none, .none, .none, .none⟩

/-- The `DELETE` of a sweep on one table. -/
def sweepTable (order : OrderBy) (now : ℤ) (pol : SweeperPolicy) (table : String)
    (rows : List Row) : List Row :=
  if 0 < pol.maxAge then deleteOlder ((unixNano now - pol.maxAge).bmod (2 ^ 64)) rows
  else deleteBeyond (order table rows) pol.maxCount rows

/-- `Sweep`: the tables it leaves, the number of rows it deleted and its error. -/
def sweep (order : OrderBy) (faults : SweepFaults) (now : ℤ) (pol : SweeperPolicy) (t : Tables) :
    Tables × ℕ × Option GoString :=
  if pol.maxAge = 0 ∧ pol.maxCount = 0 then (t, 0, none)
  else
    match faults.beginTx with
    | some err => (t, 0, some err)
    | none =>
      let requests := sweepTable order now pol "captured_requests" t.capturedRequests
      match faults.deleteRequests with
      | some err => (t, 0, some err)
      | none =>
        let events := sweepTable order now pol "events" t.events
        match faults.deleteEvents with
        | some err => (t, 0, some err)
        | none =>
          match faults.commit with
          | some err => (t, 0, some err)
          | none =>
            (⟨requests, events⟩, (t.capturedRequests.length - requests.length) +
              (t.events.length - events.length), none)

/-! ### What a sweep is for -/

/-- Rows under the schema of the tables: times are 64-bit integers and ids tell rows apart. -/
structure InSchema (rows : List Row) : Prop where
  timestamp : ∀ row ∈ rows, ∃ n, cell row "timestamp" = .int n ∧ Representable n
  id : ∀ row ∈ rows, cell row "id" ≠ .null
  unique : (rows.map fun row => cell row "id").Nodup

/-- Both tables keep to the schema. -/
structure Tables.InSchema (t : Tables) : Prop where
  requests : Sinks.InSchema t.capturedRequests
  events : Sinks.InSchema t.events

/-- An order that a database may choose for `ORDER BY timestamp DESC`. -/
def Lawful (order : OrderBy) : Prop :=
  ∀ table rows, InSchema rows → Descending stamp rows (order table rows)

/-- The rows of a table that are not older than `oldest`. -/
def youngerThan (oldest : ℤ) (rows : List Row) : List Row :=
  rows.filter fun row => oldest ≤ stamp row

/-- **What the policy says**, of sweeping the tables at one time. -/
structure Sweeps (pol : SweeperPolicy) (now : ℤ) (t : Tables) : Prop where
  /-- By age, the rows that are not too old stay. -/
  age : 0 < pol.maxAge → ∀ order, Lawful order →
    (sweep order .none now pol t).1 = ⟨youngerThan (now - pol.maxAge) t.capturedRequests,
      youngerThan (now - pol.maxAge) t.events⟩
  /-- By number, the newest rows of each table stay. -/
  count : 0 < pol.maxCount → ∀ order, Lawful order →
    let t' := (sweep order .none now pol t).1
    NewestKept stamp pol.maxCount.toNat t.capturedRequests t'.capturedRequests ∧
      NewestKept stamp pol.maxCount.toNat t.events t'.events
  /-- It returns how many rows were deleted. -/
  total : ∀ order, Lawful order →
    let t' := (sweep order .none now pol t).1
    (sweep order .none now pol t).2.2 = none ∧ (sweep order .none now pol t).2.1 +
      t'.capturedRequests.length + t'.events.length = t.capturedRequests.length + t.events.length
  /-- A second sweep at the same time deletes nothing. -/
  again : ∀ order order', Lawful order → Lawful order' →
    let t' := (sweep order .none now pol t).1
    sweep order' .none now pol t' = (t', 0, none)
  /-- A sweep that fails leaves the tables. -/
  atomic : ∀ order faults, faults ≠ .none →
    ∃ err, sweep order faults now pol t = (t, 0, some err)

/-- The cutoff does no harm to a row: as an `int64` it is the time it should be, or it is out of
range and the row is on the same side of what it wraps to. -/
def Exact (oldest : ℤ) (row : Row) : Prop :=
  Representable oldest ∨ oldest < -2 ^ 63 ∧ oldest.bmod (2 ^ 64) ≤ stamp row ∨
    2 ^ 63 ≤ oldest ∧ stamp row < oldest.bmod (2 ^ 64)

instance (oldest : ℤ) (row : Row) : Decidable (Exact oldest row) :=
  inferInstanceAs (Decidable (_ ∨ _ ∨ _))

/-! ### Rows under the schema -/

section

variable {rows : List Row}

theorem InSchema.stamp (h : InSchema rows) {row : Row} (hrow : row ∈ rows) :
    cell row "timestamp" = .int (stamp row) ∧ Representable (Sinks.stamp row) := by
  obtain ⟨n, hn, hrep⟩ := h.timestamp row hrow
  have hstamp : Sinks.stamp row = n := by rw [Sinks.stamp, hn]; rfl
  rw [hstamp]
  exact ⟨hn, hrep⟩

theorem InSchema.of_sublist {kept : List Row} (h : InSchema rows) (hsub : kept.Sublist rows) :
    InSchema kept where
  timestamp := fun row hrow => h.timestamp row (hsub.subset hrow)
  id := fun row hrow => h.id row (hsub.subset hrow)
  unique := h.unique.sublist (hsub.map _)

/-- The rows of one table for some records, no two of which share an id in that table. -/
theorem inSchema_rows {row? : Record → Option Row} (sel : Bool) {rs : List Record}
    (hs : Storable rs) (hid : ∀ r row, row? r = some row → row.lookup "id" = some (.text r.id))
    (htime : ∀ r row, row? r = some row →
      row.lookup "timestamp" = some (.int (unixNano r.timestamp)))
    (hsel : ∀ r : Record, (row? r).isSome ↔ r.isRequest = sel) : InSchema (rs.filterMap row?) where
  timestamp := by
    intro row hrow
    obtain ⟨r, -, hr⟩ := List.mem_filterMap.mp hrow
    refine ⟨unixNano r.timestamp, ?_, unixNano_representable _⟩
    rw [cell, htime r row hr]
    rfl
  id := by
    intro row hrow
    obtain ⟨r, -, hr⟩ := List.mem_filterMap.mp hrow
    rw [cell, hid r row hr]
    exact Value.noConfusion
  unique := by
    rw [List.Nodup, List.pairwise_map, List.pairwise_filterMap]
    refine hs.id.imp fun {a b} hne rowa ha rowb hb heq => ?_
    have hsel' : ∀ r row, row? r = some row → r.isRequest = sel :=
      fun r row hr => (hsel r).mp (Option.isSome_of_eq_some hr)
    apply hne ((hsel' a rowa ha).trans (hsel' b rowb hb).symm)
    rw [cell, cell, hid a rowa ha, hid b rowb hb] at heq
    exact Value.text.inj heq

/-- The tables that the sink writes keep to the schema. -/
theorem inSchema_stored {rs : List Record} (h : Storable rs) : (stored rs).InSchema where
  requests := by
    refine inSchema_rows true h (fun _ _ => requestRow?_id) ?_ requestRow?_isSome
    intro r row hr
    cases r <;> cases hr
    rfl
  events := by
    refine inSchema_rows false h (fun _ _ => eventRow?_id) ?_ eventRow?_isSome
    intro r row hr
    cases r <;> cases hr <;> rfl

/-- Under the schema the first statement deletes what is older. -/
theorem deleteOlder_eq (h : InSchema rows) (cutoff : ℤ) :
    deleteOlder cutoff rows = youngerThan cutoff rows := by
  apply List.filter_congr
  intro row hrow
  rw [decide_eq_decide]
  dsimp only
  rw [(h.stamp hrow).1, lt3_int]
  simp

/-- Under the schema the second statement keeps the first rows of the order. -/
theorem deleteBeyond_eq (h : InSchema rows) {sorted : List Row} (hs : sorted.Perm rows) {n : ℤ}
    (hn : 0 ≤ n) :
    deleteBeyond sorted n rows = keep (fun row => cell row "id") n.toNat sorted rows := by
  apply List.filter_congr
  intro row hrow
  have hids : ∀ v ∈ (sorted.take n.toNat).map fun row => cell row "id", v ≠ .null := by
    intro v hv
    obtain ⟨row', hrow', rfl⟩ := List.mem_map.mp hv
    exact h.id row' (hs.mem_iff.mp (List.mem_of_mem_take hrow'))
  rw [decide_eq_decide]
  dsimp only
  rw [limitRows, if_neg (not_lt.mpr hn), in3_of_ne_null (h.id row hrow) hids]
  simp [not3]

end

/-! ### One table -/

section

variable {order order' : OrderBy} {now : ℤ} {pol : SweeperPolicy} {table : String} {rows : List Row}

/-- The cutoff is the time it should be, as an `int64`. -/
theorem cutoff_eq (now maxAge : ℤ) :
    (unixNano now - maxAge).bmod (2 ^ 64) = (now - maxAge).bmod (2 ^ 64) := by
  rw [unixNano]
  exact Int.bmod_sub_bmod

theorem sweepTable_age (h : InSchema rows) (hage : 0 < pol.maxAge) :
    sweepTable order now pol table rows =
      youngerThan ((now - pol.maxAge).bmod (2 ^ 64)) rows := by
  rw [sweepTable, if_pos hage, cutoff_eq, deleteOlder_eq h]

theorem sweepTable_count (h : InSchema rows) (horder : Lawful order) (hage : pol.maxAge ≤ 0)
    (hcount : 0 ≤ pol.maxCount) :
    sweepTable order now pol table rows =
      keep (fun row => cell row "id") pol.maxCount.toNat (order table rows) rows := by
  rw [sweepTable, if_neg (not_lt.mpr hage), deleteBeyond_eq h (horder table rows h).perm hcount]

theorem sweepTable_sublist : (sweepTable order now pol table rows).Sublist rows := by
  unfold sweepTable
  split_ifs
  · exact List.filter_sublist
  · exact List.filter_sublist

/-- A second time there is nothing to delete. -/
theorem sweepTable_again (h : InSchema rows) (horder : Lawful order) (horder' : Lawful order')
    (hcount : 0 ≤ pol.maxCount) :
    sweepTable order' now pol table (sweepTable order now pol table rows) =
      sweepTable order now pol table rows := by
  have hkept : InSchema (sweepTable order now pol table rows) := h.of_sublist sweepTable_sublist
  rcases lt_or_ge 0 pol.maxAge with hage | hage
  · rw [sweepTable_age hkept hage, sweepTable_age h hage, youngerThan, youngerThan,
      List.filter_filter]
    simp
  · rw [sweepTable_count hkept horder' hage hcount, sweepTable_count h horder hage hcount]
    rw [sweepTable_count h horder hage hcount] at hkept
    exact keep_keep (horder table rows h).perm h.unique (horder' table _ hkept).perm

end

/-! ### Cutoffs -/

theorem youngerThan_eq_iff {a b : ℤ} {rows : List Row} :
    youngerThan a rows = youngerThan b rows ↔ ∀ row ∈ rows, (a ≤ stamp row ↔ b ≤ stamp row) := by
  constructor
  · intro h row hrow
    have hmem : row ∈ youngerThan a rows ↔ row ∈ youngerThan b rows := by rw [h]
    simpa [youngerThan, hrow] using hmem
  · intro h
    apply List.filter_congr
    intro row hrow
    rw [decide_eq_decide]
    exact h row hrow

/-- A row is on the right side of the cutoff just when that is exact for it. -/
theorem exact_iff {oldest : ℤ} {row : Row} (h : Representable (stamp row)) :
    (oldest.bmod (2 ^ 64) ≤ stamp row ↔ oldest ≤ stamp row) ↔ Exact oldest row := by
  obtain ⟨hlow, hhigh⟩ := h
  rw [Exact]
  by_cases hrep : Representable oldest
  · have hsame : oldest.bmod (2 ^ 64) = oldest := unixNano_of_representable hrep
    rw [hsame]
    exact iff_of_true Iff.rfl (.inl hrep)
  · rw [or_iff_right hrep]
    rw [Representable] at hrep
    constructor
    · intro hside
      omega
    · intro hside
      omega

/-- Some order is lawful. -/
theorem exists_lawful : ∃ order, Lawful order := by
  refine ⟨fun _ rows => rows.mergeSort fun a b => stamp b ≤ stamp a, fun _ rows _ => ⟨?_, ?_⟩⟩
  · exact List.mergeSort_perm _ _
  · have hsorted : (rows.mergeSort fun a b => stamp b ≤ stamp a).Pairwise
        fun a b => decide (stamp b ≤ stamp a) = true := by
      refine List.pairwise_mergeSort (fun a b c hab hbc => ?_) (fun a b => ?_) rows
      · simp only [decide_eq_true_eq] at hab hbc ⊢
        exact hbc.trans hab
      · simp only [Bool.or_eq_true, decide_eq_true_eq]
        exact le_total _ _
    exact hsorted.imp fun hle => of_decide_eq_true hle

/-! ### The sweep -/

section

variable {pol : SweeperPolicy} {now : ℤ} {t : Tables}

theorem sweep_none (order : OrderBy) (h : ¬ (pol.maxAge = 0 ∧ pol.maxCount = 0)) :
    sweep order .none now pol t =
      (⟨sweepTable order now pol "captured_requests" t.capturedRequests,
        sweepTable order now pol "events" t.events⟩,
        (t.capturedRequests.length -
          (sweepTable order now pol "captured_requests" t.capturedRequests).length) +
          (t.events.length - (sweepTable order now pol "events" t.events).length), none) := by
  rw [sweep, if_neg h]
  rfl

/-- **A transaction that fails at any point leaves the tables.** -/
theorem sweep_fault (order : OrderBy) {faults : SweepFaults} (hf : faults ≠ .none)
    (h : ¬ (pol.maxAge = 0 ∧ pol.maxCount = 0)) :
    ∃ err, sweep order faults now pol t = (t, 0, some err) := by
  obtain ⟨beginTx, requests, events, commit⟩ := faults
  rw [sweep, if_neg h]
  cases beginTx with
  | some err => exact ⟨err, rfl⟩
  | none =>
    cases requests with
    | some err => exact ⟨err, rfl⟩
    | none =>
      cases events with
      | some err => exact ⟨err, rfl⟩
      | none =>
        cases commit with
        | some err => exact ⟨err, rfl⟩
        | none => exact absurd rfl hf

/-- **A sweep does what its policy says just when the cutoff is exact for all rows**, of a policy
with one of its two bounds. -/
theorem sweeps_iff (ht : t.InSchema) (hage : 0 ≤ pol.maxAge) (hcount : 0 ≤ pol.maxCount)
    (hone : 0 < pol.maxAge ↔ ¬ 0 < pol.maxCount) :
    Sweeps pol now t ↔ pol.maxAge = 0 ∨
      ∀ row ∈ t.capturedRequests ++ t.events, Exact (now - pol.maxAge) row := by
  have hactive : ¬ (pol.maxAge = 0 ∧ pol.maxCount = 0) := by omega
  constructor
  · intro h
    rw [or_iff_not_imp_left]
    intro hne row hrow
    obtain ⟨order, horder⟩ := exists_lawful
    have hpos : 0 < pol.maxAge := by omega
    have htables := h.age hpos order horder
    rw [sweep_none order hactive, sweepTable_age ht.requests hpos, sweepTable_age ht.events hpos,
      Tables.mk.injEq, youngerThan_eq_iff, youngerThan_eq_iff] at htables
    rcases List.mem_append.mp hrow with hrow | hrow
    · exact (exact_iff (ht.requests.stamp hrow).2).mp (htables.1 row hrow)
    · exact (exact_iff (ht.events.stamp hrow).2).mp (htables.2 row hrow)
  · intro h
    refine ⟨?_, ?_, ?_, ?_, fun order faults hf => sweep_fault order hf hactive⟩
    · intro hpos order _
      have hexact := h.resolve_left (by omega)
      rw [sweep_none order hactive, sweepTable_age ht.requests hpos, sweepTable_age ht.events hpos,
        Tables.mk.injEq, youngerThan_eq_iff, youngerThan_eq_iff]
      constructor
      · intro row hrow
        exact (exact_iff (ht.requests.stamp hrow).2).mpr (hexact row (List.mem_append_left _ hrow))
      · intro row hrow
        exact (exact_iff (ht.events.stamp hrow).2).mpr (hexact row (List.mem_append_right _ hrow))
    · intro hpos order horder
      have hzero : pol.maxAge ≤ 0 := by omega
      rw [sweep_none order hactive, sweepTable_count ht.requests horder hzero hcount,
        sweepTable_count ht.events horder hzero hcount]
      exact ⟨newestKept_keep (horder _ _ ht.requests) ht.requests.unique _,
        newestKept_keep (horder _ _ ht.events) ht.events.unique _⟩
    · intro order _
      have hrequests : (sweepTable order now pol "captured_requests" t.capturedRequests).length ≤
          t.capturedRequests.length :=
        sweepTable_sublist.length_le
      have hevents : (sweepTable order now pol "events" t.events).length ≤ t.events.length :=
        sweepTable_sublist.length_le
      rw [sweep_none order hactive]
      refine ⟨rfl, ?_⟩
      dsimp only
      omega
    · intro order order' horder horder'
      rw [sweep_none order hactive]
      dsimp only
      rw [sweep_none order' hactive]
      dsimp only
      rw [sweepTable_again ht.requests horder horder' hcount,
        sweepTable_again ht.events horder horder' hcount, Nat.sub_self, Nat.sub_self]

end

end HttpCatch.Sinks

import HttpCatch.Sinks.MemoryReader
import HttpCatch.Sinks.SQLiteRoots

/-!
# The histogram

`AggregateRoots` of the two readers. Memory counts row by row; SQLite groups the rows by
bucket and status class and counts a group at a time. Both come to a fold of `tally` over
keys, a key being the quotient of the time since the start by the width of a bucket and the
status class.

* `foldl_tally_counter` — what a fold over keys leaves in a counter.
* `bucketIndex_eq_iff` — the bucket a row is counted in is the one whose interval it is in.
* `aggregateRoots_partitions` — the histogram of either reader partitions the rows of the
  query, exactly when the buckets start at instants that fit into 64 bits. With more buckets
  than nanoseconds they are one nanosecond wide and go beyond the window, and there the
  starts may wrap.
-/

namespace HttpCatch.Sinks

open HttpCatch.Go HttpCatch.Capture HttpCatch.SearchQL HttpCatch.Inspect HttpCatch.Keyset

/-! ### What a histogram is -/

/-- The status is one of the hundred from `low` on. -/
def statusIn (low : ℤ) (row : RootRow) : Bool := row.status.any fun v => low ≤ v ∧ v < low + 100

/-- The row has no status, or one that is in none of the four classes. -/
def statusOther (row : RootRow) : Bool := row.status.all fun v => v < 200 ∨ 600 ≤ v

/-- The counters of a bucket count the rows. -/
structure Counts (b : HistogramBucket) (rows : List RootRow) : Prop where
  s2xx : b.s2xx = rows.countP (statusIn 200)
  s3xx : b.s3xx = rows.countP (statusIn 300)
  s4xx : b.s4xx = rows.countP (statusIn 400)
  s5xx : b.s5xx = rows.countP (statusIn 500)
  other : b.other = rows.countP statusOther

/-- The row is in the interval of the `i`-th bucket, which the start of the next one ends. -/
def inBucket (buckets : List HistogramBucket) (i : ℕ) (row : RootRow) : Bool :=
  (buckets[i]?.any fun b => b.start ≤ row.timestamp) &&
    buckets[i + 1]?.all fun b => row.timestamp < b.start

/-- The sum of the five counters. -/
def bucketSize (b : HistogramBucket) : ℕ := b.s2xx + b.s3xx + b.s4xx + b.s5xx + b.other

/-- The index that `tally` counts at. -/
def bucketIndex (bucketCount idx : ℤ) : ℕ :=
  (if idx < 0 then 0 else if bucketCount ≤ idx then bucketCount - 1 else idx).toNat

/-- The histogram partitions the rows. -/
structure Partitions (agg : Aggregation) (bucketCount : ℤ) (rows : List RootRow) : Prop where
  length : (agg.buckets.length : ℤ) = bucketCount
  starts : (agg.buckets.map HistogramBucket.start).Pairwise (· ≤ ·)
  /-- No index is outside the buckets. -/
  inside : ∀ idx, bucketIndex bucketCount idx < agg.buckets.length
  counts : ∀ i b, agg.buckets[i]? = some b → Counts b (rows.filter (inBucket agg.buckets i))
  total : agg.total = rows.length
  sum : (agg.buckets.map bucketSize).sum = agg.total

/-! ### Counting by key -/

/-- The classes of `statusClass`. -/
def classes : List ℕ := [0, 2, 3, 4, 5]

theorem classes_nodup : classes.Nodup := by decide

theorem statusClass_mem (status : Option ℤ) : statusClass status ∈ classes := by
  rw [statusClass.eq_def]
  split
  · decide
  · split_ifs <;> decide

/-- The counter of a class. -/
def counter (b : HistogramBucket) : ℕ → ℕ
  | 2 => b.s2xx
  | 3 => b.s3xx
  | 4 => b.s4xx
  | 5 => b.s5xx
  | _ => b.other

section Tally

variable {bucketCount : ℤ} {b : HistogramBucket} {buckets : List HistogramBucket}

theorem start_add (klass n : ℕ) : (b.add klass n).start = b.start := by
  unfold HistogramBucket.add
  split <;> rfl

theorem counter_add {klass c : ℕ} (hk : klass ∈ classes) (hc : c ∈ classes) (n : ℕ) :
    counter (b.add klass n) c = counter b c + if klass = c then n else 0 := by
  fin_cases hk <;> fin_cases hc <;> rfl

theorem tally_getElem? (idx : ℤ) (klass n i : ℕ) :
    (tally buckets bucketCount idx klass n)[i]? =
      if bucketIndex bucketCount idx = i then buckets[i]?.map (·.add klass n) else buckets[i]? := by
  have htally : tally buckets bucketCount idx klass n = buckets.modify (bucketIndex bucketCount idx)
      (·.add klass n) := rfl
  rw [htally, List.getElem?_modify]
  by_cases hi : bucketIndex bucketCount idx = i
  · simp [hi]
  · simp [hi]

/-- A fold of `tally` over keys, each of them so many times. -/
def tallyAll (bucketCount : ℤ) (times : ℤ × ℕ → ℕ) (keys : List (ℤ × ℕ))
    (buckets : List HistogramBucket) :
    List HistogramBucket :=
  keys.foldl (fun buckets k => tally buckets bucketCount k.1 k.2 (times k)) buckets

variable {times : ℤ × ℕ → ℕ} {keys : List (ℤ × ℕ)}

theorem tallyAll_starts : (tallyAll bucketCount times keys buckets).map HistogramBucket.start =
    buckets.map HistogramBucket.start := by
  induction keys generalizing buckets with
  | nil => rfl
  | cons k keys ih =>
    refine (@ih (tally buckets bucketCount k.1 k.2 (times k))).trans (List.ext_getElem? fun i => ?_)
    rw [List.getElem?_map, List.getElem?_map, tally_getElem?]
    split_ifs
    · rw [Option.map_map]
      exact congrArg (Option.map · _) (funext fun b => start_add _ _)
    · rfl

/-- **What a fold over keys leaves in a counter**: what was there, and how many times each key
of the bucket and the class was to be counted. -/
theorem foldl_tally_counter (hk : ∀ k ∈ keys, k.2 ∈ classes) {c : ℕ} (hc : c ∈ classes) (i : ℕ) :
    (tallyAll bucketCount times keys buckets)[i]?.map (counter · c) = buckets[i]?.map fun b =>
      counter b c + ((keys.filter fun k => bucketIndex bucketCount k.1 = i ∧
        k.2 = c).map times).sum := by
  induction keys generalizing buckets with
  | nil => simp [tallyAll]
  | cons k keys ih =>
    refine (@ih (tally buckets bucketCount k.1 k.2 (times k))
      fun k' h => hk k' (List.mem_cons_of_mem k h)).trans ?_
    rw [tally_getElem?]
    by_cases hi : bucketIndex bucketCount k.1 = i
    · rw [if_pos hi, Option.map_map]
      refine congrArg (Option.map · _) (funext fun b => ?_)
      rw [Function.comp_apply, counter_add (hk k List.mem_cons_self) hc]
      by_cases hkc : k.2 = c
      · simp [hi, hkc, add_assoc]
      · simp [hkc]
    · simp [hi]

/-- Counting rows one by one, or each of their keys as often as it occurs, comes to counting the
rows of the bucket and the class. -/
theorem counter_ones (hk : ∀ k ∈ keys, k.2 ∈ classes) {c : ℕ} (hc : c ∈ classes) (i : ℕ) :
    (tallyAll bucketCount (fun _ => 1) keys buckets)[i]?.map (counter · c) =
      buckets[i]?.map fun b =>
      counter b c + keys.countP fun k => bucketIndex bucketCount k.1 = i ∧ k.2 = c := by
  rw [foldl_tally_counter hk hc]
  simp [List.countP_eq_length_filter]

theorem counter_dedup (hk : ∀ k ∈ keys, k.2 ∈ classes) {c : ℕ} (hc : c ∈ classes) (i : ℕ) :
    (tallyAll bucketCount (fun k => keys.countP (· = k)) keys.dedup buckets)[i]?.map (counter · c) =
      buckets[i]?.map fun b =>
      counter b c + keys.countP fun k => bucketIndex bucketCount k.1 = i ∧ k.2 = c := by
  rw [foldl_tally_counter (fun k h => hk k (List.mem_dedup.mp h)) hc,
    ← List.sum_map_count_dedup_filter_eq_countP]
  rfl

end Tally

/-! ### Rows and buckets -/

/-- What a row is counted under: the quotient of the time since the start by the width, and the
status class. -/
def rowKey (sinceNS bucketWidth : ℤ) (row : RootRow) : ℤ × ℕ :=
  ((row.timestamp - sinceNS).tdiv bucketWidth, statusClass row.status)

theorem rowKey_class (sinceNS bucketWidth : ℤ) {rows : List RootRow} :
    ∀ k ∈ rows.map (rowKey sinceNS bucketWidth), k.2 ∈ classes := by
  intro k hk
  obtain ⟨row, -, rfl⟩ := List.mem_map.mp hk
  exact statusClass_mem row.status

/-- The counters of the five classes count the rows, however the class is told. -/
theorem counts_of_counter {b : HistogramBucket} {rows : List RootRow}
    (h : ∀ c ∈ classes, counter b c = rows.countP fun row => statusClass row.status = c) :
    Counts b rows := by
  have hclass : ∀ row : RootRow, (statusClass row.status = 2 ↔ statusIn 200 row = true) ∧
      (statusClass row.status = 3 ↔ statusIn 300 row = true) ∧
      (statusClass row.status = 4 ↔ statusIn 400 row = true) ∧
      (statusClass row.status = 5 ↔ statusIn 500 row = true) ∧
        (statusClass row.status = 0 ↔ statusOther row = true) := by
    intro row
    cases hs : row.status with
    | none => simp [statusClass, statusIn, statusOther, hs]
    | some v =>
      simp only [statusClass, statusIn, statusOther, hs, Option.any_some, Option.all_some,
        decide_eq_true_eq]
      split_ifs <;> simp <;> omega
  refine ⟨?_, ?_, ?_, ?_, ?_⟩
  · exact (h 2 (by decide)).trans (List.countP_congr fun row _ => by simpa using (hclass row).1)
  · exact (h 3 (by decide)).trans (List.countP_congr fun row _ => by simpa using (hclass row).2.1)
  · exact (h 4 (by decide)).trans (List.countP_congr fun row _ => by simpa using (hclass row).2.2.1)
  · exact (h 5 (by decide)).trans (List.countP_congr fun row _ =>
      by simpa using (hclass row).2.2.2.1)
  · exact (h 0 (by decide)).trans (List.countP_congr fun row _ =>
      by simpa using (hclass row).2.2.2.2)

/-- Counting by a value that is one of a list of distinct values counts everything once. -/
theorem sum_countP_fibre {α β : Type} [DecidableEq β] {f : α → β} {values : List β}
    (hn : values.Nodup) {l : List α} (h : ∀ a ∈ l, f a ∈ values) :
    (values.map fun v => l.countP fun a => f a = v).sum = l.length := by
  induction l with
  | nil => simp
  | cons a l ih =>
    have hone : ∀ vs : List β, (vs.map fun v => if f a = v then 1 else 0).sum = vs.count (f a) := by
      intro vs
      induction vs with
      | nil => rfl
      | cons v vs ih =>
        rw [List.map_cons, List.sum_cons, ih, List.count_cons, add_comm]
        by_cases hv : f a = v
        · simp [hv]
        · simp [hv, Ne.symm hv]
    simp only [List.countP_cons, List.sum_map_add, decide_eq_true_eq,
      ih fun b hb => h b (List.mem_cons_of_mem a hb), hone,
      List.count_eq_one_of_mem hn (h a List.mem_cons_self), List.length_cons]

theorem bucketIndex_lt {bucketCount : ℤ} (hn : 0 < bucketCount) (idx : ℤ) :
    (bucketIndex bucketCount idx : ℤ) < bucketCount := by
  rw [bucketIndex]
  split_ifs <;> omega

/-- **The bucket a row is counted in is the one whose interval it is in**, the last going on
without end. -/
theorem bucketIndex_eq_iff {bucketCount sinceNS width ts : ℤ} (hw : 0 < width)
    (hts : sinceNS ≤ ts) {i : ℕ} (hi : (i : ℤ) < bucketCount) :
    bucketIndex bucketCount ((ts - sinceNS).tdiv width) = i ↔
      sinceNS + width * i ≤ ts ∧ ((i : ℤ) + 1 < bucketCount → ts < sinceNS + width * (i + 1)) := by
  have hdiv : (ts - sinceNS).tdiv width = (ts - sinceNS) / width :=
    Int.tdiv_eq_ediv_of_nonneg (by omega)
  have hnonneg : 0 ≤ (ts - sinceNS) / width := Int.ediv_nonneg (by omega) hw.le
  have hle : (i : ℤ) ≤ (ts - sinceNS) / width ↔ width * i ≤ ts - sinceNS := by
    rw [Int.le_ediv_iff_mul_le hw, mul_comm]
  have hlt : (ts - sinceNS) / width < i + 1 ↔ ts - sinceNS < width * (i + 1) := by
    rw [Int.ediv_lt_iff_lt_mul hw, mul_comm]
  rw [hdiv, bucketIndex]
  generalize (ts - sinceNS) / width = idx at *
  generalize width * (i : ℤ) = lo at *
  generalize width * ((i : ℤ) + 1) = hi' at *
  split_ifs <;> omega

section Partition

variable {sinceNS width bucketCount : ℤ} {rows : List RootRow} {buckets : List HistogramBucket}

theorem emptyBuckets_starts :
    (emptyBuckets sinceNS width bucketCount).map HistogramBucket.start =
      (List.range bucketCount.toNat).map fun i : ℕ => (sinceNS + width * i).bmod (2 ^ 64) := by
  rw [emptyBuckets, List.map_map, bind_pure_comp, List.map_eq_map, List.map_map]
  rfl

theorem getElem?_start (hs : buckets.map HistogramBucket.start =
      (emptyBuckets sinceNS width bucketCount).map HistogramBucket.start)
    (hfit : ∀ i : ℕ, (i : ℤ) < bucketCount → Representable (sinceNS + width * i)) (i : ℕ) :
    buckets[i]?.map HistogramBucket.start = if (i : ℤ) < bucketCount then some (sinceNS + width * i)
      else none := by
  rw [← List.getElem?_map, hs, emptyBuckets_starts, List.getElem?_map]
  split_ifs with hi
  · rw [List.getElem?_range (by omega), Option.map_some]
    exact congrArg some (unixNano_of_representable (hfit i hi))
  · rw [List.getElem?_eq_none (by simp; omega)]
    rfl

/-- The rows counted in a bucket are those in its interval. -/
theorem inBucket_iff (hw : 0 < width)
    (hs : buckets.map HistogramBucket.start =
      (emptyBuckets sinceNS width bucketCount).map HistogramBucket.start)
    (hfit : ∀ i : ℕ, (i : ℤ) < bucketCount → Representable (sinceNS + width * i)) {i : ℕ}
    (hi : (i : ℤ) < bucketCount) {row : RootRow} (hrow : sinceNS ≤ row.timestamp) :
    inBucket buckets i row = true ↔ bucketIndex bucketCount (rowKey sinceNS width row).1 = i := by
  have hthis := getElem?_start hs hfit i
  have hnext := getElem?_start hs hfit (i + 1)
  rw [if_pos hi] at hthis
  rw [rowKey, bucketIndex_eq_iff hw hrow hi, inBucket, Bool.and_eq_true]
  refine and_congr ?_ ?_
  · obtain ⟨b, hb, hstart⟩ := Option.map_eq_some_iff.mp hthis
    simp [hb, hstart]
  · push_cast at hnext
    split_ifs at hnext with hlast
    · obtain ⟨b, hb, hstart⟩ := Option.map_eq_some_iff.mp hnext
      simp [hb, hstart, hlast]
    · simp [Option.map_eq_none_iff.mp hnext, hlast]

/-- **Buckets that count the keys of the rows partition the rows.** -/
theorem partitions_of_counter (hw : 0 < width) (hn : 0 < bucketCount)
    (hfit : ∀ i : ℕ, (i : ℤ) < bucketCount → Representable (sinceNS + width * i))
    (hrows : ∀ row ∈ rows, sinceNS ≤ row.timestamp)
    (hs : buckets.map HistogramBucket.start =
      (emptyBuckets sinceNS width bucketCount).map HistogramBucket.start)
    (hcount : ∀ c ∈ classes, ∀ i b, buckets[i]? = some b → counter b c =
      (rows.map (rowKey sinceNS width)).countP fun k => bucketIndex bucketCount k.1 = i ∧ k.2 = c) :
    Partitions ⟨rows.length, buckets⟩ bucketCount rows := by
  have hlen : (buckets.length : ℤ) = bucketCount := by
    have := congrArg List.length hs
    rw [emptyBuckets_starts, List.length_map, List.length_map, List.length_range] at this
    omega
  have hindex : ∀ {i : ℕ} {b : HistogramBucket}, buckets[i]? = some b → (i : ℤ) < bucketCount := by
    intro i b hb
    have := (List.getElem?_eq_some_iff.mp hb).1
    omega
  have hinside : ∀ idx, bucketIndex bucketCount idx < buckets.length := by
    intro idx
    have := bucketIndex_lt hn idx
    omega
  refine ⟨hlen, ?_, hinside, ?_, rfl, ?_⟩
  · rw [hs, emptyBuckets_starts, List.pairwise_map]
    refine (List.pairwise_lt_range).imp_of_mem fun {i j} hi hj hij => ?_
    have hfit' : ∀ k ∈ List.range bucketCount.toNat, (sinceNS + width * k).bmod (2 ^ 64) =
        sinceNS + width * k := fun k hk =>
      unixNano_of_representable (hfit k (by have := List.mem_range.mp hk; omega))
    rw [hfit' i hi, hfit' j hj]
    have : width * i ≤ width * j := by gcongr
    omega
  · intro i b hb
    refine counts_of_counter fun c hc => ?_
    rw [hcount c hc i b hb, List.countP_map, List.countP_filter]
    refine List.countP_congr fun row hrow => ?_
    have hin := inBucket_iff hw hs hfit (hindex hb) (hrows row hrow)
    rw [Function.comp_apply, decide_eq_true_eq, Bool.and_eq_true, decide_eq_true_eq, hin]
    exact and_comm
  · have hsize : buckets.map bucketSize = (List.range buckets.length).map fun i =>
        (rows.map (rowKey sinceNS width)).countP fun k => bucketIndex bucketCount k.1 = i := by
      refine List.ext_getElem? fun i => ?_
      rw [List.getElem?_map, List.getElem?_map]
      cases hb : buckets[i]? with
      | none => rw [List.getElem?_eq_none (by simpa using List.getElem?_eq_none_iff.mp hb)]; rfl
      | some b =>
        rw [List.getElem?_range (List.getElem?_eq_some_iff.mp hb).1, Option.map_some,
          Option.map_some, List.countP_eq_length_filter,
          ← sum_countP_fibre (f := Prod.snd) classes_nodup
            fun k hk => rowKey_class sinceNS width k (List.mem_of_mem_filter hk)]
        refine congrArg some ?_
        have hsum : bucketSize b = (classes.map (counter b)).sum := by
          simp only [bucketSize, classes, List.map_cons, List.map_nil, List.sum_cons,
            List.sum_nil, counter]
          omega
        rw [hsum]
        refine congrArg List.sum (List.map_congr_left fun c hc => ?_)
        rw [hcount c hc i b hb, List.countP_filter]
        simp only [Bool.decide_and, Bool.and_comm]
    rw [hsize, sum_countP_fibre List.nodup_range fun k _ => List.mem_range.mpr (hinside k.1),
      List.length_map]

end Partition

/-! ### The two readers -/

section Readers

variable {U : Unicode} {q : InspectQuery} {since until_ bucketCount : ℤ}

/-- The width of the buckets: with fewer buckets than nanoseconds they fit into the window, else
they are one nanosecond wide. -/
theorem bucketRange_some (hsince : q.since = some since) (huntil : q.until_ = some until_)
    (hlt : since < until_) (hn : 0 < bucketCount) (hs : Representable since)
    (hu : Representable until_) (hd : Representable (until_ - since)) :
    ∃ width, bucketRange q bucketCount = some (since, width) ∧ 0 < width ∧
      (bucketCount ≤ until_ - since → width * bucketCount ≤ until_ - since) ∧
        (until_ - since < bucketCount → width = 1) := by
  have hdiff : (until_ - since).bmod (2 ^ 64) = until_ - since := unixNano_of_representable hd
  have hdiv : (until_ - since).tdiv bucketCount = (until_ - since) / bucketCount :=
    Int.tdiv_eq_ediv_of_nonneg (by omega)
  refine ⟨if (until_ - since) / bucketCount ≤ 0 then 1 else (until_ - since) / bucketCount,
    ?_, ?_, ?_, ?_⟩
  · simp only [bucketRange, hsince, huntil, hn, hlt, unixNano_of_representable hs,
      unixNano_of_representable hu, hdiff, hdiv, and_self, if_true]
  · split_ifs <;> omega
  · intro hle
    have hpos : 1 ≤ (until_ - since) / bucketCount := (Int.le_ediv_iff_mul_le hn).mpr (by omega)
    rw [if_neg (by omega)]
    exact Int.ediv_mul_le _ hn.ne'
  · intro hgt
    rw [if_pos (Int.ediv_eq_zero_of_lt (by omega) hgt).le]

/-- The buckets start at instants that fit into 64 bits. -/
def StartsFit (since until_ bucketCount : ℤ) : Prop :=
  bucketCount ≤ until_ - since ∨ since + bucketCount - 1 < 2 ^ 63

theorem representable_start {width : ℤ} (hs : Representable since) (hu : Representable until_)
    (hw : 0 < width) (hwide : bucketCount ≤ until_ - since → width * bucketCount ≤ until_ - since)
    (hone : until_ - since < bucketCount → width = 1) (hfit : StartsFit since until_ bucketCount)
    (i : ℕ) (hi : (i : ℤ) < bucketCount) : Representable (since + width * i) := by
  obtain ⟨hs₁, hs₂⟩ := hs
  obtain ⟨hu₁, hu₂⟩ := hu
  have hnonneg : 0 ≤ width * i := by positivity
  refine ⟨by omega, ?_⟩
  by_cases hle : bucketCount ≤ until_ - since
  · have hlt : width * i < width * bucketCount := by gcongr
    have := hwide hle
    omega
  · have h₁ := hone (by omega)
    have h₂ := hfit.resolve_left hle
    subst h₁
    omega

/-- Starts that go beyond 64 bits wrap around, and are not in order. -/
theorem not_starts_of_wrap (hs : Representable since) (hbeyond : 2 ^ 63 ≤ since + bucketCount - 1) :
    ¬((emptyBuckets since 1 bucketCount).map HistogramBucket.start).Pairwise (· ≤ ·) := by
  obtain ⟨hs₁, hs₂⟩ := hs
  rw [emptyBuckets_starts, List.pairwise_map]
  intro h
  -- the last start that fits, and the one after it
  obtain ⟨i, hi⟩ : ∃ i : ℕ, since + i = 2 ^ 63 - 1 := ⟨(2 ^ 63 - 1 - since).toNat, by omega⟩
  have hrange : i + 1 < bucketCount.toNat := by omega
  have hle := List.pairwise_iff_getElem.mp h i (i + 1)
      (by simp; omega) (by simpa using hrange) (by omega)
  rw [List.getElem_range, List.getElem_range] at hle
  push_cast at hle
  rw [one_mul, one_mul, ← add_assoc, hi] at hle
  exact absurd hle (by decide)

theorem partitions_iff {width : ℤ} {rows : List RootRow} {buckets : List HistogramBucket}
    (hn : 0 < bucketCount) (hs : Representable since) (hu : Representable until_) (hw : 0 < width)
    (hwide : bucketCount ≤ until_ - since → width * bucketCount ≤ until_ - since)
    (hone : until_ - since < bucketCount → width = 1) (hrows : ∀ row ∈ rows, since ≤ row.timestamp)
    (hstarts : buckets.map HistogramBucket.start =
      (emptyBuckets since width bucketCount).map HistogramBucket.start)
    (hcount : ∀ c ∈ classes, ∀ i, buckets[i]?.map (counter · c) =
      (emptyBuckets since width bucketCount)[i]?.map fun b =>
      counter b c + (rows.map (rowKey since width)).countP fun k => bucketIndex bucketCount
        k.1 = i ∧ k.2 = c) :
    Partitions ⟨rows.length, buckets⟩ bucketCount rows ↔ StartsFit since until_ bucketCount := by
  constructor
  · intro h
    by_contra hfit
    rw [StartsFit, not_or, not_le, not_lt] at hfit
    have hsorted := h.starts
    rw [hstarts, hone hfit.1] at hsorted
    exact not_starts_of_wrap hs hfit.2 hsorted
  · intro hfit
    refine partitions_of_counter hw hn (representable_start hs hu hw hwide hone hfit) hrows hstarts
      fun c hc i b hb => ?_
    have hc' := hcount c hc i
    rw [hb, Option.map_some] at hc'
    obtain ⟨b₀, hb₀, heq⟩ := Option.map_eq_some_iff.mp hc'.symm
    -- the counters start at zero
    have hzero : counter b₀ c = 0 := by
      obtain ⟨j, -, rfl⟩ := List.mem_map.mp (List.mem_of_getElem? hb₀)
      fin_cases hc <;> rfl
    rw [← heq, hzero, zero_add]

theorem memory_rows (s : MemorySink) {limit : ℕ} (hl : s.len < limit) :
    (s.readRoots U q limit none).1 = memRows U (s.recent s.len) q := by
  rw [memory_readRoots_eq, after, List.filter_eq_self.mpr (by simp)]
  refine List.take_of_length_le ?_
  rw [length_memRows]
  have hsize : (s.recent s.len).length ≤ s.len := by
    rw [MemorySink.length_recent]
    exact Nat.min_le_left _ _
  exact ((List.length_filter_le _ _).trans hsize).trans hl.le

theorem sqlite_rows {rs : List Record} (hs : Storable rs) {limit : ℕ} (hl : rs.length < limit) :
    (SQLiteSink.readRoots U (stored rs) q limit none).1 = sqlRows U rs q := by
  rw [SQLiteSink.readRoots, page_take_succ]
  refine List.take_of_length_le ?_
  rw [← sqlRows, length_sqlRows hs]
  exact (List.length_filter_le _ _).trans hl.le

theorem memRows_since (hsince : q.since = some since) {all : List Record} :
    ∀ row ∈ memRows U all q, since ≤ row.timestamp := by
  intro row hrow
  obtain ⟨rec, -, hkeep, rfl⟩ := mem_memRows.mp hrow
  have hts : (memRoot all rec).timestamp = rec.timestamp :=
    congrArg Cursor.timestamp (memRoot_cursor rec)
  rw [memKeeps, inWindow, hsince] at hkeep
  simp only [Option.all_some, Bool.and_eq_true, decide_eq_true_eq] at hkeep
  omega

theorem sqlRows_since (hsince : q.since = some since) (hrep : Representable since)
    {rs : List Record} (hs : Storable rs) :
    ∀ row ∈ sqlRows U rs q, since ≤ row.timestamp := by
  intro row hrow
  obtain ⟨rec, -, hkeep, rfl⟩ := (mem_sqlRows hs).mp hrow
  have hts : (sqlRoot rs rec).timestamp = unixNano rec.timestamp :=
    congrArg Cursor.timestamp (sqlRoot_cursor rec)
  rw [sqlKeeps, sqlInWindow, hsince] at hkeep
  simp only [Option.all_some, Bool.and_eq_true, decide_eq_true_eq,
    unixNano_of_representable hrep] at hkeep
  omega

/-- Memory folds `tally` over the keys of its rows: in the window, the 64-bit arithmetic is
exact. -/
theorem memory_tallyAll {width : ℤ} (s : MemorySink) (hsince : q.since = some since)
    (huntil : q.until_ = some until_) (hs : Representable since) (hu : Representable until_)
    (hd : Representable (until_ - since))
    (hrange : bucketRange q bucketCount = some (since, width)) :
    ∃ keys : List (ℤ × ℕ), keys.Perm ((memRows U (s.recent s.len) q).map (rowKey since width)) ∧
      s.aggregateRoots U q bucketCount = ⟨(memRows U (s.recent s.len) q).length,
        tallyAll bucketCount (fun _ => 1) keys (emptyBuckets since width bucketCount)⟩ := by
  refine ⟨(candidates U (s.recent s.len) q).map (rowKey since width),
    ((newestFirst_perm _).map _).symm, ?_⟩
  rw [MemorySink.aggregateRoots, hrange, length_memRows, tallyAll, candidates, List.map_map,
    List.foldl_map]
  refine congrArg (Aggregation.mk _) (List.foldl_ext _ _ _ fun buckets rec hrec => ?_)
  have hkeep := (List.mem_filter.mp hrec).2
  have hts : (memRoot (s.recent s.len) rec).timestamp = rec.timestamp :=
    congrArg Cursor.timestamp (memRoot_cursor rec)
  rw [memKeeps, inWindow, hsince, huntil] at hkeep
  simp only [Option.all_some, Bool.and_eq_true, decide_eq_true_eq] at hkeep
  obtain ⟨⟨h₁, h₂⟩, -⟩ := hkeep
  obtain ⟨hs₁, hs₂⟩ := hs
  obtain ⟨hu₁, hu₂⟩ := hu
  obtain ⟨hd₁, hd₂⟩ := hd
  have hrec : unixNano rec.timestamp = rec.timestamp :=
    unixNano_of_representable ⟨by omega, by omega⟩
  have hdiff : (rec.timestamp - since).bmod (2 ^ 64) = rec.timestamp - since :=
    unixNano_of_representable ⟨by omega, by omega⟩
  rw [hrec, hdiff, Function.comp_apply, rowKey, hts]

/-- SQLite folds `tally` over the keys of its rows, taking each key once. -/
theorem sqlite_tallyAll {width : ℤ} (rs : List Record)
    (hrange : bucketRange q bucketCount = some (since, width)) :
    ∃ keys : List (ℤ × ℕ), keys.Perm ((sqlRows U rs q).map (rowKey since width)) ∧
      SQLiteSink.aggregateRoots U (stored rs) q bucketCount = ⟨(sqlRows U rs q).length,
        tallyAll bucketCount (fun k => keys.countP (· = k)) keys.dedup
          (emptyBuckets since width bucketCount)⟩ := by
  refine ⟨(unionRows U (stored rs) q none).map (rowKey since width),
    ((newestFirst_perm _).map _).symm, ?_⟩
  rw [SQLiteSink.aggregateRoots, hrange, sqlRows, (newestFirst_perm _).length_eq]
  have hfold := @Sql.foldl_groupBy _ _ _ (rowKey since width) _
      (fun buckets k n => tally buckets bucketCount k.1 k.2 n)
    (unionRows U (stored rs) q none) (emptyBuckets since width bucketCount)
  refine congrArg₂ _ (Sql.sum_length_groupBy _)
    (Eq.trans (List.foldl_ext _ _ _ fun buckets g _ => ?_) hfold)
  cases g <;> rfl

end Readers

/-- **The histogram partitions the rows of the query**, in memory and in SQLite, exactly when
the buckets start at instants that fit into 64 bits. -/
theorem aggregateRoots_partitions (U : Unicode) (q : InspectQuery) (since until_ bucketCount : ℤ)
    (hsince : q.since = some since) (huntil : q.until_ = some until_) (hlt : since < until_)
    (hn : 1 ≤ bucketCount) (hs : Representable since) (hu : Representable until_)
    (hd : Representable (until_ - since)) :
    (∀ (s : MemorySink) (limit : ℕ), s.len < limit →
      (Partitions (s.aggregateRoots U q bucketCount) bucketCount (s.readRoots U q limit none).1 ↔
        StartsFit since until_ bucketCount)) ∧
    ∀ (rs : List Record) (tables : Tables), (stored []).writeAll rs = .ok tables →
      ∀ limit, rs.length < limit →
      (Partitions (SQLiteSink.aggregateRoots U tables q bucketCount) bucketCount
          (SQLiteSink.readRoots U tables q limit none).1 ↔ StartsFit since until_ bucketCount) := by
  obtain ⟨width, hrange, hw, hwide, hone⟩ := bucketRange_some hsince huntil hlt hn hs hu hd
  constructor
  · intro s limit hl
    obtain ⟨keys, hperm, hagg⟩ := memory_tallyAll (U := U) s hsince huntil hs hu hd hrange
    rw [hagg, memory_rows s hl]
    refine partitions_iff hn hs hu hw hwide hone (memRows_since hsince) tallyAll_starts
      fun c hc i => ?_
    rw [← hperm.countP_eq]
    exact counter_ones (fun k hk => rowKey_class since width k (hperm.mem_iff.mp hk)) hc i
  · intro rs tables hwrite limit hl
    obtain ⟨hstore, rfl⟩ := writeAll_ok.mp hwrite
    obtain ⟨keys, hperm, hagg⟩ := sqlite_tallyAll (U := U) rs hrange
    rw [hagg, sqlite_rows hstore hl]
    refine partitions_iff hn hs hu hw hwide hone (sqlRows_since hsince hs hstore) tallyAll_starts
      fun c hc i => ?_
    rw [← hperm.countP_eq]
    exact counter_dedup (fun k hk => rowKey_class since width k (hperm.mem_iff.mp hk)) hc i

/-- A response of status 200 in the second half of a window of ten nanoseconds. -/
theorem aggregateRoots_partitions_ten :
    Partitions (((MemorySink.new 1).write (.response (.blank (str "e") 7 (str "c")))).aggregateRoots
        .asciiOnly ⟨5, none, some 0, some 10, ⟨[]⟩⟩ 2) 2
      (((MemorySink.new 1).write (.response (.blank (str "e") 7 (str "c")))).readRoots
        .asciiOnly ⟨5, none, some 0, some 10, ⟨[]⟩⟩ 5 none).1 :=
  ((aggregateRoots_partitions .asciiOnly ⟨5, none, some 0, some 10, ⟨[]⟩⟩ 0 10 2 rfl rfl
    (by decide) (by decide) (by decide)
    (by decide) (by decide)).1 _ 5 (by decide)).mpr (.inl (by decide))

/-- The last nanosecond of the range of `int64`, in three buckets: the third starts in 1677, in
both readers and whatever they hold. -/
theorem aggregateRoots_wraps :
    let q : InspectQuery := ⟨1, none, some (2 ^ 63 - 2), some (2 ^ 63 - 1), ⟨[]⟩⟩
    ¬Partitions ((MemorySink.new 1).aggregateRoots .asciiOnly q 3) 3
      ((MemorySink.new 1).readRoots .asciiOnly q 1 none).1 ∧
      ¬Partitions (SQLiteSink.aggregateRoots .asciiOnly (stored []) q 3) 3
        (SQLiteSink.readRoots .asciiOnly (stored []) q 1 none).1 := by
  refine ⟨fun h => ?_, fun h => ?_⟩
  · exact absurd h.starts (by decide)
  · exact absurd h.starts (by decide)

end HttpCatch.Sinks

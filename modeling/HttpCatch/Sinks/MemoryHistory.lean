import HttpCatch.Sinks.Memory

/-!
# The ring and the history of its writes

What the ring holds is the end of the list of all records written, and its index finds the
newest record of every correlation id. Both are facts about one write (`recent_write`,
`Indexed.write`) before they are facts about a history.

* `recent_history` — a read returns the records written last.
* `memory_history` — all of it, for every capacity and every history.
-/

namespace HttpCatch.Sinks

open HttpCatch.Go HttpCatch.Capture

namespace MemorySink

variable {s : MemorySink} {r : Record} {id : GoString} {n i : ℕ}

/-! ### The records of the ring -/

/-- The record at the position `i` places before the one written last. -/
def at? (s : MemorySink) (i : ℕ) : Option Record := (s.buf[slot s.capacity s.head i]?).join

theorem recentFrom_getElem? (s : MemorySink) {n i j : ℕ} (h : i + n ≤ s.size) :
    (recentFrom s n (slot s.capacity s.head i)).reduceOption[j]? = if j < n then s.at? (i + j)
      else none := by
  induction n generalizing i j with
  | zero => rfl
  | succ n ih =>
    have hsize := s.size_le
    obtain ⟨r, hr⟩ := s.filled i (by omega)
    rw [recentFrom, hr, Option.join_some, List.reduceOption_cons_of_some]
    cases j with
    | zero => simp [at?, hr]
    | succ j =>
      rw [List.getElem?_cons_succ]
      cases n with
      | zero => simp [recentFrom]
      | succ n =>
        rw [before_slot s.head_lt (by omega), ih (by omega), show i + 1 + j = i + (j + 1) by omega]
        simp only [Nat.add_lt_add_iff_right]

/-- A read, position by position. -/
theorem recent_getElem? (s : MemorySink) (n j : ℕ) :
    (s.recent n)[j]? = if j < min n s.size then s.at? j else none := by
  rw [recent, before_head s.head_lt, recentFrom_getElem? s (by omega), Nat.zero_add]

theorem recent_take (s : MemorySink) (n : ℕ) : s.recent n = (s.recent s.size).take n := by
  apply List.ext_getElem?
  intro j
  rw [List.getElem?_take, recent_getElem?, recent_getElem?, Nat.min_self]
  split_ifs <;> first | rfl | omega

theorem at?_write_zero (s : MemorySink) (r : Record) : (s.write r).at? 0 = some r := by
  have hlt : s.head < s.buf.length := by rw [s.length_buf]; exact s.head_lt
  simp only [at?, write, slot_next_zero s.head_lt, List.getElem?_set_self hlt, Option.join_some]

theorem at?_write_succ (s : MemorySink) (r : Record) (h : i + 1 < s.capacity) :
    (s.write r).at? (i + 1) = s.at? i := by
  obtain ⟨hslot, hne⟩ := slot_next_succ s.head_lt h
  simp only [at?, write, hslot, List.getElem?_set_ne hne.symm]

theorem size_write (s : MemorySink) (r : Record) :
    (s.write r).size = min (s.size + 1) s.capacity := by
  have := s.size_le
  simp only [write]
  split_ifs <;> omega

/-- **A write puts its record before the others**, and the last one out where the ring is full. -/
theorem recent_write (s : MemorySink) (r : Record) (n : ℕ) :
    (s.write r).recent n = (r :: s.recent s.size).take (min n s.capacity) := by
  have hcap := s.head_lt
  apply List.ext_getElem?
  intro j
  rw [List.getElem?_take, recent_getElem?, size_write]
  cases j with
  | zero =>
    rw [at?_write_zero, List.getElem?_cons_zero]
    split_ifs <;> first | rfl | omega
  | succ j =>
    rw [List.getElem?_cons_succ, recent_getElem?, Nat.min_self]
    by_cases hj : j + 1 < s.capacity
    · rw [at?_write_succ s r hj]
      split_ifs <;> first | rfl | omega
    · rw [if_neg (by omega), if_neg (by omega)]

/-! ### The index -/

/-- The index has the position of the newest record of every correlation id. -/
def Indexed (s : MemorySink) : Prop :=
  ∀ id, s.corrIdx id = ((s.recent s.size).findIdx? fun r => r.correlationID =
    id).map (slot s.capacity s.head)

/-- The position written next is the oldest of a full ring. -/
theorem slot_eq_head_iff (h : i < s.capacity) :
    slot s.capacity s.head i = s.head ↔ i + 1 = s.capacity := by
  have := s.head_lt
  unfold slot
  split_ifs <;> omega

/-- The entry that a write takes out of the index is that of a record without newer ones. -/
theorem Indexed.evicted (hs : s.Indexed) (id : GoString) :
    s.evicted id = (((s.recent s.size).findIdx? fun r => r.correlationID = id).filter fun i =>
      i + 1 < s.capacity).map (slot s.capacity s.head) := by
  have hsize := s.size_le
  have hcap := s.head_lt
  have hidx := hs id
  -- an index of the list is a position of the ring
  have hlt : ∀ {id i}, (s.recent s.size).findIdx? (fun r => r.correlationID = id) = some i →
      i < s.size := by
    intro id i h
    have := (List.findIdx?_eq_some_iff_getElem.mp h).1
    rwa [length_recent, Nat.min_self] at this
  by_cases hfull : s.size = s.capacity
  · -- the oldest record is at the head
    obtain ⟨old, hold⟩ := s.filled (s.capacity - 1) (by omega)
    rw [(slot_eq_head_iff (by omega)).mpr (by omega)] at hold
    have hlast : (s.recent s.size)[s.capacity - 1]? = some old := by
      rw [recent_getElem?, if_pos (by omega), at?, (slot_eq_head_iff (by omega)).mpr (by omega),
        hold, Option.join_some]
    have hev : s.evicted = if (s.corrIdx old.correlationID).getD 0 = s.head then
        Function.update s.corrIdx old.correlationID none else s.corrIdx := by
      simp only [MemorySink.evicted, if_pos hfull, hold, Option.join_some]
    cases hfind : (s.recent s.size).findIdx? fun r => r.correlationID = id with
    | none =>
      rw [hfind, Option.map_none] at hidx
      rw [Option.filter_none, Option.map_none, hev]
      split_ifs
      · rw [Function.update_apply, hidx, ite_self]
      · exact hidx
    | some i =>
      have hi := hlt hfind
      rw [hfind, Option.map_some] at hidx
      rw [Option.filter_some]
      split_ifs with hnew
      · -- a newer record: its entry does not point at the head
        have hne : slot s.capacity s.head i ≠ s.head := by
          rw [Ne, slot_eq_head_iff (by omega)]
          have : i + 1 < s.capacity := by simpa using hnew
          omega
        rw [Option.map_some, ← hidx, hev]
        split_ifs with hdel
        · rw [Function.update_of_ne]
          rintro rfl
          rw [hidx, Option.getD_some] at hdel
          exact hne hdel
        · rfl
      · -- the oldest one: its entry points at the head
        have hi1 : i + 1 = s.capacity := by
          have : ¬ i + 1 < s.capacity := by simpa using hnew
          omega
        have hid : old.correlationID = id := by
          obtain ⟨hi', hp, -⟩ := List.findIdx?_eq_some_iff_getElem.mp hfind
          have hget : (s.recent s.size)[i] = old := by
            rw [← Option.some_inj, ← List.getElem?_eq_getElem, ← hlast]
            congr 1
            omega
          rw [hget] at hp
          simpa using hp
        subst hid
        have hhead : slot s.capacity s.head i = s.head := (slot_eq_head_iff (by omega)).mpr hi1
        rw [hev, if_pos (by rw [hidx, Option.getD_some, hhead]), Function.update_self]
        rfl
  · -- nothing is taken out of a ring that is not full
    have hev : s.evicted = s.corrIdx := by
      simp only [MemorySink.evicted, if_neg hfull]
    rw [hev, hidx]
    cases hfind : (s.recent s.size).findIdx? fun r => r.correlationID = id with
    | none => rfl
    | some i =>
      have hi := hlt hfind
      rw [Option.filter_some, if_pos (decide_eq_true (by omega))]

/-- **A write keeps the index exact.** -/
theorem Indexed.write (hs : s.Indexed) (r : Record) : (s.write r).Indexed := by
  have hcap := s.head_lt
  have hrecent : (s.write r).recent (s.write r).size =
      r :: (s.recent s.size).take (s.capacity - 1) := by
    have hlen : (s.recent s.size).length = s.size := by rw [length_recent, Nat.min_self]
    obtain ⟨c, hc⟩ : ∃ c, s.capacity = c + 1 := ⟨s.capacity - 1, by omega⟩
    rw [recent_write, size_write, hc, Nat.min_assoc, Nat.min_self, Nat.add_min_add_right,
      List.take_succ_cons, Nat.add_sub_cancel, List.cons.injEq, List.take_eq_take_iff, hlen]
    exact ⟨rfl, by omega⟩
  intro id
  rw [hrecent, List.findIdx?_cons]
  by_cases hid : r.correlationID = id
  · subst hid
    simp only [decide_true, if_true, Option.map_some, MemorySink.write, Function.update_self,
      slot_next_zero s.head_lt]
  · have hidx : (s.write r).corrIdx id = s.evicted id := Function.update_of_ne (Ne.symm hid) _ _
    rw [hidx, hs.evicted, if_neg (by simpa using hid), List.findIdx?_take]
    cases (s.recent s.size).findIdx? fun r => r.correlationID = id with
    | none => rfl
    | some i =>
      by_cases hi : i + 1 < s.capacity
      · have hslot : slot s.capacity ((s.head + 1) % s.capacity) (i + 1) =
            slot s.capacity s.head i :=
          (slot_next_succ s.head_lt hi).1
        simp [Option.guard, hi, show i < s.capacity - 1 by omega, MemorySink.write, hslot]
      · have hle : s.capacity ≤ i + 1 := not_lt.mp hi
        simp [Option.guard, hle, show ¬ i < s.capacity - 1 by omega]

/-- What the index finds is the first record with the id, newest first. -/
theorem Indexed.byCorrelationID (hs : s.Indexed) (id : GoString) :
    s.byCorrelationID id = (s.recent s.size).find? fun r => r.correlationID = id := by
  rw [MemorySink.byCorrelationID, hs id, List.find?_eq_bind_findIdx?_getElem?, Option.bind_map]
  cases hfind : (s.recent s.size).findIdx? fun r => r.correlationID = id with
  | none => rfl
  | some i =>
    have hi := (List.findIdx?_eq_some_iff_getElem.mp hfind).1
    rw [length_recent, Nat.min_self] at hi
    rw [Option.bind_some, Option.bind_some, recent_getElem?, Nat.min_self, if_pos hi]
    rfl

theorem Indexed.isSome_iff (hs : s.Indexed) (id : GoString) :
    (s.corrIdx id).isSome = true ↔ ∃ r ∈ s.recent s.size, r.correlationID = id := by
  rw [hs id, Option.isSome_map, List.findIdx?_isSome, List.any_eq_true]
  simp

/-! ### Histories -/

/-- The sink after a history of writes. -/
def ofHistory (capacity : ℤ) (history : List Record) : MemorySink :=
  history.foldl write (new capacity)

theorem ofHistory_concat (capacity : ℤ) (history : List Record) (r : Record) :
    ofHistory capacity (history ++ [r]) = (ofHistory capacity history).write r := by
  rw [ofHistory, List.foldl_append]
  rfl

theorem capacity_ofHistory (capacity : ℤ) (history : List Record) :
    (ofHistory capacity history).capacity = (max 1 capacity).toNat := by
  induction history using List.reverseRecOn with
  | nil => rfl
  | append_singleton history r ih =>
    rw [ofHistory_concat, ← ih]
    rfl

theorem size_ofHistory (capacity : ℤ) (history : List Record) :
    (ofHistory capacity history).size = min history.length (max 1 capacity).toNat := by
  induction history using List.reverseRecOn with
  | nil => rfl
  | append_singleton history r ih =>
    rw [ofHistory_concat, size_write, ih, capacity_ofHistory, List.length_append,
      List.length_singleton]
    omega

/-- **A read returns the records written last**, newest first. -/
theorem recent_history (capacity : ℤ) (history : List Record) (n : ℕ) :
    (ofHistory capacity history).recent n =
      history.reverse.take (min n (max 1 capacity).toNat) := by
  induction history using List.reverseRecOn generalizing n with
  | nil => simp [ofHistory, recent, new, recentFrom]
  | append_singleton history r ih =>
    have hsize := size_ofHistory capacity history
    rw [ofHistory_concat, recent_write, capacity_ofHistory, ih, List.reverse_append,
      List.reverse_singleton, List.singleton_append]
    -- the ring had all of the history, or as much as fits
    obtain ⟨c, hc⟩ : ∃ c, (max 1 capacity).toNat = c + 1 := ⟨(max 1 capacity).toNat - 1, by omega⟩
    cases hn : min n (max 1 capacity).toNat with
    | zero => rfl
    | succ k =>
      rw [List.take_succ_cons, List.take_succ_cons, List.take_take, List.cons.injEq,
        List.take_eq_take_iff, List.length_reverse, hsize]
      exact ⟨rfl, by omega⟩

theorem indexed_ofHistory (capacity : ℤ) (history : List Record) :
    (ofHistory capacity history).Indexed := by
  induction history using List.reverseRecOn with
  | nil =>
    intro id
    simp [ofHistory, new, recent, recentFrom]
  | append_singleton history r ih =>
    rw [ofHistory_concat]
    exact ih.write r

/-- **The ring is the end of the history, and its index is exact.** -/
theorem memory_history (capacity : ℤ) (history : List Record) :
    let s := history.foldl write (new capacity)
    let cap := (max 1 capacity).toNat
    (∀ n, s.recent n = history.reverse.take (min n (min history.length cap))) ∧ s.len ≤ cap ∧
      (∀ id, s.byCorrelationID id = (s.recent cap).find? fun r => r.correlationID = id) ∧
      ∀ id, (s.corrIdx id).isSome = true ↔ ∃ r ∈ s.recent cap, r.correlationID = id := by
  intro s cap
  have hs : s = ofHistory capacity history := rfl
  have hall : s.recent cap = s.recent s.size := by
    rw [recent_take s cap, List.take_of_length_le]
    rw [length_recent, Nat.min_self, hs, size_ofHistory]
    exact Nat.min_le_right _ _
  refine ⟨fun n => ?_, ?_, fun id => ?_, fun id => ?_⟩
  · rw [hs, recent_history, List.take_eq_take_iff, List.length_reverse]
    omega
  · rw [len, hs, size_ofHistory]
    exact Nat.min_le_right _ _
  · rw [hall]
    exact (indexed_ofHistory capacity history).byCorrelationID id
  · rw [hall]
    exact (indexed_ofHistory capacity history).isSome_iff id

end MemorySink

end HttpCatch.Sinks

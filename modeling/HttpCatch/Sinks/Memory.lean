import HttpCatch.Capture.Record

/-!
# The ring in memory

`internal/sinks/memory.go`: the memory sink keeps the records written last in a ring of a
fixed capacity. `head` is the position written next; the `size` positions before it, going
round, hold the records. `corrIdx` maps a correlation id to the position written last for it.

The structure carries what every operation keeps: positions are in range, and the positions
that count as occupied hold a record. A read takes the records as they are at that moment,
newest first (`recent`).
-/

namespace HttpCatch.Sinks

open HttpCatch.Go HttpCatch.Capture

/-! ### Positions -/

/-- The position before another, going round. -/
def before (capacity idx : ℕ) : ℕ := (idx + capacity - 1) % capacity

/-- The position `i` places before the one before `head`, going round at most once. -/
def slot (capacity head i : ℕ) : ℕ := if i < head then head - 1 - i else head + capacity - 1 - i

theorem before_head {capacity head : ℕ} (h : head < capacity) :
    before capacity head = slot capacity head 0 := by
  unfold before slot
  split_ifs with h0
  · rw [show head + capacity - 1 = head - 1 + capacity by omega, Nat.add_mod_right,
      Nat.mod_eq_of_lt (by omega)]
    rfl
  · rw [Nat.mod_eq_of_lt (by omega)]
    rfl

theorem before_slot {capacity head i : ℕ} (h : head < capacity) (hi : i + 1 < capacity) :
    before capacity (slot capacity head i) = slot capacity head (i + 1) := by
  unfold before slot
  split_ifs with h₁ h₂ h₂
  · rw [show head - 1 - i + capacity - 1 = head - 1 - (i + 1) + capacity by omega,
      Nat.add_mod_right, Nat.mod_eq_of_lt (by omega)]
  · rw [Nat.mod_eq_of_lt (by omega)]
    omega
  · omega
  · rw [show head + capacity - 1 - i + capacity - 1 =
      head + capacity - 1 - (i + 1) + capacity by omega, Nat.add_mod_right,
      Nat.mod_eq_of_lt (by omega)]

/-- Going back from the position after `head`, the first position is `head` itself. -/
theorem slot_next_zero {capacity head : ℕ} (h : head < capacity) :
    slot capacity ((head + 1) % capacity) 0 = head := by
  unfold slot
  rcases Nat.lt_or_ge (head + 1) capacity with hlt | hge
  · rw [Nat.mod_eq_of_lt hlt, if_pos (by omega)]
    omega
  · obtain rfl : capacity = head + 1 := by omega
    rw [Nat.mod_self, if_neg (by omega)]
    omega

/-- Going back from the position after `head`, the other positions are those before `head`. -/
theorem slot_next_succ {capacity head i : ℕ} (h : head < capacity) (hi : i + 1 < capacity) :
    slot capacity ((head + 1) % capacity) (i + 1) = slot capacity head i ∧
      slot capacity head i ≠ head := by
  unfold slot
  rcases Nat.lt_or_ge (head + 1) capacity with hlt | hge
  · rw [Nat.mod_eq_of_lt hlt]
    split_ifs <;> omega
  · obtain rfl : capacity = head + 1 := by omega
    rw [Nat.mod_self]
    split_ifs <;> omega

/-! ### The sink -/

/-- `MemorySink`. -/
structure MemorySink where
  buf : List (Option Record)
  head : ℕ
  size : ℕ
  capacity : ℕ
  corrIdx : GoString → Option ℕ
  length_buf : buf.length = capacity
  head_lt : head < capacity
  size_le : size ≤ capacity
  /-- The occupied positions hold records. -/
  filled : ∀ i < size, ∃ r, buf[slot capacity head i]? = some (some r)

namespace MemorySink

/-- `NewMemorySink`. -/
def new (capacity : ℤ) : MemorySink where
  buf := List.replicate (max 1 capacity).toNat none
  head := 0
  size := 0
  capacity := (max 1 capacity).toNat
  corrIdx := fun _ => none
  length_buf := List.length_replicate
  head_lt := by omega
  size_le := Nat.zero_le _
  filled := by simp

/-- `Len`. -/
def len (s : MemorySink) : ℕ := s.size

/-- The index without the entry of the record about to be overwritten, where that entry points
at it; an id that is not in the index reads as position 0. -/
def evicted (s : MemorySink) : GoString → Option ℕ :=
  match if s.size = s.capacity then (s.buf[s.head]?).join else none with
  | none => s.corrIdx
  | some old =>
    if (s.corrIdx old.correlationID).getD 0 = s.head then Function.update s.corrIdx
      old.correlationID none else s.corrIdx

/-- `Write`: into the position at `head`. -/
def write (s : MemorySink) (r : Record) : MemorySink where
  buf := s.buf.set s.head (some r)
  head := (s.head + 1) % s.capacity
  size := if s.size < s.capacity then s.size + 1 else s.size
  capacity := s.capacity
  corrIdx := Function.update s.evicted r.correlationID (some s.head)
  length_buf := by rw [List.length_set, s.length_buf]
  head_lt := Nat.mod_lt _ (by have := s.head_lt; omega)
  size_le := by have := s.size_le; split_ifs <;> omega
  filled := by
    intro i hi
    have hsize := s.size_le
    have hi' : i < s.size + 1 ∧ i < s.capacity := by split_ifs at hi <;> omega
    cases i with
    | zero =>
      refine ⟨r, ?_⟩
      rw [slot_next_zero s.head_lt, List.getElem?_set_self (by rw [s.length_buf]; exact s.head_lt)]
    | succ i =>
      obtain ⟨hslot, hne⟩ := slot_next_succ s.head_lt hi'.2
      rw [hslot, List.getElem?_set_ne hne.symm]
      exact s.filled i (by omega)

/-- The loop of `Recent`: `n` positions, going back from `idx`. -/
def recentFrom (s : MemorySink) : ℕ → ℕ → List (Option Record)
  | 0, _ => []
  | n + 1, idx => (s.buf[idx]?).join :: recentFrom s n (before s.capacity idx)

/-- `Recent`: up to `n` records, newest first. -/
def recent (s : MemorySink) (n : ℕ) : List Record :=
  (recentFrom s (min n s.size) (before s.capacity s.head)).reduceOption

/-- `ByCorrelationID`. -/
def byCorrelationID (s : MemorySink) (correlationID : GoString) : Option Record :=
  (s.corrIdx correlationID).bind fun pos => (s.buf[pos]?).join

theorem length_recentFrom (s : MemorySink) (n i : ℕ) (h : i + n ≤ s.size) :
    (recentFrom s n (slot s.capacity s.head i)).reduceOption.length = n := by
  induction n generalizing i with
  | zero => rfl
  | succ n ih =>
    have hsize := s.size_le
    obtain ⟨r, hr⟩ := s.filled i (by omega)
    rw [recentFrom, hr, Option.join_some, List.reduceOption_cons_of_some, List.length_cons]
    cases n with
    | zero => rfl
    | succ n => rw [before_slot s.head_lt (by omega), ih (i + 1) (by omega)]

/-- A read returns as many records as it asks for, or all there are. -/
theorem length_recent (s : MemorySink) (n : ℕ) : (s.recent n).length = min n s.size := by
  rw [recent, before_head s.head_lt, length_recentFrom s _ 0 (by omega)]

end MemorySink

end HttpCatch.Sinks

import HttpCatch.Inspect.Reader
import HttpCatch.Library.Base64
import HttpCatch.Library.Decimal
import HttpCatch.Library.Text

/-!
# Cursors on the wire

`internal/inspect/cursor.go`: a cursor travels to the client and back as base64 text of the
timestamp in nanoseconds, a colon and the id. `decodeCursor_encode` says which cursors come
back as they were.
-/

namespace HttpCatch.Inspect

open HttpCatch.Go HttpCatch.Capture

/-- The errors of `DecodeCursor`. -/
inductive CursorError where
  /-- `cursor: invalid base64: %w`. -/
  | invalidBase64
  /-- `cursor: missing ':' separator`. -/
  | missingSeparator
  /-- `cursor: non-integer timestamp part: %w`. -/
  | nonInteger
  /-- `cursor: empty id part`. -/
  | emptyID
  deriving DecidableEq

/-- The text under the base64. -/
def Cursor.raw (c : Cursor) : GoString := sprintDecimal (unixNano c.timestamp) ++ 0x3A :: c.id

/-- `Cursor.Encode`. -/
def Cursor.encode (c : Cursor) : GoString := Base64.encode c.raw

/-- `DecodeCursor`. -/
def decodeCursor (s : GoString) : Except CursorError Cursor :=
  match Base64.decodeString s with
  | none => .error .invalidBase64
  | some raw =>
    match indexByte raw 0x3A with
    | none => .error .missingSeparator
    | some idx =>
      match atoi (raw.take idx) with
      | none => .error .nonInteger
      | some nanos =>
        let id := raw.drop (idx + 1)
        if id = [] then .error .emptyID else .ok ⟨nanos, id⟩

/-- A number has no colon in it. -/
theorem colon_not_mem_sprintDecimal (n : ℤ) : 0x3A ∉ sprintDecimal n := by
  rw [sprintDecimal, List.mem_append, not_or]
  constructor
  · split_ifs <;> decide
  · intro h
    exact absurd (digitsOf_bytes _ _ h).2 (by decide)

/-- What is decoded is the number that was written and the id, if there is one. -/
theorem decodeCursor_encode_eq (c : Cursor) :
    decodeCursor c.encode = if c.id = [] then .error .emptyID
      else .ok ⟨unixNano c.timestamp, c.id⟩ := by
  obtain ⟨hlo, hhi⟩ := unixNano_representable c.timestamp
  have hnone : (sprintDecimal (unixNano c.timestamp)).findIdx? (· == 0x3A) = none := by
    rw [List.findIdx?_eq_none_iff]
    rintro b hb
    exact beq_eq_false_iff_ne.mpr fun h => colon_not_mem_sprintDecimal _ (h ▸ hb)
  have hidx : indexByte c.raw 0x3A = some (sprintDecimal (unixNano c.timestamp)).length := by
    simp [indexByte, Cursor.raw, List.findIdx?_append, hnone, List.findIdx?_cons]
  have htake : c.raw.take (sprintDecimal (unixNano c.timestamp)).length =
      sprintDecimal (unixNano c.timestamp) := List.take_left
  have hdrop : c.raw.drop ((sprintDecimal (unixNano c.timestamp)).length + 1) = c.id := by
    rw [Cursor.raw, List.drop_append, List.drop_of_length_le (Nat.le_succ _)]
    simp
  rw [decodeCursor, Cursor.encode, Base64.decodeString_encode]
  simp only [hidx, htake, hdrop, atoi_sprintDecimal hlo hhi]

/-- **The cursors that survive the wire.** -/
theorem decodeCursor_encode (c : Cursor) :
    decodeCursor c.encode = .ok c ↔ Representable c.timestamp ∧ c.id ≠ [] := by
  rw [decodeCursor_encode_eq]
  split_ifs with hid
  · simp [hid]
  · constructor
    · intro h
      have hts : unixNano c.timestamp = c.timestamp := congrArg Cursor.timestamp (Except.ok.inj h)
      exact ⟨hts ▸ unixNano_representable c.timestamp, hid⟩
    · rintro ⟨hrep, -⟩
      rw [unixNano_of_representable hrep]

end HttpCatch.Inspect

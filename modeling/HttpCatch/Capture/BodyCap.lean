import HttpCatch.Capture.Record

/-!
# The body cap

`internal/capture/bodycap.go`: `CapBody` reads one byte more than the cap, so that a body that is
too long can be told from one that just fits. The limit of the reader is computed in `int64`
arithmetic, where the greatest cap has no successor.

* `capBody_capped_iff` — the caps for which a body is kept as it should be.
-/

namespace HttpCatch.Capture

open HttpCatch.Go

/-- An `io.Reader`: the bytes it yields, and the error that a further read returns in place of
`io.EOF`. -/
structure Source where
  bytes : GoString
  err : Option GoString

/-- `io.ReadAll`. -/
def Source.readAll (r : Source) : Except GoString GoString :=
  match r.err with
  | some err => .error err
  | none => .ok r.bytes

/-- `io.LimitReader`: the end comes after `n` bytes, whatever the reader has behind them. -/
def Source.limit (r : Source) (n : ℤ) : Source :=
  if n ≤ r.bytes.length then ⟨r.bytes.take n.toNat, none⟩ else r

/-- `CapBody`: body, original size and whether it was truncated. -/
def capBody (r : Source) (capBytes : ℤ) : Except GoString (GoString × ℤ × Bool) := do
  if capBytes ≤ 0 then
    let body ← r.readAll
    return (body, body.length, false)
  else
    let body ← (r.limit ((capBytes + 1).bmod (2 ^ 64))).readAll
    if (body.length : ℤ) ≤ capBytes then
      return (body, body.length, false)
    else
      return (body.take capBytes.toNat, (capBytes + 1).bmod (2 ^ 64), true)

/-- What is to be kept of a body: all of it, or the bytes up to the cap with one more as its
size. -/
def capped (body : GoString) (capBytes : ℤ) : GoString × ℤ × Bool :=
  if capBytes = 0 ∨ (body.length : ℤ) ≤ capBytes then (body, body.length, false)
  else (body.take capBytes.toNat, capBytes + 1, true)

/-- A limit of at least one byte keeps the bytes up to it. -/
theorem readAll_limit (body : GoString) {n : ℤ} (hn : 0 ≤ n) :
    (Source.limit ⟨body, none⟩ n).readAll = .ok (body.take n.toNat) := by
  unfold Source.limit
  split_ifs with hle
  · rfl
  · have hlen : body.length ≤ n.toNat := by
      dsimp only at hle
      omega
    rw [List.take_of_length_le hlen]
    rfl

/-- A cap with a successor is exact. -/
theorem capBody_eq_capped (body : GoString) {cap : ℤ} (h₀ : 0 ≤ cap) (hmax : cap < 2 ^ 63 - 1) :
    capBody ⟨body, none⟩ cap = .ok (capped body cap) := by
  have hsucc : (cap + 1).bmod (2 ^ 64) = cap + 1 :=
    unixNano_of_representable ⟨by omega, by omega⟩
  rcases h₀.eq_or_lt with rfl | hpos
  · rfl
  rw [capBody, if_neg (not_le.mpr hpos), hsucc, readAll_limit body (by omega)]
  have htake : ((body.take (cap + 1).toNat).length : ℤ) ≤ cap ↔ (body.length : ℤ) ≤ cap := by
    rw [List.length_take]
    omega
  by_cases hfits : (body.length : ℤ) ≤ cap
  · have hall : body.take (cap + 1).toNat = body := List.take_of_length_le (by omega)
    rw [capped, if_pos (.inr hfits), hall]
    simp only [bind, Except.bind, if_pos hfits]
    rfl
  · have hcut : (body.take (cap + 1).toNat).take cap.toNat = body.take cap.toNat := by
      rw [List.take_take, min_eq_left (by omega)]
    rw [capped, if_neg (by omega)]
    simp only [bind, Except.bind, if_neg (mt htake.mp hfits), hcut]
    rfl

/-- The successor of the greatest cap is negative, and nothing is read. -/
theorem capBody_max (body : GoString) : capBody ⟨body, none⟩ (2 ^ 63 - 1) = .ok ([], 0, false) := by
  have hlimit : Source.limit ⟨body, none⟩ ((2 ^ 63 - 1 + 1 : ℤ).bmod (2 ^ 64)) = ⟨[], none⟩ := by
    have hwrap : (2 ^ 63 - 1 + 1 : ℤ).bmod (2 ^ 64) = -2 ^ 63 := by decide
    rw [hwrap, Source.limit, if_pos (by dsimp only; omega)]
    rfl
  rw [capBody, if_neg (by decide), hlimit]
  rfl

/-- **The cap is exact unless it is the greatest `int64`**, which keeps nothing of any body. -/
theorem capBody_capped_iff (body : GoString) {cap : ℤ} (h₀ : 0 ≤ cap) (h64 : cap < 2 ^ 63) :
    capBody ⟨body, none⟩ cap = .ok (capped body cap) ↔ cap < 2 ^ 63 - 1 ∨ body = [] := by
  constructor
  · intro h
    by_contra hno
    obtain ⟨hmax, hne⟩ := not_or.mp hno
    obtain rfl : cap = 2 ^ 63 - 1 := by omega
    rw [capBody_max] at h
    have hbody := congrArg Prod.fst (Except.ok.inj h)
    have hpos := List.length_pos_iff.mpr hne
    unfold capped at hbody
    split_ifs at hbody
    · exact hne hbody.symm
    · have hlen := congrArg List.length hbody
      rw [List.length_take, List.length_nil] at hlen
      omega
  · rintro (hlt | rfl)
    · exact capBody_eq_capped body h₀ hlt
    · rcases (show cap < 2 ^ 63 - 1 ∨ cap = 2 ^ 63 - 1 by omega) with hlt | rfl
      · exact capBody_eq_capped [] h₀ hlt
      · exact capBody_max []

end HttpCatch.Capture

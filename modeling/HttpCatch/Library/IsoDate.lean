import HttpCatch.Library.Decimal

/-!
# Dates as text

The date-time format of ECMAScript in UTC: `toISOString` writes an instant, in milliseconds since
the Unix epoch, and `isoDate` reads the format. `Date.parse` may know other formats besides.

`Rfc3339.parse` is Go's `time.Parse` for the layout `time.RFC3339`, and `Rfc3339.formatNano` is
`Format` for `time.RFC3339Nano` in UTC, both in nanoseconds. The parser is the general one of the
package `time`, which takes more than the standard: an hour of one digit, a comma before the
fraction, a fraction of any length, and offsets of 24 hours or 60 minutes.
-/

namespace HttpCatch.Iso

open HttpCatch.Go

/-- The last `w` digits of a number. -/
def padded : ℕ → ℕ → GoString
  | 0, _ => []
  | w + 1, n => padded w (n / 10) ++ [UInt8.ofNat (0x30 + n % 10)]

/-- The date of a day, counted from the Unix epoch. A year starts in March here, so that the leap
day is its last. -/
def dateOfDays (days : ℤ) : ℤ × ℤ × ℤ :=
  let z := days + 719468
  let doe := z % 146097
  let yoe := (doe - doe / 1460 + doe / 36524 - doe / 146096) / 365
  let doy := doe - (365 * yoe + yoe / 4 - yoe / 100)
  let mp := (5 * doy + 2) / 153
  let month := if mp < 10 then mp + 3 else mp - 9
  let year := yoe + z / 146097 * 400
  (if month ≤ 2 then year + 1 else year, month, doy - (153 * mp + 2) / 5 + 1)

/-- The day of a date. -/
def daysOfDate (year month day : ℤ) : ℤ :=
  let y := if month ≤ 2 then year - 1 else year
  let m := if 2 < month then month - 3 else month + 9
  365 * y + y / 4 - y / 100 + y / 400 + (153 * m + 2) / 5 + day - 719469

/-- The year; outside four digits it has a sign and six. -/
def yearText (year : ℤ) : GoString :=
  if 0 ≤ year ∧ year ≤ 9999 then padded 4 year.toNat
  else (if year < 0 then str "-" else str "+") ++ padded 6 year.natAbs

/-- An instant up to its minute. -/
def minuteText (t : ℤ) : GoString :=
  let (year, month, day) := dateOfDays (t / 86400000)
  yearText year ++ str "-" ++ padded 2 month.toNat ++ str "-" ++ padded 2 day.toNat ++ str "T" ++
    padded 2 (t / 3600000 % 24).toNat ++ str ":" ++ padded 2 (t / 60000 % 60).toNat

/-- `toISOString`. -/
def toISOString (t : ℤ) : GoString :=
  minuteText t ++ str ":" ++ padded 2 (t / 1000 % 60).toNat ++ str "." ++
    padded 3 (t % 1000).toNat ++ str "Z"

/-- The number in the digits from `i` to `j`. -/
def numberAt (s : GoString) (i j : ℕ) : Option ℤ :=
  (decimal ((s.take j).drop i)).map fun n : ℕ => (n : ℤ)

/-- Reads a date and a time of the day in UTC, with or without milliseconds. -/
def isoDate (s : GoString) : Option ℤ := do
  guard (s.length = 20 ∨ s.length = 24 ∧ s.getD 19 0 = 0x2E)
  guard (s.getD 4 0 = 0x2D ∧ s.getD 7 0 = 0x2D ∧ s.getD 10 0 = 0x54 ∧ s.getD 13 0 = 0x3A ∧
    s.getD 16 0 = 0x3A ∧ s.getLast? = some 0x5A)
  let year ← numberAt s 0 4
  let month ← numberAt s 5 7
  let day ← numberAt s 8 10
  let hour ← numberAt s 11 13
  let minute ← numberAt s 14 16
  let second ← numberAt s 17 19
  let millis ← if s.length = 24 then numberAt s 20 23 else some 0
  guard (dateOfDays (daysOfDate year month day) = (year, month, day) ∧ hour < 24 ∧ minute < 60 ∧
    second < 60)
  return (((daysOfDate year month day * 24 + hour) * 60 + minute) * 60 + second) * 1000 + millis

example : isoDate (toISOString 1709210096789) = some 1709210096789 := by decide

@[simp] theorem length_padded (w n : ℕ) : (padded w n).length = w := by
  induction w generalizing n with
  | zero => rfl
  | succ w ih => rw [padded, List.length_append, ih, List.length_singleton]

theorem padded_digits {w n : ℕ} : ∀ b ∈ padded w n, 0x30 ≤ b ∧ b ≤ 0x39 := by
  induction w generalizing n with
  | zero => simp [padded]
  | succ w ih =>
    intro b hb
    rcases List.mem_append.1 hb with hb | hb
    · exact ih b hb
    · have hd : n % 10 < 10 := Nat.mod_lt _ (by decide)
      rw [List.mem_singleton.1 hb, UInt8.le_iff_toNat_le, UInt8.le_iff_toNat_le, digitByte hd]
      simp only [UInt8.reduceToNat]
      omega

/-- A number is known from its digits, if there are enough of them. -/
theorem padded_inj {w m n : ℕ} (hm : m < 10 ^ w) (hn : n < 10 ^ w) (h : padded w m = padded w n) :
    m = n := by
  induction w generalizing m n with
  | zero =>
    rw [pow_zero] at hm hn
    omega
  | succ w ih =>
    obtain ⟨hrest, hlast⟩ := List.append_inj h (by simp)
    have hm' : m % 10 < 10 := Nat.mod_lt _ (by decide)
    have hn' : n % 10 < 10 := Nat.mod_lt _ (by decide)
    have hdigit : m % 10 = n % 10 := by
      have hbyte := congrArg UInt8.toNat (List.singleton_inj.1 hlast)
      rw [digitByte hm', digitByte hn'] at hbyte
      omega
    have htens := ih (by rw [pow_succ] at hm; omega) (by rw [pow_succ] at hn; omega) hrest
    omega

end HttpCatch.Iso

namespace HttpCatch.Rfc3339

open HttpCatch.Go HttpCatch.Iso

/-! ### Parts of the text -/

/-- `isDigit`. -/
def isDigit (b : UInt8) : Bool := 0x30 ≤ b && b ≤ 0x39

/-- The value of a digit. -/
def digitValue (b : UInt8) : ℕ := b.toNat - 0x30

/-- `getnum`: two digits, or also one when the width is not fixed. -/
def getnum (fixed : Bool) : GoString → Option (ℕ × GoString)
  | [] => none
  | a :: s =>
    if !isDigit a then none
    else
      match s with
      | b :: rest =>
        if isDigit b then some (10 * digitValue a + digitValue b, rest)
        else if fixed then none
        else some (digitValue a, s)
      | [] => if fixed then none else some (digitValue a, [])

/-- The year has four digits. -/
def getYear (s : GoString) : Option (ℕ × GoString) :=
  if s.length < 4 then none else (decimal (s.take 4)).map fun year => (year, s.drop 4)

/-- A byte of the layout that stands for itself. -/
def skipByte (c : UInt8) : GoString → Option GoString
  | [] => none
  | b :: s => if b = c then some s else none

/-- The fraction of a second, cut to nanoseconds, and the text after it. -/
def getFraction (s : GoString) : ℕ × GoString :=
  match s with
  | point :: digit :: _ =>
    if (point = 0x2E ∨ point = 0x2C) ∧ isDigit digit then
      let digits := (s.drop 1).takeWhile isDigit
      let kept := digits.take 9
      (kept.foldl (fun n b => 10 * n + digitValue b) 0 * 10 ^ (9 - kept.length),
        s.drop (1 + digits.length))
    else (0, s)
  | _ => (0, s)

/-- The offset from UTC in seconds. -/
def getOffset : GoString → Option (ℤ × GoString)
  | 0x5A :: s => some (0, s)
  | sign :: h₁ :: h₂ :: 0x3A :: m₁ :: m₂ :: s => do
    let (hours, _) ← getnum true [h₁, h₂]
    let (minutes, _) ← getnum true [m₁, m₂]
    guard (hours ≤ 24 ∧ minutes ≤ 60)
    let offset : ℤ := (hours * 60 + minutes) * 60
    if sign = 0x2B then some (offset, s) else if sign = 0x2D then some (-offset, s) else none
  | _ => none

/-- `daysIn`. -/
def daysIn (month year : ℕ) : ℕ :=
  if month = 2 then (if year % 4 = 0 ∧ (year % 100 ≠ 0 ∨ year % 400 = 0) then 29 else 28)
  else if month = 4 ∨ month = 6 ∨ month = 9 ∨ month = 11 then 30
  else 31

/-! ### Whole instants -/

/-- `time.Parse(time.RFC3339, s)`. -/
def parse (s : GoString) : Option ℤ := do
  let (year, s) ← getYear s
  let (month, s) ← getnum true (← skipByte 0x2D s)
  let (day, s) ← getnum true (← skipByte 0x2D s)
  let (hour, s) ← getnum false (← skipByte 0x54 s)
  let (minute, s) ← getnum true (← skipByte 0x3A s)
  let (second, s) ← getnum true (← skipByte 0x3A s)
  let (nanos, s) := getFraction s
  let (offset, s) ← getOffset s
  guard (s = [] ∧ 1 ≤ month ∧ month ≤ 12 ∧ hour < 24 ∧ minute < 60 ∧ second < 60 ∧ 1 ≤ day ∧
    day ≤ daysIn month year)
  let seconds : ℤ := ((daysOfDate year month day * 24 + hour) * 60 + minute) * 60 + second - offset
  return seconds * 1000000000 + nanos

/-- The year as `Format` writes it. -/
def formatYear (year : ℤ) : GoString :=
  (if year < 0 then str "-" else []) ++
    if year.natAbs < 10000 then padded 4 year.natAbs else digitsOf year.natAbs

/-- The fraction as `Format` writes it, without the zeros at its end. -/
def formatFraction (nanos : ℕ) : GoString :=
  if nanos = 0 then []
  else str "." ++ ((padded 9 nanos).reverse.dropWhile (· == 0x30)).reverse

/-- `t.UTC().Format(time.RFC3339Nano)`. -/
def formatNano (t : ℤ) : GoString :=
  let seconds := t / 1000000000
  let (year, month, day) := dateOfDays (seconds / 86400)
  formatYear year ++ str "-" ++ padded 2 month.toNat ++ str "-" ++ padded 2 day.toNat ++ str "T" ++
    padded 2 (seconds / 3600 % 24).toNat ++ str ":" ++ padded 2 (seconds / 60 % 60).toNat ++
    str ":" ++ padded 2 (seconds % 60).toNat ++ formatFraction (t % 1000000000).toNat ++ str "Z"

end HttpCatch.Rfc3339

import HttpCatch.Library.IsoDate
import Mathlib.Tactic.Clear_
import Mathlib.Tactic.IntervalCases
import Mathlib.Tactic.Linarith

/-!
# Instants that are read back from their text

`time.Time` writes itself in RFC 3339 with a fraction as long as it has to be, in the zone it
carries (`Rfc3339.formatNanoIn`), and `Rfc3339.parse` reads such a text.

* `Iso.dateOfDays_spec` — the date of a day is one of the calendar, and it is the date of that day.
* `Rfc3339.parse_formatNanoIn` — an instant of the years 0 to 9999 is read back from its text.
-/

namespace HttpCatch.Iso

/-! ### The calendar -/

/-- The centuries, leap cycles, years and days that make up a day of an era of 400 years, which
starts in March of a year divisible by 400. -/
theorem eraDay {doe : ℤ} (h₀ : 0 ≤ doe) (h₁ : doe < 146097) :
    ∃ c q j k : ℤ, (0 ≤ c ∧ c ≤ 3) ∧ (0 ≤ q ∧ q ≤ 24) ∧ (0 ≤ j ∧ j ≤ 3) ∧ (0 ≤ k ∧ k ≤ 365) ∧
      (k = 365 → j = 3 ∧ (q = 24 → c = 3)) ∧ doe = 36524 * c + (1461 * q + 365 * j + k) := by
  obtain ⟨c, r, hc, hr, hcr⟩ : ∃ c r : ℤ, (0 ≤ c ∧ c ≤ 3) ∧
      (0 ≤ r ∧ r ≤ 36524 ∧ (r = 36524 → c = 3)) ∧ doe = 36524 * c + r := by
    by_cases hlast : doe = 146096
    · exact ⟨3, 36524, by omega, by omega, by omega⟩
    · exact ⟨doe / 36524, doe % 36524, by omega, by omega, by omega⟩
  obtain ⟨j, k, hj, hk, hjk⟩ : ∃ j k : ℤ, (0 ≤ j ∧ j ≤ 3) ∧ (0 ≤ k ∧ k ≤ 365 ∧ (k = 365 → j = 3)) ∧
      r % 1461 = 365 * j + k := by
    by_cases hlast : r % 1461 = 1460
    · exact ⟨3, 365, by omega, by omega, by omega⟩
    · exact ⟨r % 1461 / 365, r % 1461 % 365, by omega, by omega, by omega⟩
  refine ⟨c, r / 1461, j, k, hc, by omega, hj, by omega, ?_, by omega⟩
  intro hleap
  exact ⟨hk.2.2 hleap, by omega⟩

/-- The centuries before a day of the era; its last day would start a fifth. -/
theorem centuriesOfEra {c r : ℤ} (hc : 0 ≤ c ∧ c ≤ 3) (h₀ : 0 ≤ r)
    (hlast : r < 36524 ∨ c = 3 ∧ r = 36524) :
    (36524 * c + r) / 36524 - (36524 * c + r) / 146096 = c := by
  rcases hlast with hlt | ⟨rfl, rfl⟩
  · have hdiv : (36524 * c + r) / 36524 = c := by omega
    have hera : (36524 * c + r) / 146096 = 0 := by omega
    rw [hdiv, hera, sub_zero]
  · rfl

/-- The year of the era, as `dateOfDays` finds it. -/
theorem yearOfEra {c q j k : ℤ} (hc : 0 ≤ c ∧ c ≤ 3) (hq : 0 ≤ q ∧ q ≤ 24) (hj : 0 ≤ j ∧ j ≤ 3)
    (hk : 0 ≤ k ∧ k ≤ 365) (hleap : k = 365 → j = 3 ∧ (q = 24 → c = 3)) :
    let doe := 36524 * c + (1461 * q + 365 * j + k)
    (doe - doe / 1460 + doe / 36524 - doe / 146096) / 365 = 100 * c + 4 * q + j := by
  intro doe
  -- four years have one day more than the divisor, and so the quotient may be one too many
  have hover : 0 ≤ k - (24 * c + q + 365 * j + k) / 1460 ∧
      k - (24 * c + q + 365 * j + k) / 1460 ≤ 364 := by omega
  have hcycles : doe / 1460 = 25 * c + q + (24 * c + q + 365 * j + k) / 1460 := by
    have hdoe : doe = 24 * c + q + 365 * j + k + (25 * c + q) * 1460 := by ring
    rw [hdoe, Int.add_mul_ediv_right _ _ (by decide), add_comm]
  have hcenturies : doe / 36524 - doe / 146096 = c := by
    apply centuriesOfEra hc (by omega)
    clear hover hcycles
    by_cases hk' : k = 365
    · obtain ⟨rfl, hcentury⟩ := hleap hk'
      omega
    · omega
  rw [add_sub_assoc, hcenturies, hcycles]
  generalize (24 * c + q + 365 * j + k) / 1460 = extra at hover
  omega

/-- The day of the month in a year that starts in March. -/
theorem dayOfMonth {k mp : ℤ} (hk : 0 ≤ k ∧ k ≤ 365) (hmp : mp = (5 * k + 2) / 153) :
    (0 ≤ mp ∧ mp ≤ 11) ∧
      (1 ≤ k - (153 * mp + 2) / 5 + 1 ∧ k - (153 * mp + 2) / 5 + 1 ≤ 31) ∧
      (mp = 1 ∨ mp = 3 ∨ mp = 6 ∨ mp = 8 → k - (153 * mp + 2) / 5 + 1 ≤ 30) ∧
      (mp = 11 → k - (153 * mp + 2) / 5 + 1 = k - 336) := by
  have hrange : 0 ≤ mp ∧ mp ≤ 11 := by omega
  have hdiv : 153 * mp ≤ 5 * k + 2 ∧ 5 * k + 2 < 153 * mp + 153 := by omega
  refine ⟨hrange, ?_⟩
  clear hmp
  obtain ⟨hlo, hhi⟩ := hrange
  interval_cases mp <;> omega

/-- The year that ends with a leap day. -/
theorem leapYear {c q : ℤ} (hq : 0 ≤ q ∧ q ≤ 24) (h : q = 24 → c = 3) (era : ℤ) :
    (100 * c + 4 * q + 3 + era * 400 + 1) % 4 = 0 ∧
      ((100 * c + 4 * q + 3 + era * 400 + 1) % 100 ≠ 0 ∨
        (100 * c + 4 * q + 3 + era * 400 + 1) % 400 = 0) := by
  omega

/-- The days of a month. -/
def DayIn (year month day : ℤ) : Prop :=
  1 ≤ day ∧ day ≤ 31 ∧ (month = 4 ∨ month = 6 ∨ month = 9 ∨ month = 11 → day ≤ 30) ∧
    (month = 2 → day ≤ 28 ∨ day = 29 ∧ year % 4 = 0 ∧ (year % 100 ≠ 0 ∨ year % 400 = 0))

/-- The date of a day is one, and it is the date of that day. -/
theorem dateOfDays_spec {days year month day : ℤ} (h : dateOfDays days = (year, month, day)) :
    (1 ≤ month ∧ month ≤ 12) ∧ DayIn year month day ∧ daysOfDate year month day = days := by
  obtain ⟨c, q, j, k, hc, hq, hj, hk, hleap, hdoe⟩ :=
    eraDay (show 0 ≤ (days + 719468) % 146097 by omega) (by omega)
  have hyear : (100 * c + 4 * q + j) / 4 = 25 * c + q ∧ (100 * c + 4 * q + j) / 100 = c := by
    clear hdoe
    omega
  have hera := Int.emod_add_mul_ediv (days + 719468) 146097
  have hyoe := yearOfEra hc hq hj hk hleap
  dsimp only at hyoe
  rw [← hdoe] at hyoe
  rw [hdoe] at hera
  have hdoy : (days + 719468) % 146097 -
      (365 * (100 * c + 4 * q + j) + (25 * c + q) - c) = k := by
    rw [hdoe]
    ring
  unfold dateOfDays at h
  simp only [hyoe, hyear.1, hyear.2, hdoy, Prod.mk.injEq] at h
  generalize (days + 719468) / 146097 = era at h hera
  obtain ⟨mp, hmp⟩ : ∃ mp, mp = (5 * k + 2) / 153 := ⟨_, rfl⟩
  obtain ⟨hrange, hday, hshort, hfeb⟩ := dayOfMonth hk hmp
  rw [← hmp] at h
  clear hyoe hdoe hdoy hmp
  obtain ⟨hy, hm, rfl⟩ := h
  obtain ⟨before, hbefore⟩ : ∃ before, (153 * mp + 2) / 5 = before := ⟨_, rfl⟩
  rw [hbefore] at hday hshort hfeb ⊢
  have hyears : ∀ y, y = 100 * c + 4 * q + j + era * 400 →
      365 * y + y / 4 - y / 100 + y / 400 + before + (k - before + 1) - 719469 = days := by
    rintro y rfl
    have h₄ : (100 * c + 4 * q + j + era * 400) / 4 = 25 * c + q + 100 * era := by
      clear hleap hshort hfeb hera hy hm
      omega
    have h₁₀₀ : (100 * c + 4 * q + j + era * 400) / 100 = c + 4 * era := by
      clear hleap hshort hfeb hera hy hm
      omega
    have h₄₀₀ : (100 * c + 4 * q + j + era * 400) / 400 = era := by
      clear hleap hshort hfeb hera hy hm
      omega
    rw [h₄, h₁₀₀, h₄₀₀]
    linarith
  rcases lt_or_ge mp 10 with hlt | hge
  · rw [if_pos hlt] at hy hm
    rw [if_neg (by omega)] at hy
    subst hm
    refine ⟨by omega, ⟨hday.1, hday.2, fun hmonth => hshort (by omega), by omega⟩, ?_⟩
    rw [daysOfDate, if_neg (by omega), if_pos (by omega), add_sub_cancel_right, hbefore]
    exact hyears year hy.symm
  · -- January and February are at the end of the year
    rw [if_neg (not_lt.2 hge)] at hy hm
    rw [if_pos (by omega)] at hy
    subst hm
    refine ⟨by omega, ⟨hday.1, hday.2, by omega, fun hmonth => ?_⟩, ?_⟩
    · have hend := hfeb (by omega)
      rw [hend, ← hy]
      by_cases hk' : k = 365
      · obtain ⟨rfl, hcentury⟩ := hleap hk'
        exact .inr ⟨by rw [hk']; rfl, leapYear hq hcentury era⟩
      · exact .inl (by omega)
    · rw [daysOfDate, if_pos (by omega), if_neg (by omega), sub_add_cancel, hbefore]
      exact hyears (year - 1) (by omega)

end HttpCatch.Iso

namespace HttpCatch.Rfc3339

open HttpCatch.Go HttpCatch.Iso

/-! ### Writing in a zone -/

/-- The offset as `Format` writes it, in minutes east of UTC. -/
def formatOffset (offset : ℤ) : GoString :=
  if offset = 0 then str "Z"
  else (if offset < 0 then str "-" else str "+") ++ padded 2 (offset.natAbs / 60) ++ str ":" ++
    padded 2 (offset.natAbs % 60)

/-- The date and the time of the day, without the offset. -/
def formatClock (t : ℤ) : GoString :=
  let seconds := t / 1000000000
  let (year, month, day) := dateOfDays (seconds / 86400)
  formatYear year ++ str "-" ++ padded 2 month.toNat ++ str "-" ++ padded 2 day.toNat ++ str "T" ++
    padded 2 (seconds / 3600 % 24).toNat ++ str ":" ++ padded 2 (seconds / 60 % 60).toNat ++
    str ":" ++ padded 2 (seconds % 60).toNat ++ formatFraction (t % 1000000000).toNat

/-- `t.Format(time.RFC3339Nano)` in a zone so many minutes east of UTC. -/
def formatNanoIn (offset t : ℤ) : GoString :=
  formatClock (t + offset * 60000000000) ++ formatOffset offset

/-- The year of an instant in UTC. -/
def yearOf (t : ℤ) : ℤ := (dateOfDays (t / 1000000000 / 86400)).1

/-! ### Reading it back -/

theorem isDigit_digit {d : ℕ} (hd : d < 10) : isDigit (UInt8.ofNat (0x30 + d)) = true := by
  rw [isDigit, Bool.and_eq_true, decide_eq_true_eq, decide_eq_true_eq, UInt8.le_iff_toNat_le,
    UInt8.le_iff_toNat_le, digitByte hd]
  simp only [UInt8.reduceToNat]
  omega

theorem digitValue_digit {d : ℕ} (hd : d < 10) : digitValue (UInt8.ofNat (0x30 + d)) = d := by
  rw [digitValue, digitByte hd]
  omega

theorem isDigit_padded {w n : ℕ} : ∀ b ∈ padded w n, isDigit b = true := by
  intro b hb
  rw [isDigit, Bool.and_eq_true, decide_eq_true_eq, decide_eq_true_eq]
  exact padded_digits b hb

theorem foldl_padded {w n : ℕ} (h : n < 10 ^ w) :
    (padded w n).foldl (fun m b => 10 * m + digitValue b) 0 = n := by
  induction w generalizing n with
  | zero =>
    rw [pow_zero] at h
    exact (Nat.lt_one_iff.1 h).symm
  | succ w ih =>
    rw [pow_succ] at h
    rw [padded, List.foldl_append, ih (by omega), List.foldl_cons, List.foldl_nil,
      digitValue_digit (Nat.mod_lt _ (by decide))]
    omega

theorem getYear_padded {year : ℕ} (h : year < 10000) (rest : GoString) :
    getYear (padded 4 year ++ rest) = some (year, rest) := by
  have hlen : (padded 4 year).length = 4 := length_padded 4 year
  have hdecimal : decimal (padded 4 year) = some year := by
    rw [decimal, if_pos]
    · exact congrArg some (foldl_padded h)
    · rw [Bool.and_eq_true]
      exact ⟨by simp [padded], List.all_eq_true.2 isDigit_padded⟩
  rw [getYear, if_neg (by simp), List.take_left' hlen, List.drop_left' hlen, hdecimal]
  rfl

theorem getnum_padded (fixed : Bool) {n : ℕ} (h : n < 100) (rest : GoString) :
    getnum fixed (padded 2 n ++ rest) = some (n, rest) := by
  have htens : n / 10 % 10 < 10 := Nat.mod_lt _ (by decide)
  have hones : n % 10 < 10 := Nat.mod_lt _ (by decide)
  simp only [padded, List.nil_append, List.cons_append, getnum, isDigit_digit htens,
    isDigit_digit hones, digitValue_digit htens, digitValue_digit hones, Bool.not_true,
    Bool.false_eq_true, if_false, if_true, Option.some.injEq, Prod.mk.injEq, and_true]
  omega

/-- The digits of a fraction without the zeros at their end. -/
theorem exists_zeros (s : GoString) :
    ∃ z, s = (s.reverse.dropWhile (· == 0x30)).reverse ++ List.replicate z 0x30 := by
  refine ⟨(s.reverse.takeWhile (· == 0x30)).length, ?_⟩
  have hzeros : s.reverse.takeWhile (· == 0x30) =
      List.replicate (s.reverse.takeWhile (· == 0x30)).length 0x30 :=
    List.eq_replicate_of_mem fun b hb => by simpa using List.mem_takeWhile_imp hb
  rw [← List.reverse_replicate, ← hzeros, ← List.reverse_append, List.takeWhile_append_dropWhile,
    List.reverse_reverse]

theorem foldl_zeros (n z : ℕ) :
    (List.replicate z (0x30 : UInt8)).foldl (fun m b => 10 * m + digitValue b) n = n * 10 ^ z := by
  induction z generalizing n with
  | zero => simp
  | succ z ih =>
    rw [List.replicate_succ, List.foldl_cons, ih, show digitValue 0x30 = 0 from rfl, pow_succ]
    ring

/-- What may follow the fraction: an offset. -/
def AtOffset (rest : GoString) : Prop :=
  ∃ b s, rest = b :: s ∧ (b = 0x5A ∨ b = 0x2B ∨ b = 0x2D)

theorem atOffset_formatOffset (offset : ℤ) : AtOffset (formatOffset offset) := by
  rw [formatOffset]
  split_ifs with h₀ h₁
  · exact ⟨_, _, rfl, .inl rfl⟩
  · exact ⟨_, _, rfl, .inr (.inr rfl)⟩
  · exact ⟨_, _, rfl, .inr (.inl rfl)⟩

theorem getFraction_formatFraction {nanos : ℕ} (h : nanos < 1000000000) {rest : GoString}
    (hrest : AtOffset rest) : getFraction (formatFraction nanos ++ rest) = (nanos, rest) := by
  obtain ⟨b, s, rfl, hb⟩ := hrest
  have hdigit : isDigit b = false := by rcases hb with rfl | rfl | rfl <;> rfl
  rw [formatFraction]
  split_ifs with h₀
  · have hpoint : ¬(b = 0x2E ∨ b = 0x2C) := by rcases hb with rfl | rfl | rfl <;> decide
    rw [List.nil_append, h₀]
    cases s with
    | nil => rfl
    | cons c s => rw [getFraction, if_neg fun h => hpoint h.1]
  · obtain ⟨z, hz⟩ := exists_zeros (padded 9 nanos)
    generalize ((padded 9 nanos).reverse.dropWhile (· == 0x30)).reverse = ds at hz
    have hlen : ds.length + z = 9 := by
      have := congrArg List.length hz
      rw [length_padded, List.length_append, List.length_replicate] at this
      exact this.symm
    have hvalue : (padded 9 nanos).foldl (fun m b => 10 * m + digitValue b) 0 = nanos :=
      foldl_padded (by omega)
    have hdigits : ∀ c ∈ ds, isDigit c = true := by
      intro c hc
      exact isDigit_padded c (hz ▸ List.mem_append_left _ hc)
    have hspan : (ds ++ b :: s).takeWhile isDigit = ds := by
      rw [List.takeWhile_append_of_pos hdigits, List.takeWhile_cons, hdigit]
      simp
    rw [hz, List.foldl_append, foldl_zeros] at hvalue
    have hne : ds ≠ [] := by
      rintro rfl
      rw [List.foldl_nil, zero_mul] at hvalue
      exact h₀ hvalue.symm
    obtain ⟨d, ds', rfl⟩ := List.exists_cons_of_ne_nil hne
    have hfirst : isDigit d = true := hdigits d List.mem_cons_self
    change getFraction (0x2E :: d :: (ds' ++ b :: s)) = _
    rw [getFraction, if_pos ⟨.inl rfl, hfirst⟩]
    have htake : (d :: ds').take 9 = d :: ds' := List.take_of_length_le (by omega)
    have hzeros : 9 - (d :: ds').length = z := by omega
    have hdrop : (0x2E :: d :: (ds' ++ b :: s)).drop (1 + (d :: ds').length) = b :: s := by
      rw [Nat.add_comm, List.drop_succ_cons, ← List.cons_append, List.drop_left]
    dsimp only
    rw [List.drop_succ_cons, List.drop_zero, ← List.cons_append, hspan, htake, hzeros, hvalue,
      List.cons_append, hdrop]

theorem getOffset_signed {sign : UInt8} (hsign : sign ≠ 0x5A) {hours minutes : ℕ}
    (hhours : hours ≤ 24) (hminutes : minutes ≤ 60) :
    getOffset (sign :: (padded 2 hours ++ 0x3A :: padded 2 minutes)) =
      if sign = 0x2B then some (((hours * 60 + minutes) * 60 : ℤ), [])
      else if sign = 0x2D then some (-((hours * 60 + minutes) * 60 : ℤ), []) else none := by
  have hh := getnum_padded true (show hours < 100 by omega) []
  have hm := getnum_padded true (show minutes < 100 by omega) []
  simp only [padded, List.nil_append, List.cons_append] at hh hm ⊢
  rw [getOffset]
  · rw [hh, hm]
    simp [hhours, hminutes]
  · exact fun h => hsign h

theorem getOffset_formatOffset {offset : ℤ} (h : offset.natAbs < 1440) :
    getOffset (formatOffset offset) = some (offset * 60, []) := by
  rw [formatOffset]
  split_ifs with h₀ hneg
  · rw [h₀]
    rfl
  · refine (@getOffset_signed 0x2D (by decide) _ _ (by omega) (by omega)).trans ?_
    rw [if_neg (by decide), if_pos rfl]
    exact congrArg (fun n : ℤ => some (n, [])) (by omega)
  · refine (@getOffset_signed 0x2B (by decide) _ _ (by omega) (by omega)).trans ?_
    rw [if_pos rfl]
    exact congrArg (fun n : ℤ => some (n, [])) (by omega)

theorem le_daysIn {year month day : ℕ} (h : DayIn year month day) : day ≤ daysIn month year := by
  obtain ⟨-, h31, h30, hfeb⟩ := h
  rw [daysIn]
  split_ifs with h₁ h₂ h₃
  · rcases hfeb (by omega) with h | h <;> omega
  · rcases hfeb (by omega) with h | ⟨-, h₄, h₁₀₀⟩
    · omega
    · exact absurd ⟨by omega, by omega⟩ h₂
  · have := h30 (by omega)
    omega
  · omega

theorem bind_of_eq {α β : Type} {x : Option α} {a : α} {f : α → Option β} {y : Option β}
    (hx : x = some a) (hf : f a = y) : (x >>= f) = y := by
  rw [hx, ← hf]
  rfl

theorem skipByte_self (c : UInt8) (s : GoString) : skipByte c (c :: s) = some s := if_pos rfl

/-- A text made of its parts. -/
theorem parse_parts {year month day hour minute second nanos : ℕ} {offset : ℤ}
    (hyear : year < 10000) (hmonth : 1 ≤ month ∧ month ≤ 12) (hday : DayIn year month day)
    (hhour : hour < 24) (hminute : minute < 60) (hsecond : second < 60)
    (hnanos : nanos < 1000000000) (hoffset : offset.natAbs < 1440) :
    parse (padded 4 year ++ 0x2D :: (padded 2 month ++ 0x2D :: (padded 2 day ++ 0x54 ::
      (padded 2 hour ++ 0x3A :: (padded 2 minute ++ 0x3A :: (padded 2 second ++
        (formatFraction nanos ++ formatOffset offset))))))) =
      some ((((daysOfDate year month day * 24 + hour) * 60 + minute) * 60 + second - offset * 60) *
        1000000000 + nanos) := by
  have hday₁ : 1 ≤ day := by
    have := hday.1
    omega
  have hday₂ : day < 100 := by
    have := hday.2.1
    omega
  refine bind_of_eq (getYear_padded hyear _) ?_
  refine bind_of_eq (skipByte_self _ _) (bind_of_eq (getnum_padded _ (by omega) _) ?_)
  refine bind_of_eq (skipByte_self _ _) (bind_of_eq (getnum_padded _ hday₂ _) ?_)
  refine bind_of_eq (skipByte_self _ _) (bind_of_eq (getnum_padded _ (by omega) _) ?_)
  refine bind_of_eq (skipByte_self _ _) (bind_of_eq (getnum_padded _ (by omega) _) ?_)
  refine bind_of_eq (skipByte_self _ _) (bind_of_eq (getnum_padded _ (by omega) _) ?_)
  dsimp only
  rw [getFraction_formatFraction hnanos (atOffset_formatOffset offset)]
  refine bind_of_eq (getOffset_formatOffset hoffset) ?_
  dsimp only
  rw [guard, if_pos ⟨rfl, hmonth.1, hmonth.2, hhour, hminute, hsecond, hday₁, le_daysIn hday⟩]
  rfl

/-- **An instant is read back from its text**, if its year has four digits where it is written and
the offset is less than a day. -/
theorem parse_formatNanoIn {offset t : ℤ} (hoffset : offset.natAbs < 1440)
    (hlo : 0 ≤ yearOf (t + offset * 60000000000)) (hhi : yearOf (t + offset * 60000000000) ≤ 9999) :
    parse (formatNanoIn offset t) = some t := by
  rw [formatNanoIn, formatClock]
  rw [yearOf] at hlo hhi
  obtain ⟨clock, hclock⟩ : ∃ clock, t + offset * 60000000000 = clock := ⟨_, rfl⟩
  rw [hclock] at hlo hhi ⊢
  obtain ⟨seconds, hseconds⟩ : ∃ n, clock / 1000000000 = n := ⟨_, rfl⟩
  rw [hseconds] at hlo hhi ⊢
  obtain ⟨⟨year, month, day⟩, hdate⟩ : ∃ date, dateOfDays (seconds / 86400) = date := ⟨_, rfl⟩
  rw [hdate] at hlo hhi ⊢
  obtain ⟨hmonth, hday, hdays⟩ := dateOfDays_spec hdate
  lift year to ℕ using hlo
  lift month to ℕ using by omega
  lift day to ℕ using by have := hday.1; omega
  have hyear : formatYear year = padded 4 year := by
    rw [formatYear, if_neg (by omega), Int.natAbs_natCast, if_pos (by omega)]
    rfl
  dsimp only at hhi ⊢
  rw [hyear]
  simp only [str, List.append_assoc]
  refine (parse_parts (by omega) (by omega) hday (by omega) (by omega) (by omega) (by omega)
    hoffset).trans ?_
  rw [hdays]
  congr 1
  omega

/-! ### The bytes of the text -/

theorem padded_ascii (w n : ℕ) : (padded w n).all (· < 0x80) = true := by
  rw [List.all_eq_true]
  intro b hb
  exact decide_eq_true (lt_of_le_of_lt (padded_digits b hb).2 (by decide))

theorem formatYear_ascii (year : ℤ) : (formatYear year).all (· < 0x80) = true := by
  have hdigits : (digitsOf year.natAbs).all (· < 0x80) = true := by
    rw [List.all_eq_true]
    intro b hb
    exact decide_eq_true (lt_of_le_of_lt (digitsOf_bytes _ b hb).2 (by decide))
  rw [formatYear, List.all_append, Bool.and_eq_true]
  constructor
  · split_ifs <;> rfl
  · split_ifs
    · exact padded_ascii _ _
    · exact hdigits

theorem formatFraction_ascii (nanos : ℕ) : (formatFraction nanos).all (· < 0x80) = true := by
  rw [formatFraction]
  split_ifs
  · rfl
  · obtain ⟨z, hz⟩ := exists_zeros (padded 9 nanos)
    have h := padded_ascii 9 nanos
    rw [hz, List.all_append, Bool.and_eq_true] at h
    rw [List.all_append, h.1]
    rfl

theorem formatOffset_ascii (offset : ℤ) : (formatOffset offset).all (· < 0x80) = true := by
  rw [formatOffset]
  split_ifs
  · rfl
  all_goals simp [padded_ascii, str]

theorem formatNanoIn_ascii (offset t : ℤ) : (formatNanoIn offset t).all (· < 0x80) = true := by
  simp only [formatNanoIn, formatClock, List.all_append, formatYear_ascii, padded_ascii,
    formatFraction_ascii, formatOffset_ascii]
  rfl

end HttpCatch.Rfc3339

import HttpCatch.Library.GoString
import Mathlib.Data.Nat.Digits.Lemmas

/-!
# Decimal numbers as text

`strconv.Atoi`, which on a 64-bit machine is `strconv.ParseInt(s, 10, 64)`, and the verb `%d`.
`atoi_sprintDecimal` says that the two are inverse on the numbers of an `int64`.
-/

namespace HttpCatch.Go

/-- A non-empty string of decimal digits, as a number. -/
def decimal (s : GoString) : Option ℕ :=
  if s ≠ [] && s.all fun b => 0x30 ≤ b && b ≤ 0x39 then
    some (s.foldl (fun n b => 10 * n + (b.toNat - 0x30)) 0)
  else none

/-- `strconv.Atoi`: an optional sign and digits, in the range of a 64-bit `int`. -/
def atoi (s : GoString) : Option ℤ :=
  let n := match s with
    | 0x2D :: t => (decimal t).map fun n : ℕ => -(n : ℤ)
    | 0x2B :: t => (decimal t).map fun n : ℕ => (n : ℤ)
    | s => (decimal s).map fun n : ℕ => (n : ℤ)
  n.filter fun n => -2 ^ 63 ≤ n ∧ n < 2 ^ 63

/-- The digits of a natural number. -/
def digitsOf (n : ℕ) : GoString :=
  if n = 0 then [0x30] else (Nat.digits 10 n).reverse.map fun d => UInt8.ofNat (0x30 + d)

/-- `fmt.Sprintf("%d", n)`. -/
def sprintDecimal (n : ℤ) : GoString := (if n < 0 then [0x2D] else []) ++ digitsOf n.natAbs

theorem digitByte {d : ℕ} (hd : d < 10) : (UInt8.ofNat (0x30 + d)).toNat = 0x30 + d := by
  rw [UInt8.toNat_ofNat']
  omega

/-- Reading decimal digits gives the number they were made of. -/
theorem foldl_digits {ds : List ℕ} (h : ∀ d ∈ ds, d < 10) :
    (ds.reverse.map fun d => UInt8.ofNat (0x30 + d)).foldl (fun n b => 10 * n + (b.toNat - 0x30))
      0 = Nat.ofDigits 10 ds := by
  rw [List.foldl_map, List.foldl_reverse]
  induction ds with
  | nil => rfl
  | cons d ds ih =>
    obtain ⟨hd, hds⟩ := List.forall_mem_cons.mp h
    rw [List.foldr_cons, ih hds, digitByte hd, Nat.ofDigits_cons]
    omega

theorem digitsOf_ne_nil (n : ℕ) : digitsOf n ≠ [] := by
  rw [digitsOf]
  split_ifs with h
  · simp
  · simpa [Nat.digits_eq_nil_iff_eq_zero] using h

theorem digitsOf_bytes (n : ℕ) : ∀ c ∈ digitsOf n, 0x30 ≤ c ∧ c ≤ 0x39 := by
  intro c hc
  rw [digitsOf] at hc
  split_ifs at hc with h
  · rw [List.mem_singleton.mp hc]
    decide
  · obtain ⟨d, hd, rfl⟩ := List.mem_map.mp hc
    have hd : d < 10 := Nat.digits_lt_base (by decide) (List.mem_reverse.mp hd)
    rw [UInt8.le_iff_toNat_le, UInt8.le_iff_toNat_le, digitByte hd]
    simp only [UInt8.reduceToNat]
    omega

theorem decimal_digitsOf (n : ℕ) : decimal (digitsOf n) = some n := by
  rw [decimal, if_pos]
  · rw [digitsOf]
    split_ifs with h
    · rw [h]
      rfl
    · rw [foldl_digits fun d hd => Nat.digits_lt_base (by decide) hd, Nat.ofDigits_digits]
  · rw [Bool.and_eq_true]
    refine ⟨decide_eq_true (digitsOf_ne_nil n), List.all_eq_true.mpr fun c hc => ?_⟩
    simpa using digitsOf_bytes n c hc

/-- The first digit is no sign. -/
theorem atoi_digitsOf (n : ℕ) :
    atoi (digitsOf n) = (some (n : ℤ)).filter fun n => -2 ^ 63 ≤ n ∧ n < 2 ^ 63 := by
  have hfirst : ∀ c t, digitsOf n = c :: t → c ≠ 0x2D ∧ c ≠ 0x2B := by
    intro c t hct
    have hc := digitsOf_bytes n c (by simp [hct])
    refine ⟨?_, ?_⟩ <;> rintro rfl <;> revert hc <;> decide
  rw [atoi]
  · rw [decimal_digitsOf]
    rfl
  · exact fun t ht => (hfirst _ t ht).1 rfl
  · exact fun t ht => (hfirst _ t ht).2 rfl

/-- **A number of an `int64` is read back from its text.** -/
theorem atoi_sprintDecimal {n : ℤ} (hlo : -2 ^ 63 ≤ n) (hhi : n < 2 ^ 63) :
    atoi (sprintDecimal n) = some n := by
  rw [sprintDecimal]
  split_ifs with h
  · have hn : -(n.natAbs : ℤ) = n := by omega
    rw [List.singleton_append, atoi, decimal_digitsOf, Option.map_some, hn,
      Option.filter_some, if_pos]
    exact decide_eq_true ⟨hlo, hhi⟩
  · have hn : (n.natAbs : ℤ) = n := by omega
    rw [List.nil_append, atoi_digitsOf, hn, Option.filter_some, if_pos]
    exact decide_eq_true ⟨hlo, hhi⟩

end HttpCatch.Go

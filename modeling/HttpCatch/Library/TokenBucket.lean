import Mathlib.Algebra.Order.Field.Basic
import Mathlib.Algebra.Order.Ring.Cast
import Mathlib.Tactic.Linarith
import Mathlib.Tactic.Ring

/-!
# Token buckets

A bucket of some capacity is refilled at a constant rate, and every spend takes one token out
of it. Instants are whole ticks of a clock; the rate is in tokens for each tick.

`Budget` is the invariant that bounds the spends: the tokens that are left, together with those
spent since some instant, are no more than a full bucket and what was refilled since that
instant. It holds of a bucket with no spends (`budget_nil`), it is kept by spending a token
(`Budget.spend`), and a bucket with a token left has room for one more spend in every window
(`Budget.window`).

`Whole` is the invariant behind waiting: levels are whole numbers of what one tick refills, so that
the first token comes after a whole number of ticks (`exists_wait`).
-/

namespace HttpCatch.TokenBucket

variable {K : Type*} [Field K] [LinearOrder K]
variable {capacity rate tokens : K} {level level' : ℤ → K} {spent : List ℤ} {now : ℤ}

/-- The level of a bucket after some time. -/
def refill (capacity rate tokens elapsed : K) : K := min capacity (tokens + elapsed * rate)

theorem refill_le_capacity (elapsed : K) : refill capacity rate tokens elapsed ≤ capacity :=
  min_le_left _ _

theorem refill_le_add (elapsed : K) :
    refill capacity rate tokens elapsed ≤ tokens + elapsed * rate := min_le_right _ _

/-- A bucket that had the time to fill up is full. -/
theorem refill_eq_capacity {elapsed : K} (h : capacity ≤ tokens + elapsed * rate) :
    refill capacity rate tokens elapsed = capacity :=
  min_eq_left h

variable [IsStrictOrderedRing K]

theorem refill_mono (hr : 0 ≤ rate) {e e' : K} (h : e ≤ e') :
    refill capacity rate tokens e ≤ refill capacity rate tokens e' :=
  min_le_min_left _ (by linarith [mul_le_mul_of_nonneg_right h hr])

/-- Time takes no tokens out of a bucket. -/
theorem min_le_refill (hr : 0 ≤ rate) {elapsed : K} (h : 0 ≤ elapsed) :
    min capacity tokens ≤ refill capacity rate tokens elapsed :=
  min_le_min_left _ (by linarith [mul_nonneg h hr])

/-- From `now` on: what is left and what was spent since `a` is at most a full bucket and what
was refilled since `a`. -/
def Budget (capacity rate : K) (level : ℤ → K) (spent : List ℤ) (now : ℤ) : Prop :=
  ∀ a t, a ≤ t → now ≤ t → level t + (spent.countP (a ≤ ·) : ℕ) ≤
    capacity + ((t - a : ℤ) : K) * rate

theorem budget_nil (hr : 0 ≤ rate) (hlevel : ∀ t, level t ≤ capacity) (now : ℤ) :
    Budget capacity rate level [] now := by
  intro a t hat _
  have hta : (0 : K) ≤ ((t - a : ℤ) : K) := Int.cast_nonneg (by omega)
  have := mul_nonneg hta hr
  simp only [List.countP_nil, Nat.cast_zero, add_zero]
  linarith [hlevel t]

theorem Budget.mono (h : Budget capacity rate level spent now) {now' : ℤ} (hnow : now ≤ now')
    (hlevel : ∀ t, now' ≤ t → level' t ≤ level t) : Budget capacity rate level' spent now' := by
  intro a t hat ht
  linarith [h a t hat (hnow.trans ht), hlevel t ht]

/-- A spend that was admitted at `t₀` and is made now. -/
theorem Budget.spend (h : Budget capacity rate level spent now) (hr : 0 ≤ rate) {t₀ : ℤ}
    (ht₀ : t₀ ≤ now) (hspent : ∀ t ∈ spent, t ≤ now) (hcap : ∀ t, level' t ≤ capacity)
    (hlevel : ∀ t, now ≤ t → level' t ≤ level now - 1 + ((t - now : ℤ) : K) * rate) :
    Budget capacity rate level' (t₀ :: spent) now := by
  intro a t hat ht
  by_cases ha : a ≤ now
  · -- the window goes back before the spend
    have hnow := h a now ha le_rfl
    have hsplit : ((t - a : ℤ) : K) = ((t - now : ℤ) : K) + ((now - a : ℤ) : K) := by
      rw [← Int.cast_add]
      congr 1
      omega
    have hcount : (((t₀ :: spent).countP (a ≤ ·) : ℕ) : K) ≤
        ((spent.countP (a ≤ ·) : ℕ) : K) + 1 := by
      rw [List.countP_cons]
      split_ifs <;> simp
    rw [hsplit, add_mul]
    linarith [hlevel t ht]
  · -- all spends are before the window
    have hcount : (t₀ :: spent).countP (a ≤ ·) = 0 := by
      rw [List.countP_eq_zero]
      intro x hx
      have hxnow : x ≤ now := by
        rcases List.mem_cons.mp hx with rfl | hx
        · exact ht₀
        · exact hspent x hx
      simp only [decide_eq_true_eq]
      omega
    have hta : (0 : K) ≤ ((t - a : ℤ) : K) := Int.cast_nonneg (by omega)
    have := mul_nonneg hta hr
    rw [hcount, Nat.cast_zero, add_zero]
    linarith [hcap t]

/-- With a token left, there is room for a spend in every window. -/
theorem Budget.window (h : Budget capacity rate level spent now) (hr : 0 ≤ rate)
    (htoken : 1 ≤ level now) {a b : ℤ} (ha : a ≤ now) (hb : now ≤ b) :
    (((now :: spent).countP fun t => a ≤ t ∧ t ≤ b : ℕ) : K) ≤
      capacity + ((b - a : ℤ) : K) * rate := by
  have hbound := h a now ha le_rfl
  have hcount : (spent.countP fun t => a ≤ t ∧ t ≤ b) ≤ spent.countP (a ≤ ·) := by
    apply List.countP_mono_left
    intro t _ ht
    simp only [decide_eq_true_eq] at ht ⊢
    exact ht.1
  have hcount' : ((spent.countP fun t => a ≤ t ∧ t ≤ b : ℕ) : K) ≤
      ((spent.countP (a ≤ ·) : ℕ) : K) :=
    Nat.cast_le.mpr hcount
  have hlen : ((now - a : ℤ) : K) * rate ≤ ((b - a : ℤ) : K) * rate :=
    mul_le_mul_of_nonneg_right (Int.cast_le.mpr (by omega)) hr
  rw [List.countP_cons, if_pos (by simp [ha, hb]), Nat.cast_add, Nat.cast_one]
  linarith

/-! ### Waiting for a token -/

/-- The bucket fills by at most what time brings. -/
theorem refill_le_refill_add (hr : 0 ≤ rate) {e e' d : K} (hd : 0 ≤ d) (h : e' ≤ e + d) :
    refill capacity rate tokens e' ≤ refill capacity rate tokens e + d * rate := by
  have hdr := mul_nonneg hd hr
  have hmul := mul_le_mul_of_nonneg_right h hr
  rw [refill, refill, min_add]
  exact min_le_min (by linarith) (by linarith)

/-- As long as it is not full, a bucket fills by what time brings. -/
theorem min_le_refill_add (hr : 0 ≤ rate) {e d : K} (hd : 0 ≤ d) :
    min capacity (refill capacity rate tokens e + d * rate) ≤
      refill capacity rate tokens (e + d) := by
  have hdr := mul_nonneg hd hr
  rw [refill, refill, min_add]
  apply le_min (min_le_left _ _)
  refine (min_le_right _ _).trans ((min_le_right _ _).trans ?_)
  linarith

/-- A whole number of what one tick refills. -/
def Whole (rate level : K) : Prop := ∃ n : ℤ, level = n * rate

omit [LinearOrder K] [IsStrictOrderedRing K] in
theorem Whole.sub {level' : K} (h : Whole rate tokens) (h' : Whole rate level') :
    Whole rate (tokens - level') := by
  obtain ⟨n, rfl⟩ := h
  obtain ⟨m, rfl⟩ := h'
  exact ⟨n - m, by push_cast; ring⟩

omit [IsStrictOrderedRing K] in
theorem Whole.refill (hcap : Whole rate capacity) (h : Whole rate tokens) (elapsed : ℤ) :
    Whole rate (refill capacity rate tokens elapsed) := by
  rw [TokenBucket.refill, min_def]
  split_ifs
  · exact hcap
  · obtain ⟨n, rfl⟩ := h
    exact ⟨n + elapsed, by push_cast; ring⟩

/-- A whole level lacks a whole number of ticks to a token. -/
theorem exists_wait (hr : 0 < rate) (hone : Whole rate 1) (h : Whole rate tokens) :
    ∃ n : ℤ, (1 - tokens) / rate = n ∧ ∀ d : ℤ, 1 ≤ tokens + d * rate ↔ n ≤ d := by
  obtain ⟨n, hn⟩ := hone.sub h
  refine ⟨n, by rw [hn, mul_div_cancel_right₀ _ hr.ne'], fun d => ?_⟩
  rw [← sub_le_iff_le_add', hn, mul_le_mul_iff_left₀ hr, Int.cast_le]

end HttpCatch.TokenBucket

import HttpCatch.Admin.AuthLimit

/-!
# How long a client has to wait

`RetryAfter` computes a wait in seconds from the levels of two buckets, cuts it to nanoseconds and
rounds it up to whole seconds, one at least. Cutting loses nothing: each level is a whole number of
what a nanosecond refills (`AuthLimiter.Timely`), so the first token comes at a whole nanosecond.

* `allowed_iff_ticks` — at which instants `Allowed` is true, as long as no failure is registered.
* `retryAfter_exact` — `RetryAfter` is the least whole number of seconds after which it is.
-/

namespace HttpCatch.Admin

open HttpCatch.Go HttpCatch.Capture

/-! ### One bucket -/

/-- What the two kinds of bucket have in common; `perSec` is what a second refills. -/
structure Tuned (capacity perSec : ℚ) : Prop where
  sec_pos : 0 < perSec
  one_le : 1 ≤ capacity
  whole_one : TokenBucket.Whole (perSec / 10 ^ 9) 1
  whole_capacity : TokenBucket.Whole (perSec / 10 ^ 9) capacity
  /-- The longest time that `time.Time.Sub` can tell fills the bucket. -/
  fills : capacity ≤ -1 + ((2 ^ 63 - 1 : ℤ) : ℚ) * (perSec / 10 ^ 9)

theorem Tuned.rate_pos {capacity perSec : ℚ} (h : Tuned capacity perSec) : 0 < perSec / 10 ^ 9 :=
  div_pos h.sec_pos (by norm_num)

theorem tuned_perIP : Tuned authLimitPerIPCapacity perIPRefillRate where
  sec_pos := by norm_num [perIPRefillRate]
  one_le := by norm_num [authLimitPerIPCapacity]
  whole_one := ⟨6 * 10 ^ 9, by norm_num [perIPRefillRate]⟩
  whole_capacity := ⟨30 * 10 ^ 9, by norm_num [perIPRefillRate, authLimitPerIPCapacity]⟩
  fills := by norm_num [perIPRefillRate, authLimitPerIPCapacity]

theorem tuned_global : Tuned authLimitGlobalCapacity globalRefillRate where
  sec_pos := by norm_num [globalRefillRate]
  one_le := by norm_num [authLimitGlobalCapacity]
  whole_one := ⟨5 * 10 ^ 7, by norm_num [globalRefillRate]⟩
  whole_capacity := ⟨10 ^ 9, by norm_num [globalRefillRate, authLimitGlobalCapacity]⟩
  fills := by norm_num [globalRefillRate, authLimitGlobalCapacity]

/-- What every bucket of a limiter is like at `now`: its level is whole, overdrawn by less than a
token, and it was written before `now`, if it is not a new one. -/
structure AuthBucket.Timely (capacity perSec : ℚ) (now : ℤ) (b : AuthBucket) : Prop where
  whole : TokenBucket.Whole (perSec / 10 ^ 9) b.tokens
  overdrawn : -1 < b.tokens
  seen : b.lastSeen ≤ now ∨ b.tokens = capacity

/-- The nanoseconds that `refillTokens` counts. -/
def AuthBucket.elapsed (b : AuthBucket) (now : ℤ) : ℤ := max 0 (timeSub now b.lastSeen)

section Bucket

variable {capacity perSec : ℚ} {now t t' : ℤ} {b : AuthBucket}

/-- `refillTokens` is the refill of a token bucket, in nanoseconds. -/
theorem refillTokens_ticks (b : AuthBucket) (capacity perSec : ℚ) (now : ℤ) :
    refillTokens b capacity perSec now =
      TokenBucket.refill capacity (perSec / 10 ^ 9) b.tokens (b.elapsed now) := by
  have hmax : max 0 ((timeSub now b.lastSeen : ℚ) / 10 ^ 9) = (b.elapsed now : ℚ) / 10 ^ 9 := by
    rw [AuthBucket.elapsed, Int.cast_max, Int.cast_zero, ← max_div_div_right (by norm_num),
      zero_div]
  rw [refillTokens_eq, hmax, TokenBucket.refill, TokenBucket.refill, div_mul_eq_mul_div,
    mul_div_assoc]

theorem AuthBucket.elapsed_le_add (b : AuthBucket) (h : t ≤ t') :
    b.elapsed t' ≤ b.elapsed t + (t' - t) := by
  simp only [elapsed, timeSub]
  omega

/-- The count goes on with the clock, until it is as long as it can be. -/
theorem AuthBucket.elapsed_cases (h : b.lastSeen ≤ t) (ht : t ≤ t') :
    b.elapsed t' = b.elapsed t + (t' - t) ∨ b.elapsed t' = 2 ^ 63 - 1 := by
  simp only [elapsed, timeSub]
  omega

namespace AuthBucket.Timely

theorem mono (hb : b.Timely capacity perSec now) (h : now ≤ t) : b.Timely capacity perSec t :=
  ⟨hb.whole, hb.overdrawn, hb.seen.imp_left h.trans'⟩

theorem whole_level (hb : b.Timely capacity perSec now) (hp : Tuned capacity perSec) (t : ℤ) :
    TokenBucket.Whole (perSec / 10 ^ 9) (refillTokens b capacity perSec t) := by
  rw [refillTokens_ticks]
  exact hp.whole_capacity.refill hb.whole _

theorem overdrawn_level (hb : b.Timely capacity perSec now) (hp : Tuned capacity perSec) (t : ℤ) :
    -1 < refillTokens b capacity perSec t := by
  rw [refillTokens_ticks]
  have helapsed : (0 : ℚ) ≤ b.elapsed t := Int.cast_nonneg (le_max_left _ _)
  refine lt_of_lt_of_le ?_ (TokenBucket.min_le_refill hp.rate_pos.le helapsed)
  exact lt_min (by linarith [hp.one_le]) hb.overdrawn

/-- As long as it is not full, the bucket fills by what time brings. -/
theorem min_le_level (hb : b.Timely capacity perSec t) (hp : Tuned capacity perSec) (h : t ≤ t') :
    min capacity (refillTokens b capacity perSec t + ((t' - t : ℤ) : ℚ) * (perSec / 10 ^ 9)) ≤
      refillTokens b capacity perSec t' := by
  have hr := hp.rate_pos.le
  rw [refillTokens_ticks, refillTokens_ticks]
  have hfull : ∀ e : ℤ, capacity ≤ b.tokens + (e : ℚ) * (perSec / 10 ^ 9) →
      min capacity (TokenBucket.refill capacity (perSec / 10 ^ 9) b.tokens (b.elapsed t) +
        ((t' - t : ℤ) : ℚ) * (perSec / 10 ^ 9)) ≤
      TokenBucket.refill capacity (perSec / 10 ^ 9) b.tokens e := by
    intro e he
    rw [TokenBucket.refill_eq_capacity he]
    exact min_le_left _ _
  rcases hb.seen with hseen | hcap
  · rcases elapsed_cases hseen h with heq | heq
    · rw [heq, Int.cast_add]
      exact TokenBucket.min_le_refill_add hr (Int.cast_nonneg (by omega))
    · rw [heq]
      exact hfull _ (by linarith [hp.fills, hb.overdrawn])
  · -- a new bucket is full
    have helapsed : (0 : ℚ) ≤ b.elapsed t' := Int.cast_nonneg (le_max_left _ _)
    exact hfull _ (by rw [hcap]; linarith [mul_nonneg helapsed hr])

/-- **When a bucket has a token**: after the wait that `RetryAfter` computes from its level, which
is a whole number of nanoseconds. -/
theorem token_iff (hb : b.Timely capacity perSec t) (hp : Tuned capacity perSec) :
    ∃ n : ℤ, 0 ≤ n ∧ AuthLimiter.wait (refillTokens b capacity perSec t) perSec * 10 ^ 9 = n ∧
      ∀ t', t ≤ t' → (1 ≤ refillTokens b capacity perSec t' ↔ n ≤ t' - t) := by
  have hr := hp.rate_pos
  obtain ⟨n, hn, hiff⟩ :=
    TokenBucket.exists_wait hr hp.whole_one (hb.whole_level hp t)
  by_cases hlt : refillTokens b capacity perSec t < 1
  · have hwait : AuthLimiter.wait (refillTokens b capacity perSec t) perSec * 10 ^ 9 = n := by
      rw [AuthLimiter.wait, if_pos ⟨hlt, hp.sec_pos⟩, ← hn, div_div_eq_mul_div, div_mul_eq_mul_div]
    have hpos : 0 ≤ n := by
      by_contra hneg
      have := (hiff 0).mpr (by omega)
      rw [Int.cast_zero, zero_mul, add_zero] at this
      exact absurd this (not_le.mpr hlt)
    refine ⟨n, hpos, hwait, fun t' ht => ?_⟩
    rw [← hiff]
    constructor
    · intro hone
      refine hone.trans ?_
      rw [refillTokens_ticks, refillTokens_ticks]
      refine TokenBucket.refill_le_refill_add hr.le (Int.cast_nonneg (by omega)) ?_
      rw [← Int.cast_add]
      exact Int.cast_le.mpr (elapsed_le_add b ht)
    · intro hone
      exact (le_min hp.one_le hone).trans (hb.min_le_level hp ht)
  · rw [not_lt] at hlt
    refine ⟨0, le_rfl, ?_, fun t' ht => ?_⟩
    · rw [AuthLimiter.wait, if_neg fun h => absurd h.1 (not_lt.mpr hlt), zero_mul, Int.cast_zero]
    · refine iff_of_true (hlt.trans ?_) (by omega)
      exact refillTokens_mono b capacity hp.sec_pos.le ht

theorem debit (hb : b.Timely capacity perSec now) (hp : Tuned capacity perSec) (t : ℤ) :
    AuthBucket.Timely capacity perSec t
      ⟨AuthLimiter.debit (refillTokens b capacity perSec t), t⟩ where
  whole := by
    rw [AuthLimiter.debit]
    split_ifs
    · exact (hb.whole_level hp t).sub hp.whole_one
    · exact hb.whole_level hp t
  overdrawn := by
    have := hb.overdrawn_level hp t
    simp only [AuthLimiter.debit]
    split_ifs <;> linarith
  seen := .inl le_rfl

end AuthBucket.Timely

end Bucket

/-! ### The limiter -/

namespace AuthLimiter

/-- Every bucket of the limiter is `Timely`. -/
structure Timely (l : AuthLimiter) (now : ℤ) : Prop where
  perIP : ∀ ip b, l.perIP ip = some b → b.Timely authLimitPerIPCapacity perIPRefillRate now
  global : l.global.Timely authLimitGlobalCapacity globalRefillRate now

/-- The limiter after a sequence of calls, with their instants. -/
def run (l : AuthLimiter) (ops : List (ℤ × Op)) : AuthLimiter :=
  ops.foldl (fun l op => l.step op.1 op.2) l

variable {l l' : AuthLimiter} {ip : GoString} {now t t' : ℤ}

theorem timely_new (now : ℤ) : newAuthLimiter.Timely now where
  perIP := fun ip b hb => by cases hb
  global := ⟨tuned_global.whole_capacity, by norm_num [newAuthLimiter, authLimitGlobalCapacity],
    .inr rfl⟩

theorem Timely.mono (hl : l.Timely now) (h : now ≤ t) : l.Timely t :=
  ⟨fun ip b hb => (hl.perIP ip b hb).mono h, hl.global.mono h⟩

theorem Timely.sound (hl : l.Timely now) : l.Sound := fun ip b hb => (hl.perIP ip b hb).overdrawn

/-- A full bucket is as good as none. -/
theorem timely_full (ht : now ≤ t) :
    AuthBucket.Timely authLimitPerIPCapacity perIPRefillRate t ⟨authLimitPerIPCapacity, now⟩ :=
  ⟨tuned_perIP.whole_capacity, by norm_num [authLimitPerIPCapacity], .inl ht⟩

theorem Timely.update (hl : l.Timely now) {b : AuthBucket}
    (hb : b.Timely authLimitPerIPCapacity perIPRefillRate now) (ip : GoString) :
    Timely { l with perIP := Function.update l.perIP ip (some b) } now := by
  refine ⟨fun ip' b' hb' => ?_, hl.global⟩
  by_cases hip : ip' = ip
  · subst hip
    simp only [Function.update_self, Option.some.injEq] at hb'
    exact hb' ▸ hb
  · simp only [Function.update_of_ne hip] at hb'
    exact hl.perIP ip' b' hb'

/-- The bucket that `RegisterFailure` leaves for the address. -/
theorem Timely.debit_level (hl : l.Timely now) (ip : GoString) (t : ℤ) :
    AuthBucket.Timely authLimitPerIPCapacity perIPRefillRate t ⟨debit (l.level ip t), t⟩ := by
  rw [level]
  cases hb : l.perIP ip with
  | none =>
    have heq := @refillTokens_full ⟨authLimitPerIPCapacity, t⟩ t (.inl rfl) t le_rfl
    have h := (timely_full (le_refl t)).debit tuned_perIP t
    rwa [heq] at h
  | some b => exact (hl.perIP ip b hb).debit tuned_perIP t

/-- One call keeps the limiter timely. -/
theorem Timely.step (hl : l.Timely now) (h : now ≤ t) (op : Op) : (l.step t op).Timely t := by
  have hl' := hl.mono h
  cases op with
  | allowed ip =>
    rcases allowed_snd l ip t with heq | ⟨-, heq⟩
    · simpa only [AuthLimiter.step, heq] using hl'
    · simpa only [AuthLimiter.step, heq] using hl'.update (timely_full le_rfl) ip
  | registerFailure ip =>
    have hip := hl'.update (hl.debit_level ip t) ip
    rw [AuthLimiter.step, registerFailure_eq]
    exact ⟨hip.perIP, hl.global.debit tuned_global t⟩
  | retryAfter ip => exact hl'
  | sweep =>
    refine ⟨fun ip b hb => ?_, hl'.global⟩
    exact hl'.perIP ip b (Option.filter_eq_some_iff.mp hb).1

/-- So does every sequence of calls under a clock that never goes back. -/
theorem Timely.run (hl : l.Timely now) {ops : List (ℤ × Op)}
    (hops : (now :: ops.map Prod.fst).Pairwise (· ≤ ·)) (ht : ∀ op ∈ ops, op.1 ≤ t)
    (hnow : now ≤ t) : (l.run ops).Timely t := by
  induction ops generalizing l now with
  | nil => exact hl.mono hnow
  | cons op ops ih =>
    rw [List.map_cons, List.pairwise_cons] at hops
    obtain ⟨hfirst, hrest⟩ := hops
    obtain ⟨hop, hlater⟩ := List.forall_mem_cons.mp ht
    exact ih (hl.step (hfirst _ List.mem_cons_self) op.2) hrest hlater hop

/-- Calls that register no failure cannot be told from no calls. -/
theorem similar_run (hl : l.Sound) {ops : List (ℤ × Op)}
    (hops : ∀ op ∈ ops, op.1 ≤ t ∧ ∀ ip, op.2 ≠ .registerFailure ip) :
    (l.run ops).Sound ∧ (l.run ops).global = l.global ∧
      ∀ ip t', t ≤ t' → (l.run ops).level ip t' = l.level ip t' := by
  induction ops generalizing l with
  | nil => exact ⟨hl, rfl, fun _ _ _ => rfl⟩
  | cons op ops ih =>
    obtain ⟨now, op⟩ := op
    obtain ⟨⟨hnow, hop⟩, hops⟩ := List.forall_mem_cons.mp hops
    obtain ⟨hsound, hglobal, hlevel⟩ := ih (hl.step now op) hops
    -- what one call leaves
    have hstep : (l.step now op).global = l.global ∧
        ∀ ip t', t ≤ t' → (l.step now op).level ip t' = l.level ip t' := by
      cases op with
      | allowed ip =>
        exact ⟨allowed_global l ip now, fun ip' t' h => level_allowed l ip ip' (hnow.trans h)⟩
      | registerFailure ip => exact absurd rfl (hop ip)
      | retryAfter ip => exact ⟨rfl, fun _ _ _ => rfl⟩
      | sweep => exact ⟨rfl, fun ip' t' h => level_sweep hl ip' (hnow.trans h)⟩
    exact ⟨hsound, hglobal.trans hstep.1,
      fun ip' t' h => (hlevel ip' t' h).trans (hstep.2 ip' t' h)⟩

/-- **When `Allowed` is true**: after the longer of the two waits. -/
theorem Timely.allowed_iff_ticks (hl : l.Timely t) (ip : GoString) :
    ∃ n : ℤ, 0 ≤ n ∧
      ⌊max (wait (refillTokens l.global authLimitGlobalCapacity globalRefillRate t)
        globalRefillRate) (wait (l.level ip t) perIPRefillRate) * 10 ^ 9⌋ = n ∧
      ∀ t', t ≤ t' → ((l.allowed ip t').1 = true ↔ n ≤ t' - t) := by
  obtain ⟨g, hg, hgwait, hgiff⟩ := hl.global.token_iff tuned_global
  obtain ⟨p, hp, hpwait, hpiff⟩ : ∃ p : ℤ, 0 ≤ p ∧
      wait (l.level ip t) perIPRefillRate * 10 ^ 9 = p ∧
      ∀ t', t ≤ t' → (1 ≤ l.level ip t' ↔ p ≤ t' - t) := by
    simp only [level]
    cases hb : l.perIP ip with
    | none =>
      refine ⟨0, le_rfl, by norm_num [wait, authLimitPerIPCapacity], fun t' ht => ?_⟩
      exact iff_of_true tuned_perIP.one_le (by omega)
    | some b => exact (hl.perIP ip b hb).token_iff tuned_perIP
  refine ⟨max g p, le_max_of_le_left hg, ?_, fun t' ht => ?_⟩
  · rw [max_mul_of_nonneg _ _ (by norm_num), hgwait, hpwait, ← Int.cast_max, Int.floor_intCast]
  · rw [allowed_fst, hgiff t' ht, hpiff t' ht, max_le_iff]

/-- Rounding up to whole seconds, one at least. -/
theorem round_up {n d : ℤ} (hn : 0 ≤ n)
    (hd : d = max ((n + 10 ^ 9 - 1).tdiv (10 ^ 9) * 10 ^ 9) (10 ^ 9)) :
    n ≤ d ∧ (10 ^ 9 < d → d - 10 ^ 9 < n) ∧ ∃ k : ℕ, 1 ≤ k ∧ d = k * 10 ^ 9 := by
  rw [Int.tdiv_eq_ediv_of_nonneg (by omega)] at hd
  refine ⟨by omega, by omega, (max ((n + 10 ^ 9 - 1) / 10 ^ 9) 1).toNat, by omega, by omega⟩

/-- **`RetryAfter` tells the truth.** In any state that calls under a clock that never goes back
lead to, let `RetryAfter` answer `d` at `t`, and let no failure be registered after that. Then
`Allowed` is true at every instant from `t + d` on, and false one second before `t + d`, if `d` is
more than one second. So `d` is the least whole number of seconds to wait. -/
theorem retryAfter_exact (ops later : List (ℤ × Op)) (ip : GoString) (t : ℤ)
    (hclock : (ops.map Prod.fst ++ t :: later.map Prod.fst).Pairwise (· ≤ ·))
    (hlater : ∀ op ∈ later, ∀ ip', op.2 ≠ .registerFailure ip') :
    (∀ t', t + (newAuthLimiter.run ops).retryAfter ip t ≤ t' → (∀ op ∈ later, op.1 ≤ t') →
        (((newAuthLimiter.run ops).run later).allowed ip t').1 = true) ∧
      (10 ^ 9 < (newAuthLimiter.run ops).retryAfter ip t →
        (∀ op ∈ later, op.1 ≤ t + (newAuthLimiter.run ops).retryAfter ip t - 10 ^ 9) →
        (((newAuthLimiter.run ops).run later).allowed ip
          (t + (newAuthLimiter.run ops).retryAfter ip t - 10 ^ 9)).1 = false) ∧
      IsLeast {d : ℤ | (∃ n : ℕ, 1 ≤ n ∧ d = n * 10 ^ 9) ∧
        ((newAuthLimiter.run ops).allowed ip (t + d)).1 = true}
        ((newAuthLimiter.run ops).retryAfter ip t) := by
  obtain ⟨hops, -, hcross⟩ := List.pairwise_append.mp hclock
  have htimely : (newAuthLimiter.run ops).Timely t := by
    have hle : ∀ op ∈ ops, op.1 ≤ t := fun op hop =>
      hcross _ (List.mem_map_of_mem hop) t List.mem_cons_self
    cases ops with
    | nil => exact timely_new t
    | cons op ops =>
      obtain ⟨hfirst, -⟩ := List.pairwise_cons.mp hops
      have hsince := List.forall_mem_cons.mpr ⟨le_refl op.1, hfirst⟩
      exact (timely_new op.1).run (List.pairwise_cons.mpr ⟨hsince, hops⟩) hle
        (hle _ List.mem_cons_self)
  obtain ⟨n, hn, hwait, hiff⟩ := htimely.allowed_iff_ticks ip
  obtain ⟨hge, hlt, hsecs⟩ := round_up hn (hwait ▸ retryAfter_eq (newAuthLimiter.run ops) ip t)
  generalize newAuthLimiter.run ops = l at *
  generalize l.retryAfter ip t = d at *
  -- the calls after `t` do not matter
  have hsame : ∀ t', (∀ op ∈ later, op.1 ≤ t') →
      ((l.run later).allowed ip t').1 = (l.allowed ip t').1 := by
    intro t' ht'
    obtain ⟨-, hglobal, hlevel⟩ :=
      similar_run htimely.sound fun op hop => ⟨ht' op hop, hlater op hop⟩
    rw [Bool.eq_iff_iff, allowed_fst, allowed_fst, hglobal, hlevel ip t' le_rfl]
  refine ⟨fun t' ht' hcalls => ?_, fun hd hcalls => ?_, ⟨hsecs, ?_⟩, ?_⟩
  · rw [hsame t' hcalls, hiff t' (by omega)]
    omega
  · rw [hsame _ hcalls, Bool.eq_false_iff, Ne, hiff _ (by omega)]
    have := hlt hd
    omega
  · rw [hiff _ (by omega)]
    omega
  · rintro w ⟨⟨k, hk, rfl⟩, hw⟩
    rw [hiff _ (by omega)] at hw
    obtain ⟨m, hm, rfl⟩ := hsecs
    by_contra hlt'
    have := hlt (by omega)
    omega

/-- Five failures of one address at the start of the clock. -/
theorem retryAfter_exact_five :
    let ops : List (ℤ × Op) := List.replicate 5 (0, .registerFailure [0x61])
    (ops.map Prod.fst ++ [0]).Pairwise (· ≤ ·) ∧
      IsLeast {d : ℤ | (∃ n : ℕ, 1 ≤ n ∧ d = n * 10 ^ 9) ∧
        ((newAuthLimiter.run ops).allowed [0x61] (0 + d)).1 = true}
        ((newAuthLimiter.run ops).retryAfter [0x61] 0) :=
  ⟨by decide, (retryAfter_exact _ [] _ _ (by decide) (by simp)).2.2⟩

end AuthLimiter

end HttpCatch.Admin

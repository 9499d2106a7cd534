import Mathlib.Data.Rat.Floor
import HttpCatch.Library.GoString
import HttpCatch.Library.TokenBucket
import HttpCatch.Capture.Record

/-!
# The limiter of failed logins

`internal/admin/authlimit.go`: a token bucket for each client address and one for all of them.
`Allowed` asks whether both have a token and takes none; `RegisterFailure` takes one of each;
`sweep` forgets addresses that have been idle for ten minutes. Tokens are rational numbers here,
where the source has floating point; instants are nanoseconds, and each call reads the clock
and takes the lock in one step.

* `results_sweep` — sweeping changes no answer. A bucket that was forgotten and one that is
  full are the same (`AuthLimiter.level`).
* `failures_bounded` — how many failed checks of one address get past the limiter in a window
  of time, when its requests overlap: requests run between `Allowed` and `RegisterFailure`
  without the lock (`Sys`).
-/

namespace HttpCatch.Admin

open HttpCatch.Go HttpCatch.Capture

/-! ### The limiter -/

/-- `time.Time.Sub`, which saturates. -/
def timeSub (t u : ℤ) : ℤ := max (-2 ^ 63) (min (2 ^ 63 - 1) (t - u))

/-- `authLimitPerIPCapacity`. -/
def authLimitPerIPCapacity : ℚ := 5

/-- `perIPRefillRate`, in tokens for each second. -/
def perIPRefillRate : ℚ := 5 / 30

/-- `authLimitGlobalCapacity`. -/
def authLimitGlobalCapacity : ℚ := 20

/-- `globalRefillRate`. -/
def globalRefillRate : ℚ := 20 / 1

/-- `authBucket`. -/
structure AuthBucket where
  tokens : ℚ
  lastSeen : ℤ

/-- `AuthLimiter`, without its counters. -/
structure AuthLimiter where
  perIP : GoString → Option AuthBucket
  global : AuthBucket

/-- `NewAuthLimiter`. -/
def newAuthLimiter : AuthLimiter := ⟨fun _ => none, ⟨authLimitGlobalCapacity, zeroTime⟩⟩

/-- `refillTokens`. -/
def refillTokens (b : AuthBucket) (capacity refillPerSec : ℚ) (now : ℤ) : ℚ :=
  let elapsed : ℚ := timeSub now b.lastSeen / 10 ^ 9
  let elapsed := if elapsed < 0 then 0 else elapsed
  let t := b.tokens + elapsed * refillPerSec
  if t > capacity then capacity else t

namespace AuthLimiter

/-- `Allowed`, at the instant `now`. -/
def allowed (l : AuthLimiter) (ip : GoString) (now : ℤ) : Bool × AuthLimiter :=
  let gt := refillTokens l.global authLimitGlobalCapacity globalRefillRate now
  if gt < 1 then (false, l)
  else
    match l.perIP ip with
    | none =>
      (true, { l with perIP := Function.update l.perIP ip (some ⟨authLimitPerIPCapacity, now⟩) })
    | some b => (decide (refillTokens b authLimitPerIPCapacity perIPRefillRate now ≥ 1), l)

/-- `RegisterFailure`, at the instant `now`. -/
def registerFailure (l : AuthLimiter) (ip : GoString) (now : ℤ) : AuthLimiter :=
  let gt := refillTokens l.global authLimitGlobalCapacity globalRefillRate now
  let gt := if gt > 0 then gt - 1 else gt
  let b := (l.perIP ip).getD ⟨authLimitPerIPCapacity, zeroTime⟩
  let bt := refillTokens b authLimitPerIPCapacity perIPRefillRate now
  let bt := if bt > 0 then bt - 1 else bt
  ⟨Function.update l.perIP ip (some ⟨bt, now⟩), ⟨gt, now⟩⟩

/-- The seconds until a bucket has a token. -/
def wait (tokens rate : ℚ) : ℚ := if tokens < 1 ∧ rate > 0 then (1 - tokens) / rate else 0

/-- `RetryAfter`, at the instant `now`, in nanoseconds. -/
def retryAfter (l : AuthLimiter) (ip : GoString) (now : ℤ) : ℤ :=
  let globalWait := wait (refillTokens l.global authLimitGlobalCapacity globalRefillRate now)
      globalRefillRate
  let perIPWait := match l.perIP ip with
    | some b => wait (refillTokens b authLimitPerIPCapacity perIPRefillRate now) perIPRefillRate
    | none => 0
  let waitSecs := max globalWait perIPWait
  let d := ⌊waitSecs * 10 ^ 9⌋
  let d := ((d + 10 ^ 9 - 1).tdiv (10 ^ 9)) * 10 ^ 9
  max d (10 ^ 9)

/-- `idleEvict`: ten minutes. -/
def idleEvict : ℤ := 600 * 10 ^ 9

/-- `sweep`, at the instant `now`. -/
def sweep (l : AuthLimiter) (now : ℤ) : AuthLimiter :=
  { l with
    perIP := fun ip => (l.perIP ip).filter fun b => !decide (timeSub now b.lastSeen > idleEvict) }

end AuthLimiter

/-! ### Levels -/

theorem timeSub_mono {t t' : ℤ} (h : t ≤ t') (u : ℤ) : timeSub t u ≤ timeSub t' u :=
  max_le_max_left _ (min_le_min_left _ (by omega))

/-- `refillTokens` is the refill of a token bucket, in seconds. -/
theorem refillTokens_eq (b : AuthBucket) (capacity rate : ℚ) (now : ℤ) :
    refillTokens b capacity rate now =
      TokenBucket.refill capacity rate b.tokens
        (max 0 ((timeSub now b.lastSeen : ℚ) / 10 ^ 9)) := by
  have hmax : (if (timeSub now b.lastSeen : ℚ) / 10 ^ 9 < 0 then (0 : ℚ)
      else timeSub now b.lastSeen / 10 ^ 9) =
      max 0 ((timeSub now b.lastSeen : ℚ) / 10 ^ 9) := by
    rw [max_def]
    split_ifs <;> first | rfl | linarith
  simp only [refillTokens, hmax, TokenBucket.refill, min_def]
  split_ifs <;> first | rfl | linarith

/-- A new limiter allows every address. -/
theorem allowed_new (ip : GoString) (now : ℤ) : (newAuthLimiter.allowed ip now).1 = true := by
  have hfull : refillTokens newAuthLimiter.global authLimitGlobalCapacity globalRefillRate now =
      authLimitGlobalCapacity := by
    rw [refillTokens_eq]
    refine TokenBucket.refill_eq_capacity (le_add_of_nonneg_right (mul_nonneg ?_ ?_))
    · exact le_max_left _ _
    · norm_num [globalRefillRate]
  rw [AuthLimiter.allowed, hfull, if_neg (by norm_num [authLimitGlobalCapacity])]
  rfl

theorem refillTokens_le_capacity (b : AuthBucket) (capacity rate : ℚ) (now : ℤ) :
    refillTokens b capacity rate now ≤ capacity := by
  rw [refillTokens_eq]
  exact TokenBucket.refill_le_capacity _

theorem refillTokens_mono (b : AuthBucket) (capacity : ℚ) {rate : ℚ} (hr : 0 ≤ rate) {t t' : ℤ}
    (h : t ≤ t') :
    refillTokens b capacity rate t ≤ refillTokens b capacity rate t' := by
  rw [refillTokens_eq, refillTokens_eq]
  apply TokenBucket.refill_mono hr
  have hsub : (timeSub t b.lastSeen : ℚ) ≤ timeSub t' b.lastSeen :=
    Int.cast_le.mpr (timeSub_mono h _)
  exact max_le_max_left _ (by linarith)

/-- A token takes six seconds. -/
theorem refillTokens_le_add (b : AuthBucket) {now : ℤ} (h : b.lastSeen ≤ now) :
    refillTokens b authLimitPerIPCapacity perIPRefillRate now ≤
      b.tokens + ((now - b.lastSeen : ℤ) : ℚ) * (1 / (6 * 10 ^ 9)) := by
  rw [refillTokens_eq]
  refine (TokenBucket.refill_le_add _).trans ?_
  have hle : timeSub now b.lastSeen ≤ now - b.lastSeen := by
    rw [timeSub]
    omega
  have hcast : (timeSub now b.lastSeen : ℚ) ≤ ((now - b.lastSeen : ℤ) : ℚ) := Int.cast_le.mpr hle
  have hnonneg : (0 : ℚ) ≤ ((now - b.lastSeen : ℤ) : ℚ) := Int.cast_nonneg (by omega)
  have hmax : max 0 ((timeSub now b.lastSeen : ℚ) / 10 ^ 9) ≤
      ((now - b.lastSeen : ℤ) : ℚ) / 10 ^ 9 :=
    max_le (by positivity) (by linarith)
  rw [perIPRefillRate]
  linarith

theorem neg_one_lt_refillTokens {b : AuthBucket} (h : -1 < b.tokens) (now : ℤ) :
    -1 < refillTokens b authLimitPerIPCapacity perIPRefillRate now := by
  rw [refillTokens_eq]
  refine lt_of_lt_of_le ?_ (TokenBucket.min_le_refill
    (by norm_num [perIPRefillRate]) (le_max_left _ _))
  exact lt_min (by norm_num [authLimitPerIPCapacity]) h

/-- A bucket that is full, or has been idle for ten minutes, is full from then on. -/
theorem refillTokens_full {b : AuthBucket} {now : ℤ}
    (h : b.tokens = authLimitPerIPCapacity ∨
      -1 < b.tokens ∧ timeSub now b.lastSeen > AuthLimiter.idleEvict) {t : ℤ}
    (ht : now ≤ t) :
    refillTokens b authLimitPerIPCapacity perIPRefillRate t = authLimitPerIPCapacity := by
  rw [refillTokens_eq]
  apply TokenBucket.refill_eq_capacity
  have hmax : 0 ≤ max 0 ((timeSub t b.lastSeen : ℚ) / 10 ^ 9) := le_max_left _ _
  rcases h with h | ⟨htok, hidle⟩
  · rw [h, perIPRefillRate]
    linarith
  · have hsub : ((600 * 10 ^ 9 : ℤ) : ℚ) < timeSub t b.lastSeen :=
      Int.cast_lt.mpr (lt_of_lt_of_le hidle (timeSub_mono ht _))
    have hmax' : (timeSub t b.lastSeen : ℚ) / 10 ^ 9 ≤
        max 0 ((timeSub t b.lastSeen : ℚ) / 10 ^ 9) := le_max_right _ _
    push_cast at hsub
    rw [authLimitPerIPCapacity, perIPRefillRate]
    linarith

namespace AuthLimiter

/-- The level of an address: an unseen one has a full bucket. -/
def level (l : AuthLimiter) (ip : GoString) (now : ℤ) : ℚ :=
  match l.perIP ip with
  | none => authLimitPerIPCapacity
  | some b => refillTokens b authLimitPerIPCapacity perIPRefillRate now

/-- No bucket is overdrawn by a whole token. -/
def Sound (l : AuthLimiter) : Prop := ∀ ip b, l.perIP ip = some b → -1 < b.tokens

variable {l l' : AuthLimiter} {ip : GoString} {now t : ℤ}

theorem level_le (l : AuthLimiter) (ip : GoString) (now : ℤ) :
    l.level ip now ≤ authLimitPerIPCapacity := by
  rw [level]
  split
  · exact le_rfl
  · exact refillTokens_le_capacity _ _ _ _

theorem level_mono (l : AuthLimiter) (ip : GoString) (h : now ≤ t) :
    l.level ip now ≤ l.level ip t := by
  rw [level, level]
  split
  · exact le_rfl
  · exact refillTokens_mono _ _ (by norm_num [perIPRefillRate]) h

/-- `Allowed` answers by the two levels. -/
theorem allowed_fst (l : AuthLimiter) (ip : GoString) (now : ℤ) :
    (l.allowed ip now).1 = true ↔
      1 ≤ refillTokens l.global authLimitGlobalCapacity globalRefillRate now ∧
        1 ≤ l.level ip now := by
  rw [allowed, level]
  split_ifs with hg
  · simp [hg]
  · rw [not_lt] at hg
    cases l.perIP ip with
    | none => simp [hg, authLimitPerIPCapacity]
    | some b => simp [hg]

/-- `Allowed` writes a full bucket where there was none, or nothing. -/
theorem allowed_snd (l : AuthLimiter) (ip : GoString) (now : ℤ) :
    (l.allowed ip now).2 = l ∨ l.perIP ip = none ∧
      (l.allowed ip now).2 = { l with
        perIP := Function.update l.perIP ip (some ⟨authLimitPerIPCapacity, now⟩) } := by
  rw [allowed]
  split_ifs
  · exact .inl rfl
  · cases h : l.perIP ip with
    | none => exact .inr ⟨rfl, rfl⟩
    | some b => exact .inl rfl

theorem allowed_global (l : AuthLimiter) (ip : GoString) (now : ℤ) :
    (l.allowed ip now).2.global = l.global := by
  rcases allowed_snd l ip now with h | ⟨-, h⟩ <;> rw [h]

/-- **`Allowed` leaves all levels as they are.** -/
theorem level_allowed (l : AuthLimiter) (ip ip' : GoString) (h : now ≤ t) :
    (l.allowed ip now).2.level ip' t = l.level ip' t := by
  rcases allowed_snd l ip now with heq | ⟨hnone, heq⟩
  · rw [heq]
  · rw [heq]
    by_cases hip : ip' = ip
    · subst hip
      simp only [level, Function.update_self, hnone]
      exact refillTokens_full (.inl rfl) h
    · simp only [level, Function.update_of_ne hip]

theorem Sound.allowed (hl : l.Sound) (ip : GoString) (now : ℤ) : (l.allowed ip now).2.Sound := by
  rcases allowed_snd l ip now with heq | ⟨-, heq⟩
  · rwa [heq]
  · rw [heq]
    intro ip' b hb
    by_cases hip : ip' = ip
    · subst hip
      simp only [Function.update_self, Option.some.injEq] at hb
      subst hb
      norm_num [authLimitPerIPCapacity]
    · simp only [Function.update_of_ne hip] at hb
      exact hl ip' b hb

/-- What `RegisterFailure` takes out of a bucket. -/
def debit (tokens : ℚ) : ℚ := if tokens > 0 then tokens - 1 else tokens

/-- `RegisterFailure` by the level of the address. -/
theorem registerFailure_eq (l : AuthLimiter) (ip : GoString) (now : ℤ) :
    l.registerFailure ip now = ⟨Function.update l.perIP ip (some ⟨debit (l.level ip now), now⟩),
      ⟨debit (refillTokens l.global authLimitGlobalCapacity globalRefillRate now), now⟩⟩ := by
  have hlevel : refillTokens ((l.perIP ip).getD ⟨authLimitPerIPCapacity, zeroTime⟩)
      authLimitPerIPCapacity perIPRefillRate now =
      l.level ip now := by
    rw [level]
    cases l.perIP ip with
    | none => exact refillTokens_full (.inl rfl) le_rfl
    | some b => rfl
  simp only [registerFailure, debit, hlevel]

theorem neg_one_lt_level (hl : l.Sound) (ip : GoString) (now : ℤ) : -1 < l.level ip now := by
  rw [level]
  split
  · norm_num [authLimitPerIPCapacity]
  · exact neg_one_lt_refillTokens (hl _ _ ‹_›) _

theorem Sound.registerFailure (hl : l.Sound) (ip : GoString) (now : ℤ) :
    (l.registerFailure ip now).Sound := by
  rw [registerFailure_eq]
  intro ip' b hb
  by_cases hip : ip' = ip
  · subst hip
    simp only [Function.update_self, Option.some.injEq] at hb
    subst hb
    have := neg_one_lt_level hl ip' now
    simp only [debit]
    split_ifs <;> linarith
  · simp only [Function.update_of_ne hip] at hb
    exact hl ip' b hb

/-- **`sweep` leaves all levels as they are**: what it forgets is full. -/
theorem level_sweep (hl : l.Sound) (ip : GoString) (h : now ≤ t) :
    (l.sweep now).level ip t = l.level ip t := by
  simp only [level, sweep]
  cases hb : l.perIP ip with
  | none => rfl
  | some b =>
    rw [Option.filter_some]
    split_ifs with hidle
    · rfl
    · have hidle' : timeSub now b.lastSeen > idleEvict := by simpa using hidle
      exact (refillTokens_full (.inr ⟨hl ip b hb, hidle'⟩) h).symm

theorem Sound.sweep (hl : l.Sound) (now : ℤ) : (l.sweep now).Sound := by
  intro ip b hb
  exact hl ip b (Option.filter_eq_some_iff.mp hb).1

/-- `RetryAfter` by the two levels. -/
theorem retryAfter_eq (l : AuthLimiter) (ip : GoString) (now : ℤ) :
    l.retryAfter ip now =
      max (((⌊max (wait (refillTokens l.global authLimitGlobalCapacity globalRefillRate now)
          globalRefillRate) (wait (l.level ip now) perIPRefillRate) * 10 ^ 9⌋ +
        10 ^ 9 - 1).tdiv (10 ^ 9)) * 10 ^ 9) (10 ^ 9) := by
  have hwait : (match l.perIP ip with
      | some b => wait (refillTokens b authLimitPerIPCapacity perIPRefillRate now) perIPRefillRate
      | none => 0) = wait (l.level ip now) perIPRefillRate := by
    rw [level]
    cases l.perIP ip with
    | none => norm_num [wait, authLimitPerIPCapacity]
    | some b => rfl
  simp only [retryAfter, hwait]

theorem sound_newAuthLimiter : newAuthLimiter.Sound := by
  intro ip b hb
  cases hb

/-! ### Sweeping -/

/-- The calls of the limiter. -/
inductive Op where
  | allowed (ip : GoString)
  | registerFailure (ip : GoString)
  | retryAfter (ip : GoString)
  | sweep
  deriving DecidableEq

/-- What a call answers. -/
inductive Answer where
  | allowed (ok : Bool)
  | retryAfter (wait : ℤ)
  deriving DecidableEq

/-- The effect of a call. -/
def step (l : AuthLimiter) (now : ℤ) : Op → AuthLimiter
  | .allowed ip => (l.allowed ip now).2
  | .registerFailure ip => l.registerFailure ip now
  | .retryAfter _ => l
  | .sweep => l.sweep now

/-- The answer of a call. -/
def answer (l : AuthLimiter) (now : ℤ) : Op → Option Answer
  | .allowed ip => some (.allowed (l.allowed ip now).1)
  | .registerFailure _ => none
  | .retryAfter ip => some (.retryAfter (l.retryAfter ip now))
  | .sweep => none

/-- The answers of a sequence of calls, with their instants. -/
def results : AuthLimiter → List (ℤ × Op) → List Answer
  | _, [] => []
  | l, (now, op) :: ops => (l.answer now op).toList ++ results (l.step now op) ops

/-- Two limiters that nobody can tell apart from `now` on. -/
structure Similar (l l' : AuthLimiter) (now : ℤ) : Prop where
  global : l.global = l'.global
  level : ∀ ip t, now ≤ t → l.level ip t = l'.level ip t

theorem Similar.answer (h : Similar l l' now) (ht : now ≤ t) (op : Op) :
    l.answer t op = l'.answer t op := by
  cases op with
  | allowed ip =>
    have heq : (l.allowed ip t).1 = (l'.allowed ip t).1 := by
      rw [Bool.eq_iff_iff, allowed_fst, allowed_fst, h.global, h.level ip t ht]
    simp only [AuthLimiter.answer, heq]
  | retryAfter ip => simp only [AuthLimiter.answer, retryAfter_eq, h.global, h.level ip t ht]
  | registerFailure ip => rfl
  | sweep => rfl

/-- The same call keeps two limiters similar. -/
theorem Similar.step (h : Similar l l' now) (hl : l.Sound) (hl' : l'.Sound)
    (ht : now ≤ t) (op : Op) :
    Similar (l.step t op) (l'.step t op) t := by
  cases op with
  | allowed ip =>
    constructor
    · simp only [AuthLimiter.step, allowed_global, h.global]
    · intro ip' u hu
      simp only [AuthLimiter.step, level_allowed _ _ _ hu, h.level ip' u (ht.trans hu)]
  | registerFailure ip =>
    simp only [AuthLimiter.step, registerFailure_eq, h.global, h.level ip t ht]
    constructor
    · rfl
    · intro ip' u hu
      by_cases hip : ip' = ip
      · subst hip
        simp only [AuthLimiter.level, Function.update_self]
      · have := h.level ip' u (ht.trans hu)
        simpa only [AuthLimiter.level, Function.update_of_ne hip] using this
  | retryAfter ip => exact ⟨h.global, fun ip' u hu => h.level ip' u (ht.trans hu)⟩
  | sweep =>
    refine ⟨h.global, fun ip' u hu => ?_⟩
    simp only [AuthLimiter.step, level_sweep hl ip' hu, level_sweep hl' ip' hu]
    exact h.level ip' u (ht.trans hu)

/-- A sweep of one of them keeps two limiters similar. -/
theorem Similar.sweep_left (h : Similar l l' now) (hl : l.Sound) (ht : now ≤ t) :
    Similar (l.sweep t) l' t :=
  ⟨h.global, fun ip u hu => (level_sweep hl ip hu).trans (h.level ip u (ht.trans hu))⟩

theorem Sound.step (hl : l.Sound) (now : ℤ) (op : Op) : (l.step now op).Sound := by
  cases op with
  | allowed ip => exact hl.allowed ip now
  | registerFailure ip => exact hl.registerFailure ip now
  | retryAfter ip => exact hl
  | sweep => exact hl.sweep now

/-- Similar limiters answer alike, whichever of the sweeps the second one leaves out. -/
theorem results_similar {ops : List (ℤ × Op)} (hops : ops.Pairwise fun a b => a.1 ≤ b.1)
    (hl : l.Sound) (hl' : l'.Sound) (hnow : ∀ op ∈ ops, now ≤ op.1) (h : Similar l l' now) :
    results l ops = results l' (ops.filter fun op => op.2 ≠ .sweep) := by
  induction ops generalizing l l' now with
  | nil => rfl
  | cons op ops ih =>
    obtain ⟨t, op⟩ := op
    obtain ⟨hhead, htail⟩ := List.pairwise_cons.mp hops
    have ht : now ≤ t := hnow _ List.mem_cons_self
    by_cases hop : op = .sweep
    · subst hop
      rw [List.filter_cons_of_neg (by simp)]
      exact ih htail (hl.sweep t) hl' hhead (h.sweep_left hl ht)
    · rw [List.filter_cons_of_pos (by simpa using hop), results, results, h.answer ht op]
      congr 1
      exact ih htail (hl.step t op) (hl'.step t op) hhead (h.step hl hl' ht op)

/-- **Sweeping changes no answer.** -/
theorem results_sweep (ops : List (ℤ × Op)) (hops : ops.Pairwise fun a b => a.1 ≤ b.1) :
    results newAuthLimiter ops = results newAuthLimiter (ops.filter fun op => op.2 ≠ .sweep) := by
  cases ops with
  | nil => rfl
  | cons op ops =>
    have hnow : ∀ op' ∈ op :: ops, op.1 ≤ op'.1 :=
      List.forall_mem_cons.mpr ⟨le_rfl, (List.pairwise_cons.mp hops).1⟩
    exact results_similar hops sound_newAuthLimiter sound_newAuthLimiter hnow
      ⟨rfl, fun _ _ _ => rfl⟩

/-- A failure, and a sweep eleven minutes later, before the address comes back. -/
theorem results_sweep_idle :
    let ops : List (ℤ × Op) :=
      [(0, .allowed [0x61]), (0, .registerFailure [0x61]), (660 * 10 ^ 9, .sweep),
        (660 * 10 ^ 9, .allowed [0x61])]
    ops.Pairwise (fun a b => a.1 ≤ b.1) ∧
      results newAuthLimiter ops = results newAuthLimiter (ops.filter fun op => op.2 ≠ .sweep) :=
  ⟨by decide, results_sweep _ (by decide)⟩

end AuthLimiter

/-! ### Requests that overlap -/

/-- A request of the address between `Allowed` and the end of `RegisterFailure`. -/
structure Flight where
  /-- The instant of its `Allowed` step. -/
  allowedAt : ℤ
  /-- Whether its credentials were checked and found wrong. -/
  failed : Bool
  deriving DecidableEq

/-- The limiter, and the requests of one address that go through `Middleware` or
`loginPostHandler`; both call the limiter in the same way. -/
structure Sys where
  limiter : AuthLimiter
  clock : ℤ
  flight : List Flight
  /-- The failed checks, by the instants of their `Allowed` steps. -/
  failures : List ℤ

/-- What can happen next. -/
inductive Action where
  /-- A request of the address arrives and calls `Allowed`; it is turned away, or in flight. -/
  | arrive
  /-- The credentials of the request are right, or its form is bad: it leaves without
  `RegisterFailure`. -/
  | pass (i : ℕ)
  /-- The credentials of the request are wrong. -/
  | fail (i : ℕ)
  /-- The request calls `RegisterFailure` and leaves. -/
  | register (i : ℕ)
  /-- A call for another address, or a sweep. -/
  | other (op : AuthLimiter.Op)

/-- The address that a call is for. -/
def AuthLimiter.Op.ip : AuthLimiter.Op → Option GoString
  | .allowed ip | .registerFailure ip | .retryAfter ip => some ip
  | .sweep => none

namespace Sys

/-- The system before the first request. -/
def init (clock : ℤ) : Sys := ⟨newAuthLimiter, clock, [], []⟩

/-- What an action does at the instant `now`, with at most `k` requests of the address in
flight; none when it cannot happen. -/
def act (k : ℕ) (ip : GoString) (s : Sys) (now : ℤ) : Action → Option Sys
  | .arrive =>
    if s.flight.length < k then
      let r := s.limiter.allowed ip now
      some { s with
        limiter := r.2, clock := now, flight := if r.1 then ⟨now, false⟩ :: s.flight else s.flight }
    else none
  | .pass i =>
    match s.flight[i]? with
    | some ⟨_, false⟩ => some { s with clock := now, flight := s.flight.eraseIdx i }
    | _ => none
  | .fail i =>
    match s.flight[i]? with
    | some ⟨t, false⟩ =>
      some { s with clock := now, flight := s.flight.set i ⟨t, true⟩, failures := t :: s.failures }
    | _ => none
  | .register i =>
    match s.flight[i]? with
    | some ⟨_, true⟩ =>
      some { s with
        limiter := s.limiter.registerFailure ip now, clock := now, flight := s.flight.eraseIdx i }
    | _ => none
  | .other op =>
    if op.ip = some ip then none else some { s with limiter := s.limiter.step now op, clock := now }

/-- One step, at an instant that is not before the last one. -/
def step (k : ℕ) (ip : GoString) (s : Sys) (action : ℤ × Action) : Option Sys :=
  if action.1 < s.clock then none else s.act k ip action.1 action.2

/-- A run of the system. -/
def run (k : ℕ) (ip : GoString) (s : Sys) (actions : List (ℤ × Action)) : Option Sys :=
  actions.foldlM (step k ip) s

end Sys

/-- In every window of `T` seconds there are at most `5 + T / 6` failed checks. -/
def Bounded (failures : List ℤ) : Prop :=
  ∀ a b : ℤ, a ≤ b →
    ((failures.countP fun t => a ≤ t ∧ t ≤ b : ℕ) : ℚ) ≤ 5 + ((b - a : ℤ) : ℚ) / 10 ^ 9 / 6

/-- Nobody of the address is in flight: all failed checks have been paid for. -/
structure Sys.Idle (ip : GoString) (s : Sys) : Prop where
  flight : s.flight = []
  bounded : Bounded s.failures
  budget : TokenBucket.Budget 5 (1 / (6 * 10 ^ 9)) (s.limiter.level ip) s.failures s.clock

/-- One request is in flight, which was allowed at `t`: there is a token for it, and the other
failed checks, `spent`, have been paid for. -/
structure Sys.Busy (ip : GoString) (s : Sys) (t : ℤ) (failed : Bool) (spent : List ℤ) : Prop where
  flight : s.flight = [⟨t, failed⟩]
  allowed_le : t ≤ s.clock
  failures : s.failures = if failed then t :: spent else spent
  token : 1 ≤ s.limiter.level ip s.clock
  bounded : Bounded (t :: spent)
  budget : TokenBucket.Budget 5 (1 / (6 * 10 ^ 9)) (s.limiter.level ip) spent s.clock

/-- What keeps the bound while at most one request of the address is in flight. -/
structure Sys.Inv (ip : GoString) (s : Sys) : Prop where
  sound : s.limiter.Sound
  failures_le : ∀ t ∈ s.failures, t ≤ s.clock
  flight : s.Idle ip ∨ ∃ t failed spent, s.Busy ip t failed spent

theorem rate_nonneg : (0 : ℚ) ≤ 1 / (6 * 10 ^ 9) := by norm_num

theorem Bounded.of_cons {t : ℤ} {failures : List ℤ} (h : Bounded (t :: failures)) :
    Bounded failures := by
  intro a b hab
  refine le_trans (Nat.cast_le.mpr ?_) (h a b hab)
  exact (List.sublist_cons_self t failures).countP_le

theorem Bounded.cons {t : ℤ} {failures : List ℤ} (h : Bounded failures)
    (ht : ∀ a b, a ≤ t → t ≤ b →
      (((t :: failures).countP fun u => a ≤ u ∧ u ≤ b : ℕ) : ℚ) ≤
      5 + ((b - a : ℤ) : ℚ) * (1 / (6 * 10 ^ 9))) :
    Bounded (t :: failures) := by
  intro a b hab
  by_cases hin : a ≤ t ∧ t ≤ b
  · have := ht a b hin.1 hin.2
    linarith
  · rw [List.countP_cons_of_neg (by simpa using hin)]
    exact h a b hab

theorem Sys.Inv.bounded {ip : GoString} {s : Sys} (h : s.Inv ip) : Bounded s.failures := by
  rcases h.flight with hidle | ⟨t, failed, spent, hbusy⟩
  · exact hidle.bounded
  · rw [hbusy.failures]
    split_ifs
    · exact hbusy.bounded
    · exact hbusy.bounded.of_cons

/-- Calls for other addresses and sweeps leave the level as it is. -/
theorem AuthLimiter.level_step {l : AuthLimiter} (hl : l.Sound) {ip : GoString} {op : Op}
    (hop : op.ip ≠ some ip) {now t : ℤ} (h : now ≤ t) :
    (l.step now op).level ip t = l.level ip t := by
  cases op with
  | allowed ip' => exact level_allowed l ip' ip h
  | registerFailure ip' =>
    have hip : ip ≠ ip' := fun heq => hop (by rw [heq]; rfl)
    simp only [AuthLimiter.step, registerFailure_eq, level, Function.update_of_ne hip]
  | retryAfter ip' => rfl
  | sweep => exact level_sweep hl ip h

/-- A registered failure takes a token, where there is one. -/
theorem AuthLimiter.level_registerFailure (l : AuthLimiter) (ip : GoString) {now t : ℤ}
    (htoken : 1 ≤ l.level ip now) (h : now ≤ t) :
    (l.registerFailure ip now).level ip t ≤
      l.level ip now - 1 + ((t - now : ℤ) : ℚ) * (1 / (6 * 10 ^ 9)) := by
  have hdebit : debit (l.level ip now) = l.level ip now - 1 := if_pos (by linarith)
  simp only [registerFailure_eq, level, Function.update_self]
  rw [← level, hdebit]
  exact refillTokens_le_add ⟨l.level ip now - 1, now⟩ h

section Step

variable {k : ℕ} {ip : GoString} {s s' : Sys} {now : ℤ}

/-- A request finds no other in flight. -/
theorem Sys.Inv.arrive (hs : s.Inv ip) (hclock : s.clock ≤ now) (hidle : s.flight = []) :
    Inv ip { s with
      limiter := (s.limiter.allowed ip now).2
      clock := now
      flight := if (s.limiter.allowed ip now).1 then ⟨now, false⟩ :: s.flight else s.flight } := by
  have hi : s.Idle ip := by
    rcases hs.flight with hi | ⟨t, failed, spent, hb⟩
    · exact hi
    · simp [hb.flight] at hidle
  have hlevel : ∀ t, now ≤ t → (s.limiter.allowed ip now).2.level ip t ≤ s.limiter.level ip t :=
    fun t ht =>
    (AuthLimiter.level_allowed _ _ _ ht).le
  have hbudget := hi.budget.mono hclock hlevel
  refine ⟨hs.sound.allowed ip now, fun t ht => (hs.failures_le t ht).trans hclock, ?_⟩
  by_cases hok : (s.limiter.allowed ip now).1 = true
  · have htoken : 1 ≤ (s.limiter.allowed ip now).2.level ip now := by
      rw [AuthLimiter.level_allowed _ _ _ le_rfl]
      exact ((AuthLimiter.allowed_fst _ _ _).mp hok).2
    refine .inr ⟨now, false, s.failures, ?_, le_rfl, rfl, htoken, ?_, hbudget⟩
    · simp [hok, hidle]
    · exact hi.bounded.cons fun a b ha hb => hbudget.window rate_nonneg htoken ha hb
  · exact .inl ⟨by simp [hok, hidle], hi.bounded, hbudget⟩

/-- The step with the one request that is in flight. -/
theorem Sys.Inv.busy (hs : s.Inv ip) {i : ℕ} {t : ℤ} {failed : Bool}
    (hi : s.flight[i]? = some ⟨t, failed⟩) :
    i = 0 ∧ ∃ spent, s.Busy ip t failed spent := by
  rcases hs.flight with hidle | ⟨t', failed', spent, hb⟩
  · simp [hidle.flight] at hi
  · rw [hb.flight, List.getElem?_singleton] at hi
    split_ifs at hi with h0
    cases hi
    exact ⟨h0, spent, hb⟩

/-- **A step keeps the invariant** while at most one request is in flight. -/
theorem Sys.Inv.act (hk : k ≤ 1) (hs : s.Inv ip) (hclock : s.clock ≤ now) {action : Action}
    (h : s.act k ip now action = some s') : s'.Inv ip := by
  have hfailures : ∀ t ∈ s.failures, t ≤ now := fun t ht => (hs.failures_le t ht).trans hclock
  cases action with
  | arrive =>
    obtain ⟨hlen, h⟩ := Option.ite_none_right_eq_some.mp h
    cases h
    exact hs.arrive hclock (List.length_eq_zero_iff.mp (by omega))
  | pass i =>
    simp only [Sys.act] at h
    split at h
    · rename_i t hi
      cases h
      obtain ⟨rfl, spent, hb⟩ := hs.busy hi
      have hspent : s.failures = spent := hb.failures
      refine ⟨hs.sound, hfailures, .inl ⟨by simp [hb.flight], ?_, ?_⟩⟩
      · rw [hspent]
        exact hb.bounded.of_cons
      · rw [hspent]
        exact hb.budget.mono hclock fun _ _ => le_rfl
    · cases h
  | fail i =>
    simp only [Sys.act] at h
    split at h
    · rename_i t hi
      cases h
      obtain ⟨rfl, spent, hb⟩ := hs.busy hi
      have hspent : s.failures = spent := hb.failures
      have hle : t ≤ now := hb.allowed_le.trans hclock
      refine ⟨hs.sound, List.forall_mem_cons.mpr ⟨hle, hfailures⟩,
        .inr ⟨t, true, spent, ?_, hle, ?_, ?_, hb.bounded, ?_⟩⟩
      · simp [hb.flight]
      · simp [hspent]
      · exact hb.token.trans (AuthLimiter.level_mono _ _ hclock)
      · exact hb.budget.mono hclock fun _ _ => le_rfl
    · cases h
  | register i =>
    simp only [Sys.act] at h
    split at h
    · rename_i t hi
      cases h
      obtain ⟨rfl, spent, hb⟩ := hs.busy hi
      have hspent : s.failures = t :: spent := hb.failures
      have htoken := hb.token.trans (AuthLimiter.level_mono s.limiter ip hclock)
      rw [hspent] at hfailures
      obtain ⟨ht, hspent'⟩ := List.forall_mem_cons.mp hfailures
      refine ⟨hs.sound.registerFailure ip now, ?_, .inl ⟨by simp [hb.flight], ?_, ?_⟩⟩
      · rw [hspent]
        exact hfailures
      · rw [hspent]
        exact hb.bounded
      · rw [hspent]
        exact (hb.budget.mono hclock fun _ _ => le_rfl).spend rate_nonneg ht hspent'
          (AuthLimiter.level_le _ _)
          fun u hu => AuthLimiter.level_registerFailure _ _ htoken hu
    · cases h
  | other op =>
    obtain ⟨hop, h⟩ := Option.ite_none_left_eq_some.mp h
    cases h
    have hlevel : ∀ t, now ≤ t → (s.limiter.step now op).level ip t = s.limiter.level ip t :=
      fun t ht =>
      AuthLimiter.level_step hs.sound hop ht
    refine ⟨hs.sound.step now op, hfailures, ?_⟩
    rcases hs.flight with hi | ⟨t, failed, spent, hb⟩
    · exact .inl ⟨hi.flight, hi.bounded, hi.budget.mono hclock fun t ht => (hlevel t ht).le⟩
    · refine .inr ⟨t, failed, spent, hb.flight, hb.allowed_le.trans hclock, hb.failures,
        ?_, hb.bounded, hb.budget.mono hclock fun t ht => (hlevel t ht).le⟩
      simp only [hlevel now le_rfl]
      exact hb.token.trans (AuthLimiter.level_mono _ _ hclock)

theorem Sys.Inv.run (hk : k ≤ 1) (hs : s.Inv ip) {actions : List (ℤ × Action)}
    (h : s.run k ip actions = some s') :
    s'.Inv ip := by
  induction actions generalizing s with
  | nil =>
    cases h
    exact hs
  | cons a actions ih =>
    rw [Sys.run, List.foldlM_cons] at h
    obtain ⟨s₁, hstep, hrest⟩ := Option.bind_eq_some_iff.mp h
    obtain ⟨hclock, hact⟩ := Option.ite_none_left_eq_some.mp hstep
    exact ih (hs.act hk (not_lt.mp hclock) hact) hrest

theorem Sys.inv_init (ip : GoString) (clock : ℤ) : (Sys.init clock).Inv ip := by
  have hbound : Bounded [] := by
    intro a b hab
    have : (0 : ℚ) ≤ ((b - a : ℤ) : ℚ) := Int.cast_nonneg (by omega)
    simp only [List.countP_nil, Nat.cast_zero]
    positivity
  exact ⟨AuthLimiter.sound_newAuthLimiter, by simp [Sys.init], .inl ⟨rfl, hbound,
    TokenBucket.budget_nil rate_nonneg (AuthLimiter.level_le _ _) clock⟩⟩

/-- With more requests in flight, more can happen. -/
theorem Sys.step_mono {k' : ℕ} (hk : k ≤ k') {action : ℤ × Action}
    (h : s.step k ip action = some s') :
    s.step k' ip action = some s' := by
  obtain ⟨now, action⟩ := action
  obtain ⟨hclock, hact⟩ := Option.ite_none_left_eq_some.mp h
  refine Option.ite_none_left_eq_some.mpr ⟨hclock, ?_⟩
  cases action with
  | arrive =>
    obtain ⟨hlen, hact⟩ := Option.ite_none_right_eq_some.mp hact
    exact Option.ite_none_right_eq_some.mpr ⟨by omega, hact⟩
  | _ => exact hact

theorem Sys.run_mono {k' : ℕ} (hk : k ≤ k') {actions : List (ℤ × Action)}
    (h : s.run k ip actions = some s') :
    s.run k' ip actions = some s' := by
  induction actions generalizing s with
  | nil => exact h
  | cons a actions ih =>
    rw [Sys.run, List.foldlM_cons] at h ⊢
    obtain ⟨s₁, hstep, hrest⟩ := Option.bind_eq_some_iff.mp h
    rw [Sys.step_mono hk hstep]
    exact ih hrest

end Step

/-- Four failures one after the other, and then two requests that overlap: both see the last
token. -/
def lastToken : List Action :=
  [.arrive, .fail 0, .register 0, .arrive, .fail 0, .register 0, .arrive, .fail 0, .register 0,
    .arrive, .fail 0, .register 0, .arrive, .arrive, .fail 0, .fail 1]

theorem run_lastToken :
    ((Sys.init 0).run 2 [] (lastToken.map fun a => (0, a))).map Sys.failures =
      some [0, 0, 0, 0, 0, 0] := by
  decide +kernel

theorem not_bounded_six : ¬ Bounded [0, 0, 0, 0, 0, 0] := by
  intro h
  have := h 0 0 le_rfl
  norm_num at this

/-- **The budget of an address bounds its failed checks** in every window exactly when its
requests do not overlap, whatever happens for other addresses in between. -/
theorem failures_bounded (k : ℕ) :
    (∀ ip clock actions s, (Sys.init clock).run k ip actions = some s → Bounded s.failures) ↔
      k ≤ 1 := by
  constructor
  · intro h
    by_contra hk
    obtain ⟨s, hs, hfailures⟩ := Option.map_eq_some_iff.mp run_lastToken
    have hbounded := h [] 0 _ s (Sys.run_mono (show 2 ≤ k by omega) hs)
    rw [hfailures] at hbounded
    exact not_bounded_six hbounded
  · intro hk ip clock actions s hs
    exact ((Sys.inv_init ip clock).run hk hs).bounded

/-- Six requests that all call `Allowed` before the first of them fails. -/
theorem failures_not_bounded_overlap : ∃ s,
    (Sys.init 0).run 6 [] ((List.replicate 6 Action.arrive ++ (List.range 6).map Action.fail).map
      fun a => (0, a)) = some s ∧
      ¬ Bounded s.failures := by
  have hrun : ((Sys.init 0).run 6 []
      ((List.replicate 6 Action.arrive ++ (List.range 6).map Action.fail).map fun a => (0, a))).map
      Sys.failures = some [0, 0, 0, 0, 0, 0] := by
    decide +kernel
  obtain ⟨s, hs, hfailures⟩ := Option.map_eq_some_iff.mp hrun
  exact ⟨s, hs, hfailures ▸ not_bounded_six⟩

end HttpCatch.Admin

import HttpCatch.Admin.AuthLimit
import HttpCatch.Library.Decimal
import HttpCatch.Library.HostPort
import HttpCatch.Capture.Correlation
import HttpCatch.Redact.Cookies

/-!
# Sessions and the middleware

`internal/admin/session.go` and `middleware.go`: the store of sessions, and the handler that
lets a request through when it carries the admin token or the cookie of a live session. Session
ids come from the random source; a run is a list of calls that carry the ids they drew and the
instants they read.

* `results_similar` — sweeping the store changes no answer.
* `validate_iff` — what the store knows of an id is its history: it was created and has neither
  expired nor been revoked.
* `middleware_history` — which requests are served, by the history of the run.
-/

namespace HttpCatch.Admin

open HttpCatch.Go HttpCatch.Capture HttpCatch.Redact

/-! ### The store -/

/-- `Session`. -/
structure Session where
  id : GoString
  expiresAt : ℤ
  deriving DecidableEq

/-- `SessionStore`. -/
structure SessionStore where
  sessions : GoString → Option Session

namespace SessionStore

/-- `NewSessionStore`. -/
def new : SessionStore := ⟨fun _ => none⟩

/-- `Create`; the id is none when the random source fails, and then there is no session. -/
def create (s : SessionStore) (ttl : ℤ) (id : Option GoString) (now : ℤ) :
    Option Session × SessionStore :=
  match id with
  | none => (none, s)
  | some id =>
    let sess : Session := ⟨id, now + ttl⟩
    (some sess, ⟨Function.update s.sessions id (some sess)⟩)

/-- `Validate`. -/
def validate (s : SessionStore) (id : GoString) (now : ℤ) : Bool :=
  match s.sessions id with
  | none => false
  | some sess => decide (now < sess.expiresAt)

/-- `Revoke`. -/
def revoke (s : SessionStore) (id : GoString) : SessionStore := ⟨Function.update s.sessions id none⟩

/-- `Sweep`. -/
def sweep (s : SessionStore) (now : ℤ) : SessionStore :=
  ⟨fun id => (s.sessions id).filter fun sess => !decide (sess.expiresAt < now)⟩

variable {s : SessionStore} {id id' : GoString} {ttl now t : ℤ}

@[simp] theorem validate_new (id : GoString) (now : ℤ) : new.validate id now = false := rfl

@[simp] theorem validate_create_self :
    (s.create ttl (some id) now).2.validate id t = decide (t < now + ttl) := by
  simp [create, validate]

@[simp] theorem validate_create_of_ne (h : id' ≠ id) :
    (s.create ttl (some id) now).2.validate id' t = s.validate id' t := by
  simp [create, validate, Function.update_of_ne h]

@[simp] theorem validate_revoke_self : (s.revoke id).validate id t = false := by
  simp [revoke, validate]

@[simp] theorem validate_revoke_of_ne (h : id' ≠ id) :
    (s.revoke id).validate id' t = s.validate id' t := by
  simp [revoke, validate, Function.update_of_ne h]

/-- A session that is swept away has expired. -/
theorem validate_sweep (s : SessionStore) (id : GoString) (h : now ≤ t) :
    (s.sweep now).validate id t = s.validate id t := by
  simp only [validate, sweep]
  cases hs : s.sessions id with
  | none => rfl
  | some sess =>
    rw [Option.filter_some]
    split_ifs with hexp
    · rfl
    · have : sess.expiresAt < now := by simpa using hexp
      exact (decide_eq_false (by omega)).symm

end SessionStore

/-! ### The middleware -/

/-- What the handler reads of a request. -/
structure AuthRequest where
  remoteAddr : GoString
  requestURI : GoString
  headers : Headers

/-- `ClientIP`. -/
def clientIP (remoteAddr : GoString) : GoString :=
  match splitHostPort remoteAddr with
  | .error _ => remoteAddr
  | .ok (host, _) => host

/-- `sessionCookieName`. -/
def sessionCookieName : GoString := str "httpcatch_session"

/-- `r.Cookie(name)`: the first cookie of the name. -/
def AuthRequest.cookie (r : AuthRequest) (name : GoString) : Option Cookie :=
  (readCookies (r.headers.values cookieHeaderKey)).find? fun c => c.name = name

/-- `extractBearer`. -/
def extractBearer (r : AuthRequest) : GoString :=
  let auth := r.headers.get (str "Authorization")
  if !hasPrefix auth (str "Bearer ") then [] else auth.drop (str "Bearer ").length

/-- `checkBearer`. -/
def checkBearer (presented adminToken : GoString) : Bool :=
  if adminToken = [] then false else decide (presented = adminToken)

/-- `authenticate`; the clock is read by `Validate`. -/
def authenticate (r : AuthRequest) (adminToken : GoString) (store : SessionStore)
    (cookieAuth : Bool) (now : ℤ) : Bool :=
  (extractBearer r ≠ [] && checkBearer (extractBearer r) adminToken) ||
    (cookieAuth &&
      match r.cookie sessionCookieName with
      | none => false
      | some c => store.validate c.value now)

/-- A digit of a percent escape. -/
def hexDigit (n : UInt8) : UInt8 := if n < 10 then 0x30 + n else 0x41 + (n - 10)

/-- `url.QueryEscape`. -/
def queryEscape (s : GoString) : GoString :=
  s.flatMap fun b =>
    if (0x30 ≤ b && b ≤ 0x39) || (0x41 ≤ b && b ≤ 0x5A) || (0x61 ≤ b && b ≤ 0x7A) ||
        b ∈ str "-_.~" then [b]
    else if b = 0x20 then [0x2B]
    else [0x25, hexDigit (b / 16), hexDigit (b % 16)]

/-- How the handler answers. -/
inductive Outcome where
  /-- The wrapped handler is called. -/
  | served
  /-- `429` with the header `Retry-After`. -/
  | rateLimited (retryAfter : GoString)
  /-- `303` to the login page. -/
  | redirect (location : GoString)
  /-- `401` with the header `WWW-Authenticate`. -/
  | unauthorized
  deriving DecidableEq

/-- `denyRequest`. -/
def denyRequest (r : AuthRequest) : Outcome :=
  if contains (r.headers.get (str "Accept")) (str "text/html") then
    .redirect (str "/login?next=" ++ queryEscape r.requestURI)
  else .unauthorized

/-- The instants at which a request reads the clock: in `Allowed`; in `RetryAfter` or
`Validate`; in `RegisterFailure`. -/
structure Reads where
  first : ℤ
  second : ℤ
  third : ℤ

/-- The handler of `Middleware`: its answer and what it does to the limiter. -/
def middleware (adminToken : GoString) (store : SessionStore) (limiter : AuthLimiter)
    (cookieAuth : Bool) (r : AuthRequest) (now : Reads) : Outcome × AuthLimiter :=
  let ip := clientIP r.remoteAddr
  let (ok, limiter) := limiter.allowed ip now.first
  if !ok then (.rateLimited (sprintDecimal (limiter.retryAfter ip now.second / 10 ^ 9)), limiter)
  else if authenticate r adminToken store cookieAuth now.second then (.served, limiter)
  else (denyRequest r, limiter.registerFailure ip now.third)

/-! ### Runs -/

/-- The calls of a run. -/
inductive Call where
  /-- `Create`. -/
  | create (ttl : ℤ) (id : Option GoString) (now : ℤ)
  /-- `Revoke`. -/
  | revoke (id : GoString)
  /-- `Sweep`. -/
  | sweep (now : ℤ)
  /-- A request through the middleware of a route. -/
  | request (cookieAuth : Bool) (r : AuthRequest) (now : Reads)
  /-- A call of the limiter by the login handler or its own sweeper. -/
  | limiter (op : AuthLimiter.Op) (now : ℤ)

/-- The instants that a call reads. -/
def Call.instants : Call → List ℤ
  | .create _ _ now | .sweep now | .limiter _ now => [now]
  | .revoke _ => []
  | .request _ _ now => [now.first, now.second, now.third]

/-- The id of a session that a call creates. -/
def Call.created : Call → Option GoString
  | .create _ id _ => id
  | _ => none

/-- Whether a call sweeps the store. -/
def Call.isSweep : Call → Bool
  | .sweep _ => true
  | _ => false

/-- The store and the limiter. -/
structure Auth where
  store : SessionStore
  limiter : AuthLimiter

namespace Auth

/-- Before the first call. -/
def init : Auth := ⟨.new, newAuthLimiter⟩

variable (adminToken : GoString)

/-- The effect of a call. -/
def step (a : Auth) : Call → Auth
  | .create ttl id now => { a with store := (a.store.create ttl id now).2 }
  | .revoke id => { a with store := a.store.revoke id }
  | .sweep now => { a with store := a.store.sweep now }
  | .request cookieAuth r now =>
    { a with limiter := (middleware adminToken a.store a.limiter cookieAuth r now).2 }
  | .limiter op now => { a with limiter := a.limiter.step now op }

/-- The answer to a call. -/
def answer (a : Auth) : Call → Option Outcome
  | .request cookieAuth r now => some (middleware adminToken a.store a.limiter cookieAuth r now).1
  | _ => none

/-- The state after a list of calls. -/
def run (a : Auth) (calls : List Call) : Auth := calls.foldl (step adminToken) a

/-- The answers to the requests among a list of calls. -/
def results : Auth → List Call → List Outcome
  | _, [] => []
  | a, c :: calls => (a.answer adminToken c).toList ++ results (a.step adminToken c) calls

end Auth

/-- The clock does not go back during the calls. -/
def Clocked (calls : List Call) : Prop := (calls.flatMap Call.instants).Pairwise (· ≤ ·)

/-! ### Sweeping -/

section Sweeping

variable {adminToken : GoString}

/-- Requests are answered by the limiter and by what the store says at one instant. -/
theorem middleware_congr {store store' : SessionStore} {limiter : AuthLimiter} {cookieAuth : Bool}
    {r : AuthRequest} {now : Reads}
    (h : ∀ id, store.validate id now.second = store'.validate id now.second) :
    middleware adminToken store limiter cookieAuth r now =
      middleware adminToken store' limiter cookieAuth r now := by
  have hauth : authenticate r adminToken store cookieAuth now.second =
      authenticate r adminToken store' cookieAuth now.second := by
    rw [authenticate, authenticate]
    cases r.cookie sessionCookieName with
    | none => rfl
    | some c => simp only [h]
  simp only [middleware, hauth]

/-- Two runs whose stores say the same at all instants to come give the same answers, whichever
of the sweeps the second one leaves out. -/
theorem results_similar {calls : List Call} (hclock : Clocked calls) {a a' : Auth}
    (hlimiter : a.limiter = a'.limiter)
    (hstore : ∀ id, ∀ t ∈ calls.flatMap Call.instants, a.store.validate id t =
      a'.store.validate id t) :
    a.results adminToken calls = a'.results adminToken (calls.filter fun c => !c.isSweep) := by
  induction calls generalizing a a' with
  | nil => rfl
  | cons c calls ih =>
    rw [Clocked, List.flatMap_cons, List.pairwise_append] at hclock
    obtain ⟨-, hrest, hlater⟩ := hclock
    simp only [List.flatMap_cons, List.mem_append] at hstore
    have hafter : ∀ id, ∀ t ∈ calls.flatMap Call.instants, a.store.validate id t =
        a'.store.validate id t :=
      fun id t ht => hstore id t (.inr ht)
    cases c with
    | sweep now =>
      rw [List.filter_cons_of_neg (by simp [Call.isSweep])]
      refine ih hrest hlimiter fun id t ht => ?_
      rw [← hafter id t ht]
      exact SessionStore.validate_sweep _ _ (hlater now (by simp [Call.instants]) t ht)
    | create ttl id' now =>
      rw [List.filter_cons_of_pos (by simp [Call.isSweep])]
      refine ih hrest hlimiter fun id t ht => ?_
      cases id' with
      | none => exact hafter id t ht
      | some id' =>
        by_cases hid : id = id'
        · subst hid
          simp [Auth.step]
        · simpa [Auth.step, hid] using hafter id t ht
    | revoke id' =>
      rw [List.filter_cons_of_pos (by simp [Call.isSweep])]
      refine ih hrest hlimiter fun id t ht => ?_
      by_cases hid : id = id'
      · subst hid
        simp [Auth.step]
      · simpa [Auth.step, hid] using hafter id t ht
    | request cookieAuth r now =>
      have hmid : middleware adminToken a.store a.limiter cookieAuth r now =
          middleware adminToken a'.store a'.limiter cookieAuth r now := by
        rw [hlimiter]
        exact middleware_congr fun id => hstore id now.second (.inl (by simp [Call.instants]))
      rw [List.filter_cons_of_pos (by simp [Call.isSweep])]
      simp only [Auth.results, Auth.answer, Auth.step, hmid]
      congr 1
      exact ih hrest rfl hafter
    | limiter op now =>
      rw [List.filter_cons_of_pos (by simp [Call.isSweep])]
      refine ih hrest ?_ hafter
      simp only [Auth.step, hlimiter]

end Sweeping

/-! ### Histories -/

/-- By the history, the session is live at `now`: some call created it, its time is not over,
and no later call revoked it. -/
def Live (calls : List Call) (id : GoString) (now : ℤ) : Prop :=
  ∃ before after ttl t, calls = before ++ .create ttl (some id) t :: after ∧ now < t + ttl ∧
    .revoke id ∉ after

theorem live_append_singleton {calls : List Call} {c : Call} {id : GoString} {now : ℤ} :
    Live (calls ++ [c]) id now ↔
      (∃ ttl t, c = .create ttl (some id) t ∧ now < t + ttl) ∨
        c ≠ .revoke id ∧ Live calls id now := by
  constructor
  · rintro ⟨before, after, ttl, t, heq, hnow, hrev⟩
    rcases List.eq_nil_or_concat after with rfl | ⟨after', c', rfl⟩
    · obtain ⟨rfl, hc⟩ := List.append_inj' heq rfl
      exact .inl ⟨ttl, t, by simpa using hc, hnow⟩
    · rw [List.concat_eq_append, ← List.cons_append, ← List.append_assoc] at heq
      obtain ⟨rfl, hc⟩ := List.append_inj' heq rfl
      obtain rfl : c = c' := by simpa using hc
      simp only [List.concat_eq_append, List.mem_append, List.mem_singleton, not_or] at hrev
      exact .inr ⟨Ne.symm hrev.2, before, after', ttl, t, rfl, hnow, hrev.1⟩
  · rintro (⟨ttl, t, rfl, hnow⟩ | ⟨hne, before, after, ttl, t, rfl, hnow, hrev⟩)
    · exact ⟨calls, [], ttl, t, rfl, hnow, by simp⟩
    · refine ⟨before, after ++ [c], ttl, t, by simp, hnow, ?_⟩
      simp only [List.mem_append, List.mem_singleton, not_or]
      exact ⟨hrev, Ne.symm hne⟩

/-- Only ids that were created are live. -/
theorem Live.created {calls : List Call} {id : GoString} {now : ℤ} (h : Live calls id now) :
    id ∈ calls.filterMap Call.created := by
  obtain ⟨before, after, ttl, t, rfl, -, -⟩ := h
  simp [Call.created]

/-- **The store follows the history**, at all instants that are not before the calls. -/
theorem validate_iff {adminToken : GoString} {calls : List Call}
    (hids : (calls.filterMap Call.created).Nodup) {now : ℤ}
    (hnow : ∀ t ∈ calls.flatMap Call.instants, t ≤ now) (id : GoString) :
    (Auth.init.run adminToken calls).store.validate id now = true ↔ Live calls id now := by
  induction calls using List.reverseRecOn with
  | nil => simp [Auth.run, Auth.init, Live]
  | append_singleton calls c ih =>
    rw [List.filterMap_append, List.nodup_append] at hids
    rw [List.flatMap_append] at hnow
    obtain ⟨hids, -, hfresh⟩ := hids
    have ih := ih hids fun t ht => hnow t (List.mem_append_left _ ht)
    rw [live_append_singleton, Auth.run, List.foldl_append, List.foldl_cons,
      List.foldl_nil, ← Auth.run]
    cases c with
    | create ttl id' t =>
      cases id' with
      | none => simpa [Auth.step, SessionStore.create] using ih
      | some id' =>
        by_cases hid : id = id'
        · -- the id is fresh, so there is no older session with it
          subst hid
          have hdead : ¬ Live calls id now :=
            fun h => hfresh id h.created id (by simp [Call.created]) rfl
          simp [Auth.step, hdead]
        · simp [Auth.step, hid, Ne.symm hid, ih]
    | revoke id' =>
      by_cases hid : id = id'
      · subst hid
        simp [Auth.step]
      · simp [Auth.step, hid, Ne.symm hid, ih]
    | sweep t =>
      have ht : t ≤ now := hnow t (by simp [Call.instants])
      simp [Auth.step, SessionStore.validate_sweep _ _ ht, ih]
    | request cookieAuth r reads => simp [Auth.step, ih]
    | limiter op t => simp [Auth.step, ih]

/-! ### Who is served -/

/-- The `Authorization` header is `Bearer ` and the admin token, which is not empty. -/
def BearsToken (adminToken : GoString) (r : AuthRequest) : Prop :=
  adminToken ≠ [] ∧ r.headers.get (str "Authorization") = str "Bearer " ++ adminToken

/-- The session cookie holds an id that is live by the history. -/
def BearsSession (calls : List Call) (r : AuthRequest) (now : ℤ) : Prop :=
  ∃ c, r.cookie sessionCookieName = some c ∧ Live calls c.value now

theorem bearer_iff (adminToken : GoString) (r : AuthRequest) :
    (extractBearer r ≠ [] && checkBearer (extractBearer r) adminToken) = true ↔
      BearsToken adminToken r := by
  rw [Bool.and_eq_true, decide_eq_true_eq, checkBearer, BearsToken]
  by_cases hadmin : adminToken = []
  · simp [hadmin]
  · rw [if_neg hadmin, decide_eq_true_eq]
    simp only [extractBearer]
    cases hp : hasPrefix (r.headers.get (str "Authorization")) (str "Bearer ") with
    | false =>
      have hne : r.headers.get (str "Authorization") ≠ str "Bearer " ++ adminToken := by
        intro heq
        have : hasPrefix (r.headers.get (str "Authorization")) (str "Bearer ") = true :=
          (hasPrefix_iff _ _).mpr ⟨adminToken, heq.symm⟩
        simp [hp] at this
      simp [hne]
    | true =>
      obtain ⟨rest, hrest⟩ := (hasPrefix_iff _ _).mp hp
      rw [← hrest]
      simp only [Bool.not_true, Bool.false_eq_true, if_false, List.drop_left,
        List.append_cancel_left_eq]
      exact ⟨fun h => ⟨hadmin, h.2⟩, fun h => ⟨by rw [h.2]; exact hadmin, h.2⟩⟩

theorem middleware_served {adminToken : GoString} {store : SessionStore} {limiter : AuthLimiter}
    {cookieAuth : Bool} {r : AuthRequest} {now : Reads} :
    (middleware adminToken store limiter cookieAuth r now).1 = .served ↔
      (limiter.allowed (clientIP r.remoteAddr) now.first).1 = true ∧
        (BearsToken adminToken r ∨ cookieAuth = true ∧
          ∃ c, r.cookie sessionCookieName = some c ∧ store.validate c.value now.second = true) := by
  have hdeny : denyRequest r ≠ .served := by
    rw [denyRequest]
    split_ifs <;> simp
  have hauth : authenticate r adminToken store cookieAuth now.second = true ↔
      BearsToken adminToken r ∨ cookieAuth = true ∧
        ∃ c, r.cookie sessionCookieName = some c ∧ store.validate c.value now.second = true := by
    rw [authenticate, Bool.or_eq_true, bearer_iff, Bool.and_eq_true]
    cases r.cookie sessionCookieName <;> simp
  rw [← hauth, middleware]
  cases hok : (limiter.allowed (clientIP r.remoteAddr) now.first).1 with
  | false => simp [hok]
  | true => cases h : authenticate r adminToken store cookieAuth now.second <;> simp [hok, hdeny]

/-- **Authentication follows the history of the sessions.** A request is served exactly when the
limiter allows it and it bears the admin token, or, on a route with cookies, a session that the
calls before it have made live. Without cookies only the token serves; an empty token serves
nobody. Sweeps of the store change none of the answers. -/
theorem middleware_history (adminToken : GoString) (calls : List Call) (cookieAuth : Bool)
    (r : AuthRequest) (now : Reads) (hclock : Clocked (calls ++ [.request cookieAuth r now]))
    (hids : (calls.filterMap Call.created).Nodup) :
    let auth := Auth.init.run adminToken calls
    let served := (middleware adminToken auth.store auth.limiter cookieAuth r now).1 = .served
    (served ↔ (auth.limiter.allowed (clientIP r.remoteAddr) now.first).1 = true ∧
      (BearsToken adminToken r ∨ cookieAuth = true ∧ BearsSession calls r now.second)) ∧
    (cookieAuth = false → served → BearsToken adminToken r) ∧
    (adminToken = [] → served → cookieAuth = true ∧ BearsSession calls r now.second) ∧
    Auth.init.results adminToken (calls ++ [.request cookieAuth r now]) =
      Auth.init.results adminToken
        ((calls ++ [Call.request cookieAuth r now]).filter fun c => !c.isSweep) := by
  have hnow : ∀ t ∈ calls.flatMap Call.instants, t ≤ now.second := by
    rw [Clocked, List.flatMap_append, List.pairwise_append] at hclock
    exact fun t ht => hclock.2.2 t ht now.second (by simp [Call.instants])
  have hiff : (middleware adminToken (Auth.init.run adminToken calls).store
      (Auth.init.run adminToken calls).limiter
      cookieAuth r now).1 = .served ↔
        ((Auth.init.run adminToken calls).limiter.allowed (clientIP r.remoteAddr) now.first).1 =
        true ∧
          (BearsToken adminToken r ∨ cookieAuth = true ∧ BearsSession calls r now.second) := by
    simp only [middleware_served, validate_iff hids hnow, BearsSession]
  refine ⟨hiff, ?_, ?_, results_similar hclock rfl fun _ _ _ => rfl⟩
  · rintro hcookie hserved
    exact (hiff.mp hserved).2.resolve_right fun h => by simp [hcookie] at h
  · rintro hadmin hserved
    exact (hiff.mp hserved).2.resolve_left fun h => h.1 hadmin

/-- A session of one second, which is used after half a second, with a sweep in between. -/
theorem middleware_history_cookie :
    let headers : Headers := some ⟨[(str "Cookie", some [str "httpcatch_session=a"])], by simp⟩
    let r : AuthRequest := ⟨str "192.0.2.1:80", str "/", headers⟩
    let calls : List Call := [.create (10 ^ 9) (some (str "a")) 0, .sweep 1]
    let now : Reads := ⟨500000000, 500000000, 500000000⟩
    (middleware (str "t") (Auth.init.run (str "t") calls).store
      (Auth.init.run (str "t") calls).limiter true r now).1 =
      .served := by
  intro headers r calls now
  have hclock : Clocked (calls ++ [.request true r now]) := by
    simp [calls, now, Clocked, Call.instants]
  have hids : (calls.filterMap Call.created).Nodup := List.nodup_singleton (str "a")
  have hcookie : r.cookie sessionCookieName = some ⟨sessionCookieName, str "a"⟩ := rfl
  refine (middleware_history (str "t") calls true r now hclock hids).1.mpr
    ⟨by decide +kernel, .inr ⟨rfl, _, hcookie, ?_⟩⟩
  exact ⟨[], [.sweep 1], 10 ^ 9, 0, rfl, by simp [now], by simp⟩

end HttpCatch.Admin

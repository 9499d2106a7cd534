import HttpCatch.Admin.Login
import HttpCatch.Admin.Origin

/-!
# The admin server

`internal/admin/server.go`: the routes of the admin port and what stands in front of their
handlers. `GET /healthz`, `/metrics`, `/login` and `/static/*` are open; the two routes that log
in and out check the origin; all others are behind the middleware, which takes the admin token or
the cookie of a session, and on `POST /events` the token alone.

## The model

Requests are served at the same time. Each is at a stage of its way through the handlers, and a
step of one of them is one call of the session store or the limiter, or what it does between two
such calls (`Step`); the sweepers of both are there too. So anything may happen between the check
of a token and the creation of a session, or between the limiter's word and the look at the
cookie. What was created, revoked and served is written to a log that no step reads. The clock is
read anew by each step, and nothing is assumed about it or about the ids that are drawn.

Which of the routes a request is for is left to chi (`Router`), of which nothing is assumed; a
request without a route is answered before all this.

* `gate_serial`, `login_serial` — a request that nothing comes between is answered as
  `middleware` and `loginPostHandler` say.
* `served_authorized` — each time a handler behind the middleware is called, the request bears the
  admin token or a session that a login with the token made and nobody has ended since.
* `foreign_page_powerless` — a page of another host can neither log a browser in nor out.
-/

namespace HttpCatch.Admin.Server

open HttpCatch.Go HttpCatch.Capture HttpCatch.Url

/-! ### Routes -/

/-- What the server reads of a request, the method and the path in chi; there is no form when
`ParseForm` fails. -/
structure HttpRequest where
  method : GoString
  path : GoString
  requestURI : GoString
  host : GoString
  remoteAddr : GoString
  headers : Headers
  form : Option LoginForm

/-- The request as the middleware reads it. -/
def HttpRequest.auth (r : HttpRequest) : AuthRequest := ⟨r.remoteAddr, r.requestURI, r.headers⟩

/-- The request as the login handler reads it. -/
def HttpRequest.login (r : HttpRequest) : LoginRequest := ⟨r.remoteAddr, r.form⟩

/-- The request as the check of the origin reads it. -/
def HttpRequest.origin (r : HttpRequest) : OriginRequest := ⟨r.headers, r.host⟩

/-- The handlers. -/
inductive Endpoint where
  | healthz
  | metrics
  | loginPage
  | loginPost
  | logout
  | static (file : GoString)
  | root
  | status
  | requests
  | requestsAggregate
  | requestDetail (id : GoString)
  | requestList
  | requestDetailUI (id : GoString)
  | services
  | configuration
  | events
  deriving DecidableEq

/-- A route; the handler is given what stands for `{id}` or `*`. -/
structure Route where
  method : GoString
  pattern : GoString
  endpoint : GoString → Endpoint

/-- The routes, as `New` registers them. -/
def routes : List Route :=
  [⟨str "GET", str "/healthz", fun _ => .healthz⟩,
    ⟨str "GET", str "/metrics", fun _ => .metrics⟩,
    ⟨str "GET", str "/login", fun _ => .loginPage⟩,
    ⟨str "POST", str "/auth/login", fun _ => .loginPost⟩,
    ⟨str "POST", str "/auth/logout", fun _ => .logout⟩,
    ⟨str "GET", str "/static/*", .static⟩,
    ⟨str "GET", str "/", fun _ => .root⟩,
    ⟨str "GET", str "/status", fun _ => .status⟩,
    ⟨str "GET", str "/requests", fun _ => .requests⟩,
    ⟨str "GET", str "/requests/aggregate", fun _ => .requestsAggregate⟩,
    ⟨str "GET", str "/requests/\x7bid\x7d", .requestDetail⟩,
    ⟨str "GET", str "/ui/requests", fun _ => .requestList⟩,
    ⟨str "GET", str "/ui/requests/\x7bid\x7d", .requestDetailUI⟩,
    ⟨str "GET", str "/ui/services", fun _ => .services⟩,
    ⟨str "GET", str "/ui/configuration", fun _ => .configuration⟩,
    ⟨str "POST", str "/events", fun _ => .events⟩]

/-- chi: which of the methods and patterns that were registered a request is for, and what stands
for the open part of the pattern. -/
abbrev Router := List (GoString × GoString) → HttpRequest → Option (ℕ × GoString)

/-- The handler of a request, if there is one. -/
def endpoint? (chi : Router) (r : HttpRequest) : Option Endpoint := do
  let (i, param) ← chi (routes.map fun route => (route.method, route.pattern)) r
  let route ← routes[i]?
  return route.endpoint param

/-- What stands in front of a handler. -/
inductive Guard where
  | none
  /-- `csrfOriginCheck`. -/
  | sameOrigin
  /-- `Middleware`. -/
  | auth (cookieAuth : Bool)
  deriving DecidableEq

/-- What `New` puts in front of each handler. -/
def Endpoint.guard : Endpoint → Guard
  | .healthz | .metrics | .loginPage | .static _ => .none
  | .loginPost | .logout => .sameOrigin
  | .events => .auth false
  | _ => .auth true

/-! ### States -/

/-- How a request is answered. -/
inductive Answer where
  /-- By an open handler. -/
  | page (e : Endpoint)
  /-- `403` by the check of the origin. -/
  | forbidden
  /-- By the middleware, which may let the handler answer. -/
  | gate (o : Outcome)
  /-- By the login handler. -/
  | login (o : LoginOutcome)
  /-- By the logout handler. -/
  | loggedOut
  deriving DecidableEq

/-- How far a request has come. -/
inductive Stage where
  | routed
  /-- Past the check of the origin. -/
  | checked
  /-- Past `Allowed`. -/
  | allowed
  /-- Stopped by it, before `RetryAfter`. -/
  | limited
  /-- Without a valid credential, before `RegisterFailure`. -/
  | refused
  /-- With the admin token in the login form, before `Create`. -/
  | verified
  | answered (a : Answer)

/-- A request that is being served. -/
structure Thread where
  request : HttpRequest
  endpoint : Endpoint
  stage : Stage

/-- What the log has. -/
inductive Entry where
  /-- A session was created for a request. -/
  | issued (r : HttpRequest) (session : Session)
  /-- The session with the id was revoked for a request. -/
  | revoked (r : HttpRequest) (id : GoString)
  /-- A request was let through the middleware at an instant. -/
  | served (r : HttpRequest) (e : Endpoint) (now : ℤ)

/-- The server. -/
structure State where
  store : SessionStore
  limiter : AuthLimiter
  threads : List Thread
  log : List Entry

/-- The server at the start. -/
def State.init : State := ⟨.new, newAuthLimiter, [], []⟩

/-! ### Steps -/

/-- The request asks the limiter next. -/
def Thread.Asks (th : Thread) : Prop :=
  th.stage = .routed ∧ (∃ cookieAuth, th.endpoint.guard = .auth cookieAuth) ∨
    th.stage = .checked

/-- The answer to a request that the limiter stops. -/
def limitedAnswer (e : Endpoint) (retryAfter : GoString) : Answer :=
  if e = .loginPost then .login (.rateLimited retryAfter) else .gate (.rateLimited retryAfter)

/-- The answer to a request without a valid credential. -/
def refusedAnswer (r : HttpRequest) (e : Endpoint) : Answer :=
  if e = .loginPost then .login (.loginForm (safeNext ((r.form.map LoginForm.next).getD []) []))
  else .gate (denyRequest r.auth)

/-- The session that a logout ends, as an entry of the log. -/
def revocation (r : HttpRequest) : List Entry :=
  (r.auth.cookie sessionCookieName).toList.map fun c => .revoked r c.value

/-- What `logoutHandler` does to the store. -/
def logoutStore (store : SessionStore) (r : HttpRequest) : SessionStore :=
  match r.auth.cookie sessionCookieName with
  | none => store
  | some c => store.revoke c.value

/-- A step of one request, a new request, or a step of a sweeper. -/
inductive Step (chi : Router) (lib : OriginLib) (cfg : LoginConfig) : State → State → Prop
  | arrive (s : State) {r : HttpRequest} {e : Endpoint} (h : endpoint? chi r = some e) :
      Step chi lib cfg s { s with threads := ⟨r, e, .routed⟩ :: s.threads }
  /-- An open handler. -/
  | page (s : State) {ts ts' : List Thread} {r : HttpRequest} {e : Endpoint}
      (h : s.threads = ts ++ ⟨r, e, .routed⟩ :: ts') (hguard : e.guard = .none) :
      Step chi lib cfg s { s with threads := ts ++ ⟨r, e, .answered (.page e)⟩ :: ts' }
  /-- `csrfOriginCheck` refuses. -/
  | crossOrigin (s : State) {ts ts' : List Thread} {r : HttpRequest} {e : Endpoint}
      (h : s.threads = ts ++ ⟨r, e, .routed⟩ :: ts') (hguard : e.guard = .sameOrigin)
      (horigin : isSameOrigin lib r.origin = false) :
      Step chi lib cfg s { s with threads := ts ++ ⟨r, e, .answered .forbidden⟩ :: ts' }
  /-- `csrfOriginCheck` calls the login handler. -/
  | sameOrigin (s : State) {ts ts' : List Thread} {r : HttpRequest}
      (h : s.threads = ts ++ ⟨r, .loginPost, .routed⟩ :: ts')
      (horigin : isSameOrigin lib r.origin = true) :
      Step chi lib cfg s { s with threads := ts ++ ⟨r, .loginPost, .checked⟩ :: ts' }
  /-- `logoutHandler`. -/
  | logout (s : State) {ts ts' : List Thread} {r : HttpRequest}
      (h : s.threads = ts ++ ⟨r, .logout, .routed⟩ :: ts')
      (horigin : isSameOrigin lib r.origin = true) :
      Step chi lib cfg s { s with
        store := logoutStore s.store r
        threads := ts ++ ⟨r, .logout, .answered .loggedOut⟩ :: ts'
        log := s.log ++ revocation r }
  /-- `Allowed` says yes. -/
  | allow (s : State) {ts ts' : List Thread} {th : Thread} (now : ℤ)
      (h : s.threads = ts ++ th :: ts') (hasks : th.Asks)
      (hok : (s.limiter.allowed (clientIP th.request.remoteAddr) now).1 = true) :
      Step chi lib cfg s { s with
        limiter := (s.limiter.allowed (clientIP th.request.remoteAddr) now).2
        threads := ts ++ { th with stage := .allowed } :: ts' }
  /-- `Allowed` says no. -/
  | limit (s : State) {ts ts' : List Thread} {th : Thread} (now : ℤ)
      (h : s.threads = ts ++ th :: ts') (hasks : th.Asks)
      (hok : (s.limiter.allowed (clientIP th.request.remoteAddr) now).1 = false) :
      Step chi lib cfg s { s with
        limiter := (s.limiter.allowed (clientIP th.request.remoteAddr) now).2
        threads := ts ++ { th with stage := .limited } :: ts' }
  /-- `RetryAfter`. -/
  | rateLimited (s : State) {ts ts' : List Thread} {r : HttpRequest} {e : Endpoint} (now : ℤ)
      (h : s.threads = ts ++ ⟨r, e, .limited⟩ :: ts') :
      Step chi lib cfg s { s with threads := ts ++ ⟨r, e, .answered (limitedAnswer e
        (sprintDecimal (s.limiter.retryAfter (clientIP r.remoteAddr) now / 10 ^ 9)))⟩ :: ts' }
  /-- `authenticate` says yes, and the handler is called. -/
  | serve (s : State) {ts ts' : List Thread} {r : HttpRequest} {e : Endpoint} {cookieAuth : Bool}
      (now : ℤ) (h : s.threads = ts ++ ⟨r, e, .allowed⟩ :: ts')
      (hguard : e.guard = .auth cookieAuth)
      (hauth : authenticate r.auth cfg.token s.store cookieAuth now = true) :
      Step chi lib cfg s { s with
        threads := ts ++ ⟨r, e, .answered (.gate .served)⟩ :: ts'
        log := s.log ++ [.served r e now] }
  /-- `authenticate` says no. -/
  | refuse (s : State) {ts ts' : List Thread} {r : HttpRequest} {e : Endpoint} {cookieAuth : Bool}
      (now : ℤ) (h : s.threads = ts ++ ⟨r, e, .allowed⟩ :: ts')
      (hguard : e.guard = .auth cookieAuth)
      (hauth : authenticate r.auth cfg.token s.store cookieAuth now = false) :
      Step chi lib cfg s { s with threads := ts ++ ⟨r, e, .refused⟩ :: ts' }
  /-- The login form cannot be read. -/
  | badForm (s : State) {ts ts' : List Thread} {r : HttpRequest}
      (h : s.threads = ts ++ ⟨r, .loginPost, .allowed⟩ :: ts') (hform : r.form = none) :
      Step chi lib cfg s { s with threads := ts ++
        ⟨r, .loginPost, .answered (.login (.error (str "bad request") 400))⟩ :: ts' }
  /-- It has no token. -/
  | noToken (s : State) {ts ts' : List Thread} {r : HttpRequest} {form : LoginForm}
      (h : s.threads = ts ++ ⟨r, .loginPost, .allowed⟩ :: ts') (hform : r.form = some form)
      (htoken : form.token = []) :
      Step chi lib cfg s { s with threads := ts ++
        ⟨r, .loginPost, .answered (.login (.error (str "missing token") 400))⟩ :: ts' }
  /-- It has another token. -/
  | wrongToken (s : State) {ts ts' : List Thread} {r : HttpRequest} {form : LoginForm}
      (h : s.threads = ts ++ ⟨r, .loginPost, .allowed⟩ :: ts') (hform : r.form = some form)
      (htoken : form.token ≠ []) (hcheck : checkBearer form.token cfg.token = false) :
      Step chi lib cfg s { s with threads := ts ++ ⟨r, .loginPost, .refused⟩ :: ts' }
  /-- It has the admin token. -/
  | verify (s : State) {ts ts' : List Thread} {r : HttpRequest} {form : LoginForm}
      (h : s.threads = ts ++ ⟨r, .loginPost, .allowed⟩ :: ts') (hform : r.form = some form)
      (htoken : form.token ≠ []) (hcheck : checkBearer form.token cfg.token = true) :
      Step chi lib cfg s { s with threads := ts ++ ⟨r, .loginPost, .verified⟩ :: ts' }
  /-- `Create` makes a session. -/
  | create (s : State) {ts ts' : List Thread} {r : HttpRequest} {form : LoginForm} (id : GoString)
      (now : ℤ) (h : s.threads = ts ++ ⟨r, .loginPost, .verified⟩ :: ts')
      (hform : r.form = some form) :
      Step chi lib cfg s { s with
        store := (s.store.create cfg.sessionTTL (some id) now).2
        threads := ts ++ ⟨r, .loginPost, .answered (.login (.loggedIn ⟨id, now + cfg.sessionTTL⟩
          (httpRedirect (safeNext form.next (str "/")))))⟩ :: ts'
        log := s.log ++ [.issued r ⟨id, now + cfg.sessionTTL⟩] }
  /-- The random source fails in `Create`. -/
  | createFails (s : State) {ts ts' : List Thread} {r : HttpRequest}
      (h : s.threads = ts ++ ⟨r, .loginPost, .verified⟩ :: ts') :
      Step chi lib cfg s { s with threads := ts ++
        ⟨r, .loginPost, .answered (.login (.error (str "internal error") 500))⟩ :: ts' }
  /-- `RegisterFailure`. -/
  | fail (s : State) {ts ts' : List Thread} {r : HttpRequest} {e : Endpoint} (now : ℤ)
      (h : s.threads = ts ++ ⟨r, e, .refused⟩ :: ts') :
      Step chi lib cfg s { s with
        limiter := s.limiter.registerFailure (clientIP r.remoteAddr) now
        threads := ts ++ ⟨r, e, .answered (refusedAnswer r e)⟩ :: ts' }
  /-- The sweeper of the sessions. -/
  | sweepStore (s : State) (now : ℤ) : Step chi lib cfg s { s with store := s.store.sweep now }
  /-- The sweeper of the limiter. -/
  | sweepLimiter (s : State) (now : ℤ) :
      Step chi lib cfg s { s with limiter := s.limiter.sweep now }

/-- A run of some steps. -/
abbrev Run (chi : Router) (lib : OriginLib) (cfg : LoginConfig) : State → State → Prop :=
  Relation.ReflTransGen (Step chi lib cfg)

/-- A state that the server can be in. -/
def Reachable (chi : Router) (lib : OriginLib) (cfg : LoginConfig) (s : State) : Prop :=
  Run chi lib cfg State.init s

/-! ### One request alone -/

section Serial

variable {chi : Router} {lib : OriginLib} {cfg : LoginConfig} {s : State} {ts ts' : List Thread}
  {r : HttpRequest}

/-- **A request that nothing comes between is answered as `middleware` says.** -/
theorem gate_serial {e : Endpoint} {cookieAuth : Bool} (hguard : e.guard = .auth cookieAuth)
    (h : s.threads = ts ++ ⟨r, e, .routed⟩ :: ts') (now : Reads) :
    ∃ s', Run chi lib cfg s s' ∧ s'.store = s.store ∧
      s'.limiter = (middleware cfg.token s.store s.limiter cookieAuth r.auth now).2 ∧
      s'.threads = ts ++ ⟨r, e, .answered (.gate
        (middleware cfg.token s.store s.limiter cookieAuth r.auth now).1)⟩ :: ts' := by
  have hasks : (⟨r, e, .routed⟩ : Thread).Asks := .inl ⟨rfl, cookieAuth, hguard⟩
  have hne : e ≠ .loginPost := by
    rintro rfl
    cases hguard
  have hip : clientIP r.auth.remoteAddr = clientIP r.remoteAddr := rfl
  simp only [middleware, hip]
  cases hok : (s.limiter.allowed (clientIP r.remoteAddr) now.first).1 with
  | false =>
    have hlimit : Run chi lib cfg s _ := .single (.limit s now.first h hasks hok)
    refine ⟨_, hlimit.tail (.rateLimited _ now.second rfl), rfl, rfl, ?_⟩
    simp [limitedAnswer, hne]
  | true =>
    have hallow : Run chi lib cfg s _ := .single (.allow s now.first h hasks hok)
    cases hauth : authenticate r.auth cfg.token s.store cookieAuth now.second with
    | true =>
      exact ⟨_, hallow.tail (.serve _ now.second rfl hguard hauth), rfl, rfl, rfl⟩
    | false =>
      refine ⟨_, (hallow.tail (.refuse _ now.second rfl hguard hauth)).tail
        (.fail _ now.third rfl), rfl, rfl, ?_⟩
      simp [refusedAnswer, hne]

/-- **A login that nothing comes between is answered as `loginPostHandler` says.** -/
theorem login_serial (horigin : isSameOrigin lib r.origin = true)
    (h : s.threads = ts ++ ⟨r, .loginPost, .routed⟩ :: ts') (id : Option GoString)
    (first second : ℤ) :
    ∃ s', Run chi lib cfg s s' ∧
      s'.store = (loginPostHandler cfg s.store s.limiter r.login id first second).2.1 ∧
      s'.limiter = (loginPostHandler cfg s.store s.limiter r.login id first second).2.2 ∧
      s'.threads = ts ++ ⟨r, .loginPost, .answered (.login
        (loginPostHandler cfg s.store s.limiter r.login id first second).1)⟩ :: ts' := by
  have hip : clientIP r.login.remoteAddr = clientIP r.remoteAddr := rfl
  have hform : r.login.form = r.form := rfl
  have hchecked : Run chi lib cfg s _ := .single (.sameOrigin s h horigin)
  have hasks : (⟨r, .loginPost, .checked⟩ : Thread).Asks := .inr rfl
  simp only [loginPostHandler, hip, hform]
  cases hok : (s.limiter.allowed (clientIP r.remoteAddr) first).1 with
  | false =>
    exact ⟨_, (hchecked.tail (.limit _ first rfl hasks hok)).tail (.rateLimited _ second rfl), rfl,
      rfl, rfl⟩
  | true =>
    have hallowed := hchecked.tail (.allow _ first rfl hasks hok)
    simp only [Bool.not_true, Bool.false_eq_true, if_false]
    cases hf : r.form with
    | none => exact ⟨_, hallowed.tail (.badForm _ rfl hf), rfl, rfl, rfl⟩
    | some form =>
      by_cases htoken : form.token = []
      · simp only [htoken, if_true]
        exact ⟨_, hallowed.tail (.noToken _ rfl hf htoken), rfl, rfl, rfl⟩
      · simp only [htoken, if_false]
        cases hcheck : checkBearer form.token cfg.token with
        | false =>
          refine ⟨_, (hallowed.tail (.wrongToken _ rfl hf htoken hcheck)).tail
            (.fail _ second rfl), rfl, rfl, ?_⟩
          simp [refusedAnswer, hf]
        | true =>
          have hverified := hallowed.tail (.verify _ rfl hf htoken hcheck)
          cases id with
          | none => exact ⟨_, hverified.tail (.createFails _ rfl), rfl, rfl, rfl⟩
          | some id => exact ⟨_, hverified.tail (.create _ id second rfl hf), rfl, rfl, rfl⟩

end Serial

/-! ### Who is served -/

/-- A login that may make a session: sent by a page of the same origin or by no page, with the
admin token in its form. -/
def LoginBy (chi : Router) (lib : OriginLib) (cfg : LoginConfig) (r : HttpRequest) : Prop :=
  endpoint? chi r = some .loginPost ∧ isSameOrigin lib r.origin = true ∧ cfg.token ≠ [] ∧
    ∃ form, r.form = some form ∧ form.token = cfg.token

/-- A logout that may end the session with the id. -/
def LogoutBy (chi : Router) (lib : OriginLib) (r : HttpRequest) (id : GoString) : Prop :=
  endpoint? chi r = some .logout ∧ isSameOrigin lib r.origin = true ∧
    ∃ c, r.auth.cookie sessionCookieName = some c ∧ c.value = id

/-- By the log the session was created, and was not revoked after that. -/
def Issued (log : List Entry) (session : Session) : Prop :=
  ∃ r before after, log = before ++ .issued r session :: after ∧
    ∀ r', .revoked r' session.id ∉ after

/-- By the log the request may be served at the instant. -/
def Authorized (cfg : LoginConfig) (log : List Entry) (r : HttpRequest) (e : Endpoint) (now : ℤ) :
    Prop :=
  BearsToken cfg.token r.auth ∨ e.guard = .auth true ∧
    ∃ c session, r.auth.cookie sessionCookieName = some c ∧ session.id = c.value ∧
      now < session.expiresAt ∧ Issued log session

/-- The entry may be written to the log. -/
def Entry.Ok (chi : Router) (lib : OriginLib) (cfg : LoginConfig) (log : List Entry) : Entry → Prop
  | .issued r _ => LoginBy chi lib cfg r
  | .revoked r id => LogoutBy chi lib r id
  | .served r e now => endpoint? chi r = some e ∧ Authorized cfg log r e now

/-- Every entry of the log could be written when it was. -/
def LogOk (chi : Router) (lib : OriginLib) (cfg : LoginConfig) (log : List Entry) : Prop :=
  ∀ before entry after, log = before ++ entry :: after → entry.Ok chi lib cfg before

/-- What is known of a request at its stage. -/
def Thread.Ok (chi : Router) (lib : OriginLib) (cfg : LoginConfig) (th : Thread) : Prop :=
  endpoint? chi th.request = some th.endpoint ∧
    match th.stage with
    | .checked => th.endpoint = .loginPost ∧ isSameOrigin lib th.request.origin = true
    | .allowed => th.endpoint = .loginPost → isSameOrigin lib th.request.origin = true
    | .verified => LoginBy chi lib cfg th.request
    | _ => True

/-- What holds all the time. -/
structure Inv (chi : Router) (lib : OriginLib) (cfg : LoginConfig) (s : State) : Prop where
  threads : ∀ th ∈ s.threads, th.Ok chi lib cfg
  sessions : ∀ id session, s.store.sessions id = some session →
    session.id = id ∧ Issued s.log session
  log : LogOk chi lib cfg s.log

section Safety

variable {chi : Router} {lib : OriginLib} {cfg : LoginConfig} {s s' : State}

theorem Issued.append {log : List Entry} {session : Session} (h : Issued log session)
    {entries : List Entry} (hne : ∀ r, .revoked r session.id ∉ entries) :
    Issued (log ++ entries) session := by
  obtain ⟨r, before, after, rfl, hafter⟩ := h
  refine ⟨r, before, after ++ entries, by simp, fun r' => ?_⟩
  rw [List.mem_append]
  exact not_or.2 ⟨hafter r', hne r'⟩

theorem LogOk.append {log : List Entry} (h : LogOk chi lib cfg log) {entry : Entry}
    (hentry : entry.Ok chi lib cfg log) : LogOk chi lib cfg (log ++ [entry]) := by
  intro before e after heq
  rcases List.eq_nil_or_concat after with rfl | ⟨after', e', rfl⟩
  · obtain ⟨rfl, hlast⟩ := List.append_inj' heq rfl
    obtain rfl : entry = e := by simpa using hlast
    exact hentry
  · rw [List.concat_eq_append, ← List.cons_append, ← List.append_assoc] at heq
    exact h before e after' (List.append_inj' heq rfl).1

variable {ts ts' : List Thread} {th th' : Thread} {r : HttpRequest}

theorem Inv.thread (h : Inv chi lib cfg s) (hth : s.threads = ts ++ th :: ts') :
    th.Ok chi lib cfg :=
  h.threads th (hth ▸ List.mem_append_right _ List.mem_cons_self)

/-- Replacing one request. -/
theorem Inv.replace (h : Inv chi lib cfg s) (hth : s.threads = ts ++ th :: ts')
    (hok : th'.Ok chi lib cfg) : ∀ t ∈ ts ++ th' :: ts', t.Ok chi lib cfg := by
  have hall := h.threads
  rw [hth] at hall
  intro t ht
  rcases List.mem_append.1 ht with ht | ht
  · exact hall t (List.mem_append_left _ ht)
  rcases List.mem_cons.1 ht with rfl | ht
  · exact hok
  · exact hall t (List.mem_append_right _ (List.mem_cons_of_mem _ ht))

/-- A step that only moves a request on. -/
theorem Inv.move (h : Inv chi lib cfg s) (hth : s.threads = ts ++ th :: ts')
    (limiter : AuthLimiter) (hok : th'.Ok chi lib cfg) :
    Inv chi lib cfg { s with limiter := limiter, threads := ts ++ th' :: ts' } :=
  ⟨h.replace hth hok, h.sessions, h.log⟩

theorem authorized_of_authenticate (h : Inv chi lib cfg s) {e : Endpoint} {cookieAuth : Bool}
    {now : ℤ} (hguard : e.guard = .auth cookieAuth)
    (hauth : authenticate r.auth cfg.token s.store cookieAuth now = true) :
    Authorized cfg s.log r e now := by
  rw [authenticate, Bool.or_eq_true, bearer_iff, Bool.and_eq_true] at hauth
  rcases hauth with hbears | ⟨rfl, hcookie⟩
  · exact .inl hbears
  · cases hc : r.auth.cookie sessionCookieName with
    | none =>
      rw [hc] at hcookie
      cases hcookie
    | some c =>
      rw [hc] at hcookie
      dsimp only [SessionStore.validate] at hcookie
      cases hs : s.store.sessions c.value with
      | none =>
        rw [hs] at hcookie
        cases hcookie
      | some session =>
        rw [hs] at hcookie
        obtain ⟨hid, hissued⟩ := h.sessions c.value session hs
        exact .inr ⟨hguard, c, session, hc, hid, of_decide_eq_true hcookie, hissued⟩

theorem Inv.logout (h : Inv chi lib cfg s) (hth : s.threads = ts ++ ⟨r, .logout, .routed⟩ :: ts')
    (horigin : isSameOrigin lib r.origin = true) :
    Inv chi lib cfg { s with
      store := logoutStore s.store r
      threads := ts ++ ⟨r, .logout, .answered .loggedOut⟩ :: ts'
      log := s.log ++ revocation r } := by
  have hroute : endpoint? chi r = some .logout := (h.thread hth).1
  refine ⟨h.replace hth ⟨hroute, trivial⟩, ?_, ?_⟩
  · intro id session hs
    rw [revocation]
    dsimp only [logoutStore] at hs
    cases hc : r.auth.cookie sessionCookieName with
    | none =>
      rw [hc] at hs
      simpa using h.sessions id session hs
    | some c =>
      rw [hc] at hs
      dsimp only [SessionStore.revoke] at hs
      -- the session that is left has another id
      have hne : id ≠ c.value := by
        rintro rfl
        rw [Function.update_self] at hs
        cases hs
      rw [Function.update_of_ne hne] at hs
      obtain ⟨hid, hissued⟩ := h.sessions id session hs
      refine ⟨hid, hissued.append fun r' hmem => hne ?_⟩
      have hentry : Entry.revoked r' session.id = .revoked r c.value := by simpa using hmem
      rw [← hid]
      exact (Entry.revoked.inj hentry).2
  · rw [revocation]
    cases hc : r.auth.cookie sessionCookieName with
    | none => simpa using h.log
    | some c => exact h.log.append ⟨hroute, horigin, c, hc, rfl⟩

theorem Inv.create (h : Inv chi lib cfg s) {a : Answer} (id : GoString) (now : ℤ)
    (hth : s.threads = ts ++ ⟨r, .loginPost, .verified⟩ :: ts') :
    Inv chi lib cfg { s with
      store := (s.store.create cfg.sessionTTL (some id) now).2
      threads := ts ++ ⟨r, .loginPost, .answered a⟩ :: ts'
      log := s.log ++ [.issued r ⟨id, now + cfg.sessionTTL⟩] } := by
  have hlogin : LoginBy chi lib cfg r := (h.thread hth).2
  refine ⟨h.replace hth ⟨hlogin.1, trivial⟩, ?_, h.log.append hlogin⟩
  intro id' session hs
  dsimp only [SessionStore.create] at hs
  by_cases hid : id' = id
  · subst hid
    rw [Function.update_self] at hs
    obtain rfl := Option.some.inj hs
    exact ⟨rfl, r, s.log, [], rfl, fun _ => List.not_mem_nil⟩
  · rw [Function.update_of_ne hid] at hs
    obtain ⟨hid', hissued⟩ := h.sessions id' session hs
    exact ⟨hid', hissued.append fun r' hmem => by simp at hmem⟩

theorem Inv.init : Inv chi lib cfg State.init :=
  ⟨List.forall_mem_nil _, nofun, fun before entry after h => by simp [State.init] at h⟩

theorem Inv.step (h : Inv chi lib cfg s) (hstep : Step chi lib cfg s s') : Inv chi lib cfg s' := by
  cases hstep with
  | arrive hroute =>
    exact ⟨List.forall_mem_cons.2 ⟨⟨hroute, trivial⟩, h.threads⟩, h.sessions, h.log⟩
  | page hth | crossOrigin hth | badForm hth | noToken hth | wrongToken hth | createFails hth =>
    exact h.move hth s.limiter ⟨(h.thread hth).1, trivial⟩
  | sameOrigin hth horigin => exact h.move hth s.limiter ⟨(h.thread hth).1, rfl, horigin⟩
  | logout hth horigin => exact h.logout hth horigin
  | @allow ts ts' th now hth hasks hok =>
    refine h.move hth _ ⟨(h.thread hth).1, fun hlogin => ?_⟩
    have hknown := h.thread hth
    obtain ⟨r, e, stage⟩ := th
    rcases hasks with ⟨hstage, cookieAuth, hguard⟩ | hstage
    · -- a login does not go through the middleware
      obtain rfl : e = .loginPost := hlogin
      cases hguard
    · obtain rfl : stage = .checked := hstage
      exact hknown.2.2
  | limit now hth | rateLimited now hth | refuse now hth | fail now hth =>
    exact h.move hth _ ⟨(h.thread hth).1, trivial⟩
  | @serve ts ts' r e cookieAuth now hth hguard hauth =>
    have hroute : endpoint? chi r = some e := (h.thread hth).1
    refine ⟨h.replace hth ⟨hroute, trivial⟩, ?_,
      h.log.append ⟨hroute, authorized_of_authenticate h hguard hauth⟩⟩
    intro id session hs
    obtain ⟨hid, hissued⟩ := h.sessions id session hs
    exact ⟨hid, hissued.append fun r' hmem => by simp at hmem⟩
  | @verify ts ts' r form hth hform htoken hcheck =>
    obtain ⟨hroute, horigin⟩ := h.thread hth
    refine h.move hth s.limiter ⟨hroute, hroute, horigin rfl, ?_, form, hform, ?_⟩
    · intro hempty
      rw [checkBearer, if_pos hempty] at hcheck
      cases hcheck
    · rw [checkBearer] at hcheck
      split_ifs at hcheck
      exact of_decide_eq_true hcheck
  | create id now hth => exact h.create id now hth
  | sweepStore now =>
    refine ⟨h.threads, fun id session hs => h.sessions id session ?_, h.log⟩
    exact (Option.filter_eq_some_iff.1 hs).1
  | sweepLimiter now => exact ⟨h.threads, h.sessions, h.log⟩

theorem Reachable.inv (h : Reachable chi lib cfg s) : Inv chi lib cfg s := by
  induction h with
  | refl => exact Inv.init
  | tail _ hstep ih => exact ih.step hstep

/-- The request and the handler that was called for it behind the middleware. -/
def Thread.served? : Thread → Option (HttpRequest × Endpoint)
  | ⟨r, e, .answered (.gate .served)⟩ => some (r, e)
  | _ => none

/-- The request and the handler of an entry about a call. -/
def Entry.served? : Entry → Option (HttpRequest × Endpoint)
  | .served r e _ => some (r, e)
  | _ => none

/-- The log has the calls of handlers, each as often as it happened. -/
def Logged (s : State) : Prop :=
  (s.threads.filterMap Thread.served?).Perm (s.log.filterMap Entry.served?)

/-- A request moves on that was not served, and the log says whether it is now. -/
theorem Logged.move (h : Logged s) (hth : s.threads = ts ++ th :: ts')
    (hthreads : s'.threads = ts ++ th' :: ts') (hold : th.served? = none)
    (hlog : s'.log.filterMap Entry.served? =
      s.log.filterMap Entry.served? ++ th'.served?.toList) : Logged s' := by
  have hbefore : s.threads.filterMap Thread.served? =
      ts.filterMap Thread.served? ++ ts'.filterMap Thread.served? := by
    rw [hth, List.filterMap_append, List.filterMap_cons_none hold]
  have hafter : s'.threads.filterMap Thread.served? =
      ts.filterMap Thread.served? ++ (th'.served?.toList ++ ts'.filterMap Thread.served?) := by
    rw [hthreads, List.filterMap_append, List.filterMap_cons]
    cases th'.served? <;> rfl
  rw [Logged, hbefore] at h
  rw [Logged, hafter, hlog]
  refine List.Perm.trans ?_ (h.append_right _)
  rw [List.append_assoc]
  exact List.perm_append_comm.append_left _

/-- A request moves on that is not served. -/
theorem Logged.quiet (h : Logged s) (hth : s.threads = ts ++ th :: ts')
    (hthreads : s'.threads = ts ++ th' :: ts') (hold : th.served? = none)
    (hnew : th'.served? = none)
    (hlog : s'.log.filterMap Entry.served? = s.log.filterMap Entry.served?) : Logged s' :=
  h.move hth hthreads hold (by rw [hlog, hnew]; exact (List.append_nil _).symm)

theorem served?_limited (r : HttpRequest) (e : Endpoint) (retryAfter : GoString) :
    Thread.served? ⟨r, e, .answered (limitedAnswer e retryAfter)⟩ = none := by
  rw [limitedAnswer]
  split_ifs <;> rfl

theorem served?_refused (r : HttpRequest) (e : Endpoint) :
    Thread.served? ⟨r, e, .answered (refusedAnswer r e)⟩ = none := by
  rw [refusedAnswer, denyRequest]
  split_ifs <;> rfl

theorem Thread.Asks.served? (h : th.Asks) : th.served? = none := by
  obtain ⟨r, e, stage⟩ := th
  rcases h with ⟨hstage, -⟩ | hstage
  · obtain rfl : stage = .routed := hstage
    rfl
  · obtain rfl : stage = .checked := hstage
    rfl

theorem Logged.step (h : Logged s) (hstep : Step chi lib cfg s s') : Logged s' := by
  cases hstep with
  | arrive hroute => exact h
  | page hth | crossOrigin hth | sameOrigin hth | badForm hth | noToken hth | wrongToken hth
  | verify hth | createFails hth | refuse now hth =>
    exact h.quiet hth rfl rfl rfl rfl
  | allow now hth hasks | limit now hth hasks => exact h.quiet hth rfl hasks.served? rfl rfl
  | rateLimited now hth => exact h.quiet hth rfl rfl (served?_limited _ _ _) rfl
  | fail now hth => exact h.quiet hth rfl rfl (served?_refused _ _) rfl
  | @logout ts ts' r hth =>
    refine h.quiet hth rfl rfl rfl ?_
    rw [List.filterMap_append, revocation]
    cases r.auth.cookie sessionCookieName <;> simp [Entry.served?]
  | create id now hth =>
    refine h.quiet hth rfl rfl rfl ?_
    rw [List.filterMap_append]
    exact List.append_nil _
  | serve now hth =>
    refine h.move hth rfl rfl ?_
    rw [List.filterMap_append]
    rfl
  | sweepStore | sweepLimiter => exact h

theorem Reachable.logged (h : Reachable chi lib cfg s) : Logged s := by
  induction h with
  | refl => exact .nil
  | tail _ hstep ih => exact ih.step hstep

end Safety

/-- **Who is served behind the middleware.** In whatever order the steps of all requests come, each
time a handler was called: the request had a route with that handler, there is an admin token, and
when its credentials were checked it bore the token or, but on `POST /events`, the cookie of a
session that was created before, had not expired and had not been revoked since; and sessions are
created only for logins with the admin token that pass the check of the origin. The calls that
the log has are those of the requests that were served, each as often. -/
theorem served_authorized (chi : Router) (lib : OriginLib) (cfg : LoginConfig) (s : State)
    (hr : Reachable chi lib cfg s) :
    (∀ before r e now after, s.log = before ++ .served r e now :: after →
      endpoint? chi r = some e ∧ cfg.token ≠ [] ∧ Authorized cfg before r e now ∧
        ∀ r' session, .issued r' session ∈ before → LoginBy chi lib cfg r') ∧
    (s.threads.filterMap Thread.served?).Perm (s.log.filterMap Entry.served?) := by
  refine ⟨fun before r e now after hlog => ?_, hr.logged⟩
  obtain ⟨hroute, hauth⟩ := hr.inv.log before _ after hlog
  have hissuer : ∀ r session, .issued r session ∈ before → LoginBy chi lib cfg r := by
    intro r session hissued
    obtain ⟨xs, ys, rfl⟩ := List.append_of_mem hissued
    rw [List.append_assoc, List.cons_append] at hlog
    exact hr.inv.log xs _ _ hlog
  refine ⟨hroute, ?_, hauth, hissuer⟩
  rcases hauth with hbears | ⟨-, c, session, -, -, -, r, xs, ys, rfl, -⟩
  · exact hbears.1
  · exact (hissuer r session (List.mem_append_right _ List.mem_cons_self)).2.2.1

/-- A router for paths that are patterns. -/
def plainRouter : Router := fun table r =>
  (table.findIdx? fun route => route.1 = r.method && route.2 = r.path).map fun i => (i, [])

/-- `GET /status` with the admin token. -/
def statusRequest : HttpRequest where
  method := str "GET"
  path := str "/status"
  requestURI := str "/status"
  host := str "admin"
  remoteAddr := str "[::1]:9"
  headers := some ⟨[(str "Authorization", some [str "Bearer t"])], by simp⟩
  form := none

/-- It is served, and the log says so once. -/
theorem served_authorized_token :
    ∃ s : State, s.log = [.served statusRequest .status 0] ∧
      Authorized ⟨str "t", 3600⟩ [] statusRequest .status 0 ∧
      (s.threads.filterMap Thread.served?).Perm [(statusRequest, .status)] := by
  let lib : OriginLib := ⟨fun _ => none, fun a b => a = b⟩
  have hroute : endpoint? plainRouter statusRequest = some .status := by decide
  have harrive : Reachable plainRouter lib ⟨str "t", 3600⟩ _ :=
    .single (.arrive State.init hroute)
  have hserve := (harrive.tail (@Step.allow _ _ _ _ [] [] ⟨statusRequest, .status, .routed⟩ 0 rfl
    (.inl ⟨rfl, true, rfl⟩) (allowed_new _ 0))).tail
      (@Step.serve _ _ _ _ [] [] statusRequest .status true 0 rfl rfl (by decide))
  obtain ⟨hcalls, hperm⟩ := served_authorized plainRouter lib ⟨str "t", 3600⟩ _ hserve
  exact ⟨_, rfl, (hcalls [] _ _ _ [] rfl).2.2.1, hperm⟩

/-! ### Pages of other hosts -/

/-- **A page of another host can neither log a browser in nor out.** Whatever else happens, no
session is created or revoked for a request that a browser sends for such a page, whether it says
something about the site or not. -/
theorem foreign_page_powerless (chi : Router) (lib : OriginLib) (hlib : lib.Lawful)
    (cfg : LoginConfig) (s : State) (hr : Reachable chi lib cfg s) {r : HttpRequest}
    {page : PageOrigin} {site : SiteHeader} (hsent : SentBy r.origin page site)
    (hsite : site ≠ .sameOrigin) (hhost : ¬ page.SameHost lib r.host) :
    (∀ session, .issued r session ∉ s.log) ∧ ∀ id, .revoked r id ∉ s.log := by
  have hcross : isSameOrigin lib r.origin ≠ true := by
    rw [Ne, isSameOrigin_page hlib hsent]
    rintro (hsame | ⟨-, -, hhost'⟩)
    · exact hsite hsame
    · exact hhost hhost'
  have hentry : ∀ entry ∈ s.log, ∃ before, entry.Ok chi lib cfg before := by
    intro entry hmem
    obtain ⟨before, after, hlog⟩ := List.append_of_mem hmem
    exact ⟨before, hr.inv.log before entry after hlog⟩
  constructor
  · intro session hmem
    obtain ⟨_, hok⟩ := hentry _ hmem
    exact hcross hok.2.1
  · intro id hmem
    obtain ⟨_, hok⟩ := hentry _ hmem
    exact hcross hok.2.1

/-- The functions for origins without anything before the host. -/
def plainLib : OriginLib where
  parseHost origin := some ((origin.dropWhile fun b => 0x61 ≤ b && b ≤ 0x7A).drop 3)
  equalFold a b := a = b

theorem plainLib_lawful : plainLib.Lawful := by
  rintro scheme host ⟨-, hscheme, -, -⟩ h hparse
  have hletters : ∀ b ∈ scheme, (0x61 ≤ b && b ≤ 0x7A) = true := by
    intro b hb
    simpa using hscheme b hb
  dsimp only [plainLib, PageOrigin.serialize] at hparse
  rw [List.append_assoc, List.dropWhile_append_of_pos hletters] at hparse
  exact (Option.some.inj hparse).symm

/-- The login form with the admin token, filled in by a page of `other`. -/
def foreignLogin : HttpRequest where
  method := str "POST"
  path := str "/auth/login"
  requestURI := str "/auth/login"
  host := str "admin"
  remoteAddr := str "[::1]:9"
  headers := some ⟨[(str "Origin", some [str "https://other"])], by simp⟩
  form := some ⟨str "t", []⟩

theorem foreign_page_powerless_login :
    ∃ s : State, Reachable plainRouter plainLib ⟨str "t", 3600⟩ s ∧
      s.threads = [⟨foreignLogin, .loginPost, .answered .forbidden⟩] ∧
      ∀ session, .issued foreignLogin session ∉ s.log := by
  have hroute : endpoint? plainRouter foreignLogin = some .loginPost := by decide
  have harrive : Reachable plainRouter plainLib ⟨str "t", 3600⟩ _ :=
    .single (.arrive State.init hroute)
  have hrefused := harrive.tail
    (@Step.crossOrigin _ _ _ _ [] [] foreignLogin .loginPost rfl rfl (by decide))
  have hsent : SentBy foreignLogin.origin (.tuple (str "https") (str "other")) .absent :=
    ⟨⟨List.cons_ne_nil _ _, by simp [str], List.cons_ne_nil _ _, List.all_eq_true.1 (by decide)⟩,
      by decide, by decide⟩
  have hhost : plainLib.equalFold (str "other") (str "admin") ≠ true := by decide
  exact ⟨_, hrefused, rfl,
    (foreign_page_powerless plainRouter plainLib plainLib_lawful _ _ hrefused hsent (by decide)
      hhost).1⟩

end HttpCatch.Admin.Server

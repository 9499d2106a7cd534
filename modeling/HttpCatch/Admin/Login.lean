import HttpCatch.Admin.Session
import HttpCatch.Library.UrlReference

/-!
# Logging in

`internal/admin/login.go`: the handler of the login form. It compares the token, creates a
session and redirects to the `next` of the form, if `isSafePath` lets it through. The guard looks
at the text as it stands, the browser at what is left of it once tabs and line ends are gone, with
backslashes for slashes.

* `loginPostHandler_redirect` — which texts keep the browser on the host of the admin.
* `backslash_leaves` — one that does not.
-/

namespace HttpCatch.Admin

open HttpCatch.Go HttpCatch.Url

/-- `isSafePath`. -/
def isSafePath (next : GoString) : Bool := hasPrefix next (str "/") && !hasPrefix next (str "//")

/-- `next`, or the fallback that the handlers put in its place. -/
def safeNext (next fallback : GoString) : GoString := if isSafePath next then next else fallback

/-- The values of the login form; empty where the form has none. -/
structure LoginForm where
  token : GoString
  next : GoString

/-- What the login handler reads of a request; there is no form when `ParseForm` fails. -/
structure LoginRequest where
  remoteAddr : GoString
  form : Option LoginForm

/-- The part of the configuration that the handler uses. -/
structure LoginConfig where
  token : GoString
  sessionTTL : ℤ

/-- How the login handler answers. -/
inductive LoginOutcome where
  /-- `429` with the header `Retry-After`. -/
  | rateLimited (retryAfter : GoString)
  /-- `http.Error`. -/
  | error (text : GoString) (status : ℕ)
  /-- `401` with the login form and its error; the form keeps `next`. -/
  | loginForm (next : GoString)
  /-- `303`, with the session in the cookie. -/
  | loggedIn (session : Session) (location : GoString)
  deriving DecidableEq

/-- `loginPostHandler`: its answer and what it does to the store and the limiter. The id is the
one that `Create` would draw; the clock is read in `Allowed` and once more after it. -/
def loginPostHandler (cfg : LoginConfig) (store : SessionStore) (limiter : AuthLimiter)
    (r : LoginRequest) (id : Option GoString) (first second : ℤ) :
    LoginOutcome × SessionStore × AuthLimiter :=
  let ip := clientIP r.remoteAddr
  let (ok, limiter) := limiter.allowed ip first
  if !ok then
    (.rateLimited (sprintDecimal (limiter.retryAfter ip second / 10 ^ 9)), store, limiter)
  else
    match r.form with
    | none => (.error (str "bad request") 400, store, limiter)
    | some form =>
      if form.token = [] then (.error (str "missing token") 400, store, limiter)
      else if !checkBearer form.token cfg.token then
        (.loginForm (safeNext form.next []), store, limiter.registerFailure ip second)
      else
        match store.create cfg.sessionTTL id second with
        | (none, store) => (.error (str "internal error") 500, store, limiter)
        | (some session, store) =>
          (.loggedIn session (httpRedirect (safeNext form.next (str "/"))), store, limiter)

theorem isSafePath_iff (next : GoString) :
    isSafePath next = true ↔ ∃ s, next = 0x2F :: s ∧ ¬ [0x2F] <+: s := by
  rw [isSafePath, Bool.and_eq_true, Bool.not_eq_true', ← Bool.not_eq_true, hasPrefix_iff,
    hasPrefix_iff]
  constructor
  · rintro ⟨⟨s, rfl⟩, hslash⟩
    refine ⟨s, rfl, ?_⟩
    rintro ⟨t, ht⟩
    exact hslash ⟨t, by simp [str, ← ht]⟩
  · rintro ⟨s, rfl, hslash⟩
    refine ⟨⟨s, rfl⟩, ?_⟩
    rintro ⟨t, ht⟩
    exact hslash ⟨t, by simpa [str] using ht⟩

section Redirect

variable {cfg : LoginConfig} {store : SessionStore} {limiter : AuthLimiter} {r : LoginRequest}
  {id : Option GoString} {first second : ℤ}

/-- The location after a login is made from the form alone. -/
theorem loggedIn_location {session : Session} {location : GoString}
    (h : (loginPostHandler cfg store limiter r id first second).1 = .loggedIn session location) :
    ∃ form, r.form = some form ∧
      location = httpRedirect (safeNext form.next (str "/")) := by
  simp only [loginPostHandler] at h
  split_ifs at h with hok
  cases hform : r.form with
  | none =>
    rw [hform] at h
    cases h
  | some form =>
    rw [hform] at h
    simp only at h
    split_ifs at h with htoken hbearer
    cases hcreate : store.create cfg.sessionTTL id second with
    | mk created store' =>
      rw [hcreate] at h
      cases created with
      | none => cases h
      | some s =>
        injection h with _ hloc
        exact ⟨form, rfl, hloc.symm⟩

variable {Host : Type}

/-- After a login the browser stays on the host of the admin if and only if `next` is replaced, is
not read with an authority, or names the same host there. -/
theorem loginPostHandler_redirect (parseHost : GoString → Option Host) (adminHost : Host)
    {form : LoginForm} {session : Session} {location : GoString} (hform : r.form = some form)
    (h : (loginPostHandler cfg store limiter r id first second).1 = .loggedIn session location) :
    refHost parseHost adminHost location = some adminHost ↔
      isSafePath form.next = false ∨ leadsOff form.next = false ∨
        authorityHost parseHost (authorityText (normalize (httpRedirect form.next))) =
          some adminHost := by
  obtain ⟨form', hform', rfl⟩ := loggedIn_location h
  obtain rfl : form' = form := Option.some_inj.1 (hform'.symm.trans hform)
  by_cases hsafe : isSafePath form'.next = true
  · obtain ⟨s, hs, -⟩ := (isSafePath_iff _).1 hsafe
    rw [safeNext, if_pos hsafe, hs, refHost_httpRedirect, ← hs]
    cases hoff : leadsOff form'.next with
    | false => simp
    | true => simp [hsafe]
  · have hroot : refHost parseHost adminHost (httpRedirect (str "/")) = some adminHost := rfl
    rw [safeNext, if_neg hsafe, hroot]
    simp [hsafe]

end Redirect

/-- A login with the right token, from a form with `next`. -/
def freshLogin (next : GoString) : LoginOutcome :=
  (loginPostHandler ⟨str "t", 3600⟩ .new newAuthLimiter ⟨str "[::1]:9", some ⟨str "t", next⟩⟩
    (some (str "id")) 0 0).1

theorem freshLogin_eq (next : GoString) :
    freshLogin next =
      .loggedIn ⟨str "id", 3600⟩ (httpRedirect (safeNext next (str "/"))) := by
  have hok := allowed_new (clientIP (str "[::1]:9")) 0
  have htoken : str "t" ≠ [] := by decide
  have hbearer : checkBearer (str "t") (str "t") = true := by decide
  simp [freshLogin, loginPostHandler, hok, htoken, hbearer, SessionStore.create]

/-- A page of the admin is a safe target. -/
theorem loginPostHandler_redirect_page :
    refHost some (str "admin") (httpRedirect (str "/requests?q=a")) = some (str "admin") :=
  (loginPostHandler_redirect some (str "admin") rfl (freshLogin_eq (str "/requests?q=a"))).2
    (.inr (.inl (by decide)))

/-- The guard lets a backslash after the first slash through, and the browser goes to the host
that follows. -/
theorem backslash_leaves :
    freshLogin (str "/\\evil.example") = .loggedIn ⟨str "id", 3600⟩ (str "/\\evil.example") ∧
      refHost some (str "admin") (str "/\\evil.example") = some (str "evil.example") ∧
      str "evil.example" ≠ str "admin" := by
  refine ⟨?_, by decide, by decide⟩
  rw [freshLogin_eq]
  decide

end HttpCatch.Admin

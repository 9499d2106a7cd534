import HttpCatch.Admin.Session

/-!
# The origin of a request

`internal/admin/csrf.go`: the routes that log in and out refuse a request that a page of another
site makes a browser send. The check goes by `Sec-Fetch-Site` where there is one and compares the
host of `Origin` with the host of the request otherwise. What `url.Parse` and `strings.EqualFold`
do is a parameter, of which `Lawful` says what matters for the origins that browsers write.

* `isSameOrigin_page` — which requests of a browser's page pass.
-/

namespace HttpCatch.Admin

open HttpCatch.Go HttpCatch.Capture

/-- The library functions that the check calls. -/
structure OriginLib where
  /-- The `Host` of `url.Parse`; none when it fails. -/
  parseHost : GoString → Option GoString
  /-- `strings.EqualFold`. -/
  equalFold : GoString → GoString → Bool

/-- What the check reads of a request. -/
structure OriginRequest where
  headers : Headers
  host : GoString

section Check

variable (lib : OriginLib)

/-- `originMatchesHost`. -/
def originMatchesHost (origin host : GoString) : Bool :=
  if origin = str "null" then false
  else
    match lib.parseHost origin with
    | none => false
    | some h => if h = [] then false else lib.equalFold h host

/-- `isSameOrigin`. -/
def isSameOrigin (r : OriginRequest) : Bool :=
  let site := r.headers.get (str "Sec-Fetch-Site")
  let origin := r.headers.get (str "Origin")
  if site ≠ [] then
    if site = str "same-origin" ∨ site = str "none" then true
    else if site = str "same-site" then originMatchesHost lib origin r.host
    else false
  else if origin = [] then true
  else originMatchesHost lib origin r.host

end Check

/-! ### Pages -/

/-- The origin of the page that makes the browser send a request. -/
inductive PageOrigin where
  /-- A scheme and a host, with its port unless that is the scheme's own. -/
  | tuple (scheme host : GoString)
  /-- A sandboxed page, a file, a page that was redirected to. -/
  | nullOrigin
  deriving DecidableEq

/-- The origin as a browser writes it. -/
def PageOrigin.serialize : PageOrigin → GoString
  | .tuple scheme host => scheme ++ str "://" ++ host
  | .nullOrigin => str "null"

/-- A byte of a host or a port as browsers write them. -/
def isHostByte (b : UInt8) : Bool :=
  (0x30 ≤ b && b ≤ 0x39) || (0x61 ≤ b && b ≤ 0x7A) || b ∈ str "-._:[]"

/-- An origin with a host that browsers write. -/
def PageOrigin.WellFormed : PageOrigin → Prop
  | .tuple scheme host => scheme ≠ [] ∧ (∀ b ∈ scheme, 0x61 ≤ b ∧ b ≤ 0x7A) ∧ host ≠ [] ∧
      ∀ b ∈ host, isHostByte b = true
  | .nullOrigin => True

/-- The host of the page is that of the request, in any letter case. -/
def PageOrigin.SameHost (lib : OriginLib) (host : GoString) : PageOrigin → Prop
  | .tuple _ h => lib.equalFold h host = true
  | .nullOrigin => False

/-- What a browser says about the site of the page; nothing when the admin is not reached in a way
that it trusts. -/
inductive SiteHeader where
  | absent
  | sameOrigin
  | sameSite
  | crossSite
  deriving DecidableEq

/-- The value of `Sec-Fetch-Site`. -/
def SiteHeader.value : SiteHeader → GoString
  | .absent => []
  | .sameOrigin => str "same-origin"
  | .sameSite => str "same-site"
  | .crossSite => str "cross-site"

/-- Where `url.Parse` takes an origin that a browser writes, its host is the one written. -/
def OriginLib.Lawful (lib : OriginLib) : Prop :=
  ∀ scheme host, (PageOrigin.tuple scheme host).WellFormed →
    ∀ h, lib.parseHost (PageOrigin.tuple scheme host).serialize = some h → h = host

/-- The request is one that a browser sends for a page of that origin. -/
structure SentBy (r : OriginRequest) (page : PageOrigin) (site : SiteHeader) : Prop where
  wellFormed : page.WellFormed
  origin : r.headers.get (str "Origin") = page.serialize
  site : r.headers.get (str "Sec-Fetch-Site") = site.value

section Browser

variable {lib : OriginLib} {r : OriginRequest} {page : PageOrigin} {site : SiteHeader}

theorem PageOrigin.serialize_tuple_ne (scheme host : GoString) :
    (PageOrigin.tuple scheme host).serialize ≠ str "null" := by
  intro heq
  -- there is a colon in it
  have hcolon : (0x3A : UInt8) ∈ (PageOrigin.tuple scheme host).serialize := by
    rw [PageOrigin.serialize, List.mem_append, List.mem_append]
    exact .inl (.inr (by decide))
  rw [heq] at hcolon
  exact absurd hcolon (by decide)

theorem PageOrigin.serialize_ne_nil (page : PageOrigin) : page.serialize ≠ [] := by
  cases page with
  | tuple scheme host => simp [PageOrigin.serialize, str]
  | nullOrigin => simp [PageOrigin.serialize, str]

/-- The comparison with the host of the request. -/
theorem originMatchesHost_page (hlib : lib.Lawful) (hpage : page.WellFormed) (host : GoString) :
    originMatchesHost lib page.serialize host = true ↔
      lib.parseHost page.serialize ≠ none ∧ page.SameHost lib host := by
  cases page with
  | tuple scheme h =>
    rw [originMatchesHost, if_neg (PageOrigin.serialize_tuple_ne scheme h)]
    cases hparse : lib.parseHost (PageOrigin.tuple scheme h).serialize with
    | none => simp
    | some h' =>
      obtain rfl := hlib scheme h hpage h' hparse
      simp [PageOrigin.SameHost, hpage.2.2.1]
  | nullOrigin => simp [originMatchesHost, PageOrigin.serialize, PageOrigin.SameHost]

/-- **Which requests of a page pass**: those that the browser says come from the same origin, and,
if it says nothing or that the site is the same, those of a page on the host of the request. The
scheme of the page is not looked at. -/
theorem isSameOrigin_page (hlib : lib.Lawful) (hsent : SentBy r page site) :
    isSameOrigin lib r = true ↔ site = .sameOrigin ∨
      site ≠ .crossSite ∧ lib.parseHost page.serialize ≠ none ∧ page.SameHost lib r.host := by
  rw [isSameOrigin, hsent.origin, hsent.site]
  have hmatch := originMatchesHost_page hlib hsent.wellFormed r.host
  cases site with
  | absent =>
    rw [← hmatch]
    simp [SiteHeader.value, page.serialize_ne_nil]
  | sameOrigin => simp [SiteHeader.value, str]
  | sameSite =>
    rw [← hmatch]
    simp [SiteHeader.value, str]
  | crossSite => simp [SiteHeader.value, str]

end Browser

end HttpCatch.Admin

import HttpCatch.Library.Text
import HttpCatch.Capture.Record
import HttpCatch.SearchQL.Query

/-!
# Redaction rules

`internal/redact/ruleset.go`: five kinds of rule, applied to a record in the order cookie,
header, query, JSON path, regex before any sink sees it.

What the source takes from libraries (`gjson`, `sjson`, `mime`, `regexp`) is an arbitrary
deterministic function here (`Libraries`). A map is its list of entries in the order the
loops visit them, and in-place changes of a map are functions from map to map. The counter
of redaction errors only ever grows, so each redactor returns by how much.
-/

namespace HttpCatch.Redact

open HttpCatch.Go HttpCatch.Capture HttpCatch.SearchQL

/-- `Redacted`: what takes the place of a secret. -/
def redacted : GoString := str "[REDACTED]"

/-! ### Rules -/

/-- `cookieMode`. -/
inductive CookieMode where
  /-- Replace the values of the named cookies. -/
  | redact
  /-- Remove the named cookies. -/
  | strip
  /-- Remove all other cookies. -/
  | allowlist
  deriving DecidableEq

/-- `cookieRule`. -/
structure CookieRule where
  mode : CookieMode
  names : List GoString
  deriving DecidableEq

/-- A compiled pattern: what the two ways to use it make of a text and a replacement. -/
structure Regexp where
  /-- `ReplaceAll`, on bodies. -/
  replaceAll : GoString → GoString → GoString
  /-- `ReplaceAllLiteralString`, on header and query values. -/
  replaceAllLiteralString : GoString → GoString → GoString

/-- `regexRule`. -/
structure RegexRule where
  name : GoString
  pattern : Regexp

/-- The functions of other packages. -/
structure Libraries where
  /-- `gjson.ValidBytes`. -/
  validBytes : GoString → Bool
  /-- `gjson.GetBytes(body, path).Exists()`. -/
  pathExists : GoString → GoString → Bool
  /-- `sjson.SetBytes`, on a body, a path and a value. -/
  setBytes : GoString → GoString → GoString → Except GoString GoString
  /-- `mime.ParseMediaType`; `none` for an error. -/
  parseMediaType : GoString → Option GoString
  /-- `regexp.Compile`. -/
  compile : GoString → Except GoString Regexp

/-- `Ruleset`, without its error counter. -/
structure Ruleset where
  /-- Header names in lower case. -/
  headers : List GoString
  /-- Query parameter names in lower case. -/
  queryParams : List GoString
  jsonPaths : List GoString
  regex : List RegexRule
  cookies : List CookieRule

/-- `IsUnredacted`. -/
def Ruleset.isUnredacted (rs : Ruleset) : Bool :=
  rs.headers.isEmpty && rs.queryParams.isEmpty && rs.jsonPaths.isEmpty && rs.regex.isEmpty &&
    rs.cookies.isEmpty

/-! ### Configuration -/

/-- `config.RedactionConfig`; a regex rule is a name and a pattern, a cookie rule a mode and
names. -/
structure RedactionConfig where
  headers : List GoString
  queryParams : List GoString
  jsonPaths : List GoString
  regex : List (GoString × GoString)
  cookies : List (GoString × List GoString)

/-- The errors of `NewRuleset`. -/
inductive ConfigError where
  /-- `json_paths: path must not be empty`. -/
  | emptyPath
  /-- `json_paths: invalid path %q: %w`. -/
  | invalidPath (path err : GoString)
  /-- `cookies: unknown mode %q`. -/
  | unknownMode (mode : GoString)
  /-- `regex: rule name must not be empty`. -/
  | emptyName
  /-- `regex: rule %q: pattern must not be empty`. -/
  | emptyPattern (name : GoString)
  /-- `regex: rule %q: %w`. -/
  | badPattern (name err : GoString)

/-- `validateJSONPath`: the path is tried on an empty object. -/
def validateJSONPath (L : Libraries) (path : GoString) : Except ConfigError GoString :=
  if path = [] then .error .emptyPath
  else
    match L.setBytes (str "\x7b\x7d") path (str "_") with
    | .error err => .error (.invalidPath path err)
    | .ok _ => .ok path

/-- `parseCookieMode`. -/
def parseCookieMode (s : GoString) : Except ConfigError CookieMode :=
  if s = [] ∨ s = str "redact" then .ok .redact
  else if s = str "strip" then .ok .strip
  else if s = str "allowlist" then .ok .allowlist
  else .error (.unknownMode s)

/-- One round of the loop of `NewRuleset` over the regex rules. -/
def compileRule (L : Libraries) (r : GoString × GoString) : Except ConfigError RegexRule :=
  if r.1 = [] then .error .emptyName
  else if r.2 = [] then .error (.emptyPattern r.1)
  else
    match L.compile r.2 with
    | .error err => .error (.badPattern r.1 err)
    | .ok compiled => .ok ⟨r.1, compiled⟩

/-- `NewRuleset`. -/
def newRuleset (U : Unicode) (L : Libraries) (cfg : RedactionConfig) :
    Except ConfigError Ruleset := do
  let jsonPaths ← cfg.jsonPaths.mapM (validateJSONPath L)
  let cookies ← cfg.cookies.mapM fun c => do
    let mode ← parseCookieMode c.1
    pure (⟨mode, c.2⟩ : CookieRule)
  let regex ← cfg.regex.mapM (compileRule L)
  pure ⟨cfg.headers.map (toLower U), cfg.queryParams.map (toLower U), jsonPaths, regex, cookies⟩

/-- The query rules of a loaded ruleset are the configured names in lower case. -/
theorem newRuleset_queryParams {U : Unicode} {L : Libraries} {cfg : RedactionConfig} {rs : Ruleset}
    (h : newRuleset U L cfg = .ok rs) : rs.queryParams = cfg.queryParams.map (toLower U) := by
  simp only [newRuleset, bind, Except.bind, pure, Except.pure] at h
  split at h
  · cases h
  split at h
  · cases h
  split at h
  · cases h
  · cases h
    rfl

/-! ### Maps -/

/-- The map with every slice replaced by what `f` makes of its key and itself. -/
def mapSlices (f : GoString → Option (List GoString) → Option (List GoString)) (m : StringMap) :
    StringMap :=
  ⟨m.entries.map fun kv => (kv.1, f kv.1 kv.2), by
    rw [List.map_map]
    exact m.nodup⟩

/-- `delete(m, key)`. -/
def deleteKey (m : StringMap) (key : GoString) : StringMap :=
  ⟨m.entries.filter fun kv => kv.1 != key, m.nodup.sublist (List.filter_sublist.map _)⟩

/-- `m[key] = vals` for a key the map has. -/
def setSlice (m : StringMap) (key : GoString) (vals : List GoString) : StringMap :=
  mapSlices (fun k vs => if k = key then some vals else vs) m

/-- `for i, v := range vals` over every slice of a map, each value replaced by `f v`. -/
def mapValues (f : GoString → GoString) (m : StringMap) : StringMap :=
  mapSlices (fun _ vs => vs.map (List.map f)) m

theorem mapSlices_mapSlices (f g : GoString → Option (List GoString) → Option (List GoString))
    (m : StringMap) :
    mapSlices g (mapSlices f m) = mapSlices (fun k vs => g k (f k vs)) m := by
  simp [mapSlices, Function.comp_def]

theorem mapValues_mapValues (f g : GoString → GoString) (m : StringMap) :
    mapValues g (mapValues f m) = mapValues (fun v => g (f v)) m := by
  rw [mapValues, mapValues, mapSlices_mapSlices, mapValues]
  congr 1
  funext k vs
  rw [Option.map_map, List.map_comp_map]
  rfl

/-- `copyStringSliceMap`: nil slices become empty ones. -/
def copyStringSliceMap (h : Headers) : Headers := h.map (mapSlices fun _ vs => some (vs.getD []))

/-! ### Cookie rules -/

/-- What a rule decides about a cookie. -/
inductive Verdict where
  /-- It stays as it is. -/
  | keep
  /-- Its value is replaced. -/
  | replace
  /-- It goes. -/
  | drop
  deriving DecidableEq

/-- The `switch rule.mode` that all three users of a cookie rule have. -/
def CookieRule.verdict (rule : CookieRule) (name : GoString) : Verdict :=
  match rule.mode with
  | .redact => if rule.names.contains name then .replace else .keep
  | .strip => if rule.names.contains name then .drop else .keep
  | .allowlist => if rule.names.contains name then .keep else .drop

/-- Blank and tab. -/
def blanks : GoString := str " \t"

/-- `cookieName`. -/
def cookieName (token : GoString) : GoString :=
  trimSpace (before (before (trimLeft token blanks) 0x3B) 0x3D)

/-- `replaceCookieValue`: everything up to the first `=` and from the next `;` on stays. -/
def replaceCookieValue (token : GoString) : GoString :=
  let leadingEnd := (token.takeWhile blanks.contains).length
  match indexByte (token.drop leadingEnd) 0x3D with
  | none => token
  | some eq =>
    let valueStart := leadingEnd + eq + 1
    token.take valueStart ++ redacted ++ (token.drop valueStart).dropWhile (· != 0x3B)

/-- A rule on one cookie of a header line; `none` when it is dropped. A part without a name stays.
-/
def ruleOnToken (rule : CookieRule) (raw : GoString) : Option GoString :=
  if cookieName raw = [] then some raw
  else
    match rule.verdict (cookieName raw) with
    | .keep => some raw
    | .replace => some (replaceCookieValue raw)
    | .drop => none

/-- `joinCookieParts`. -/
def joinCookieParts : List GoString → GoString
  | [] => []
  | p :: ps => join (trimLeft p blanks :: ps) 0x3B

/-- `applyRuleToCookieHeader`. -/
def applyRuleToCookieHeader (value : GoString) (rule : CookieRule) : GoString :=
  if value = [] then value else joinCookieParts ((split value 0x3B).filterMap (ruleOnToken rule))

/-- `applyRuleToSetCookieHeader`; `none` for the drop flag. -/
def applyRuleToSetCookieHeader (value : GoString) (rule : CookieRule) : Option GoString :=
  if value = [] then some value else ruleOnToken rule value

/-- `allEmpty`. -/
def allEmpty (vals : List GoString) : Bool := vals.all (· = [])

/-- `findHeaderKey`; `none` for the empty string. -/
def findHeaderKey (m : StringMap) (canonical : GoString) : Option GoString :=
  if (m.entries.map Prod.fst).contains canonical then some canonical
  else (m.entries.map Prod.fst).find? fun k => canonicalMIMEHeaderKey k = canonical

/-- `m[key]`. -/
def slice (m : StringMap) (key : GoString) : List GoString := Headers.values (some m) key

/-- One rule on the `Cookie` lines; the key is `none` once the lines are gone. -/
def applyRuleToCookieKey (rule : CookieRule) (m : StringMap) :
    Option GoString → StringMap × Option GoString
  | none => (m, none)
  | some key =>
    let vals := (slice m key).map (applyRuleToCookieHeader · rule)
    if allEmpty vals then (deleteKey m key, none) else (setSlice m key vals, some key)

/-- One rule on the `Set-Cookie` lines. -/
def applyRuleToSetCookieKey (rule : CookieRule) (m : StringMap) :
    Option GoString → StringMap × Option GoString
  | none => (m, none)
  | some key =>
    let kept := (slice m key).filterMap (applyRuleToSetCookieHeader · rule)
    if kept = [] then (deleteKey m key, none) else (setSlice m key kept, some key)

/-- `cookieHeaderKey`. -/
def cookieHeaderKey : GoString := str "Cookie"

/-- `setCookieHeaderKey`. -/
def setCookieHeaderKey : GoString := str "Set-Cookie"

/-- The loop of `applyCookieRulesToHeaders`. -/
def cookieLoop : List CookieRule → StringMap → Option GoString → Option GoString → StringMap
  | [], m, _, _ => m
  | rule :: rules, m, cookieKey, setCookieKey =>
    let (m, cookieKey) := applyRuleToCookieKey rule m cookieKey
    let (m, setCookieKey) := applyRuleToSetCookieKey rule m setCookieKey
    cookieLoop rules m cookieKey setCookieKey

/-- `applyCookieRulesToHeaders`. -/
def applyCookieRulesToHeaders (headers : Headers) (rules : List CookieRule) : Headers :=
  if rules.isEmpty then headers
  else headers.map fun m => cookieLoop rules m (findHeaderKey m cookieHeaderKey)
    (findHeaderKey m setCookieHeaderKey)

/-- A rule on one entry of the `Cookies` list. -/
def ruleOnCookie (rule : CookieRule) (c : Cookie) : Option Cookie :=
  match rule.verdict c.name with
  | .keep => some c
  | .replace => some { c with value := redacted }
  | .drop => none

/-- `redactCookieSlice`. -/
def redactCookieSlice (cookies : List Cookie) (rules : List CookieRule) : List Cookie :=
  rules.foldl (fun cs rule => cs.filterMap (ruleOnCookie rule)) cookies

/-- `applyCookieRules`, on a copied request. -/
def applyCookieRules (r : CapturedRequest) (rules : List CookieRule) : CapturedRequest :=
  if rules.isEmpty ∨ r.headers = none then r
  else
    let r := { r with headers := applyCookieRulesToHeaders r.headers rules }
    match r.cookies with
    | none => r
    | some [] => r
    | some cs => { r with cookies := some (redactCookieSlice cs rules) }

/-! ### Header and query rules -/

variable (U : Unicode) (L : Libraries)

/-- `applyHeaderRulesMap`; `applyQueryRules` has the same body. -/
def applyHeaderRulesMap (headers : Headers) (rules : List GoString) : Headers :=
  headers.map (mapSlices fun key vals =>
    if rules.contains (toLower U key) then vals.map (List.map fun _ => redacted) else vals)

/-- `applyQueryRules`. -/
def applyQueryRules (r : CapturedRequest) (rules : List GoString) : CapturedRequest :=
  { r with query := applyHeaderRulesMap U r.query rules }

/-! ### JSON path rules -/

/-- The package's own `parseMediaType`. -/
def parseMediaType (ct : GoString) : GoString :=
  if ct = [] then []
  else
    match L.parseMediaType ct with
    | some media => media
    | none => toLower U (trimSpace (before ct 0x3B))

/-- `isJSONContentType`. -/
def isJSONContentType (ct : GoString) : Bool :=
  let media := parseMediaType U L ct
  media != [] && (media = str "application/json" || hasSuffix media (str "+json"))

/-- One round of the loop of `applyJSONPathRulesBody`. -/
def applyJSONPath (acc : GoString × ℕ) (path : GoString) : GoString × ℕ :=
  if L.pathExists acc.1 path then
    match L.setBytes acc.1 path redacted with
    | .error _ => (acc.1, acc.2 + 1)
    | .ok next => (next, acc.2)
  else acc

/-- `applyJSONPathRulesBody`: the new body and the growth of the error counter. -/
def applyJSONPathRulesBody (body : Option GoString) (contentType : GoString)
    (rules : List GoString) :
    Option GoString × ℕ :=
  match body with
  | none => (none, 0)
  | some b =>
    if rules.isEmpty ∨ b = [] then (some b, 0)
    else if L.validBytes b then
      let out := rules.foldl (applyJSONPath L) (b, 0)
      (some out.1, out.2)
    else (some b, if isJSONContentType U L contentType then 1 else 0)

/-! ### Regex rules -/

/-- `applyRegexRulesBody`. -/
def applyRegexRulesBody (body : Option GoString) (rules : List RegexRule) : Option GoString :=
  match body with
  | none => none
  | some b => if b = [] then some b
      else some (rules.foldl (fun b rule => rule.pattern.replaceAll b redacted) b)

/-- What all rules, one after the other, make of one header value. -/
def regexValue (rules : List RegexRule) (v : GoString) : GoString :=
  rules.foldl (fun v rule => rule.pattern.replaceAllLiteralString v redacted) v

/-- `applyRegexRulesHeaderMap`. -/
def applyRegexRulesHeaderMap (headers : Headers) (rules : List RegexRule) : Headers :=
  if rules.isEmpty then headers else headers.map (mapValues (regexValue rules))

/-- One round of the loop of `applyRegexRulesCaptured`. -/
def applyRegexRuleCaptured (bodyEligible : Bool) (r : CapturedRequest) (rule : RegexRule) :
    CapturedRequest :=
  { r with
    body := if bodyEligible then r.body.map (rule.pattern.replaceAll · redacted) else r.body
    headers := applyRegexRulesHeaderMap r.headers [rule]
    query := r.query.map (mapValues (rule.pattern.replaceAllLiteralString · redacted)) }

/-- `applyRegexRulesCaptured`. -/
def applyRegexRulesCaptured (r : CapturedRequest) (rules : List RegexRule) : CapturedRequest :=
  let bodyEligible := decide (0 < (r.body.getD []).length)
  rules.foldl (applyRegexRuleCaptured bodyEligible) r

/-! ### Redaction of a record -/

/-- `shallowCopyCapturedRequest`. -/
def shallowCopyCapturedRequest (r : CapturedRequest) : CapturedRequest :=
  { r with headers := copyStringSliceMap r.headers, query := copyStringSliceMap r.query }

variable (rs : Ruleset)

/-- `redactCapturedRequest`. -/
def redactCapturedRequest (r : CapturedRequest) : CapturedRequest × ℕ :=
  let out := applyCookieRules (shallowCopyCapturedRequest r) rs.cookies
  let out := { out with headers := applyHeaderRulesMap U out.headers rs.headers }
  let out := applyQueryRules U out rs.queryParams
  let (body, errs) := applyJSONPathRulesBody U L out.body out.contentType rs.jsonPaths
  (applyRegexRulesCaptured { out with body := body } rs.regex, errs)

/-- `redactResponseEvent`. -/
def redactResponseEvent (e : ResponseEvent) : ResponseEvent × ℕ :=
  let headers := applyCookieRulesToHeaders (copyStringSliceMap e.headers) rs.cookies
  let headers := applyHeaderRulesMap U headers rs.headers
  let (body, errs) := applyJSONPathRulesBody U L e.body e.contentType rs.jsonPaths
  let body := applyRegexRulesBody body rs.regex
  let headers := applyRegexRulesHeaderMap headers rs.regex
  ({ e with headers := headers, body := body }, errs)

/-- The request half in `redactOutboundEvent`. -/
def redactRequestHalf (q : OutboundRequestHalf) : OutboundRequestHalf × ℕ :=
  let headers := applyCookieRulesToHeaders (copyStringSliceMap q.headers) rs.cookies
  let headers := applyHeaderRulesMap U headers rs.headers
  let (body, errs) := applyJSONPathRulesBody U L q.body q.contentType rs.jsonPaths
  let body := applyRegexRulesBody body rs.regex
  let headers := applyRegexRulesHeaderMap headers rs.regex
  ({ q with headers := headers, body := body }, errs)

/-- The response half in `redactOutboundEvent`. -/
def redactResponseHalf (p : OutboundResponseHalf) : OutboundResponseHalf × ℕ :=
  let headers := applyCookieRulesToHeaders (copyStringSliceMap p.headers) rs.cookies
  let headers := applyHeaderRulesMap U headers rs.headers
  let (body, errs) := applyJSONPathRulesBody U L p.body p.contentType rs.jsonPaths
  let body := applyRegexRulesBody body rs.regex
  let headers := applyRegexRulesHeaderMap headers rs.regex
  ({ p with headers := headers, body := body }, errs)

/-- `redactOutboundEvent`. -/
def redactOutboundEvent (e : OutboundEvent) : OutboundEvent × ℕ :=
  let (request, errs) := redactRequestHalf U L rs e.request
  match e.response with
  | none => ({ e with request := request }, errs)
  | some p =>
    let (response, errs') := redactResponseHalf U L rs p
    ({ e with request := request, response := some response }, errs + errs')

/-- `Redact`: the record that goes to the sinks, and the growth of the error counter. -/
def redact (rec : Record) : Record × ℕ :=
  if rs.isUnredacted then (rec, 0)
  else
    match rec with
    | .request r => ((redactCapturedRequest U L rs r).map .request id)
    | .response e => ((redactResponseEvent U L rs e).map .response id)
    | .outbound e => ((redactOutboundEvent U L rs e).map .outbound id)

end HttpCatch.Redact

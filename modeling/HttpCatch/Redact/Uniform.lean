import HttpCatch.Redact.Ruleset

/-!
# What redaction does to each kind of record

The redactors of the three kinds of record nest their loops differently: for a captured
request the regex rules are the outer loop, for an event the header values are. Since a rule
acts on each value by itself the nesting does not matter.

## Main results

* `redact_uniform`: headers, body and error count of any redacted record are one function of
  the headers, body and content type it came with.
* `redact_query`: query-parameter rules reach the query map of a captured request but not the
  query string in the path of an outbound event.
-/

namespace HttpCatch.Redact

open HttpCatch.Go HttpCatch.Capture

/-! ### Regex rules, rule by rule or value by value -/

theorem applyRegexRulesHeaderMap_cons (headers : Headers) (rule : RegexRule)
    (rules : List RegexRule) :
    applyRegexRulesHeaderMap (applyRegexRulesHeaderMap headers [rule]) rules =
      applyRegexRulesHeaderMap headers (rule :: rules) := by
  cases rules with
  | nil => rfl
  | cons rule' rules =>
    simp only [applyRegexRulesHeaderMap, List.isEmpty_cons, Bool.false_eq_true, if_false,
      Option.map_map]
    congr 1
    funext m
    exact mapValues_mapValues _ _ m

theorem mapValues_id (m : StringMap) : mapValues (fun v => v) m = m := by
  cases m
  simp [mapValues, mapSlices]

/-- The rule-major loop of `applyRegexRulesCaptured` does to each field what the value-major loops
do. -/
theorem applyRegexRulesCaptured_eq (r : CapturedRequest) (rules : List RegexRule) :
    applyRegexRulesCaptured r rules =
      { r with
        body := applyRegexRulesBody r.body rules
        headers := applyRegexRulesHeaderMap r.headers rules
        query := r.query.map (mapValues (regexValue rules)) } := by
  -- eligibility is decided once, before the first rule
  have loop : ∀ (b : Bool) (r : CapturedRequest), rules.foldl (applyRegexRuleCaptured b) r =
      { r with
        body := if b then
            r.body.map fun s => rules.foldl (fun s rule => rule.pattern.replaceAll s redacted) s
          else r.body
        headers := applyRegexRulesHeaderMap r.headers rules
        query := r.query.map (mapValues (regexValue rules)) } := by
    intro b
    induction rules with
    | nil =>
      intro r
      have hq : r.query.map (mapValues (regexValue [])) = r.query := by
        rw [show mapValues (regexValue []) = id from funext mapValues_id, Option.map_id]
        rfl
      simp [applyRegexRulesHeaderMap, hq]
    | cons rule rules ih =>
      intro r
      have hq : (r.query.map (mapValues (rule.pattern.replaceAllLiteralString · redacted))).map
          (mapValues (regexValue rules)) =
            r.query.map (mapValues (regexValue (rule :: rules))) := by
        rw [Option.map_map]
        congr 1
        funext m
        exact mapValues_mapValues _ _ m
      rw [List.foldl_cons, ih, applyRegexRuleCaptured]
      simp only [applyRegexRulesHeaderMap_cons, hq, List.foldl_cons]
      cases b <;> simp [Function.comp_def]
  rw [applyRegexRulesCaptured, loop]
  congr 1
  cases hb : r.body with
  | none => rfl
  | some s => cases s <;> rfl

/-! ### One function for all records -/

/-- What every kind of record carries, an outbound event twice. -/
structure Payload where
  headers : Headers
  body : Option GoString
  contentType : GoString

/-- The payloads of a record. -/
def payloads : Record → List Payload
  | .request r => [⟨r.headers, r.body, r.contentType⟩]
  | .response e => [⟨e.headers, e.body, e.contentType⟩]
  | .outbound e => ⟨e.request.headers, e.request.body, e.request.contentType⟩ ::
      e.response.toList.map fun p => ⟨p.headers, p.body, p.contentType⟩

variable (U : Unicode) (L : Libraries) (rs : Ruleset)

/-- The rules on one payload, and the growth of the error counter. -/
def redactPayload (p : Payload) : Payload × ℕ :=
  let headers := applyCookieRulesToHeaders (copyStringSliceMap p.headers) rs.cookies
  let headers := applyHeaderRulesMap U headers rs.headers
  let (body, errs) := applyJSONPathRulesBody U L p.body p.contentType rs.jsonPaths
  (⟨applyRegexRulesHeaderMap headers rs.regex, applyRegexRulesBody body rs.regex, p.contentType⟩,
    errs)

/-- The cookie rules of a captured request do to its headers what those of an event do. -/
theorem applyCookieRules_headers (r : CapturedRequest) (rules : List CookieRule) :
    (applyCookieRules r rules).headers = applyCookieRulesToHeaders r.headers rules := by
  unfold applyCookieRules
  split_ifs with h
  · rcases h with h | h
    · simp [applyCookieRulesToHeaders, h]
    · simp [applyCookieRulesToHeaders, h]
  · dsimp only
    split <;> rfl

/-- Cookie rules change nothing but headers and cookies. -/
theorem applyCookieRules_rest (r : CapturedRequest) (rules : List CookieRule) :
    applyCookieRules r rules =
      { r with
        headers := (applyCookieRules r rules).headers
        cookies := (applyCookieRules r rules).cookies } := by
  unfold applyCookieRules
  split_ifs
  · rfl
  · dsimp only
    split <;> rfl

/-- The captured request that comes out, field by field. -/
theorem redactCapturedRequest_eq (r : CapturedRequest) :
    redactCapturedRequest U L rs r =
      ({ r with
          headers := (redactPayload U L rs ⟨r.headers, r.body, r.contentType⟩).1.headers
          body := (redactPayload U L rs ⟨r.headers, r.body, r.contentType⟩).1.body
          query := (applyHeaderRulesMap U (copyStringSliceMap r.query) rs.queryParams).map
            (mapValues (regexValue rs.regex))
          cookies := (applyCookieRules (shallowCopyCapturedRequest r) rs.cookies).cookies },
        (redactPayload U L rs ⟨r.headers, r.body, r.contentType⟩).2) := by
  rw [redactCapturedRequest, applyCookieRules_rest]
  simp only [applyRegexRulesCaptured_eq, applyCookieRules_headers, applyQueryRules,
    shallowCopyCapturedRequest]
  rfl

theorem payloads_redact (h : rs.isUnredacted = false) (rec : Record) :
    payloads (redact U L rs rec).1 = (payloads rec).map (fun p => (redactPayload U L rs p).1) ∧
      (redact U L rs rec).2 = ((payloads rec).map fun p => (redactPayload U L rs p).2).sum := by
  rw [redact.eq_def, h]
  cases rec with
  | request r =>
    dsimp only
    rw [redactCapturedRequest_eq]
    exact ⟨rfl, rfl⟩
  | response e => exact ⟨rfl, rfl⟩
  | outbound e =>
    cases he : e.response with
    | none => simp [redactOutboundEvent, he, payloads, redactRequestHalf, redactPayload]
    | some p =>
      simp [redactOutboundEvent, he, payloads, redactRequestHalf, redactResponseHalf, redactPayload]

/-- **Redaction is uniform.** For each ruleset there is one function of headers, body and content
type that gives the headers and bodies of every redacted record of any kind, and what each of them
adds to the error counter. -/
theorem redact_uniform : ∃ f : Payload → Payload × ℕ, ∀ rec : Record,
    payloads (redact U L rs rec).1 = (payloads rec).map (fun p => (f p).1) ∧
      (redact U L rs rec).2 = ((payloads rec).map fun p => (f p).2).sum := by
  cases h : rs.isUnredacted with
  | true =>
    refine ⟨fun p => (p, 0), fun rec => ?_⟩
    rw [redact.eq_def, h]
    simp
  | false => exact ⟨redactPayload U L rs, payloads_redact U L rs h⟩

/-! ### The parameters of a URL -/

/-- The value of a hexadecimal digit. -/
def unhex (c : UInt8) : Option UInt8 :=
  if 0x30 ≤ c ∧ c ≤ 0x39 then some (c - 0x30)
  else if 0x61 ≤ c ∧ c ≤ 0x66 then some (c - 0x61 + 10)
  else if 0x41 ≤ c ∧ c ≤ 0x46 then some (c - 0x41 + 10)
  else none

/-- `url.QueryUnescape`; `none` for an error. -/
def queryUnescape : GoString → Option GoString
  | [] => some []
  | 0x25 :: a :: b :: s => do
    let hi ← unhex a
    let lo ← unhex b
    let rest ← queryUnescape s
    pure ((hi * 16 + lo) :: rest)
  | c :: s =>
    if c = 0x25 then none
    else (queryUnescape s).map ((if c = 0x2B then 0x20 else c) :: ·)

/-- One `key=value` of a query string; `none` where `url.ParseQuery` skips it. -/
def parseParam (s : GoString) : Option (GoString × GoString) :=
  if s = [] ∨ s.contains 0x3B then none
  else do
    let key ← queryUnescape (before s 0x3D)
    let value ← queryUnescape (afterByte s 0x3D)
    pure (key, value)

/-- The parameters in the query string after the first `?` of a path. -/
def pathParams (path : GoString) : List (GoString × GoString) :=
  (split (afterByte path 0x3F) 0x26).filterMap parseParam

/-- The parameters of the URL that a record holds: names with values. -/
def urlParams : Record → List (GoString × GoString)
  | .request r => r.query.pairs
  | .response _ => []
  | .outbound e => pathParams e.request.path

/-- The record's URL has a parameter of that name, in any letter case, with that value. -/
def Carries (rec : Record) (n v : GoString) : Prop :=
  ∃ p ∈ urlParams rec, toLower U p.1 = toLower U n ∧ p.2 = v

instance (rec : Record) (n v : GoString) : Decidable (Carries U rec n v) :=
  inferInstanceAs (Decidable (∃ p ∈ urlParams rec, _))

/-- No value that a parameter named by a query rule comes with is still there after redaction. -/
def QueryProtected (cfg : RedactionConfig) (rec : Record) : Prop :=
  ∀ n ∈ cfg.queryParams, ∀ v, Carries U rec n v → ¬ Carries U (redact U L rs rec).1 n v

/-- What the regex rules leave of the marker. -/
def marker : GoString := regexValue rs.regex redacted

/-- A parameter that a rule names has the marker for all its values. -/
theorem mem_redacted_query (q : Headers) (k v : GoString)
    (hk : rs.queryParams.contains (toLower U k)) :
    (k, v) ∈ Headers.pairs ((applyHeaderRulesMap U (copyStringSliceMap q) rs.queryParams).map
        (mapValues (regexValue rs.regex))) ↔ v = marker rs ∧ ∃ w, (k, w) ∈ q.pairs := by
  cases q with
  | none => simp [copyStringSliceMap, applyHeaderRulesMap, Headers.pairs, Headers.entries]
  | some m =>
    simp only [copyStringSliceMap, applyHeaderRulesMap, Option.map_some, Headers.pairs,
      Headers.entries, mapValues, mapSlices, List.map_map, List.mem_flatMap, List.mem_map,
      Prod.mk.injEq, Function.comp_apply]
    constructor
    · rintro ⟨_, ⟨kv, hkv, rfl⟩, w, hw, rfl, rfl⟩
      rw [if_pos hk] at hw
      simp only [Option.map_some, Option.getD_some, List.map_map, List.mem_map,
        Function.comp_apply] at hw
      obtain ⟨u, hu, rfl⟩ := hw
      exact ⟨rfl, u, kv, hkv, u, hu, rfl, rfl⟩
    · rintro ⟨rfl, w, kv, hkv, u, hu, rfl, rfl⟩
      refine ⟨_, ⟨kv, hkv, rfl⟩, marker rs, ?_, rfl, rfl⟩
      rw [if_pos hk]
      simp only [Option.map_some, Option.getD_some, List.map_map, List.mem_map, Function.comp_apply]
      exact ⟨u, hu, rfl⟩

theorem redactOutboundEvent_path (e : OutboundEvent) :
    (redactOutboundEvent U L rs e).1.request.path = e.request.path := by
  cases he : e.response <;> simp [redactOutboundEvent, he, redactRequestHalf]

/-- **Where query rules protect.** They do so on a captured request, unless a parameter already
has the marker for its value, and on a response event, which has no URL. On an outbound event they
protect nothing: only if its path has no parameter that a rule names is there nothing to protect.
-/
theorem redact_query (cfg : RedactionConfig) (h : newRuleset U L cfg = .ok rs) (rec : Record) :
    QueryProtected U L rs cfg rec ↔
      match rec with
      | .request r => ∀ n ∈ cfg.queryParams, ¬ Carries U (.request r) n (marker rs)
      | .response _ => True
      | .outbound e => ∀ n ∈ cfg.queryParams, ∀ v, ¬ Carries U (.outbound e) n v := by
  have hq := newRuleset_queryParams h
  -- a rule at hand means that something is redacted at all
  have hred : ∀ n ∈ cfg.queryParams, rs.isUnredacted = false := by
    intro n hn
    have : rs.queryParams ≠ [] := by
      rw [hq]
      exact List.ne_nil_of_mem (List.mem_map_of_mem hn)
    simp [Ruleset.isUnredacted, this]
  cases rec with
  | response e =>
    refine ⟨fun _ => trivial, fun _ n _ v ⟨k, hk, _⟩ => ?_⟩
    cases hk
  | outbound e =>
    -- the path comes out as it went in
    have hsame : ∀ n ∈ cfg.queryParams, ∀ v,
        Carries U (redact U L rs (.outbound e)).1 n v ↔ Carries U (.outbound e) n v := by
      intro n hn v
      rw [redact.eq_def, hred n hn]
      simp only [Bool.false_eq_true, if_false, Prod.map_fst, Carries, urlParams,
        redactOutboundEvent_path]
    constructor
    · intro hp n hn v hv
      exact hp n hn v hv ((hsame n hn v).2 hv)
    · intro hno n hn v hv
      exact absurd hv (hno n hn v)
  | request r =>
    have hafter : ∀ n ∈ cfg.queryParams, ∀ v, Carries U (redact U L rs (.request r)).1 n v ↔
        v = marker rs ∧ ∃ w, Carries U (.request r) n w := by
      intro n hn v
      have hrule : ∀ k, toLower U k = toLower U n → rs.queryParams.contains (toLower U k) := by
        intro k hk
        rw [List.contains_iff_mem, hq, hk]
        exact List.mem_map_of_mem hn
      rw [redact.eq_def, hred n hn]
      simp only [Bool.false_eq_true, if_false, Prod.map_fst, redactCapturedRequest_eq,
        Carries, urlParams]
      constructor
      · rintro ⟨⟨k, v⟩, hk, hkn, rfl⟩
        obtain ⟨hv, w, hw⟩ := (mem_redacted_query U rs r.query k v (hrule k hkn)).1 hk
        exact ⟨hv, w, (k, w), hw, hkn, rfl⟩
      · rintro ⟨hv, w, ⟨k, w⟩, hw, hkn, rfl⟩
        exact ⟨(k, v), (mem_redacted_query U rs r.query k v (hrule k hkn)).2 ⟨hv, w, hw⟩, hkn, rfl⟩
    constructor
    · intro hp n hn hm
      exact hp n hn _ hm ((hafter n hn _).2 ⟨rfl, _, hm⟩)
    · intro hno n hn v hv hv'
      obtain ⟨rfl, -⟩ := (hafter n hn v).1 hv'
      exact hno n hn hv

/-- Libraries that know no JSON, no media type and no pattern. -/
def noLibraries : Libraries :=
  ⟨fun _ => false, fun _ _ => false, fun b _ _ => .ok b, fun _ => none, fun _ => .error []⟩

/-- One query rule, named `Token`. -/
def tokenConfig : RedactionConfig := ⟨[], [str "Token"], [], [], []⟩

/-- `?TOKEN=s` on the capture port. -/
theorem redact_query_token :
    QueryProtected .asciiOnly noLibraries ⟨[], [str "token"], [], [], []⟩ tokenConfig
      (.request { CapturedRequest.blank (str "r") 0 (str "c") with
        query := some ⟨[(str "TOKEN", some [str "s"])], by decide⟩ }) := by
  refine (redact_query .asciiOnly noLibraries _ tokenConfig rfl _).2 fun n hn => ?_
  obtain rfl : n = str "Token" := by simpa [tokenConfig] using hn
  decide

/-- An outbound call to `/a?token=s` reaches the sinks with its token. -/
theorem redact_query_outbound : ∃ (rs : Ruleset) (e : OutboundEvent),
    newRuleset .asciiOnly noLibraries tokenConfig = .ok rs ∧ e.request.path = str "/a?token=s" ∧
      Carries .asciiOnly (.outbound e) (str "Token") (str "s") ∧
      Carries .asciiOnly (redact .asciiOnly noLibraries rs (.outbound e)).1
        (str "Token") (str "s") ∧
      ¬ QueryProtected .asciiOnly noLibraries rs tokenConfig (.outbound e) := by
  refine ⟨⟨[], [str "token"], [], [], []⟩, ⟨str "o", 0, str "c", [], [], [], 1,
    ⟨str "GET", str "/a?token=s", none, none, false, 0, []⟩, none⟩, rfl, rfl, by decide, by decide,
      fun h => ?_⟩
  exact absurd (h (str "Token") (by decide) (str "s") (by decide)) (not_not_intro (by decide))

end HttpCatch.Redact

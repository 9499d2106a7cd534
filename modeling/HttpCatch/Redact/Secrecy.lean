import Mathlib.Data.List.Forall2
import HttpCatch.Admin.Chips
import HttpCatch.Capture.Server
import HttpCatch.Redact.CookieKeys

/-!
# What a redacted record says about what was redacted

Two requests are twins (`Twins`) if an observer who must not learn the values that the rules name
may not tell them apart: they agree in everything but the values of headers, query parameters and
cookies that a rule names. The capture handler reads some headers for more than the header map (the
service, the correlation key, the content type, the cookies); a rule for one of those leaves the
other field in clear, so those headers count as secret only as far as cookie rules go.

* `editLine_twins`, `redactCookieSlice_twins` — the two views of the cookies.
* `redactPayload_twins`, `queryRules_twins` — headers and query.
* `Twins.redact_eq` — the redacted records of twins are equal.
-/

namespace HttpCatch.Redact

open HttpCatch.Go HttpCatch.Capture HttpCatch.SearchQL

open List (Forall₂)

/-- Two lists whose elements `f` does not tell apart. -/
theorem filterMap_eq_of_forall₂ {α β : Type} {f : α → Option β} {l l' : List α}
    (h : Forall₂ (fun a b => f a = f b) l l') : l.filterMap f = l'.filterMap f := by
  induction h with
  | nil => rfl
  | cons hab _ ih => rw [List.filterMap_cons, List.filterMap_cons, hab, ih]

/-! ### Cookies -/

/-- Some rule replaces or drops the cookie. -/
def Touched (rules : List CookieRule) (name : GoString) : Prop :=
  ∃ rule ∈ rules, rule.verdict name ≠ .keep

/-- Two parts of a `Cookie` line: the same, or two cookies of a name that a rule takes care of. -/
inductive PartTwins (rules : List CookieRule) : GoString → GoString → Prop
  | same (p : GoString) : PartTwins rules p p
  | value {name v v' : GoString} {c c' : Cookie} (hname : 0x3D ∉ name)
      (hread : readCookie (name ++ 0x3D :: v) = some c)
      (hread' : readCookie (name ++ 0x3D :: v') = some c') (ht : Touched rules c.name) :
      PartTwins rules (name ++ 0x3D :: v) (name ++ 0x3D :: v')

/-- Two lines of the `Cookie` header, part by part. -/
def LineTwins (rules : List CookieRule) (line line' : GoString) : Prop :=
  Forall₂ (PartTwins rules) (split line 0x3B) (split line' 0x3B)

/-- Two cookies: the same, or of a name that a rule takes care of. -/
def CookieTwins (rules : List CookieRule) (c c' : Cookie) : Prop :=
  c = c' ∨ c.name = c'.name ∧ Touched rules c.name

section

variable {rules : List CookieRule}

/-- No part has a semicolon in it. -/
theorem LineTwins.parts {line line' : GoString} (h : LineTwins rules line line') :
    Forall₂ (fun p p' => PartTwins rules p p' ∧ 0x3B ∉ p ∧ 0x3B ∉ p') (split line 0x3B)
      (split line' 0x3B) := by
  rw [LineTwins, List.forall₂_iff_get] at h
  rw [List.forall₂_iff_get]
  refine ⟨h.1, fun i hi hi' => ⟨h.2 i hi hi', ?_, ?_⟩⟩
  · exact not_mem_of_mem_split (List.get_mem _ _)
  · exact not_mem_of_mem_split (List.get_mem _ _)

theorem rulesOnToken_twins {p p' : GoString} (h : PartTwins rules p p') (hp : 0x3B ∉ p)
    (hp' : 0x3B ∉ p') : rulesOnToken rules p = rulesOnToken rules p' := by
  cases h with
  | same => rfl
  | @value name v v' c c' hname hread hread' ht =>
    have hsame : cookieName (name ++ 0x3D :: v) = cookieName (name ++ 0x3D :: v') := by
      rw [cookieName_append hname, cookieName_append hname]
    obtain ⟨hc, hne⟩ := cookieName_of_read hread hp
    rw [rulesOnToken, rulesOnToken, ← hsame, hc, if_neg hne, if_neg hne]
    split_ifs with hdrop hreplace
    · rfl
    · -- what is left has nothing of the value
      have hv : 0x3B ∉ v := fun hv =>
        hp (List.mem_append_right _ (List.mem_cons_of_mem _ hv))
      have hv' : 0x3B ∉ v' := fun hv =>
        hp' (List.mem_append_right _ (List.mem_cons_of_mem _ hv))
      rw [replaceCookieValue_append hname, replaceCookieValue_append hname,
        attributes_of_not_mem hv, attributes_of_not_mem hv']
    · -- a rule that touches the cookie does one of the two
      exfalso
      obtain ⟨rule, hr, hkeep⟩ := ht
      cases hverdict : rule.verdict c.name with
      | keep => exact hkeep hverdict
      | replace => exact hreplace ⟨rule, hr, hverdict⟩
      | drop => exact hdrop ⟨rule, hr, hverdict⟩

theorem editLine_twins {line line' : GoString} (h : LineTwins rules line line') :
    editLine rules line = editLine rules line' := by
  have hparts : Forall₂ (fun p p' => rulesOnToken rules p = rulesOnToken rules p')
      (split line 0x3B) (split line' 0x3B) :=
    h.parts.imp fun p p' hpp => rulesOnToken_twins hpp.1 hpp.2.1 hpp.2.2
  rw [editLine, editLine, filterMap_eq_of_forall₂ hparts]

theorem readCookie_twins {p p' : GoString} (h : PartTwins rules p p') (hp : 0x3B ∉ p)
    (hp' : 0x3B ∉ p') : Option.Rel (CookieTwins rules) (readCookie p) (readCookie p') := by
  cases h with
  | same =>
    cases readCookie p with
    | none => exact .none
    | some c => exact .some (.inl rfl)
  | @value name v v' c c' hname hread hread' ht =>
    rw [hread, hread']
    refine .some (.inr ⟨?_, ht⟩)
    rw [← (cookieName_of_read hread hp).1, ← (cookieName_of_read hread' hp').1,
      cookieName_append hname, cookieName_append hname]

theorem readLine_twins {line line' : GoString} (h : LineTwins rules line line') :
    Forall₂ (CookieTwins rules) (readLine line) (readLine line') := by
  exact List.rel_filterMap (fun p p' hpp => readCookie_twins hpp.1 hpp.2.1 hpp.2.2) h.parts

theorem ruleOnCookie_twins {rule : CookieRule} {c c' : Cookie}
    (h : CookieTwins (rule :: rules) c c') :
    Option.Rel (CookieTwins rules) (ruleOnCookie rule c) (ruleOnCookie rule c') := by
  rcases h with rfl | ⟨hname, rule', hr, ht⟩
  · cases ruleOnCookie rule c with
    | none => exact .none
    | some c => exact .some (.inl rfl)
  rw [ruleOnCookie, ruleOnCookie, ← hname]
  cases hv : rule.verdict c.name with
  | drop => exact .none
  | replace => exact .some (.inl rfl)
  | keep =>
    -- the rule that touches it is one of the others
    refine .some (.inr ⟨hname, rule', ?_, ht⟩)
    rcases List.mem_cons.1 hr with rfl | hr
    · exact absurd hv ht
    · exact hr

theorem redactCookieSlice_twins {cs cs' : List Cookie} (h : Forall₂ (CookieTwins rules) cs cs') :
    redactCookieSlice cs rules = redactCookieSlice cs' rules := by
  induction rules generalizing cs cs' with
  | nil =>
    refine List.forall₂_eq_eq_eq ▸ h.imp fun c c' hc => ?_
    rcases hc with hc | ⟨-, rule, hr, -⟩
    · exact hc
    · cases hr
  | cons rule rules ih =>
    exact ih (List.rel_filterMap (fun c c' hc => ruleOnCookie_twins hc) h)

end

/-! ### Headers -/

variable (U : Unicode) (L : Libraries) (rs : Ruleset) (serviceHeader : GoString)

/-- The headers that another field of a record is taken from as they are. -/
def readElsewhere : List GoString :=
  [hostHeader, str "Content-Type", traceparentHeader, requestIDHeader,
    if serviceHeader = [] then defaultServiceHeader else serviceHeader].map canonicalMIMEHeaderKey

/-- A header that a header rule names, and that is read for nothing else. -/
def SecretHeader (key : GoString) : Prop :=
  toLower U key ∈ rs.headers ∧ canonicalMIMEHeaderKey key ∉
    cookieHeaderKey :: setCookieHeaderKey :: readElsewhere serviceHeader

/-- Two entries of a header map: the same, as many values of a secret header, or two `Cookie`
headers, unless the service is taken from that one. -/
inductive EntryTwins :
    GoString × Option (List GoString) → GoString × Option (List GoString) → Prop
  | same (e : GoString × Option (List GoString)) : EntryTwins e e
  | header {key : GoString} {vs vs' : List GoString} (hkey : SecretHeader U rs serviceHeader key)
      (hlen : vs.length = vs'.length) : EntryTwins (key, some vs) (key, some vs')
  | cookie {vs vs' : List GoString} (hunread : cookieHeaderKey ∉ readElsewhere serviceHeader)
      (h : Forall₂ (LineTwins rs.cookies) vs vs') :
      EntryTwins (cookieHeaderKey, some vs) (cookieHeaderKey, some vs')

variable {U rs serviceHeader}

variable {e e' : GoString × Option (List GoString)}
  {es es' : List (GoString × Option (List GoString))} {m m' : StringMap} {vs vs' : List GoString}

theorem EntryTwins.key (h : EntryTwins U rs serviceHeader e e') : e.1 = e'.1 := by
  cases h <;> rfl

theorem keys_twins (h : Forall₂ (EntryTwins U rs serviceHeader) es es') :
    es.map Prod.fst = es'.map Prod.fst := by
  induction h with
  | nil => rfl
  | cons he _ ih => rw [List.map_cons, List.map_cons, he.key, ih]

theorem setEntry_twins (h : Forall₂ (EntryTwins U rs serviceHeader) es es') (key value : GoString) :
    Forall₂ (EntryTwins U rs serviceHeader) (setEntry key value es) (setEntry key value es') := by
  induction h with
  | nil => exact .cons (.same _) .nil
  | @cons e e' es es' he hes ih =>
    rw [setEntry, setEntry, ← he.key]
    split_ifs
    · exact .cons (.same _) hes
    · exact .cons he ih

/-- A header that is read elsewhere is the same in both maps. -/
theorem lookup_twins (h : Forall₂ (EntryTwins U rs serviceHeader) es es') {key : GoString}
    (hcanon : canonicalMIMEHeaderKey key = key) (hkey : key ∈ readElsewhere serviceHeader) :
    es.lookup key = es'.lookup key := by
  induction h with
  | nil => rfl
  | cons he _ ih =>
    rw [List.lookup_cons, List.lookup_cons, ih]
    cases he with
    | same => rfl
    | @header k vs vs' hk =>
      have hne : (key == k) = false := by
        refine beq_eq_false_iff_ne.2 ?_
        rintro rfl
        refine hk.2 (List.mem_cons_of_mem _ (List.mem_cons_of_mem _ ?_))
        rwa [hcanon]
      simp only [hne]
    | cookie hunread =>
      have hne : (key == cookieHeaderKey) = false := by
        refine beq_eq_false_iff_ne.2 ?_
        rintro rfl
        exact hunread hkey
      simp only [hne]

theorem get_twins (h : Forall₂ (EntryTwins U rs serviceHeader) m.entries m'.entries)
    {key : GoString} (hkey : canonicalMIMEHeaderKey key ∈ readElsewhere serviceHeader) :
    Headers.get (some m) key = Headers.get (some m') key := by
  show (((m.entries.lookup _).getD none).getD []).headD [] =
    (((m'.entries.lookup _).getD none).getD []).headD []
  rw [lookup_twins h (Admin.canonicalMIMEHeaderKey_idem key) hkey]

/-- The lines of the two `Cookie` headers. -/
theorem cookieLines_twins (h : Forall₂ (EntryTwins U rs serviceHeader) m.entries m'.entries) :
    Forall₂ (LineTwins rs.cookies) (Headers.values (some m) cookieHeaderKey)
      (Headers.values (some m') cookieHeaderKey) := by
  have hrefl : ∀ vs : List GoString, Forall₂ (LineTwins rs.cookies) vs vs := fun vs =>
    List.forall₂_same.2 fun line _ => List.forall₂_same.2 fun p _ => .same p
  show Forall₂ _ (((m.entries.lookup _).getD none).getD [])
    (((m'.entries.lookup _).getD none).getD [])
  generalize m.entries = es, m'.entries = es' at h
  induction h with
  | nil => exact .nil
  | @cons e e' _ _ he _ ih =>
    rw [List.lookup_cons, List.lookup_cons]
    cases he with
    | same =>
      cases hk : cookieHeaderKey == e.1 with
      | true => exact hrefl _
      | false => exact ih
    | @header k vs vs' hk =>
      have hne : (cookieHeaderKey == k) = false := by
        refine beq_eq_false_iff_ne.2 ?_
        rintro rfl
        exact hk.2 (canonical_cookie ▸ List.mem_cons_self)
      simp only [hne]
      exact ih
    | cookie _ hlines =>
      simp only [beq_self_eq_true]
      exact hlines

theorem map_const_twins (h : vs.length = vs'.length) :
    vs.map (fun _ => redacted) = vs'.map fun _ => redacted := by
  rw [List.map_const', List.map_const', h]

/-- Without cookie rules there is nothing to hide in a line. -/
theorem LineTwins.eq_of_nil {line line' : GoString} (h : LineTwins [] line line') :
    line = line' := by
  have hparts : split line 0x3B = split line' 0x3B := by
    refine List.forall₂_eq_eq_eq ▸ h.imp fun p p' hp => ?_
    cases hp with
    | same => rfl
    | value _ _ _ ht =>
      obtain ⟨rule, hr, -⟩ := ht
      cases hr
  rw [← join_split line 0x3B, hparts, join_split]

theorem lines_eq_of_nil (h : Forall₂ (LineTwins []) vs vs') : vs = vs' :=
  List.forall₂_eq_eq_eq ▸ h.imp fun _ _ hl => LineTwins.eq_of_nil hl

/-- Without header rules and cookie rules there is nothing to hide in a header map. -/
theorem EntryTwins.eq_of_nil (h : EntryTwins U rs serviceHeader e e') (hheaders : rs.headers = [])
    (hcookies : rs.cookies = []) : e = e' := by
  cases h with
  | same => rfl
  | header hkey =>
    have hmem := hkey.1
    rw [hheaders] at hmem
    cases hmem
  | cookie _ hlines =>
    rw [hcookies] at hlines
    rw [lines_eq_of_nil hlines]

/-- The cookie rules on two `Cookie` headers. -/
theorem stepAll_twins {rules : List CookieRule} (h : Forall₂ (LineTwins rules) vs vs') :
    stepAll cookieStep rules (some vs) = stepAll cookieStep rules (some vs') := by
  cases rules with
  | nil => rw [lines_eq_of_nil h]
  | cons rule rules =>
    have hlines : vs.map (editLine (rule :: rules)) = vs'.map (editLine (rule :: rules)) := by
      refine List.forall₂_eq_eq_eq ▸ List.forall₂_map_left_iff.2 (List.forall₂_map_right_iff.2 ?_)
      exact h.imp fun line line' hl => editLine_twins hl
    rw [stepAll_cookie _ (List.cons_ne_nil _ _), stepAll_cookie _ (List.cons_ne_nil _ _)]
    exact congrArg cookieOutcome hlines

/-- What the cookie rules and the header rules leave of an entry. -/
theorem entry_twins (h : EntryTwins U rs serviceHeader e e') (hmem : e.1 ∈ m.entries.map Prod.fst) :
    (loopAt rs.cookies (findHeaderKey m cookieHeaderKey) (findHeaderKey m setCookieHeaderKey) e.1
        (some (e.2.getD []))).map (fun vs => (e.1,
          if rs.headers.contains (toLower U e.1) then vs.map (List.map fun _ => redacted)
            else vs)) =
      (loopAt rs.cookies (findHeaderKey m cookieHeaderKey) (findHeaderKey m setCookieHeaderKey) e'.1
        (some (e'.2.getD []))).map fun vs => (e'.1,
          if rs.headers.contains (toLower U e'.1) then vs.map (List.map fun _ => redacted)
            else vs) := by
  cases h with
  | same => rfl
  | @header key vs vs' hkey hlen =>
    -- no cookie rule looks at it, and a header rule leaves only the number of values
    have hcookie : findHeaderKey m cookieHeaderKey ≠ some key := fun hf =>
      hkey.2 ((findHeaderKey_some canonical_cookie hf).2 ▸ List.mem_cons_self)
    have hset : findHeaderKey m setCookieHeaderKey ≠ some key := fun hf =>
      hkey.2 ((findHeaderKey_some canonical_setCookie hf).2 ▸
        List.mem_cons_of_mem _ List.mem_cons_self)
    have hrule : rs.headers.contains (toLower U key) = true := List.contains_iff_mem.2 hkey.1
    simp only [loopAt, if_neg hcookie, if_neg hset, Option.map_some, hrule, if_true,
      Option.getD_some, map_const_twins hlen]
  | cookie _ hlines =>
    rw [loopAt, loopAt, if_pos (findHeaderKey_of_mem hmem), if_pos (findHeaderKey_of_mem hmem)]
    exact congrArg _ (stepAll_twins hlines)

/-- The rules on two header maps, and on the body that goes with them. -/
theorem redactPayload_twins (h : Forall₂ (EntryTwins U rs serviceHeader) m.entries m'.entries)
    (body : Option GoString) (contentType : GoString) :
    redactPayload U L rs ⟨some m, body, contentType⟩ =
      redactPayload U L rs ⟨some m', body, contentType⟩ := by
  -- the maps have the same keys, so the loop over the cookie rules takes the same two
  let copy : GoString → Option (List GoString) → Option (List GoString) :=
    fun _ vs => some (vs.getD [])
  have hkeys : ∀ m : StringMap,
      (mapSlices copy m).entries.map Prod.fst = m.entries.map Prod.fst := by
    intro m
    simp [mapSlices, Function.comp_def]
  have hfind : ∀ key, findHeaderKey (mapSlices copy m') key = findHeaderKey (mapSlices copy m) key
      := by
    intro key
    rw [findHeaderKey, findHeaderKey, hkeys, hkeys, keys_twins h]
  have hheaders : applyHeaderRulesMap U
      (applyCookieRulesToHeaders (copyStringSliceMap (some m)) rs.cookies) rs.headers =
      applyHeaderRulesMap U
        (applyCookieRulesToHeaders (copyStringSliceMap (some m')) rs.cookies) rs.headers := by
    show applyHeaderRulesMap U
      (applyCookieRulesToHeaders (some (mapSlices copy m)) rs.cookies) rs.headers =
      applyHeaderRulesMap U
        (applyCookieRulesToHeaders (some (mapSlices copy m')) rs.cookies) rs.headers
    rw [applyCookieRulesToHeaders_eq, applyCookieRulesToHeaders_eq, hfind, hfind,
      applyHeaderRulesMap, applyHeaderRulesMap, Option.map_some, Option.map_some, Option.some_inj,
      mapSlices, mapSlices, StringMap.mk.injEq]
    simp only [mapEntries, mapSlices, List.filterMap_map, List.map_filterMap]
    refine filterMap_eq_of_forall₂ ?_
    refine ((List.forall₂_and_left _ _).2 ⟨fun e he => he, h⟩).imp fun e e' he => ?_
    have hmem : e.1 ∈ (mapSlices copy m).entries.map Prod.fst := by
      rw [hkeys]
      exact List.mem_map_of_mem he.1
    have hentry := entry_twins he.2 hmem
    simp only [Function.comp_apply, Option.map_map]
    exact hentry
  rw [redactPayload, redactPayload]
  dsimp only
  rw [hheaders]

/-! ### The query -/

variable (U rs) in
/-- Two parameters of a query: the same, or of a name that a rule names. -/
def ParamTwins (kv kv' : GoString × GoString) : Prop :=
  kv.1 = kv'.1 ∧ (kv.2 = kv'.2 ∨ toLower U kv.1 ∈ rs.queryParams)

variable (U rs) in
/-- Two entries of the map made from a query. -/
def QueryTwins (e e' : GoString × Option (List GoString)) : Prop :=
  e.1 = e'.1 ∧ (e.2 = e'.2 ∨
    toLower U e.1 ∈ rs.queryParams ∧ (e.2.getD []).length = (e'.2.getD []).length)

theorem appendValue_twins {kv kv' : GoString × GoString} (hkv : ParamTwins U rs kv kv')
    (h : Forall₂ (QueryTwins U rs) es es') :
    Forall₂ (QueryTwins U rs) (appendValue kv.1 kv.2 es) (appendValue kv'.1 kv'.2 es') := by
  obtain ⟨k, v⟩ := kv
  obtain ⟨k', v'⟩ := kv'
  obtain ⟨rfl, hv⟩ := hkv
  dsimp only at hv ⊢
  induction h with
  | nil =>
    refine .cons ⟨rfl, ?_⟩ .nil
    exact hv.imp (fun h => by rw [h]) fun h => ⟨h, rfl⟩
  | @cons e e' es es' he hes ih =>
    obtain ⟨hkey, hvals⟩ := he
    rw [appendValue, appendValue, ← hkey]
    split_ifs with hk
    · refine .cons ⟨rfl, ?_⟩ hes
      -- the values may differ only if a rule names the parameter
      rcases hv with rfl | hv
      · refine hvals.imp (fun h => by rw [h]) fun h => ⟨h.1, ?_⟩
        simp [h.2]
      · refine .inr ⟨hk.symm ▸ hv, ?_⟩
        rcases hvals with h | h
        · simp [h]
        · simp [h.2]
    · exact .cons ⟨hkey, hvals⟩ ih

theorem queryValues_twins {q q' : GoString}
    (h : Forall₂ (ParamTwins U rs) (Admin.urlQuery q) (Admin.urlQuery q')) :
    Forall₂ (QueryTwins U rs) (queryValues q).entries (queryValues q').entries := by
  let P : StringMap → StringMap → Prop := fun m m' =>
    Forall₂ (QueryTwins U rs) m.entries m'.entries
  have hinit : P StringMap.empty StringMap.empty := .nil
  exact List.rel_foldl (P := P) (fun m m' hm kv kv' hkv => appendValue_twins hkv hm) hinit h

/-- The query rules on two queries. -/
theorem queryRules_twins {q q' : GoString}
    (h : Forall₂ (ParamTwins U rs) (Admin.urlQuery q) (Admin.urlQuery q')) :
    applyHeaderRulesMap U (copyStringSliceMap (some (queryValues q))) rs.queryParams =
      applyHeaderRulesMap U (copyStringSliceMap (some (queryValues q'))) rs.queryParams := by
  simp only [applyHeaderRulesMap, copyStringSliceMap, Option.map_some, Option.some_inj, mapSlices,
    StringMap.mk.injEq, List.map_map]
  refine List.forall₂_eq_eq_eq ▸ List.forall₂_map_left_iff.2 (List.forall₂_map_right_iff.2 ?_)
  refine (queryValues_twins h).imp fun e e' he => ?_
  obtain ⟨hkey, hvals⟩ := he
  simp only [Function.comp_apply, ← hkey]
  rcases hvals with hvals | ⟨hrule, hlen⟩
  · rw [hvals]
  · have hc : rs.queryParams.contains (toLower U e.1) = true := List.contains_iff_mem.2 hrule
    simp only [hc, if_true, Option.map_some, map_const_twins hlen]

/-! ### Requests -/

variable (U rs serviceHeader) in
/-- **Two requests that differ only in what the rules hide.** -/
structure Twins (a b : HTTPRequest) : Prop where
  method : a.method = b.method
  path : a.path = b.path
  host : a.host = b.host
  remoteAddr : a.remoteAddr = b.remoteAddr
  body : a.body = b.body
  query : Forall₂ (ParamTwins U rs) (Admin.urlQuery a.rawQuery) (Admin.urlQuery b.rawQuery)
  header : Forall₂ (EntryTwins U rs serviceHeader) a.header.entries b.header.entries

section

variable {a b : HTTPRequest} (h : Twins U rs serviceHeader a b)

include h

/-- The copies with the host are twins too. -/
theorem Twins.stamped : ∃ m m' : StringMap, stampedHeaders a = some m ∧
    stampedHeaders b = some m' ∧ Forall₂ (EntryTwins U rs serviceHeader) m.entries m'.entries := by
  rw [stampedHeaders, stampedHeaders, ← h.host]
  split_ifs
  · exact ⟨_, _, rfl, rfl, h.header⟩
  · exact ⟨_, _, rfl, rfl, setEntry_twins h.header _ _⟩

/-- What is read of a header elsewhere is the same. -/
theorem Twins.get {key : GoString}
    (hkey : canonicalMIMEHeaderKey key ∈ readElsewhere serviceHeader) :
    (stampedHeaders a).get key = (stampedHeaders b).get key := by
  obtain ⟨m, m', ha, hb, hm⟩ := h.stamped
  rw [ha, hb, get_twins hm hkey]

/-- They are of the same service. -/
theorem Twins.service :
    identifyService U (stampedHeaders a) serviceHeader =
      identifyService U (stampedHeaders b) serviceHeader := by
  have hhost : (stampedHeaders a).get hostHeader = (stampedHeaders b).get hostHeader :=
    h.get (by simp [readElsewhere])
  have hlabel : headerLabel (stampedHeaders a) serviceHeader =
      headerLabel (stampedHeaders b) serviceHeader :=
    h.get (by simp [readElsewhere])
  rw [identifyService, identifyService, hostLabel, hostLabel, hhost, hlabel]

/-- They have the same correlation key. -/
theorem Twins.correlation (fresh : UUID) :
    identifyCorrelation U fresh (stampedHeaders a) =
      identifyCorrelation U fresh (stampedHeaders b) :=
  identifyCorrelation_congr U (h.get (by simp [readElsewhere])) (h.get (by simp [readElsewhere]))

/-- The cookies that the handler reads. -/
theorem Twins.cookies :
    Forall₂ (CookieTwins rs.cookies)
      (readCookies (Headers.values (some a.header) cookieHeaderKey))
      (readCookies (Headers.values (some b.header) cookieHeaderKey)) := by
  have hlines : Forall₂ (LineTwins rs.cookies) (Headers.values (some a.header) cookieHeaderKey)
      (Headers.values (some b.header) cookieHeaderKey) :=
    cookieLines_twins h.header
  have hparts :
      (List.flatMap (split · 0x3B) (Headers.values (some a.header) cookieHeaderKey)).length =
        (List.flatMap (split · 0x3B) (Headers.values (some b.header) cookieHeaderKey)).length :=
    (List.rel_flatMap hlines fun line line' hl => hl.parts).length_eq
  rw [readCookies, readCookies, hparts]
  split_ifs
  · exact .nil
  · exact List.rel_flatMap hlines fun line line' hl => readLine_twins hl

/-- The records differ in the two maps and the cookies only. -/
theorem Twins.buildRecord_eq (id correlation : UUID) (now : ℤ) (body : GoString) (size : ℤ)
    (truncated : Bool) :
    buildRecord U id correlation now b body size truncated serviceHeader =
      { buildRecord U id correlation now a body size truncated serviceHeader with
        headers := stampedHeaders b
        query := some (queryValues b.rawQuery)
        cookies := some (readCookies (Headers.values (some b.header) cookieHeaderKey)) } := by
  have hcontent : Headers.get (some a.header) (str "Content-Type") =
      Headers.get (some b.header) (str "Content-Type") :=
    get_twins h.header (by simp [readElsewhere])
  simp only [buildRecord, h.service, h.correlation correlation, hcontent,
    h.method, h.path, h.remoteAddr]
  rfl

/-- Without rules nothing is secret. -/
theorem Twins.buildRecord_of_unredacted (hun : rs.isUnredacted = true) (id correlation : UUID)
    (now : ℤ) (body : GoString) (size : ℤ) (truncated : Bool) :
    buildRecord U id correlation now b body size truncated serviceHeader =
      buildRecord U id correlation now a body size truncated serviceHeader := by
  simp only [Ruleset.isUnredacted, Bool.and_eq_true, List.isEmpty_iff] at hun
  obtain ⟨⟨⟨⟨hheaders, hparams⟩, -⟩, -⟩, hcookies⟩ := hun
  obtain ⟨m, m', ha, hb, hm⟩ := h.stamped
  have hmaps : m = m' := by
    have hentries : m.entries = m'.entries :=
      List.forall₂_eq_eq_eq ▸ hm.imp fun e e' he => he.eq_of_nil hheaders hcookies
    cases m
    cases m'
    exact StringMap.mk.injEq _ _ _ _ ▸ hentries
  have hquery : Admin.urlQuery a.rawQuery = Admin.urlQuery b.rawQuery := by
    refine List.forall₂_eq_eq_eq ▸ h.query.imp fun kv kv' hkv => Prod.ext hkv.1 ?_
    refine hkv.2.resolve_right fun hmem => ?_
    rw [hparams] at hmem
    cases hmem
  have hlist : readCookies (Headers.values (some a.header) cookieHeaderKey) =
      readCookies (Headers.values (some b.header) cookieHeaderKey) := by
    have htwins := redactCookieSlice_twins h.cookies
    rwa [hcookies] at htwins
  rw [h.buildRecord_eq, hb, ← hmaps, ← ha, queryValues, ← hquery, ← queryValues, ← hlist]
  rfl

/-- **The redacted records of twins are equal**, and so is what redaction adds to the error
counter. -/
theorem Twins.redact_eq (L : Libraries) (id correlation : UUID) (now : ℤ) (body : GoString)
    (size : ℤ) (truncated : Bool) :
    redact U L rs (.request (buildRecord U id correlation now a body size truncated serviceHeader))
      = redact U L rs
        (.request (buildRecord U id correlation now b body size truncated serviceHeader)) := by
  cases hun : rs.isUnredacted with
  | true => rw [h.buildRecord_of_unredacted hun]
  | false =>
    obtain ⟨m, m', ha, hb, hm⟩ := h.stamped
    have hheaders := redactPayload_twins L hm
    have hcookies := redactCookieSlice_twins h.cookies
    rw [h.buildRecord_eq, redact.eq_def, redact.eq_def, hun, if_neg Bool.false_ne_true,
      if_neg Bool.false_ne_true]
    dsimp only
    rw [redactCapturedRequest_eq, redactCapturedRequest_eq, cookies_applyCookieRules,
      cookies_applyCookieRules]
    · simp only [buildRecord, ha, hb, hheaders, queryRules_twins h.query,
        shallowCopyCapturedRequest, Option.map_some]
      rw [← hcookies]
      rfl
    · simp [shallowCopyCapturedRequest, copyStringSliceMap, hb]
    · simp [shallowCopyCapturedRequest, copyStringSliceMap, buildRecord, ha]

end

end HttpCatch.Redact

import HttpCatch.Redact.ReadCookies

/-!
# The two views of a request's cookies

A captured request has its cookies twice: as the lines of the `Cookie` header and as the list
that the capture handler read from them with `net/http` (`readCookies`). Cookie rules are
applied to both. Header rules and regex rules are applied to the lines only.

## Main results

* `readLine_rule`: a cookie that a cookie rule leaves alone can still be read from the line.
* `redact_cookies`: for which rules and requests the list gives nothing away that is gone from
  the header.
-/

namespace HttpCatch.Redact

open HttpCatch.Go HttpCatch.Capture HttpCatch.SearchQL

/-! ### Cookie rules on a line -/

theorem readCookie_trimLeft (p : GoString) : readCookie (trimLeft p blanks) = readCookie p := by
  rw [readCookie, trimString_trimLeft p fun b => blank_of_blanks, ← readCookie]

variable {c : Cookie} {r : CapturedRequest}

/-- **A cookie that a rule leaves alone can still be read from the line.** -/
theorem readLine_rule {rule : CookieRule} {line : GoString} (hc : c ∈ readLine line)
    (hkeep : rule.verdict c.name = .keep) : c ∈ readLine (applyRuleToCookieHeader line rule) := by
  obtain ⟨p, hp, hread⟩ := List.mem_filterMap.1 hc
  obtain ⟨hname, hne⟩ := cookieName_of_read hread (not_mem_of_mem_split hp)
  have hrule : rulesOnToken [rule] p = some p := by
    rw [rulesOnToken_singleton, ruleOnToken, hname, if_neg hne, hkeep]
  rw [← editLine_singleton]
  -- the part is still there, perhaps without the blanks before it
  rcases split_editLine_of_mem hp hrule with h | h
  · exact List.mem_filterMap.2 ⟨p, h, hread⟩
  · exact List.mem_filterMap.2 ⟨_, h, (readCookie_trimLeft p).trans hread⟩

/-- What the cookie rules leave of the `Cookie` lines. -/
def keptLines : List CookieRule → List GoString → List GoString
  | [], lines => lines
  | rule :: rules, lines =>
    let lines := lines.map (applyRuleToCookieHeader · rule)
    if allEmpty lines then [] else keptLines rules lines

/-- Cookies that no rule touches can be read from what the rules leave. -/
theorem lineCookies_keptLines {rules : List CookieRule} {lines : List GoString}
    (hc : c ∈ lineCookies lines) (hkeep : ∀ rule ∈ rules, rule.verdict c.name = .keep) :
    c ∈ lineCookies (keptLines rules lines) := by
  induction rules generalizing lines with
  | nil => exact hc
  | cons rule rules ih =>
    obtain ⟨line, hline, hc⟩ := List.mem_flatMap.1 hc
    have hrule := readLine_rule hc (hkeep rule List.mem_cons_self)
    have hmem : applyRuleToCookieHeader line rule ∈ lines.map (applyRuleToCookieHeader · rule) :=
      List.mem_map_of_mem hline
    rw [keptLines]
    split_ifs with hempty
    · -- a line with a cookie in it is not empty
      rw [allEmpty, List.all_eq_true] at hempty
      rw [of_decide_eq_true (hempty _ hmem)] at hrule
      cases hrule
    · exact ih (List.mem_flatMap.2 ⟨_, hmem, hrule⟩) fun r hr => hkeep r
        (List.mem_cons_of_mem rule hr)

/-! ### The lines of a redacted header -/

theorem get_mapSlices (f : GoString → Option (List GoString) → Option (List GoString))
    (m : StringMap) (key : GoString) :
    Headers.get? (some (mapSlices f m)) key = (Headers.get? (some m) key).map (f key) := by
  show (m.entries.map fun kv => (kv.1, f kv.1 kv.2)).lookup key = (m.entries.lookup key).map (f key)
  induction m.entries with
  | nil => rfl
  | cons kv es ih =>
    rw [List.map_cons, List.lookup_cons, List.lookup_cons, ih]
    cases hk : key == kv.1
    · rfl
    · rw [beq_iff_eq.1 hk]
      rfl

theorem keptLines_nil (rules : List CookieRule) : keptLines rules [] = [] := by
  cases rules <;> rfl

/-- All rules on the values of the `Cookie` header leave its lines. -/
theorem stepAll_cookieStep (rules : List CookieRule) (vs : Option (List GoString)) :
    ((stepAll cookieStep rules vs).getD none).getD [] = keptLines rules (vs.getD []) := by
  induction rules generalizing vs with
  | nil => rfl
  | cons rule rules ih =>
    rw [stepAll, keptLines, cookieStep]
    split_ifs
    · rfl
    · exact ih _

/-- The `Cookie` lines once the cookie rules are done. -/
theorem values_applyCookieRulesToHeaders (h : Headers) (rules : List CookieRule) :
    (applyCookieRulesToHeaders h rules).values cookieHeaderKey =
      keptLines rules (h.values cookieHeaderKey) := by
  cases h with
  | none =>
    have : (applyCookieRulesToHeaders none rules) = none := by
      rw [applyCookieRulesToHeaders]
      split_ifs <;> rfl
    rw [this]
    exact (keptLines_nil rules).symm
  | some m =>
    rw [applyCookieRulesToHeaders_eq, Headers.values, get_mapEntries, Headers.values]
    cases hget : Headers.get? (some m) cookieHeaderKey with
    | none => exact (keptLines_nil rules).symm
    | some vs =>
      have hmem : cookieHeaderKey ∈ m.entries.map Prod.fst :=
        List.mem_map_of_mem (mem_of_lookup hget)
      rw [Option.bind_some, loopAt, if_pos (findHeaderKey_of_mem hmem)]
      exact stepAll_cookieStep rules vs

/-- Copying a header map keeps its lines. -/
theorem values_copyStringSliceMap (h : Headers) (key : GoString) :
    (copyStringSliceMap h).values key = h.values key := by
  cases h with
  | none => rfl
  | some m =>
    rw [copyStringSliceMap, Option.map_some, Headers.values, get_mapSlices, Headers.values]
    cases Headers.get? (some m) key <;> rfl

variable (U : Unicode) (L : Libraries) (rs : Ruleset)

theorem toLower_cookie : toLower U cookieHeaderKey = str "cookie" := rfl

/-- A header rule names the `Cookie` header. -/
def Ruleset.NamesCookie : Prop := str "cookie" ∈ rs.headers

instance : Decidable rs.NamesCookie := inferInstanceAs (Decidable (_ ∈ _))

theorem values_applyHeaderRulesMap (h : Headers) :
    (applyHeaderRulesMap U h rs.headers).values cookieHeaderKey =
      if rs.NamesCookie then (h.values cookieHeaderKey).map fun _ => redacted
        else h.values cookieHeaderKey := by
  cases h with
  | none =>
    split_ifs <;> rfl
  | some m =>
    rw [applyHeaderRulesMap, Option.map_some, Headers.values, get_mapSlices, toLower_cookie,
      Headers.values]
    by_cases hn : rs.NamesCookie
    · have hc : rs.headers.contains (str "cookie") = true := List.contains_iff_mem.2 hn
      simp only [hc, if_true, if_pos hn]
      rcases Headers.get? (some m) cookieHeaderKey with _ | _ | vs <;> rfl
    · have hc : ¬ rs.headers.contains (str "cookie") = true := mt List.contains_iff_mem.1 hn
      simp only [if_neg hc, if_neg hn]
      rcases Headers.get? (some m) cookieHeaderKey with _ | vs <;> rfl

theorem values_applyRegexRulesHeaderMap (h : Headers) (rules : List RegexRule) (key : GoString) :
    (applyRegexRulesHeaderMap h rules).values key = (h.values key).map (regexValue rules) := by
  cases rules with
  | nil => exact (List.map_id' _).symm
  | cons rule rules =>
    cases h with
    | none => rfl
    | some m =>
      show Headers.values (some (mapValues (regexValue (rule :: rules)) m)) key = _
      rw [mapValues, Headers.values, get_mapSlices, Headers.values]
      cases Headers.get? (some m) key with
      | none => rfl
      | some vs => cases vs <;> rfl

/-! ### The list of cookies -/

/-- A cookie in clear is in the redacted list just when no rule touches it. -/
theorem mem_redactCookieSlice (hclear : c.value ≠ redacted) (rules : List CookieRule)
    (cs : List Cookie) :
    c ∈ redactCookieSlice cs rules ↔ c ∈ cs ∧ ∀ rule ∈ rules, rule.verdict c.name = .keep := by
  induction rules generalizing cs with
  | nil => simp [redactCookieSlice]
  | cons rule rules ih =>
    have hstep : c ∈ cs.filterMap (ruleOnCookie rule) ↔ c ∈ cs ∧ rule.verdict c.name = .keep := by
      rw [List.mem_filterMap]
      constructor
      · rintro ⟨d, hd, hdc⟩
        unfold ruleOnCookie at hdc
        split at hdc
        · case h_1 hkeep =>
          obtain rfl := Option.some.inj hdc
          exact ⟨hd, hkeep⟩
        · obtain rfl := Option.some.inj hdc
          exact absurd rfl hclear
        · cases hdc
      · rintro ⟨hc, hkeep⟩
        exact ⟨c, hc, by rw [ruleOnCookie, hkeep]⟩
    rw [redactCookieSlice, List.foldl_cons, ← redactCookieSlice, ih, hstep,
      List.forall_mem_cons, and_assoc]

@[simp] theorem redactCookieSlice_nil (rules : List CookieRule) :
    redactCookieSlice [] rules = [] := by
  induction rules with
  | nil => rfl
  | cons rule rules ih => exact ih

theorem cookies_applyCookieRules (h : r.headers ≠ none) (rules : List CookieRule) :
    (applyCookieRules r rules).cookies = r.cookies.map (redactCookieSlice · rules) := by
  unfold applyCookieRules
  split_ifs with hr
  · obtain rfl : rules = [] := List.isEmpty_iff.1 (hr.resolve_right h)
    exact Option.map_id'.symm
  · dsimp only
    split
    · case h_1 hc => rw [hc]; rfl
    · case h_2 hc => rw [hc, Option.map_some, redactCookieSlice_nil]
    · case h_3 hc => rw [hc]; rfl

/-- The list of cookies, nil or not. -/
theorem getD_applyCookieRules (h : r.headers ≠ none) (rules : List CookieRule) :
    (applyCookieRules r rules).cookies.getD [] = redactCookieSlice (r.cookies.getD []) rules := by
  rw [cookies_applyCookieRules h]
  cases r.cookies <;> simp

/-! ### Both views -/

/-- The `Cookies` list is what the capture handler read from the `Cookie` header. -/
def Derived (r : CapturedRequest) : Prop :=
  r.cookies = some (readCookies (r.headers.values cookieHeaderKey))

/-- No cookie of the request that is gone from the redacted `Cookie` header is left in clear in
the redacted list. -/
def CookiesProtected (r : CapturedRequest) : Prop :=
  ∀ c ∈ r.cookies.getD [], c.value ≠ redacted →
    ∀ out : CapturedRequest, (redact U L rs (.request r)).1 = .request out →
      c ∉ lineCookies (out.headers.values cookieHeaderKey) → c ∉ out.cookies.getD []

/-- A cookie in clear that no cookie rule names, and that every allowlist does. -/
def Untouched (r : CapturedRequest) (c : Cookie) : Prop :=
  c ∈ r.cookies.getD [] ∧ c.value ≠ redacted ∧ ∀ rule ∈ rs.cookies, rule.verdict c.name = .keep

/-- The two views of the redacted cookies. -/
theorem redact_views (hr : r.headers ≠ none) (h : rs.isUnredacted = false) :
    ∃ out : CapturedRequest, (redact U L rs (.request r)).1 = .request out ∧
      out.cookies.getD [] = redactCookieSlice (r.cookies.getD []) rs.cookies ∧
      out.headers.values cookieHeaderKey =
        (if rs.NamesCookie then (keptLines rs.cookies (r.headers.values cookieHeaderKey)).map
          fun _ => redacted
          else keptLines rs.cookies (r.headers.values cookieHeaderKey)).map
            (regexValue rs.regex) := by
  refine ⟨(redactCapturedRequest U L rs r).1, ?_, ?_, ?_⟩
  · rw [redact.eq_def, h]
    rfl
  · rw [redactCapturedRequest_eq]
    refine getD_applyCookieRules (r := shallowCopyCapturedRequest r) ?_ rs.cookies
    simpa [shallowCopyCapturedRequest, copyStringSliceMap] using hr
  · rw [redactCapturedRequest_eq]
    show (applyRegexRulesHeaderMap
      (applyHeaderRulesMap U (applyCookieRulesToHeaders (copyStringSliceMap r.headers)
      rs.cookies) rs.headers) rs.regex).values cookieHeaderKey = _
    rw [values_applyRegexRulesHeaderMap, values_applyHeaderRulesMap,
      values_applyCookieRulesToHeaders, values_copyStringSliceMap]

/-- **The cookie stands in a line that the cookie rules leave, in a part that no match of a regex
rule touches.** A cookie whose own value has the marker in it may also be made of a match. -/
def StandsIn (find : RegexRule → GoString → List Mark) (r : CapturedRequest) (c : Cookie) : Prop :=
  ∃ line ∈ keptLines rs.cookies (r.headers.values cookieHeaderKey),
    ∃ part, readCookie part = some c ∧
      (part ∈ split line 0x3B ∧ Spared find part rs.regex line ∨
        redacted <:+: c.value ∧ Forged find part rs.regex line)

variable {L rs}

/-- What can be read from the lines once the regex rules are done. -/
theorem mem_lineCookies_iff {find : RegexRule → GoString → List Mark}
    (hfind : ∀ rule ∈ rs.regex, Finds rule.pattern (find rule)) :
    c ∈ lineCookies ((keptLines rs.cookies (r.headers.values cookieHeaderKey)).map
        (regexValue rs.regex)) ↔ StandsIn rs find r c := by
  simp only [lineCookies, List.flatMap_map, List.mem_flatMap, readLine, List.mem_filterMap,
    mem_split_regexValue hfind]
  refine exists_congr fun line => and_congr_right fun _ => exists_congr fun part => ?_
  constructor
  · rintro ⟨hpart | hforged, hread⟩
    · exact ⟨hread, .inl hpart⟩
    · exact ⟨hread, .inr ⟨redacted_infix_value hread (redacted_of_forged hforged), hforged⟩⟩
  · rintro ⟨hread, hpart | ⟨-, hforged⟩⟩
    · exact ⟨.inl hpart, hread⟩
    · exact ⟨.inr hforged, hread⟩

variable (L rs)

/-- **When the two views of the cookies are redacted alike.** With cookie rules alone they always
are. A header rule that names `Cookie` puts the marker in place of every line and leaves the list
as it is, so that there must be no cookie in clear which no cookie rule touches. Regex rules, too,
reach only the lines, so that no match may touch such a cookie. -/
theorem redact_cookies (find : RegexRule → GoString → List Mark)
    (hfind : ∀ rule ∈ rs.regex, Finds rule.pattern (find rule)) (r : CapturedRequest)
    (hd : Derived r) :
    CookiesProtected U L rs r ↔
      if rs.NamesCookie then ∀ c, ¬Untouched rs r c
      else rs.regex = [] ∨ ∀ c, Untouched rs r c → StandsIn rs find r c := by
  have hlist : ∀ c ∈ r.cookies.getD [], c ∈ lineCookies (r.headers.values cookieHeaderKey) := by
    intro c hc
    rw [hd, Option.getD_some] at hc
    exact lineCookies_of_read hc
  by_cases hh : r.headers = none
  · -- no headers, no cookies
    have huntouched : ∀ c, ¬Untouched rs r c := fun c hc => by
      have := hlist c hc.1
      rw [hh] at this
      cases this
    refine iff_of_true (fun c hc => ?_) ?_
    · have := hlist c hc
      rw [hh] at this
      cases this
    · split_ifs
      · exact huntouched
      · exact .inr fun c hc => absurd hc (huntouched c)
  cases hu : rs.isUnredacted with
  | true =>
    simp only [Ruleset.isUnredacted, Bool.and_eq_true, List.isEmpty_iff] at hu
    obtain ⟨⟨⟨⟨hheaders, -⟩, -⟩, hregex⟩, -⟩ := id hu
    refine iff_of_true (fun c hc _ out hout hgone => ?_) ?_
    · rw [redact.eq_def, if_pos (by simp [Ruleset.isUnredacted, hu])] at hout
      obtain rfl := Record.request.inj hout
      exact absurd (hlist c hc) hgone
    · rw [if_neg (by simp [Ruleset.NamesCookie, hheaders])]
      exact .inl hregex
  | false =>
    obtain ⟨out, hout, hcookies, hlines⟩ := redact_views U L rs hh hu
    -- the property, in terms of what is left of the lines
    have hiff : CookiesProtected U L rs r ↔
        ∀ c, Untouched rs r c → c ∈ lineCookies (out.headers.values cookieHeaderKey) := by
      constructor
      · rintro hp c ⟨hc, hclear, hkeep⟩
        by_contra hgone
        refine hp c hc hclear out hout hgone ?_
        rw [hcookies, mem_redactCookieSlice hclear]
        exact ⟨hc, hkeep⟩
      · intro hp c hc hclear out' hout' hgone hmem
        obtain rfl := Record.request.inj (hout'.symm.trans hout)
        rw [hcookies, mem_redactCookieSlice hclear] at hmem
        exact hgone (hp c ⟨hc, hclear, hmem.2⟩)
    rw [hiff, hlines]
    split_ifs with hn
    · -- nothing can be read from the marker
      refine forall₂_congr fun c _ => iff_of_false (fun hmem => ?_) not_false
      rw [List.map_map, lineCookies, List.mem_flatMap] at hmem
      obtain ⟨line, hline, hc⟩ := hmem
      obtain ⟨l, -, rfl⟩ := List.mem_map.1 hline
      rw [Function.comp_apply, readLine_marker hfind] at hc
      cases hc
    · simp only [mem_lineCookies_iff hfind]
      refine ⟨.inr, fun h => h.elim (fun hregex c hc => ?_) id⟩
      -- without regex rules the cookie stands where the cookie rules left it
      obtain ⟨line, hline, hread⟩ :=
        List.mem_flatMap.1 (lineCookies_keptLines (hlist c hc.1) hc.2.2)
      obtain ⟨part, hpart, hread⟩ := List.mem_filterMap.1 hread
      refine ⟨line, hline, part, hread, .inl ⟨hpart, ?_⟩⟩
      rw [hregex]
      trivial

/-- A pattern that matches the letter `X`. -/
def matchX (s : GoString) : List Mark := s.map fun b => if b = 0x58 then .found [b] else .byte b

/-- The same, compiled. -/
def patternX : Regexp :=
  ⟨fun s _ => s.flatMap fun b => if b = 0x58 then redacted else [b],
    fun s repl => s.flatMap fun b => if b = 0x58 then repl else [b]⟩

theorem finds_patternX : Finds patternX matchX where
  text := fun s => by
    rw [matchX, List.flatMap_map]
    refine (List.flatMap_congr fun b _ => ?_).trans (List.flatMap_singleton' s)
    split_ifs <;> rfl
  replace := fun s => by
    rw [matchX, List.flatMap_map]
    refine List.flatMap_congr fun b _ => ?_
    split_ifs <;> rfl

/-- Strip `s`, and a rule for `X`, which is in that cookie only. -/
theorem redact_cookies_strip :
    CookiesProtected .asciiOnly noLibraries
      ⟨[], [], [], [⟨str "x", patternX⟩], [⟨.strip, [str "s"]⟩]⟩
      { CapturedRequest.blank (str "r") 0 (str "c") with
        headers := some ⟨[(cookieHeaderKey, some [str "s=X; t=2"])], by decide⟩
        cookies := some [⟨str "s", str "X"⟩, ⟨str "t", str "2"⟩] } := by
  refine (redact_cookies .asciiOnly noLibraries _ (fun _ => matchX) ?_ _ (by exact rfl)).2
    (Or.inr ?_)
  · intro rule hrule
    obtain rfl := List.mem_singleton.1 hrule
    exact finds_patternX
  · rintro c ⟨hc, -, hkeep⟩
    have hname : c.name ≠ str "s" := by
      rintro heq
      have := hkeep _ List.mem_cons_self
      rw [heq] at this
      exact absurd this (by decide)
    obtain rfl : c = ⟨str "t", str "2"⟩ := by
      rcases List.mem_cons.1 hc with rfl | hc
      · exact absurd rfl hname
      · exact List.mem_singleton.1 hc
    exact ⟨str "t=2", List.mem_singleton.2 rfl, str "t=2", rfl,
      .inl ⟨by decide, by decide, trivial⟩⟩

/-- A header rule for `cookie` hides the header and leaves the list in clear. -/
theorem redact_cookies_header_rule :
    ¬ CookiesProtected .asciiOnly noLibraries ⟨[str "cookie"], [], [], [], []⟩
      { CapturedRequest.blank (str "r") 0 (str "c") with
        headers := some ⟨[(cookieHeaderKey, some [str "s=1"])], by decide⟩
        cookies := some [⟨str "s", str "1"⟩] } := by
  intro h
  exact h ⟨str "s", str "1"⟩ (by decide) (by decide) _ rfl (by decide) (by decide)

end HttpCatch.Redact

import HttpCatch.Cli.Diff

/-!
# Complete diffs

The operator reads the diff of `httpcatch redact --test` as the list of all that redaction does to
the sample. A line is lost where two entries meet in one place of a map: header keys with the same
canonical form, and cookies with the same name. Which one of the keys is kept depends on the order
of a loop over the map, which Go chooses anew each time, so the diff is complete if it is in all
orders (`Reordered`).

* `diff_complete_iff` — for which samples each change has its line.
* `diff_incomplete` — two samples for which one is missing.
-/

namespace HttpCatch.Cli

open HttpCatch.Go HttpCatch.Capture HttpCatch.SearchQL HttpCatch.Redact HttpCatch.LastWins

/-! ### What redaction leaves -/

section Redacted

variable (U : Unicode) (L : Libraries) (rs : Ruleset)

/-- All rules on one cookie. -/
def cookieFate (rules : List CookieRule) (c : Cookie) : Option Cookie :=
  rules.foldl (fun c rule => c.bind (ruleOnCookie rule)) (some c)

theorem cookieFate_concat (rules : List CookieRule) (rule : CookieRule) (c : Cookie) :
    cookieFate (rules ++ [rule]) c = (cookieFate rules c).bind (ruleOnCookie rule) := by
  simp [cookieFate]

theorem redactCookieSlice_eq (rules : List CookieRule) (cs : List Cookie) :
    redactCookieSlice cs rules = cs.filterMap (cookieFate rules) := by
  induction rules using List.reverseRecOn with
  | nil => exact List.filterMap_some.symm
  | append_singleton rules rule ih =>
    rw [redactCookieSlice] at ih
    rw [redactCookieSlice, List.foldl_append, ih, List.foldl_cons, List.foldl_nil,
      List.filterMap_filterMap]
    exact List.filterMap_congr fun c _ => (cookieFate_concat rules rule c).symm

/-- The rules treat all cookies of a name alike. -/
theorem cookieFate_cases (rules : List CookieRule) (name : GoString) :
    (∀ v, cookieFate rules ⟨name, v⟩ = none) ∨
      (∀ v, cookieFate rules ⟨name, v⟩ = some ⟨name, v⟩) ∨
      ∀ v, cookieFate rules ⟨name, v⟩ = some ⟨name, redacted⟩ := by
  induction rules using List.reverseRecOn with
  | nil => exact .inr (.inl fun _ => rfl)
  | append_singleton rules rule ih =>
    simp only [cookieFate_concat]
    rcases ih with h | h | h
    · exact .inl fun v => by rw [h]; rfl
    · simp only [h, Option.bind_some, ruleOnCookie]
      cases rule.verdict name with
      | keep => exact .inr (.inl fun _ => rfl)
      | replace => exact .inr (.inr fun _ => rfl)
      | drop => exact .inl fun _ => rfl
    · simp only [h, Option.bind_some, ruleOnCookie]
      cases rule.verdict name with
      | keep => exact .inr (.inr fun _ => rfl)
      | replace => exact .inr (.inr fun _ => rfl)
      | drop => exact .inl fun _ => rfl

/-- What becomes of a cookie of a sample. Without headers the cookie rules are not applied. -/
def cookieAfter (r : CapturedRequest) (c : Cookie) : Option Cookie :=
  if rs.isUnredacted ∨ r.headers = none then some c else cookieFate rs.cookies c

theorem cookieAfter_cases (r : CapturedRequest) (name : GoString) :
    (∀ v, cookieAfter rs r ⟨name, v⟩ = none) ∨
      (∀ v, cookieAfter rs r ⟨name, v⟩ = some ⟨name, v⟩) ∨
      ∀ v, cookieAfter rs r ⟨name, v⟩ = some ⟨name, redacted⟩ := by
  simp only [cookieAfter]
  split_ifs
  · exact .inr (.inl fun _ => rfl)
  · exact cookieFate_cases rs.cookies name

theorem redactRequest_cookies (r : CapturedRequest) :
    (redactRequest U L rs r).cookies.getD [] =
      (r.cookies.getD []).filterMap (cookieAfter rs r) := by
  have hkeep : rs.isUnredacted ∨ r.headers = none → cookieAfter rs r = some := fun h => by
    funext c
    rw [cookieAfter, if_pos h]
  rw [redactRequest]
  by_cases hall : rs.isUnredacted = true
  · rw [if_pos hall, hkeep (.inl hall), List.filterMap_some]
  rw [if_neg hall, redactCapturedRequest_eq]
  by_cases hheaders : r.headers = none
  · rw [hkeep (.inr hheaders), List.filterMap_some]
    simp [applyCookieRules, shallowCopyCapturedRequest, copyStringSliceMap, hheaders]
  · have hfate : cookieAfter rs r = cookieFate rs.cookies := by
      funext c
      simp [cookieAfter, hall, hheaders]
    rw [hfate, ← redactCookieSlice_eq]
    refine getD_applyCookieRules (r := shallowCopyCapturedRequest r) ?_ rs.cookies
    simpa [shallowCopyCapturedRequest, copyStringSliceMap] using hheaders

/-! ### Keys -/

variable {h h' h'' : Headers}

theorem KeysOf.refl (h : Headers) : KeysOf h h := fun kv hkv => ⟨kv, hkv, rfl⟩

theorem KeysOf.trans (h₁ : KeysOf h h') (h₂ : KeysOf h' h'') : KeysOf h h'' := by
  intro kv hkv
  obtain ⟨kv', hkv', heq⟩ := h₂ kv hkv
  obtain ⟨kv'', hkv'', heq'⟩ := h₁ kv' hkv'
  exact ⟨kv'', hkv'', heq'.trans heq⟩

/-- An edit of the slices leaves the keys as they are. -/
theorem keysOf_mapSlices (f : GoString → Option (List GoString) → Option (List GoString))
    (h : Headers) : KeysOf h (h.map (mapSlices f)) ∧ KeysOf (h.map (mapSlices f)) h := by
  cases h with
  | none => exact ⟨KeysOf.refl none, KeysOf.refl none⟩
  | some m =>
    constructor
    · intro kv hkv
      obtain ⟨kv', hkv', rfl⟩ := List.mem_map.1 hkv
      exact ⟨kv', hkv', rfl⟩
    · intro kv hkv
      exact ⟨_, List.mem_map_of_mem hkv, rfl⟩

theorem keysOf_applyCookieRulesToHeaders (h : Headers) (rules : List CookieRule) :
    KeysOf h (applyCookieRulesToHeaders h rules) := by
  cases h with
  | none =>
    rw [applyCookieRulesToHeaders]
    split_ifs <;> exact KeysOf.refl none
  | some m =>
    rw [applyCookieRulesToHeaders_eq]
    intro kv hkv
    obtain ⟨kv', hkv', hf⟩ := List.mem_filterMap.1 hkv
    obtain ⟨vs, -, rfl⟩ := Option.map_eq_some_iff.1 hf
    exact ⟨kv', hkv', rfl⟩

theorem keysOf_applyRegexRulesHeaderMap (h : Headers) (rules : List RegexRule) :
    KeysOf h (applyRegexRulesHeaderMap h rules) := by
  rw [applyRegexRulesHeaderMap]
  split_ifs
  · exact KeysOf.refl h
  · exact (keysOf_mapSlices _ h).1

/-- The rules add no key to the headers. -/
theorem keysOf_redact_headers (r : CapturedRequest) :
    KeysOf (cloneRecord r).headers (redactRequest U L rs r).headers := by
  rw [redactRequest]
  split_ifs
  · exact (keysOf_mapSlices _ r.headers).2
  · rw [redactCapturedRequest_eq]
    exact ((keysOf_applyCookieRulesToHeaders _ _).trans (keysOf_mapSlices _ _).1).trans
      (keysOf_applyRegexRulesHeaderMap _ _)

/-- They add no key to the query. -/
theorem keysOf_redact_query (r : CapturedRequest) :
    KeysOf (cloneRecord r).query (redactRequest U L rs r).query := by
  rw [redactRequest]
  split_ifs
  · exact (keysOf_mapSlices _ r.query).2
  · rw [redactCapturedRequest_eq]
    exact (keysOf_mapSlices _ _).1.trans (keysOf_mapSlices _ _).1

end Redacted

/-! ### Complete diffs -/

section Complete

variable (isPrint : GoString → Bool) (U : Unicode) (L : Libraries) (rs : Ruleset)

/-- The same record, its maps in an order that a loop may visit them in. -/
structure Reordered (r r' : CapturedRequest) : Prop where
  headers : r.headers.entries.Perm r'.headers.entries
  query : r.query.entries.Perm r'.query.entries
  path : r'.path = r.path
  cookies : r'.cookies = r.cookies
  body : r'.body = r.body

/-- The values under a key are others afterwards, or the key is gone. -/
def Changed (vals : Option (List GoString)) (after : Option (Option (List GoString))) : Prop :=
  after.map (·.getD []) ≠ some (vals.getD [])

/-- The line of a key with its own values. -/
def ownEntry (section_ : GoString) (mask : Bool) (key : GoString) (vals : Option (List GoString))
    (after : Option (Option (List GoString))) : DiffEntry :=
  ⟨section_ ++ str "." ++ key, formatSliceSide isPrint (some (key, vals)) addedMarker mask,
    formatSliceSide isPrint (after.map (key, ·)) removedMarker false⟩

/-- The line of a cookie with its own value. -/
def ownCookieEntry (mask : Bool) (c : Cookie) (after : Option Cookie) : DiffEntry :=
  ⟨str "cookies." ++ c.name, shownValue mask c.value, (after.map Cookie.value).getD removedMarker⟩

/-- Each change of a map has its line. -/
def MapReported (section_ : GoString) (mask : Bool) (before after : Headers)
    (entries : List DiffEntry) : Prop :=
  ∀ key vals, before.get? key = some vals → Changed vals (after.get? key) →
    ownEntry isPrint section_ mask key vals (after.get? key) ∈ entries

/-- Each change of the sample has its line, and so there is none only if nothing changed. -/
structure Complete (r : CapturedRequest) (mask : Bool) (entries : List DiffEntry) : Prop where
  headers : MapReported isPrint (str "headers") mask (cloneRecord r).headers
    (redactRequest U L rs r).headers entries
  query : MapReported isPrint (str "query") mask (cloneRecord r).query
    (redactRequest U L rs r).query entries
  cookies : ∀ c ∈ r.cookies.getD [], cookieAfter rs r c ≠ some c →
    ownCookieEntry mask c (cookieAfter rs r c) ∈ entries
  body : r.body.getD [] ≠ (redactRequest U L rs r).body.getD [] →
    ⟨str "body", bodySize r.body, bodySize (redactRequest U L rs r).body⟩ ∈ entries
  noChanges : renderDiff entries = str "no changes\n" →
    (∀ key vals, (cloneRecord r).headers.get? key = some vals →
      ¬ Changed vals ((redactRequest U L rs r).headers.get? key)) ∧
    (∀ key vals, (cloneRecord r).query.get? key = some vals →
      ¬ Changed vals ((redactRequest U L rs r).query.get? key)) ∧
    (∀ c ∈ r.cookies.getD [], cookieAfter rs r c = some c) ∧
    r.body.getD [] = (redactRequest U L rs r).body.getD []

/-- A header key that redaction changes is the only one with its canonical form. -/
def HeadersApart (r : CapturedRequest) : Prop :=
  ∀ key vals, (cloneRecord r).headers.get? key = some vals →
    Changed vals ((redactRequest U L rs r).headers.get? key) →
    ∀ kv ∈ (cloneRecord r).headers.entries,
      canonicalMIMEHeaderKey kv.1 = canonicalMIMEHeaderKey key → kv.1 = key

/-- The last cookie with the name of a cookie that redaction changes is shown in the same way, and
is changed itself. -/
def CookiesApart (r : CapturedRequest) (mask : Bool) : Prop :=
  ∀ c ∈ r.cookies.getD [], cookieAfter rs r c ≠ some c →
    ∀ l, lastOf Cookie.name (r.cookies.getD []) c.name = some l →
      shownValue mask l.value = shownValue mask c.value ∧ cookieAfter rs r l ≠ some l

variable {isPrint U L rs} {section_ : GoString} {before after before' after' : Headers}
  {norm : GoString → GoString} {mask : Bool} {key : GoString} {vals : Option (List GoString)}

variable {h : Headers} {r : CapturedRequest}

theorem get?_of_mem {kv : Entry} (hkv : kv ∈ h.entries) : h.get? kv.1 = some kv.2 := by
  cases h with
  | none => cases hkv
  | some m => exact lookup_of_mem hkv

theorem KeysOf.perm (h : KeysOf before after) (hb : before.entries.Perm before'.entries)
    (ha : after.entries.Perm after'.entries) : KeysOf before' after' := by
  intro kv hkv
  obtain ⟨kv', hkv', heq⟩ := h kv (ha.mem_iff.2 hkv)
  exact ⟨kv', hb.mem_iff.1 hkv', heq⟩

/-- A key that is alone with its normal form is what a loop leaves for it, in all orders. -/
theorem lastOf_of_alone {h' : Headers} (hperm : h.entries.Perm h'.entries)
    (halone : ∀ kv ∈ h.entries, norm kv.1 = norm key → kv.1 = key) :
    lastOf (fun kv => norm kv.1) h'.entries (norm key) = (h.get? key).map (key, ·) := by
  have hvalue : ∀ kv ∈ h'.entries, norm kv.1 = norm key → kv.1 = key ∧ h.get? key = some kv.2 := by
    intro kv hkv hnorm
    have hmem := hperm.mem_iff.2 hkv
    obtain rfl := halone kv hmem hnorm
    exact ⟨rfl, get?_of_mem hmem⟩
  cases hget : h.get? key with
  | none =>
    refine lastOf_eq_none.2 fun kv hkv hnorm => ?_
    have hval := (hvalue kv hkv hnorm).2
    rw [hget] at hval
    cases hval
  | some vals =>
    refine lastOf_of_unique (fun kv : Entry => norm kv.1) (a := (key, vals))
      (hperm.mem_iff.1 (mem_of_lookup hget)) fun kv hkv hnorm => ?_
    obtain ⟨hkey, hval⟩ := hvalue kv hkv hnorm
    rw [hget] at hval
    exact Prod.ext hkey (Option.some.inj hval).symm

/-- A changed key that is alone with its normal form has its own line, in all orders. -/
theorem ownEntry_mem (hb : before.entries.Perm before'.entries)
    (ha : after.entries.Perm after'.entries) (hkeys : KeysOf before after)
    (hget : before.get? key = some vals) (hchanged : Changed vals (after.get? key))
    (halone : ∀ kv ∈ before.entries, norm kv.1 = norm key → kv.1 = key) :
    ownEntry isPrint section_ mask key vals (after.get? key) ∈
      diffStringSliceMap isPrint section_ before' after' norm mask := by
  have halone' : ∀ kv ∈ after.entries, norm kv.1 = norm key → kv.1 = key := by
    intro kv hkv hnorm
    obtain ⟨kv', hkv', heq⟩ := hkeys kv hkv
    rw [← heq]
    exact halone kv' hkv' (by rw [heq, hnorm])
  have hleft := lastOf_of_alone hb halone
  rw [hget] at hleft
  refine (mem_diffStringSliceMap (hkeys.perm hb ha)).2 ⟨(key, vals), hleft, ?_⟩
  rw [lastOf_of_alone ha halone']
  have hsame : (Pair.mk (some (key, vals)) ((after.get? key).map (key, ·))).same = false := by
    rw [Changed] at hchanged
    cases hafter : after.get? key with
    | none => rfl
    | some vals' =>
      rw [hafter] at hchanged
      simpa [Pair.same] using fun h => hchanged (congrArg some h.symm)
  have hdisplay : (Pair.mk (some (key, vals)) ((after.get? key).map (key, ·))).display = key := by
    simp only [Pair.display, Option.map_some, Option.getD_some]
    split_ifs with hkey
    · subst hkey
      cases after.get? [] <;> rfl
    · rfl
  rw [pairEntry, hsame, hdisplay]
  rfl

/-- A line with the path of a key is that of the last entry with its normal form. -/
theorem lastOf_of_path {e : DiffEntry} (hempty : ∀ k, norm k = norm [] → k = [])
    (hkeys : KeysOf before after)
    (h : e ∈ diffStringSliceMap isPrint section_ before after norm mask)
    (hpath : e.path = section_ ++ str "." ++ key) :
    ∃ kv, kv.1 = key ∧ lastOf (fun kv => norm kv.1) before.entries (norm key) = some kv := by
  obtain ⟨kv, hlast, he⟩ := (mem_diffStringSliceMap hkeys).1 h
  have hdisplay := List.append_cancel_left (hpath.symm.trans (path_of_pairEntry he))
  simp only [Pair.display, Option.map_some, Option.getD_some] at hdisplay
  split_ifs at hdisplay with hkv
  · cases hright : lastOf (fun kv => norm kv.1) after.entries (norm kv.1) with
    | none =>
      rw [hright] at hdisplay
      obtain rfl : key = [] := hdisplay
      exact ⟨kv, hkv, by rwa [hkv] at hlast⟩
    | some kv' =>
      -- the other side has the same normal form, and only the empty key has that of the empty key
      have hnil := hempty kv'.1 ((mem_of_lastOf hright).2.trans (by rw [hkv]))
      rw [hright] at hdisplay
      obtain rfl : key = [] := hdisplay.trans hnil
      exact ⟨kv, hkv, by rwa [hkv] at hlast⟩
  · exact ⟨kv, hdisplay.symm, by rwa [← hdisplay] at hlast⟩

theorem canonicalMIMEHeaderKey_eq_nil {k : GoString}
    (h : canonicalMIMEHeaderKey k = canonicalMIMEHeaderKey []) : k = [] := by
  have hlen : ∀ upper (s : GoString), (canonicalFrom upper s).length = s.length := by
    intro upper s
    induction s generalizing upper with
    | nil => rfl
    | cons c s ih => rw [canonicalFrom, List.length_cons, ih, List.length_cons]
  rw [canonicalMIMEHeaderKey] at h
  split_ifs at h
  · rw [← List.length_eq_zero_iff, ← hlen true, h]
    rfl
  · exact h

/-- Cookies of one name end up with the same text, if both are changed. -/
theorem cookieAfter_text {c l : Cookie} (hname : l.name = c.name)
    (hc : cookieAfter rs r c ≠ some c) (hl : cookieAfter rs r l ≠ some l) :
    (cookieAfter rs r l).map Cookie.value = (cookieAfter rs r c).map Cookie.value := by
  obtain ⟨n, v⟩ := c
  obtain ⟨m, w⟩ := l
  obtain rfl : m = n := hname
  rcases cookieAfter_cases rs r m with h | h | h
  · rw [h, h]
  · exact absurd (h v) hc
  · rw [h, h]

theorem name_cookieAfter (c c' : Cookie) (h : cookieAfter rs r c = some c') : c'.name = c.name := by
  obtain ⟨n, v⟩ := c
  rcases cookieAfter_cases rs r n with hn | hn | hn <;> rw [hn] at h
  · cases h
  · rw [← Option.some.inj h]
  · rw [← Option.some.inj h]

theorem cookieAfter_eq_none (c c' : Cookie) (hname : c.name = c'.name)
    (h : cookieAfter rs r c = none) : cookieAfter rs r c' = none := by
  obtain ⟨n, v⟩ := c
  obtain ⟨m, w⟩ := c'
  obtain rfl : n = m := hname
  rcases cookieAfter_cases rs r n with hn | hn | hn
  · exact hn w
  · rw [hn] at h
    cases h
  · rw [hn] at h
    cases h

/-- The two maps hold the same value for a name if the last cookie is not changed. -/
theorem sameCookie_iff {l : Cookie} :
    sameCookie (some l) (cookieAfter rs r l) = true ↔ cookieAfter rs r l = some l := by
  cases h : cookieAfter rs r l with
  | none => simp [sameCookie]
  | some l' =>
    have hname := name_cookieAfter l l' h
    obtain ⟨n, v⟩ := l
    obtain ⟨m, w⟩ := l'
    obtain rfl : m = n := hname
    simp [sameCookie, eq_comm]

/-- The line of a changed cookie is there if and only if the last cookie of its name gives it. -/
theorem ownCookieEntry_mem {c : Cookie} (hc : c ∈ r.cookies.getD [])
    (hchanged : cookieAfter rs r c ≠ some c) :
    ownCookieEntry mask c (cookieAfter rs r c) ∈
        diffCookieSlice (r.cookies.getD []) ((r.cookies.getD []).filterMap (cookieAfter rs r))
          mask ↔
      ∀ l, lastOf Cookie.name (r.cookies.getD []) c.name = some l →
        shownValue mask l.value = shownValue mask c.value ∧ cookieAfter rs r l ≠ some l := by
  rw [mem_diffCookieSlice name_cookieAfter cookieAfter_eq_none]
  constructor
  · rintro ⟨l', hl', he⟩ l hl
    have hpath := path_of_cookieEntry he
    have hname : c.name = l'.name := List.append_cancel_left hpath
    rw [← hname, hl] at hl'
    obtain rfl := Option.some.inj hl'
    rw [cookieEntry] at he
    split_ifs at he with hsame
    have hshown := congrArg DiffEntry.before (Option.some.inj he)
    exact ⟨hshown, fun h => hsame (sameCookie_iff.2 h)⟩
  · intro h
    obtain ⟨l, hl⟩ := exists_lastOf Cookie.name hc
    obtain ⟨hshown, hlast⟩ := h l hl
    have hname := (mem_of_lastOf hl).2
    refine ⟨l, by rw [hname, hl], ?_⟩
    rw [cookieEntry, if_neg (mt sameCookie_iff.1 hlast), cookieAfter_text hname hchanged hlast,
      Option.map_some, Option.getD_some, hshown, hname, ownCookieEntry]

/-- A loop may visit any entry last. -/
theorem exists_order_last {kv : Entry} (hkv : kv ∈ h.entries) :
    ∃ h' : Headers, h.entries.Perm h'.entries ∧ ∃ l, h'.entries = l ++ [kv] := by
  cases h with
  | none => cases hkv
  | some m =>
    have hperm : m.entries.Perm (m.entries.erase kv ++ [kv]) :=
      (List.perm_cons_erase hkv).trans (List.perm_append_singleton kv _).symm
    exact ⟨some ⟨_, (hperm.map Prod.fst).nodup_iff.1 m.nodup⟩, hperm, _, rfl⟩

/-- **Which samples have a complete diff.** In all orders of the maps, each change has its line
with its own values if and only if the changed header keys are apart in their canonical forms and
the changed cookies are not hidden by the last one of their name. -/
theorem diff_complete_iff (r : CapturedRequest) (mask : Bool) :
    (∀ before after, Reordered (cloneRecord r) before → Reordered (redactRequest U L rs r) after →
        Complete isPrint U L rs r mask (diffRecords isPrint before after mask)) ↔
      HeadersApart U L rs r ∧ CookiesApart rs r mask := by
  have hself : ∀ r : CapturedRequest, Reordered r r := fun r => ⟨.rfl, .rfl, rfl, rfl, rfl⟩
  constructor
  · intro h
    constructor
    · -- a loop may visit the other key last
      intro key vals hget hchanged kv hkv hcanon
      obtain ⟨headers, hperm, l, hl⟩ := exists_order_last hkv
      have hmem := (h { cloneRecord r with headers := headers } _ ⟨hperm, .rfl, rfl, rfl, rfl⟩
        (hself _)).headers key vals hget hchanged
      obtain ⟨kv', hkey, hlast⟩ := lastOf_of_path (fun _ => canonicalMIMEHeaderKey_eq_nil)
        ((keysOf_redact_headers U L rs r).perm hperm .rfl) ((mem_section hmem).1 rfl) rfl
      rw [hl, lastOf_concat, if_pos hcanon] at hlast
      rw [Option.some.inj hlast, hkey]
    · intro c hc hchanged
      have hmem := (h _ _ (hself _) (hself _)).cookies c hc hchanged
      rw [← ownCookieEntry_mem hc hchanged, ← redactRequest_cookies U L rs r]
      exact (mem_section hmem).2.2.1 rfl
  · rintro ⟨hheaders, hcookies⟩ before after hb ha
    have hheaders' : MapReported isPrint (str "headers") mask (cloneRecord r).headers
        (redactRequest U L rs r).headers (diffRecords isPrint before after mask) :=
      fun key vals hget hchanged => mem_diffRecords.2 (.inr (.inl (ownEntry_mem hb.headers
        ha.headers (keysOf_redact_headers U L rs r) hget hchanged
        (hheaders key vals hget hchanged))))
    have hquery : MapReported isPrint (str "query") mask (cloneRecord r).query
        (redactRequest U L rs r).query (diffRecords isPrint before after mask) :=
      fun key vals hget hchanged => mem_diffRecords.2 (.inr (.inr (.inl (ownEntry_mem hb.query
        ha.query (keysOf_redact_query U L rs r) hget hchanged fun _ _ heq => heq))))
    have hcookies' : ∀ c ∈ r.cookies.getD [], cookieAfter rs r c ≠ some c →
        ownCookieEntry mask c (cookieAfter rs r c) ∈ diffRecords isPrint before after mask := by
      intro c hc hchanged
      refine mem_diffRecords.2 (.inr (.inr (.inr (.inl ?_))))
      rw [hb.cookies, ha.cookies, redactRequest_cookies]
      exact (ownCookieEntry_mem hc hchanged).2 (hcookies c hc hchanged)
    have hbody : r.body.getD [] ≠ (redactRequest U L rs r).body.getD [] →
        ⟨str "body", bodySize r.body, bodySize (redactRequest U L rs r).body⟩ ∈
          diffRecords isPrint before after mask := by
      intro hne
      refine mem_diffRecords.2 (.inr (.inr (.inr (.inr ?_))))
      rw [hb.body, ha.body]
      exact ⟨hne, rfl⟩
    refine ⟨hheaders', hquery, hcookies', hbody, fun hnone => ?_⟩
    -- any change would have left a line
    have hempty := renderDiff_noChanges hnone
    rw [hempty] at hheaders' hquery hcookies' hbody
    refine ⟨fun key vals hget hchanged => ?_, fun key vals hget hchanged => ?_, fun c hc => ?_, ?_⟩
    · exact List.not_mem_nil (hheaders' key vals hget hchanged)
    · exact List.not_mem_nil (hquery key vals hget hchanged)
    · by_contra hchanged
      exact List.not_mem_nil (hcookies' c hc hchanged)
    · by_contra hne
      exact List.not_mem_nil (hbody hne)

end Complete

/-- A sample with headers and cookies only. -/
def sample (headers : List Entry) (nodup : (headers.map Prod.fst).Nodup) (cookies : List Cookie) :
    CapturedRequest :=
  { CapturedRequest.blank [] 0 [] with
    headers := some ⟨headers, nodup⟩
    cookies := some cookies }

/-- Two spellings of a header key, of which one line is left, and two cookies of one name, the
last of which is redacted already: nothing is said to change. -/
theorem diff_incomplete :
    let rs : Ruleset := ⟨[str "authorization"], [], [], [], []⟩
    let r := sample [(str "Authorization", some [str "a"]), (str "authorization", some [str "bb"])]
      (by decide) []
    let rs' : Ruleset := ⟨[], [], [], [], [⟨.redact, [str "s"]⟩]⟩
    let r' := sample [] (by decide) [⟨str "s", str "1"⟩, ⟨str "s", redacted⟩]
    ((redactRequest .asciiOnly noLibraries rs r).headers.get? (str "Authorization") =
          some (some [redacted]) ∧
        renderDiff (diffRecords (fun _ => true) (cloneRecord r)
          (redactRequest .asciiOnly noLibraries rs r) true) =
            str "headers.authorization: <masked: 2 chars> -> \"[REDACTED]\"\n") ∧
      ((redactRequest .asciiOnly noLibraries rs' r').cookies =
          some [⟨str "s", redacted⟩, ⟨str "s", redacted⟩] ∧
        renderDiff (diffRecords (fun _ => true) (cloneRecord r')
          (redactRequest .asciiOnly noLibraries rs' r') true) = str "no changes\n") := by
  decide +kernel

end HttpCatch.Cli

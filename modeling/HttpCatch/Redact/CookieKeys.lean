import HttpCatch.Redact.CookieLines

/-!
# Cookie headers under several keys

The header map of a captured request has canonical keys. That of an event has the keys its client
has sent, and several of them may be spellings of `Cookie` or `Set-Cookie`. `findHeaderKey` picks
one: the canonical spelling, or else whichever comes first in the iteration over the map.

## Main results

* `cookie_rules_reach_iff`: when the cookie rules are applied under all of the keys, whatever the
  order of the iteration.
-/

namespace HttpCatch.Redact

open HttpCatch.Go HttpCatch.Capture HttpCatch.SearchQL

/-! ### Headers that the rules leave as they are -/

/-- No rule has anything to do on a cookie: it has no name, or no rule drops it and there is nothing
to replace. -/
def TokenSettled (rules : List CookieRule) (t : GoString) : Prop :=
  cookieName t = [] ∨ (∀ rule ∈ rules, rule.verdict (cookieName t) ≠ .drop) ∧
    ((∃ rule ∈ rules, rule.verdict (cookieName t) = .replace) →
      0x3D ∉ t ∨ before (afterByte t 0x3D) 0x3B = redacted)

/-- No rule has anything to do on a line of the `Cookie` header, and no blank is before it. -/
def LineSettled (rules : List CookieRule) (line : GoString) : Prop :=
  (∀ seg ∈ split line 0x3B, TokenSettled rules seg) ∧ trimLeft line blanks = line

/-- The same for the values of a `Cookie` header; they must not all be empty. -/
def CookieSettled (rules : List CookieRule) (vs : Option (List GoString)) : Prop :=
  ∃ lines, vs = some lines ∧ (∃ line ∈ lines, line ≠ []) ∧ ∀ line ∈ lines, LineSettled rules line

/-- The same for the values of a `Set-Cookie` header. -/
def SetCookieSettled (rules : List CookieRule) (vs : Option (List GoString)) : Prop :=
  ∃ entries, vs = some entries ∧ entries ≠ [] ∧ ∀ v ∈ entries, TokenSettled rules v

section

variable {rules : List CookieRule}

theorem rulesOnToken_eq_self_iff {t : GoString} :
    rulesOnToken rules t = some t ↔ TokenSettled rules t := by
  rw [rulesOnToken, TokenSettled, ← replaceCookieValue_eq_self_iff]
  split_ifs with hname hdrop hreplace
  · exact iff_of_true rfl (Or.inl hname)
  · obtain ⟨rule, hr, hv⟩ := hdrop
    exact iff_of_false not_false (not_or.2 ⟨hname, fun h => h.1 rule hr hv⟩)
  · have hkeep : ∀ rule ∈ rules, rule.verdict (cookieName t) ≠ .drop :=
      fun rule hr hv => hdrop ⟨rule, hr, hv⟩
    rw [Option.some.injEq, or_iff_right hname]
    exact ⟨fun h => ⟨hkeep, fun _ => h⟩, fun h => h.2 hreplace⟩
  · have hkeep : ∀ rule ∈ rules, rule.verdict (cookieName t) ≠ .drop :=
      fun rule hr hv => hdrop ⟨rule, hr, hv⟩
    exact iff_of_true rfl (Or.inr ⟨hkeep, fun h => absurd h hreplace⟩)

/-- A list from which `filterMap` takes nothing is mapped element by element. -/
theorem map_of_length_filterMap {α β : Type} {f : α → Option β} {l : List α}
    (h : (l.filterMap f).length = l.length) : l.map f = (l.filterMap f).map some := by
  induction l with
  | nil => rfl
  | cons a l ih =>
    cases ha : f a with
    | none =>
      rw [List.filterMap_cons_none ha, List.length_cons] at h
      have := List.length_filterMap_le f l
      omega
    | some b =>
      rw [List.filterMap_cons_some ha, List.length_cons, List.length_cons] at h
      rw [List.filterMap_cons_some ha, List.map_cons, List.map_cons, ha, ih (Nat.succ.inj h)]

theorem filterMap_eq_self_iff {α : Type} {f : α → Option α} {l : List α} :
    l.filterMap f = l ↔ ∀ a ∈ l, f a = some a := by
  constructor
  · intro h a ha
    have hmap := map_of_length_filterMap (congrArg List.length h)
    rw [h] at hmap
    exact List.map_inj_left.1 hmap a ha
  · intro h
    rw [List.filterMap_congr h, List.filterMap_some]

/-- Trimming the first part of a line trims the line. -/
theorem join_trimLeft (p : GoString) (ps : List GoString) :
    join (trimLeft p blanks :: ps) 0x3B = trimLeft (join (p :: ps) 0x3B) blanks := by
  cases ps with
  | nil => simp [join]
  | cons q qs =>
    have hcons : ∀ p, join (p :: q :: qs) 0x3B = p ++ 0x3B :: join (q :: qs) 0x3B := by
      intro p
      simp [join]
    rw [hcons, hcons, trimLeft_append_cons _ _ semicolon_not_blank]

theorem join_split (s : GoString) (sep : UInt8) : join (split s sep) sep = s :=
  List.intercalate_splitOn sep

theorem editLine_eq_self_iff {line : GoString} :
    editLine rules line = line ↔ LineSettled rules line := by
  obtain ⟨p, ps, hsplit⟩ := List.exists_cons_of_ne_nil (split_ne_nil line 0x3B)
  have hjoin : join (p :: ps) 0x3B = line := by rw [← hsplit, join_split]
  constructor
  · intro h
    -- no part is dropped, and only the first could have lost blanks
    cases hparts : (split line 0x3B).filterMap (rulesOnToken rules) with
    | nil =>
      rw [editLine, hparts] at h
      obtain rfl : [] = line := h
      rw [split_empty, List.filterMap_cons,
        rulesOnToken_of_nameless cookieName_nil] at hparts
      cases hparts
    | cons q qs =>
      have hsame := split_editLine hparts
      rw [h, hsplit, List.cons.injEq] at hsame
      obtain ⟨rfl, rfl⟩ := hsame
      rw [hsplit] at hparts
      have hmap := map_of_length_filterMap (f := rulesOnToken rules) (l := trimLeft q blanks :: ps)
        (by rw [hparts]; rfl)
      rw [hparts, List.map_cons, List.map_cons, List.cons.injEq, rulesOnToken_trimLeft] at hmap
      obtain ⟨hfirst, hrest⟩ := hmap
      obtain ⟨q', -, hq⟩ := Option.map_eq_some_iff.1 hfirst
      have htrim : trimLeft q blanks = q := by rw [← hq, trimLeft_trimLeft]
      rw [← rulesOnToken_trimLeft, htrim] at hfirst
      refine ⟨?_, ?_⟩
      · rw [hsplit, htrim]
        refine List.forall_mem_cons.2 ⟨rulesOnToken_eq_self_iff.1 hfirst, fun seg hseg => ?_⟩
        exact rulesOnToken_eq_self_iff.1 (List.map_inj_left.1 hrest seg hseg)
      · rw [← hjoin, ← join_trimLeft, trimLeft_trimLeft]
  · rintro ⟨hsettled, htrim⟩
    have hparts : (split line 0x3B).filterMap (rulesOnToken rules) = split line 0x3B :=
      filterMap_eq_self_iff.2 fun seg hseg => rulesOnToken_eq_self_iff.2 (hsettled seg hseg)
    rw [editLine, hparts, hsplit, joinCookieParts, join_trimLeft, hjoin, htrim]

theorem stepAll_cookie_eq_self_iff (hne : rules ≠ []) {vs : Option (List GoString)} :
    stepAll cookieStep rules vs = some vs ↔ CookieSettled rules vs := by
  have hlines : ∀ lines : List GoString, lines.map (editLine rules) = lines ↔
      ∀ line ∈ lines, LineSettled rules line := by
    intro lines
    conv_lhs => rhs; rw [← List.map_id lines]
    rw [List.map_inj_left]
    exact forall₂_congr fun line _ => editLine_eq_self_iff
  rw [stepAll_cookie rules hne, cookieOutcome]
  constructor
  · intro h
    split_ifs at h with hempty
    cases vs with
    | none => cases h
    | some lines =>
      have hself : lines.map (editLine rules) = lines := Option.some.inj (Option.some.inj h)
      rw [Option.getD_some, hself, allEmpty_iff] at hempty
      push Not at hempty
      exact ⟨lines, rfl, hempty, (hlines lines).1 hself⟩
  · rintro ⟨lines, rfl, ⟨line, hline, hne⟩, hsettled⟩
    rw [Option.getD_some, (hlines lines).2 hsettled, if_neg]
    rw [allEmpty_iff]
    exact fun h => hne (h line hline)

theorem stepAll_setCookie_eq_self_iff (hne : rules ≠ []) {vs : Option (List GoString)} :
    stepAll setCookieStep rules vs = some vs ↔ SetCookieSettled rules vs := by
  have hentries : ∀ entries : List GoString, entries.filterMap (rulesOnToken rules) = entries ↔
      ∀ v ∈ entries, TokenSettled rules v := by
    intro entries
    rw [filterMap_eq_self_iff]
    exact forall₂_congr fun v _ => rulesOnToken_eq_self_iff
  rw [stepAll_setCookie rules hne, setCookieOutcome]
  constructor
  · intro h
    split_ifs at h with hempty
    cases vs with
    | none => cases h
    | some entries =>
      have hself : entries.filterMap (rulesOnToken rules) = entries :=
        Option.some.inj (Option.some.inj h)
      rw [Option.getD_some, hself] at hempty
      exact ⟨entries, rfl, hempty, (hentries entries).1 hself⟩
  · rintro ⟨entries, rfl, hne, hsettled⟩
    rw [Option.getD_some, (hentries entries).2 hsettled, if_neg hne]

end

/-! ### Applying the rules under every key -/

/-- What the rules are to make of an entry of the map. -/
def everywhereAt (rules : List CookieRule) (k : GoString) (vs : Option (List GoString)) :
    Option (Option (List GoString)) :=
  if canonicalMIMEHeaderKey k = cookieHeaderKey then stepAll cookieStep rules vs
  else if canonicalMIMEHeaderKey k = setCookieHeaderKey then stepAll setCookieStep rules vs
  else some vs

/-- **The rules reach every cookie header**, in whatever order the entries of the map are
visited. -/
def ReachesAll (rules : List CookieRule) (m : StringMap) : Prop :=
  ∀ m' : StringMap, m'.entries.Perm m.entries →
    ∃ out, applyCookieRulesToHeaders (some m') rules = some out ∧
      out.entries.Perm (mapEntries (everywhereAt rules) m).entries

/-- A key that is sure to be picked: the canonical one, or the only spelling of it. -/
def SurelyPicked (m : StringMap) (canonical k : GoString) : Prop :=
  k = canonical ∨
    ∀ k' ∈ m.entries.map Prod.fst, canonicalMIMEHeaderKey k' = canonical → k' = k

section

variable {rules : List CookieRule} {m m' : StringMap} {canonical : GoString}

variable {k : GoString} {kv : GoString × Option (List GoString)}

theorem findHeaderKey_of_surelyPicked (hk : k ∈ m.entries.map Prod.fst)
    (hspell : canonicalMIMEHeaderKey k = canonical)
    (hcanon : canonicalMIMEHeaderKey canonical = canonical) (h : SurelyPicked m canonical k) :
    findHeaderKey m canonical = some k := by
  rcases h with rfl | honly
  · exact findHeaderKey_of_mem hk
  cases hfind : findHeaderKey m canonical with
  | none =>
    -- the search would have stopped at `k`
    rw [findHeaderKey] at hfind
    split_ifs at hfind
    have := List.find?_eq_none.1 hfind k hk
    simp [hspell] at this
  | some k' =>
    obtain ⟨hk', hspell'⟩ := findHeaderKey_some hcanon hfind
    rw [honly k' hk' hspell']

/-- Another order of the entries, in which the key is not picked. -/
theorem exists_perm_findHeaderKey_ne (hkv : kv ∈ m.entries) (h : ¬ SurelyPicked m canonical kv.1) :
    ∃ m' : StringMap, m'.entries.Perm m.entries ∧ findHeaderKey m' canonical ≠ some kv.1 := by
  obtain ⟨hne, hother⟩ := not_or.1 h
  push Not at hother
  obtain ⟨k', hk', hspell', hne'⟩ := hother
  obtain ⟨a, b, hab⟩ := List.append_of_mem hkv
  have hperm : (a ++ b ++ [kv]).Perm m.entries := by
    rw [hab, List.append_assoc]
    exact List.Perm.append_left a (List.perm_append_singleton kv b)
  have hnodup : ((a ++ b ++ [kv]).map Prod.fst).Nodup := (hperm.map Prod.fst).nodup_iff.2 m.nodup
  refine ⟨⟨a ++ b ++ [kv], hnodup⟩, hperm, fun hfind => ?_⟩
  rw [findHeaderKey] at hfind
  split_ifs at hfind
  · exact hne (Option.some.inj hfind).symm
  · -- the other spelling comes first
    have hmem : k' ∈ (a ++ b).map Prod.fst := by
      have := (hperm.map Prod.fst).mem_iff.2 hk'
      rw [List.map_append, List.mem_append] at this
      exact this.resolve_right fun h => hne' (List.mem_singleton.1 h)
    have hsome : ((a ++ b).map Prod.fst).find? (fun k => canonicalMIMEHeaderKey k = canonical) ≠
        none := by
      intro hnone
      simpa [hspell'] using List.find?_eq_none.1 hnone k' hmem
    obtain ⟨k, hk⟩ := Option.ne_none_iff_exists'.1 hsome
    rw [List.map_append, List.find?_append, hk, Option.some_or, Option.some.injEq] at hfind
    rw [List.map_append, List.nodup_append] at hnodup
    exact hnodup.2.2 k (List.mem_of_find?_eq_some hk) kv.1 List.mem_cons_self hfind

theorem mem_mapEntries {f : GoString → Option (List GoString) → Option (Option (List GoString))} :
    kv ∈ (mapEntries f m).entries ↔ ∃ vs, (kv.1, vs) ∈ m.entries ∧ f kv.1 vs = some kv.2 := by
  obtain ⟨k, vs'⟩ := kv
  rw [mapEntries, List.mem_filterMap]
  constructor
  · rintro ⟨⟨k₀, vs⟩, hmem, hf⟩
    obtain ⟨vs₁, hvs₁, heq⟩ := Option.map_eq_some_iff.1 hf
    obtain ⟨rfl, rfl⟩ := Prod.mk.inj heq
    exact ⟨vs, hmem, hvs₁⟩
  · rintro ⟨vs, hmem, hf⟩
    exact ⟨(k, vs), hmem, Option.map_eq_some_iff.2 ⟨vs', hf, rfl⟩⟩

/-- An entry that is not picked stays, so the rules must have nothing to do on it. -/
theorem everywhereAt_of_not_picked (h : ReachesAll rules m) (hperm : m'.entries.Perm m.entries)
    (hkv : kv ∈ m.entries) (hcookie : findHeaderKey m' cookieHeaderKey ≠ some kv.1)
    (hset : findHeaderKey m' setCookieHeaderKey ≠ some kv.1) :
    everywhereAt rules kv.1 kv.2 = some kv.2 := by
  obtain ⟨out, hout, hsame⟩ := h m' hperm
  rw [applyCookieRulesToHeaders_eq, Option.some.injEq] at hout
  subst hout
  have hstays : kv ∈ (mapEntries (loopAt rules (findHeaderKey m' cookieHeaderKey)
      (findHeaderKey m' setCookieHeaderKey)) m').entries := by
    refine mem_mapEntries.2 ⟨kv.2, hperm.mem_iff.2 hkv, ?_⟩
    rw [loopAt, if_neg hcookie, if_neg hset]
  obtain ⟨vs, hvs, hev⟩ := mem_mapEntries.1 (hsame.mem_iff.1 hstays)
  have hget : some vs = some kv.2 := (lookup_of_mem hvs).symm.trans (lookup_of_mem hkv)
  rwa [Option.some.inj hget] at hev

/-- Spellings of one name are not spellings of the other. -/
theorem findHeaderKey_ne_of_canonical {c : GoString} (hcanon : canonicalMIMEHeaderKey c = c)
    (h : canonicalMIMEHeaderKey k ≠ c) : findHeaderKey m c ≠ some k :=
  fun hfind => h (findHeaderKey_some hcanon hfind).2

theorem surelyPicked_perm (hperm : m'.entries.Perm m.entries) (h : SurelyPicked m canonical k) :
    SurelyPicked m' canonical k :=
  h.imp_right fun honly k' hk' => honly k' ((hperm.map Prod.fst).mem_iff.1 hk')

theorem cookie_ne_setCookie : cookieHeaderKey ≠ setCookieHeaderKey := by decide

/-- An entry that is sure to be picked, or on which the rules have nothing to do, is as it should
be. -/
theorem loopAt_eq_everywhereAt (hne : rules ≠ []) (hkv : kv ∈ m.entries)
    (hcookie : canonicalMIMEHeaderKey kv.1 = cookieHeaderKey →
      SurelyPicked m cookieHeaderKey kv.1 ∨ CookieSettled rules kv.2)
    (hset : canonicalMIMEHeaderKey kv.1 = setCookieHeaderKey →
      SurelyPicked m setCookieHeaderKey kv.1 ∨ SetCookieSettled rules kv.2) :
    loopAt rules (findHeaderKey m cookieHeaderKey) (findHeaderKey m setCookieHeaderKey) kv.1 kv.2 =
      everywhereAt rules kv.1 kv.2 := by
  have hmem : kv.1 ∈ m.entries.map Prod.fst := List.mem_map_of_mem hkv
  rw [loopAt, everywhereAt]
  by_cases hspell : canonicalMIMEHeaderKey kv.1 = cookieHeaderKey
  · have hother : findHeaderKey m setCookieHeaderKey ≠ some kv.1 :=
      findHeaderKey_ne_of_canonical canonical_setCookie (hspell ▸ cookie_ne_setCookie)
    rw [if_pos hspell, if_neg hother]
    rcases hcookie hspell with hpick | hsettled
    · rw [if_pos (findHeaderKey_of_surelyPicked hmem hspell canonical_cookie hpick)]
    · rw [(stepAll_cookie_eq_self_iff hne).2 hsettled, ite_self]
  rw [if_neg (findHeaderKey_ne_of_canonical canonical_cookie hspell), if_neg hspell]
  by_cases hspell' : canonicalMIMEHeaderKey kv.1 = setCookieHeaderKey
  · rw [if_pos hspell']
    rcases hset hspell' with hpick | hsettled
    · rw [if_pos (findHeaderKey_of_surelyPicked hmem hspell' canonical_setCookie hpick)]
    · rw [(stepAll_setCookie_eq_self_iff hne).2 hsettled, ite_self]
  · rw [if_neg (findHeaderKey_ne_of_canonical canonical_setCookie hspell'), if_neg hspell']

end

/-- **When the cookie rules reach every cookie header.** Each of their keys is canonical or the
only spelling of its name in the map, or else the rules have nothing to do under it. -/
theorem cookie_rules_reach_iff (rules : List CookieRule) (m : StringMap) :
    applyCookieRulesToHeaders none rules = none ∧
    (ReachesAll rules m ↔
      rules = [] ∨
        (∀ kv ∈ m.entries, canonicalMIMEHeaderKey kv.1 = cookieHeaderKey →
          SurelyPicked m cookieHeaderKey kv.1 ∨ CookieSettled rules kv.2) ∧
        ∀ kv ∈ m.entries, canonicalMIMEHeaderKey kv.1 = setCookieHeaderKey →
          SurelyPicked m setCookieHeaderKey kv.1 ∨ SetCookieSettled rules kv.2) := by
  refine ⟨by cases rules <;> rfl, ?_⟩
  constructor
  · intro h
    by_cases hne : rules = []
    · exact Or.inl hne
    refine Or.inr ⟨fun kv hkv hspell => ?_, fun kv hkv hspell => ?_⟩
    · by_contra hnot
      obtain ⟨hpick, hsettled⟩ := not_or.1 hnot
      obtain ⟨m', hperm, hfind⟩ := exists_perm_findHeaderKey_ne hkv hpick
      have hset : findHeaderKey m' setCookieHeaderKey ≠ some kv.1 :=
        findHeaderKey_ne_of_canonical canonical_setCookie (hspell ▸ cookie_ne_setCookie)
      have hev := everywhereAt_of_not_picked h hperm hkv hfind hset
      rw [everywhereAt, if_pos hspell] at hev
      exact hsettled ((stepAll_cookie_eq_self_iff hne).1 hev)
    · by_contra hnot
      obtain ⟨hpick, hsettled⟩ := not_or.1 hnot
      obtain ⟨m', hperm, hfind⟩ := exists_perm_findHeaderKey_ne hkv hpick
      have hcookie : canonicalMIMEHeaderKey kv.1 ≠ cookieHeaderKey :=
        hspell ▸ cookie_ne_setCookie.symm
      have hev := everywhereAt_of_not_picked h hperm hkv
        (findHeaderKey_ne_of_canonical canonical_cookie hcookie) hfind
      rw [everywhereAt, if_neg hcookie, if_pos hspell] at hev
      exact hsettled ((stepAll_setCookie_eq_self_iff hne).1 hev)
  · intro h m' hperm
    refine ⟨_, applyCookieRulesToHeaders_eq m' rules, ?_⟩
    have hentry : mapEntries (loopAt rules (findHeaderKey m' cookieHeaderKey)
        (findHeaderKey m' setCookieHeaderKey)) m' = mapEntries (everywhereAt rules) m' := by
      refine mapEntries_congr fun kv hkv => ?_
      by_cases hne : rules = []
      · subst hne
        simp [loopAt, everywhereAt, stepAll]
      obtain ⟨hcookie, hset⟩ := h.resolve_left hne
      have hkv' := hperm.mem_iff.1 hkv
      exact loopAt_eq_everywhereAt hne hkv
        (fun hspell => (hcookie kv hkv' hspell).imp_left (surelyPicked_perm hperm))
        fun hspell => (hset kv hkv' hspell).imp_left (surelyPicked_perm hperm)
    rw [hentry]
    exact hperm.filterMap _

/-- An event with two spellings of the header, and a cookie to be stripped under one of them. -/
theorem cookie_rules_miss_spelling :
    ¬ ReachesAll [⟨.strip, [str "s"]⟩]
      ⟨[(cookieHeaderKey, some [str "a=1"]), (str "cookie", some [str "s=1"])], by decide⟩ := by
  intro h
  obtain ⟨out, hout, hperm⟩ := h _ (List.Perm.refl _)
  have hlen := hperm.length_eq
  rw [← Option.some.inj hout] at hlen
  exact absurd hlen (by decide +kernel)

end HttpCatch.Redact

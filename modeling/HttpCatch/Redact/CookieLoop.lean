import HttpCatch.Redact.Ruleset

/-!
# The loop over the cookie rules

`applyCookieRulesToHeaders` picks one key for each of the two cookie headers, and then runs
through the rules. Each rule edits the values under the two keys, and a header of which nothing is
left is removed from the map.

Seen from an entry of the map, this is a function of its own key and values (`mapEntries`): the
rules are applied to them one after the other until nothing is left (`stepAll`), if the key is one
of the two, and it stays as it is otherwise.

## Main results

* `cookieLoop_eq`: the loop, entry by entry.
* `applyCookieRulesToHeaders_eq`: the same for the whole function.
-/

namespace HttpCatch.Redact

open HttpCatch.Go HttpCatch.Capture HttpCatch.SearchQL

/-! ### Maps, entry by entry -/

/-- The map with every slice replaced by what `f` makes of its key and itself; `none` deletes it. -/
def mapEntries (f : GoString → Option (List GoString) → Option (Option (List GoString)))
    (m : StringMap) : StringMap :=
  ⟨m.entries.filterMap fun kv => (f kv.1 kv.2).map (kv.1, ·), by
    have hsub : ((m.entries.filterMap fun kv => (f kv.1 kv.2).map (kv.1, ·)).map Prod.fst).Sublist
        (m.entries.map Prod.fst) := by
      induction m.entries with
      | nil => exact List.Sublist.slnil
      | cons kv es ih =>
        rw [List.filterMap_cons]
        cases f kv.1 kv.2 with
        | none => exact ih.cons _
        | some vs => exact ih.cons_cons _
    exact m.nodup.sublist hsub⟩

section

variable {f g : GoString → Option (List GoString) → Option (Option (List GoString))} {m : StringMap}

theorem mapEntries_congr (h : ∀ kv ∈ m.entries, f kv.1 kv.2 = g kv.1 kv.2) :
    mapEntries f m = mapEntries g m := by
  rw [mapEntries, mapEntries, StringMap.mk.injEq]
  refine List.filterMap_congr fun kv hkv => ?_
  rw [h kv hkv]

theorem mapEntries_some (m : StringMap) : mapEntries (fun _ vs => some vs) m = m := by
  cases m
  simp [mapEntries]

theorem mapEntries_mapEntries (f g : GoString → Option (List GoString) →
    Option (Option (List GoString))) (m : StringMap) :
    mapEntries g (mapEntries f m) = mapEntries (fun k vs => (f k vs).bind (g k)) m := by
  simp only [mapEntries, List.filterMap_filterMap]
  congr 1
  refine List.filterMap_congr fun kv _ => ?_
  cases f kv.1 kv.2 <;> rfl

theorem get_mapEntries (f : GoString → Option (List GoString) → Option (Option (List GoString)))
    (m : StringMap) (key : GoString) :
    Headers.get? (some (mapEntries f m)) key = (Headers.get? (some m) key).bind (f key) := by
  obtain ⟨es, hnodup⟩ := m
  show (es.filterMap fun kv => (f kv.1 kv.2).map (kv.1, ·)).lookup key =
    (es.lookup key).bind (f key)
  induction es with
  | nil => rfl
  | cons kv es ih =>
    rw [List.map_cons, List.nodup_cons] at hnodup
    rw [List.filterMap_cons, List.lookup_cons]
    by_cases hk : key = kv.1
    · rw [beq_iff_eq.2 hk, hk]
      cases hf : f kv.1 kv.2 with
      | some vs => simp [hf]
      | none =>
        -- keys are distinct, so nothing else is found under this one
        have hgone : es.lookup kv.1 = none := by
          rw [List.lookup_eq_none_iff]
          intro kv' hkv'
          rw [bne_iff_ne]
          exact fun he => hnodup.1 (he ▸ List.mem_map_of_mem hkv')
        have := ih hnodup.2
        rw [hk, hgone] at this
        simpa [hf] using this
    · rw [beq_eq_false_iff_ne.2 hk]
      cases hf : f kv.1 kv.2 with
      | none => simpa using ih hnodup.2
      | some vs => simpa [List.lookup_cons, beq_eq_false_iff_ne.2 hk] using ih hnodup.2

end

theorem setSlice_eq (m : StringMap) (key : GoString) (vals : List GoString) :
    setSlice m key vals =
      mapEntries (fun k vs => if k = key then some (some vals) else some vs) m := by
  rw [setSlice, mapSlices, mapEntries, StringMap.mk.injEq, ← List.filterMap_eq_map]
  refine List.filterMap_congr fun kv _ => ?_
  rw [Function.comp_apply]
  split_ifs <;> rfl

theorem deleteKey_eq (m : StringMap) (key : GoString) :
    deleteKey m key = mapEntries (fun k vs => if k = key then none else some vs) m := by
  rw [deleteKey, mapEntries, StringMap.mk.injEq, ← List.filterMap_eq_filter]
  refine List.filterMap_congr fun kv _ => ?_
  by_cases hk : kv.1 = key
  · simp [Option.guard, hk]
  · simp [Option.guard, hk]

/-! ### One rule -/

/-- A rule on the values of a `Cookie` header; `none` when the header goes. -/
def cookieStep (rule : CookieRule) (vals : List GoString) : Option (List GoString) :=
  let vals := vals.map (applyRuleToCookieHeader · rule)
  if allEmpty vals then none else some vals

/-- A rule on the values of a `Set-Cookie` header. -/
def setCookieStep (rule : CookieRule) (vals : List GoString) : Option (List GoString) :=
  let kept := vals.filterMap (applyRuleToSetCookieHeader · rule)
  if kept = [] then none else some kept

/-- What a step on the values under `key` makes of an entry. -/
def stepAt (key : Option GoString) (step : List GoString → Option (List GoString)) (k : GoString)
    (vs : Option (List GoString)) : Option (Option (List GoString)) :=
  if key = some k then (step (vs.getD [])).map some else some vs

variable {m : StringMap} {k : GoString}

theorem slice_of_mem {kv : GoString × Option (List GoString)} (h : kv ∈ m.entries) :
    slice m kv.1 = kv.2.getD [] := by
  rw [slice, Headers.values]
  show ((m.entries.lookup kv.1).getD none).getD [] = kv.2.getD []
  rw [lookup_of_mem h]
  rfl

section

variable {m : StringMap} {key : GoString} {step : List GoString → Option (List GoString)}

theorem stepAt_of_ne {key : Option GoString} {k : GoString} (h : key ≠ some k)
    (vs : Option (List GoString)) : stepAt key step k vs = some vs :=
  if_neg h

theorem stepAt_self (k : GoString) (vs : Option (List GoString)) :
    stepAt (some k) step k vs = (step (vs.getD [])).map some :=
  if_pos rfl

theorem mapEntries_stepAt_of_none (h : step (slice m key) = none) :
    mapEntries (stepAt (some key) step) m = deleteKey m key := by
  rw [deleteKey_eq]
  refine mapEntries_congr fun kv hkv => ?_
  split_ifs with hk
  · rw [← hk, stepAt_self, ← slice_of_mem hkv, hk, h]
    rfl
  · exact stepAt_of_ne (fun he => hk (Option.some.inj he).symm) _

theorem mapEntries_stepAt_of_some {vals : List GoString} (h : step (slice m key) = some vals) :
    mapEntries (stepAt (some key) step) m = setSlice m key vals := by
  rw [setSlice_eq]
  refine mapEntries_congr fun kv hkv => ?_
  split_ifs with hk
  · rw [← hk, stepAt_self, ← slice_of_mem hkv, hk, h]
    rfl
  · exact stepAt_of_ne (fun he => hk (Option.some.inj he).symm) _

end

/-- What is left of the key after a step. -/
def keyAfter (m : StringMap) (step : List GoString → Option (List GoString))
    (key : Option GoString) : Option GoString :=
  key.filter fun k => (step (slice m k)).isSome

theorem key_of_keyAfter {step : List GoString → Option (List GoString)} {key : Option GoString}
    (h : keyAfter m step key = some k) : key = some k :=
  (Option.filter_eq_some_iff.1 h).1

theorem keyAfter_self {step : List GoString → Option (List GoString)} {vals : List GoString}
    (h : step (slice m k) = some vals) : keyAfter m step (some k) = some k := by
  simp [keyAfter, h]

theorem applyRuleToCookieKey_eq (rule : CookieRule) (m : StringMap) (key : Option GoString) :
    applyRuleToCookieKey rule m key =
      (mapEntries (stepAt key (cookieStep rule)) m, keyAfter m (cookieStep rule) key) := by
  cases key with
  | none => exact congrArg (·, none) (mapEntries_some m).symm
  | some key =>
    rw [applyRuleToCookieKey, keyAfter, Option.filter_some]
    split_ifs with hempty hsome hsome
    · simp [cookieStep, hempty] at hsome
    · rw [mapEntries_stepAt_of_none (Option.not_isSome_iff_eq_none.1 hsome)]
    · rw [mapEntries_stepAt_of_some (if_neg hempty)]
    · simp [cookieStep, hempty] at hsome

theorem applyRuleToSetCookieKey_eq (rule : CookieRule) (m : StringMap) (key : Option GoString) :
    applyRuleToSetCookieKey rule m key =
      (mapEntries (stepAt key (setCookieStep rule)) m, keyAfter m (setCookieStep rule) key) := by
  cases key with
  | none => exact congrArg (·, none) (mapEntries_some m).symm
  | some key =>
    rw [applyRuleToSetCookieKey, keyAfter, Option.filter_some]
    split_ifs with hempty hsome hsome
    · simp [setCookieStep, hempty] at hsome
    · rw [mapEntries_stepAt_of_none (Option.not_isSome_iff_eq_none.1 hsome)]
    · rw [mapEntries_stepAt_of_some (if_neg hempty)]
    · simp [setCookieStep, hempty] at hsome

/-! ### All rules -/

/-- All rules on the values of a header, until nothing is left. -/
def stepAll (step : CookieRule → List GoString → Option (List GoString)) :
    List CookieRule → Option (List GoString) → Option (Option (List GoString))
  | [], vs => some vs
  | rule :: rules, vs => (step rule (vs.getD [])).bind fun vals => stepAll step rules (some vals)

/-- What the loop does to an entry. -/
def loopAt (rules : List CookieRule) (cookieKey setCookieKey : Option GoString) (k : GoString)
    (vs : Option (List GoString)) : Option (Option (List GoString)) :=
  if cookieKey = some k then stepAll cookieStep rules vs
  else if setCookieKey = some k then stepAll setCookieStep rules vs
  else some vs

/-- One round of the loop and the rounds after it, on an entry of the map. -/
theorem loopAt_cons (rule : CookieRule) (rules : List CookieRule)
    {cookieKey setCookieKey : Option GoString}
    (hne : ∀ k, cookieKey = some k → setCookieKey ≠ some k)
    {kv : GoString × Option (List GoString)} (hkv : kv ∈ m.entries) :
    ((stepAt cookieKey (cookieStep rule) kv.1 kv.2).bind fun vs =>
      (stepAt setCookieKey (setCookieStep rule) kv.1 vs).bind
        (loopAt rules (keyAfter m (cookieStep rule) cookieKey)
          (keyAfter (mapEntries (stepAt cookieKey (cookieStep rule)) m) (setCookieStep rule)
            setCookieKey) kv.1)) =
      loopAt (rule :: rules) cookieKey setCookieKey kv.1 kv.2 := by
  obtain ⟨k, vs⟩ := kv
  have hslice := slice_of_mem hkv
  dsimp only at hslice ⊢
  by_cases hcookie : cookieKey = some k
  · -- the values of the `Cookie` header; they are not those of `Set-Cookie`
    subst hcookie
    have hset := hne k rfl
    rw [stepAt_self, loopAt, if_pos rfl, stepAll, ← hslice]
    cases hstep : cookieStep rule (slice m k) with
    | none => rfl
    | some vals =>
      rw [Option.map_some, Option.bind_some, stepAt_of_ne hset, Option.bind_some, loopAt,
        keyAfter_self hstep, if_pos rfl]
      rfl
  have hcookie' : keyAfter m (cookieStep rule) cookieKey ≠ some k := mt key_of_keyAfter hcookie
  rw [stepAt_of_ne hcookie, Option.bind_some, loopAt, if_neg hcookie]
  by_cases hset : setCookieKey = some k
  · subst hset
    -- the first half of the round has not changed them
    have hslice' : slice (mapEntries (stepAt cookieKey (cookieStep rule)) m) k = vs.getD [] := by
      have hmem : (k, vs) ∈ (mapEntries (stepAt cookieKey (cookieStep rule)) m).entries :=
        List.mem_filterMap.2 ⟨(k, vs), hkv, by rw [stepAt_of_ne hcookie]; rfl⟩
      exact slice_of_mem hmem
    rw [stepAt_self, if_pos rfl, stepAll]
    cases hstep : setCookieStep rule (vs.getD []) with
    | none => rfl
    | some vals =>
      rw [Option.map_some, Option.bind_some, loopAt, if_neg hcookie',
        keyAfter_self (hslice' ▸ hstep), if_pos rfl]
      rfl
  · rw [stepAt_of_ne hset, Option.bind_some, if_neg hset, loopAt, if_neg hcookie',
      if_neg (mt key_of_keyAfter hset)]

/-- **The loop over the cookie rules, entry by entry.** -/
theorem cookieLoop_eq (rules : List CookieRule) (m : StringMap)
    {cookieKey setCookieKey : Option GoString}
    (hne : ∀ k, cookieKey = some k → setCookieKey ≠ some k) :
    cookieLoop rules m cookieKey setCookieKey =
      mapEntries (loopAt rules cookieKey setCookieKey) m := by
  induction rules generalizing m cookieKey setCookieKey with
  | nil =>
    rw [cookieLoop]
    refine (mapEntries_some m).symm.trans (mapEntries_congr fun kv _ => ?_)
    simp [loopAt, stepAll]
  | cons rule rules ih =>
    rw [cookieLoop, applyRuleToCookieKey_eq]
    dsimp only
    rw [applyRuleToSetCookieKey_eq, ih]
    · rw [mapEntries_mapEntries, mapEntries_mapEntries]
      exact mapEntries_congr fun kv hkv => loopAt_cons rule rules hne hkv
    · exact fun k hk hk' => hne k (key_of_keyAfter hk) (key_of_keyAfter hk')

/-! ### The keys -/

/-- The key that is found is in the map, and spells the name. -/
theorem findHeaderKey_some {canonical : GoString}
    (hcanon : canonicalMIMEHeaderKey canonical = canonical)
    (h : findHeaderKey m canonical = some k) :
    k ∈ m.entries.map Prod.fst ∧ canonicalMIMEHeaderKey k = canonical := by
  rw [findHeaderKey] at h
  split_ifs at h with hself
  · obtain rfl := Option.some.inj h
    exact ⟨List.contains_iff_mem.1 hself, hcanon⟩
  · exact ⟨List.mem_of_find?_eq_some h, by simpa using List.find?_some h⟩

theorem canonical_cookie : canonicalMIMEHeaderKey cookieHeaderKey = cookieHeaderKey := by decide

theorem canonical_setCookie : canonicalMIMEHeaderKey setCookieHeaderKey = setCookieHeaderKey := by
  decide

theorem findHeaderKey_ne (m : StringMap) (k : GoString)
    (h : findHeaderKey m cookieHeaderKey = some k) :
    findHeaderKey m setCookieHeaderKey ≠ some k := by
  intro h'
  have hcookie := (findHeaderKey_some canonical_cookie h).2
  have hset := (findHeaderKey_some canonical_setCookie h').2
  exact absurd (hcookie.symm.trans hset) (by decide)

/-- **What `applyCookieRulesToHeaders` does**, entry by entry. -/
theorem applyCookieRulesToHeaders_eq (m : StringMap) (rules : List CookieRule) :
    applyCookieRulesToHeaders (some m) rules =
      some (mapEntries (loopAt rules (findHeaderKey m cookieHeaderKey)
        (findHeaderKey m setCookieHeaderKey)) m) := by
  rw [← cookieLoop_eq rules m (findHeaderKey_ne m)]
  cases rules <;> rfl

/-- A key in its canonical spelling is the one that is found. -/
theorem findHeaderKey_of_mem {key : GoString} (h : key ∈ m.entries.map Prod.fst) :
    findHeaderKey m key = some key := by
  rw [findHeaderKey, if_pos (List.contains_iff_mem.2 h)]

end HttpCatch.Redact

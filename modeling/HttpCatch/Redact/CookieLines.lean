import HttpCatch.Redact.CookieLoop

/-!
# What cookie rules leave of the cookie headers

A rule is applied to what the rules before it have left: the text is split, edited and joined again
for each. Replacing a value or trimming the blanks before a cookie does not change its name, so all
rules can be read against the original parts of a line (`rulesOnToken`, `editLine`).

## Main results

* `stepAll_cookie`, `stepAll_setCookie`: all rules on the values of a header, in one pass.
* `cookie_rules_edit`: rules that redact or strip edit a `Cookie` header part by part, in any order.
* `allowlist_keeps_iff`: when an allowlist leaves listed cookies only.
* `setCookie_redact_iff`: when redacting a `Set-Cookie` entry changes nothing but its value.
-/

namespace HttpCatch.Redact

open HttpCatch.Go HttpCatch.Capture HttpCatch.SearchQL

/-! ### Separators -/

theorem eq_not_blank : 0x3D ∉ blanks := by decide

theorem semicolon_not_blank : 0x3B ∉ blanks := by decide

/-! ### Verdicts -/

theorem verdict_drop_iff {rule : CookieRule} {name : GoString} :
    rule.verdict name = .drop ↔
      rule.mode = .strip ∧ name ∈ rule.names ∨ rule.mode = .allowlist ∧ name ∉ rule.names := by
  obtain ⟨mode, names⟩ := rule
  cases mode <;> by_cases h : name ∈ names <;> simp [CookieRule.verdict, h]

theorem verdict_replace_iff {rule : CookieRule} {name : GoString} :
    rule.verdict name = .replace ↔ rule.mode = .redact ∧ name ∈ rule.names := by
  obtain ⟨mode, names⟩ := rule
  cases mode <;> by_cases h : name ∈ names <;> simp [CookieRule.verdict, h]

/-! ### Name and value of a cookie -/

/-- The attributes of a `Set-Cookie` entry, with the `;` before them. -/
def attributes (v : GoString) : GoString := v.dropWhile (· != 0x3B)

variable {u v t raw p line : GoString} {rules : List CookieRule}

theorem attributes_append (h : 0x3B ∉ u) (w : GoString) : attributes (u ++ w) = attributes w :=
  List.dropWhile_append_of_pos fun _ hb => bne_iff_ne.2 fun he => h (he ▸ hb)

theorem attributes_attributes (v : GoString) : attributes (attributes v) = attributes v :=
  List.dropWhile_idempotent _ _

theorem attributes_of_not_mem (h : 0x3B ∉ v) : attributes v = [] :=
  List.dropWhile_eq_nil_iff.2 fun _ hb => bne_iff_ne.2 fun he => h (he ▸ hb)

theorem attributes_append_of_mem (h : 0x3B ∈ u) (w : GoString) :
    attributes (u ++ w) = attributes u ++ w := by
  obtain ⟨a, b, rfl, ha⟩ := List.eq_append_cons_of_mem h
  rw [List.append_assoc, attributes_append ha, attributes_append ha, attributes, attributes,
    List.cons_append, List.dropWhile_cons_of_neg (by simp), List.dropWhile_cons_of_neg (by simp)]
  rfl

/-- Attributes begin with a `;`. -/
theorem attributes_head (v : GoString) : attributes v = [] ∨ ∃ w, attributes v = 0x3B :: w := by
  by_cases h : 0x3B ∈ v
  · obtain ⟨a, b, rfl, ha⟩ := List.eq_append_cons_of_mem h
    refine Or.inr ⟨b, ?_⟩
    rw [attributes_append ha]
    exact List.dropWhile_cons_of_neg (by simp)
  · exact Or.inl (attributes_of_not_mem h)

theorem before_append_attributes (v : GoString) : before v 0x3B ++ attributes v = v :=
  List.takeWhile_append_dropWhile

theorem replaceCookieValue_of_not_mem (h : 0x3D ∉ t) : replaceCookieValue t = t := by
  have hrest : 0x3D ∉ t.drop (t.takeWhile blanks.contains).length :=
    fun hm => h (List.mem_of_mem_drop hm)
  rw [replaceCookieValue, indexByte_eq_none hrest]

/-- The value is what stands between the first `=` and the next `;`. -/
theorem replaceCookieValue_append (h : 0x3D ∉ u) (w : GoString) :
    replaceCookieValue (u ++ 0x3D :: w) = u ++ 0x3D :: (redacted ++ attributes w) := by
  have hnot : 0x3D ∉ trimLeft u blanks := not_mem_trimLeft h _
  have hcut : (u ++ 0x3D :: w).takeWhile blanks.contains ++ (trimLeft u blanks ++ 0x3D :: w) =
      u ++ 0x3D :: w := by
    rw [← trimLeft_append_cons u w eq_not_blank]
    exact List.takeWhile_append_dropWhile
  rw [replaceCookieValue]
  generalize (u ++ 0x3D :: w).takeWhile blanks.contains = leading at hcut ⊢
  have hrest : (u ++ 0x3D :: w).drop leading.length = trimLeft u blanks ++ 0x3D :: w := by
    rw [← hcut, List.drop_left]
  have hstart : leading.length + (trimLeft u blanks).length + 1 = (u ++ [0x3D]).length := by
    have := congrArg List.length hcut
    simp only [List.length_append, List.length_cons, List.length_nil] at this ⊢
    omega
  have hsplit : u ++ 0x3D :: w = (u ++ [0x3D]) ++ w := List.append_cons u 0x3D w
  rw [hrest, indexByte_append hnot]
  dsimp only
  rw [hstart, hsplit, List.take_left, List.drop_left, List.append_assoc, List.append_assoc]
  rfl

/-- A text is cut at the first `=`, if it has one. -/
theorem cut_at_eq (h : 0x3D ∈ t) : ∃ u w, 0x3D ∉ u ∧ t = u ++ 0x3D :: w := by
  obtain ⟨u, w, ht, hu⟩ := List.eq_append_cons_of_mem h
  exact ⟨u, w, hu, ht⟩

theorem cookieName_eq (t : GoString) :
    cookieName t = trimSpace (trimLeft (before (before t 0x3B) 0x3D) blanks) := by
  rw [cookieName, before_trimLeft _ semicolon_not_blank, before_trimLeft _ eq_not_blank]

/-- The name is read before the first `=` and before the first `;`. -/
theorem cookieName_append (h : 0x3D ∉ u) (w : GoString) :
    cookieName (u ++ 0x3D :: w) = trimSpace (trimLeft (before u 0x3B) blanks) := by
  rw [cookieName_eq, before_comm, before_append_of_not_mem h, before_cons_self, List.append_nil]

@[simp] theorem cookieName_replaceCookieValue (t : GoString) :
    cookieName (replaceCookieValue t) = cookieName t := by
  by_cases h : 0x3D ∈ t
  · obtain ⟨u, w, hu, rfl⟩ := cut_at_eq h
    rw [replaceCookieValue_append hu, cookieName_append hu, cookieName_append hu]
  · rw [replaceCookieValue_of_not_mem h]

@[simp] theorem cookieName_trimLeft (t : GoString) :
    cookieName (trimLeft t blanks) = cookieName t := by
  rw [cookieName, trimLeft_trimLeft, ← cookieName]

@[simp] theorem cookieName_nil : cookieName [] = [] := by decide

theorem replaceCookieValue_idem (t : GoString) :
    replaceCookieValue (replaceCookieValue t) = replaceCookieValue t := by
  by_cases h : 0x3D ∈ t
  · obtain ⟨u, w, hu, rfl⟩ := cut_at_eq h
    rw [replaceCookieValue_append hu, replaceCookieValue_append hu,
      attributes_append (by decide), attributes_attributes]
  · rw [replaceCookieValue_of_not_mem h, replaceCookieValue_of_not_mem h]

theorem replaceCookieValue_trimLeft (t : GoString) :
    replaceCookieValue (trimLeft t blanks) = trimLeft (replaceCookieValue t) blanks := by
  by_cases h : 0x3D ∈ t
  · obtain ⟨u, w, hu, rfl⟩ := cut_at_eq h
    have hu' : 0x3D ∉ trimLeft u blanks := not_mem_trimLeft hu _
    rw [trimLeft_append_cons u w eq_not_blank, replaceCookieValue_append hu',
      replaceCookieValue_append hu, trimLeft_append_cons u _ eq_not_blank]
  · have h' : 0x3D ∉ trimLeft t blanks := not_mem_trimLeft h _
    rw [replaceCookieValue_of_not_mem h, replaceCookieValue_of_not_mem h']

/-- Replacing a value changes nothing just when there is none, or it is the marker already. -/
theorem replaceCookieValue_eq_self_iff (t : GoString) :
    replaceCookieValue t = t ↔ 0x3D ∉ t ∨ before (afterByte t 0x3D) 0x3B = redacted := by
  by_cases h : 0x3D ∈ t
  · obtain ⟨u, w, hu, rfl⟩ := cut_at_eq h
    rw [replaceCookieValue_append hu, afterByte_append hu, List.append_cancel_left_eq,
      List.cons.injEq, or_iff_right (not_not.2 h)]
    conv_lhs => rhs; rhs; rw [← before_append_attributes w]
    rw [List.append_cancel_right_eq]
    exact ⟨fun h => h.2.symm, fun h => ⟨rfl, h.symm⟩⟩
  · exact iff_of_true (replaceCookieValue_of_not_mem h) (Or.inl h)

/-! ### All rules on a cookie -/

/-- All rules on one cookie. -/
def rulesOnToken (rules : List CookieRule) (raw : GoString) : Option GoString :=
  if cookieName raw = [] then some raw
  else if ∃ rule ∈ rules, rule.verdict (cookieName raw) = .drop then none
  else if ∃ rule ∈ rules, rule.verdict (cookieName raw) = .replace then
    some (replaceCookieValue raw)
  else some raw

theorem rulesOnToken_of_nameless (h : cookieName raw = []) (rules : List CookieRule) :
    rulesOnToken rules raw = some raw :=
  if_pos h

@[simp] theorem rulesOnToken_nil (raw : GoString) : rulesOnToken [] raw = some raw := by
  simp [rulesOnToken]

/-- The rules after the first see the name that the first one saw. -/
theorem rulesOnToken_cons (rule : CookieRule) (rules : List CookieRule) (raw : GoString) :
    (ruleOnToken rule raw).bind (rulesOnToken rules) = rulesOnToken (rule :: rules) raw := by
  by_cases hname : cookieName raw = []
  · rw [ruleOnToken, if_pos hname, Option.bind_some, rulesOnToken_of_nameless hname,
      rulesOnToken_of_nameless hname]
  rw [ruleOnToken, if_neg hname, rulesOnToken, if_neg hname]
  simp only [List.exists_mem_cons_iff]
  cases hv : rule.verdict (cookieName raw) with
  | keep =>
    rw [Option.bind_some, rulesOnToken, if_neg hname]
    simp
  | replace =>
    rw [Option.bind_some, rulesOnToken, cookieName_replaceCookieValue, if_neg hname,
      replaceCookieValue_idem]
    simp
  | drop => simp

theorem rulesOnToken_singleton (rule : CookieRule) :
    rulesOnToken [rule] = ruleOnToken rule := by
  funext raw
  rw [← rulesOnToken_cons, funext rulesOnToken_nil]
  exact Option.bind_fun_some _

theorem rulesOnToken_trimLeft (rules : List CookieRule) (raw : GoString) :
    rulesOnToken rules (trimLeft raw blanks) =
      (rulesOnToken rules raw).map fun p => trimLeft p blanks := by
  simp only [rulesOnToken, cookieName_trimLeft, replaceCookieValue_trimLeft]
  split_ifs <;> rfl

/-- Only which rules there are matters. -/
theorem rulesOnToken_perm {rules' : List CookieRule} (h : rules.Perm rules') :
    rulesOnToken rules = rulesOnToken rules' := by
  funext raw
  simp only [rulesOnToken, h.mem_iff]

/-- What is left of a cookie has its name, and no rule drops it. -/
theorem rulesOnToken_some (h : rulesOnToken rules raw = some p) :
    cookieName p = cookieName raw ∧
      (cookieName raw = [] ∧ p = raw ∨ ∀ rule ∈ rules, rule.verdict (cookieName raw) ≠ .drop) := by
  rw [rulesOnToken] at h
  split_ifs at h with hname hdrop
  · obtain rfl := Option.some.inj h
    exact ⟨rfl, Or.inl ⟨hname, rfl⟩⟩
  · obtain rfl := Option.some.inj h
    exact ⟨cookieName_replaceCookieValue raw, Or.inr fun rule hr hv => hdrop ⟨rule, hr, hv⟩⟩
  · obtain rfl := Option.some.inj h
    exact ⟨rfl, Or.inr fun rule hr hv => hdrop ⟨rule, hr, hv⟩⟩

theorem not_mem_replaceCookieValue (h : 0x3B ∉ t) : 0x3B ∉ replaceCookieValue t := by
  by_cases heq : 0x3D ∈ t
  · obtain ⟨u, w, hu, rfl⟩ := cut_at_eq heq
    rw [List.mem_append, List.mem_cons, not_or, not_or] at h
    rw [replaceCookieValue_append hu, attributes_of_not_mem h.2.2, List.append_nil,
      List.mem_append, List.mem_cons, not_or, not_or]
    exact ⟨h.1, h.2.1, by decide⟩
  · rwa [replaceCookieValue_of_not_mem heq]

/-- Rules cut no part of a line in two. -/
theorem not_mem_rulesOnToken (h : rulesOnToken rules raw = some p) (hraw : 0x3B ∉ raw) :
    0x3B ∉ p := by
  rw [rulesOnToken] at h
  split_ifs at h
  · exact Option.some.inj h ▸ hraw
  · exact Option.some.inj h ▸ not_mem_replaceCookieValue hraw
  · exact Option.some.inj h ▸ hraw

/-! ### All rules on a header -/

/-- All rules on a line of the `Cookie` header. -/
def editLine (rules : List CookieRule) (line : GoString) : GoString :=
  joinCookieParts ((split line 0x3B).filterMap (rulesOnToken rules))

@[simp] theorem editLine_empty (rules : List CookieRule) : editLine rules [] = [] := by
  rw [editLine, split_empty, List.filterMap_cons, rulesOnToken_of_nameless cookieName_nil]
  rfl

theorem editLine_singleton (rule : CookieRule) (line : GoString) :
    editLine [rule] line = applyRuleToCookieHeader line rule := by
  rw [applyRuleToCookieHeader]
  split_ifs with h
  · rw [h, editLine_empty]
  · rw [editLine, rulesOnToken_singleton]

/-- The parts of a line after a rule; the blanks before the first of them are gone. -/
theorem split_joinParts {ps : List GoString} (h : ∀ q ∈ p :: ps, 0x3B ∉ q) :
    split (joinCookieParts (p :: ps)) 0x3B = trimLeft p blanks :: ps := by
  refine split_join (List.forall_mem_cons.2 ⟨?_, ?_⟩) (List.cons_ne_nil _ _)
  · exact not_mem_trimLeft (h p List.mem_cons_self) _
  · exact fun q hq => h q (List.mem_cons_of_mem p hq)

theorem not_mem_editedParts {q : GoString}
    (h : q ∈ (split line 0x3B).filterMap (rulesOnToken rules)) : 0x3B ∉ q := by
  obtain ⟨raw, hraw, hq⟩ := List.mem_filterMap.1 h
  exact not_mem_rulesOnToken hq (not_mem_of_mem_split hraw)

/-- The parts of an edited line are the edited parts, the first of them without the blanks before
it. -/
theorem split_editLine {ps : List GoString}
    (h : (split line 0x3B).filterMap (rulesOnToken rules) = p :: ps) :
    split (editLine rules line) 0x3B = trimLeft p blanks :: ps := by
  rw [editLine, h]
  exact split_joinParts fun q hq => not_mem_editedParts (h ▸ hq)

/-- One rule on a line, and then the others. -/
theorem editLine_cons (rule : CookieRule) (rules : List CookieRule) (line : GoString) :
    editLine rules (applyRuleToCookieHeader line rule) = editLine (rule :: rules) line := by
  have hparts : (split line 0x3B).filterMap (rulesOnToken (rule :: rules)) =
      ((split line 0x3B).filterMap (rulesOnToken [rule])).filterMap (rulesOnToken rules) := by
    rw [List.filterMap_filterMap, rulesOnToken_singleton]
    exact List.filterMap_congr fun raw _ => (rulesOnToken_cons rule rules raw).symm
  rw [← editLine_singleton]
  cases hps : (split line 0x3B).filterMap (rulesOnToken [rule]) with
  | nil =>
    have hnil : editLine [rule] line = [] := by rw [editLine, hps]; rfl
    rw [hnil, editLine_empty, editLine, hparts, hps]
    rfl
  | cons p ps =>
    rw [editLine, split_editLine hps, editLine, hparts, hps, List.filterMap_cons,
      List.filterMap_cons, rulesOnToken_trimLeft]
    cases rulesOnToken rules p with
    | none => rfl
    | some q =>
      -- the blanks before the first part are trimmed twice
      rw [Option.map_some, joinCookieParts, joinCookieParts, trimLeft_trimLeft]

/-- What is left of a `Cookie` header. -/
def cookieOutcome (lines : List GoString) : Option (Option (List GoString)) :=
  if allEmpty lines then none else some (some lines)

theorem allEmpty_iff {lines : List GoString} : allEmpty lines ↔ ∀ line ∈ lines, line = [] := by
  simp [allEmpty]

/-- **All rules on a `Cookie` header, in one pass.** -/
theorem stepAll_cookie (rules : List CookieRule) (hne : rules ≠ []) (vs : Option (List GoString)) :
    stepAll cookieStep rules vs = cookieOutcome ((vs.getD []).map (editLine rules)) := by
  induction rules generalizing vs with
  | nil => exact absurd rfl hne
  | cons rule rules ih =>
    rw [stepAll, cookieStep]
    cases rules with
    | nil =>
      rw [funext (editLine_singleton rule), cookieOutcome]
      split_ifs <;> rfl
    | cons rule' rules =>
      have hedit : (vs.getD []).map (editLine (rule :: rule' :: rules)) =
          ((vs.getD []).map (applyRuleToCookieHeader · rule)).map (editLine (rule' :: rules)) := by
        rw [List.map_map]
        exact List.map_congr_left fun line _ => (editLine_cons rule _ line).symm
      rw [hedit]
      generalize (vs.getD []).map (applyRuleToCookieHeader · rule) = lines
      split_ifs with hempty
      · -- a header that is gone stays gone
        have hgone : allEmpty (lines.map (editLine (rule' :: rules))) := by
          rw [allEmpty_iff] at hempty ⊢
          intro line hline
          obtain ⟨line', hline', rfl⟩ := List.mem_map.1 hline
          rw [hempty line' hline', editLine_empty]
        rw [cookieOutcome, if_pos hgone]
        rfl
      · exact ih (List.cons_ne_nil _ _) (some lines)

/-- What is left of a `Set-Cookie` header. -/
def setCookieOutcome (kept : List GoString) : Option (Option (List GoString)) :=
  if kept = [] then none else some (some kept)

theorem applyRuleToSetCookieHeader_eq (value : GoString) (rule : CookieRule) :
    applyRuleToSetCookieHeader value rule = ruleOnToken rule value := by
  rw [applyRuleToSetCookieHeader]
  split_ifs with h
  · rw [h, ruleOnToken, if_pos cookieName_nil]
  · rfl

/-- **All rules on a `Set-Cookie` header, in one pass.** -/
theorem stepAll_setCookie (rules : List CookieRule) (hne : rules ≠ [])
    (vs : Option (List GoString)) :
    stepAll setCookieStep rules vs =
      setCookieOutcome ((vs.getD []).filterMap (rulesOnToken rules)) := by
  induction rules generalizing vs with
  | nil => exact absurd rfl hne
  | cons rule rules ih =>
    have hkept : (vs.getD []).filterMap (rulesOnToken (rule :: rules)) =
        ((vs.getD []).filterMap (applyRuleToSetCookieHeader · rule)).filterMap
          (rulesOnToken rules) := by
      rw [List.filterMap_filterMap]
      refine List.filterMap_congr fun v _ => ?_
      rw [applyRuleToSetCookieHeader_eq, rulesOnToken_cons]
    rw [stepAll, setCookieStep, hkept]
    generalize (vs.getD []).filterMap (applyRuleToSetCookieHeader · rule) = kept
    split_ifs with hempty
    · rw [hempty]
      rfl
    · rw [Option.bind_some]
      cases rules with
      | nil =>
        rw [funext rulesOnToken_nil, List.filterMap_some, setCookieOutcome, if_neg hempty]
        rfl
      | cons rule' rules => exact ih (List.cons_ne_nil _ _) (some kept)

/-! ### Redacting and stripping -/

/-- Some rule of the mode lists the name. -/
def Listed (rules : List CookieRule) (mode : CookieMode) (name : GoString) : Prop :=
  ∃ rule ∈ rules, rule.mode = mode ∧ name ∈ rule.names

instance (rules : List CookieRule) (mode : CookieMode) (name : GoString) :
    Decidable (Listed rules mode name) :=
  inferInstanceAs (Decidable (∃ _ ∈ _, _))

/-- What rules that redact or strip are to make of a part of a line. -/
def editedSegment (rules : List CookieRule) (seg : GoString) : Option GoString :=
  if Listed rules .strip (cookieName seg) then none
  else if Listed rules .redact (cookieName seg) ∧ 0x3D ∈ seg then
    some (before seg 0x3D ++ 0x3D :: redacted)
  else some seg

/-- What they are to make of a line. -/
def editedLine (rules : List CookieRule) (line : GoString) : GoString :=
  match (split line 0x3B).filterMap (editedSegment rules) with
  | [] => []
  | seg :: segs => join (trimLeft seg blanks :: segs) 0x3B

theorem rulesOnToken_eq_editedSegment
    (hmode : ∀ rule ∈ rules, rule.mode = .redact ∨ rule.mode = .strip)
    (hnames : ∀ rule ∈ rules, [] ∉ rule.names) {seg : GoString} (hseg : 0x3B ∉ seg) :
    rulesOnToken rules seg = editedSegment rules seg := by
  have hdrop : (∃ rule ∈ rules, rule.verdict (cookieName seg) = .drop) ↔
      Listed rules .strip (cookieName seg) := by
    refine exists_congr fun rule => and_congr_right fun hr => ?_
    rcases hmode rule hr with h | h <;> simp [verdict_drop_iff, h]
  have hreplace : (∃ rule ∈ rules, rule.verdict (cookieName seg) = .replace) ↔
      Listed rules .redact (cookieName seg) :=
    exists_congr fun rule => and_congr_right fun _ => verdict_replace_iff
  simp only [rulesOnToken, hdrop, hreplace, editedSegment]
  by_cases hname : cookieName seg = []
  · -- no rule lists the empty name
    have hlisted : ∀ mode, ¬ Listed rules mode (cookieName seg) := by
      rintro mode ⟨rule, hr, -, hmem⟩
      exact hnames rule hr (hname ▸ hmem)
    rw [if_pos hname, if_neg (hlisted _), if_neg fun h => hlisted _ h.1]
  rw [if_neg hname]
  split_ifs with hstrip hredact hboth hboth
  · rfl
  · obtain ⟨u, w, hu, rfl⟩ := cut_at_eq hboth.2
    rw [List.mem_append, List.mem_cons, not_or, not_or] at hseg
    rw [replaceCookieValue_append hu, attributes_of_not_mem hseg.2.2, List.append_nil,
      before_append_of_not_mem hu, before_cons_self, List.append_nil]
  · rw [replaceCookieValue_of_not_mem fun h => hboth ⟨hredact, h⟩]
  · exact absurd hboth.1 hredact
  · rfl

theorem editLine_eq_editedLine (hmode : ∀ rule ∈ rules, rule.mode = .redact ∨ rule.mode = .strip)
    (hnames : ∀ rule ∈ rules, [] ∉ rule.names) (line : GoString) :
    editLine rules line = editedLine rules line := by
  have hparts : (split line 0x3B).filterMap (rulesOnToken rules) =
      (split line 0x3B).filterMap (editedSegment rules) :=
    List.filterMap_congr fun seg hseg =>
      rulesOnToken_eq_editedSegment hmode hnames (not_mem_of_mem_split hseg)
  rw [editLine, editedLine, hparts]
  cases (split line 0x3B).filterMap (editedSegment rules) <;> rfl

section

variable {rules rules' : List CookieRule} {m : StringMap} {key : GoString}

/-- The `Cookie` header after the rules. -/
theorem get_cookie (hne : rules ≠ []) (hkey : findHeaderKey m cookieHeaderKey = some key) :
    Headers.get? (applyCookieRulesToHeaders (some m) rules) key =
      cookieOutcome ((slice m key).map (editLine rules)) := by
  obtain ⟨kv, hkv, rfl⟩ := List.mem_map.1 (findHeaderKey_some canonical_cookie hkey).1
  have hget : Headers.get? (some m) kv.1 = some kv.2 := lookup_of_mem hkv
  rw [applyCookieRulesToHeaders_eq, get_mapEntries, hget, Option.bind_some, loopAt, if_pos hkey,
    stepAll_cookie rules hne, slice_of_mem hkv]

/-- The `Set-Cookie` header after the rules. -/
theorem get_setCookie (hne : rules ≠ []) (hkey : findHeaderKey m setCookieHeaderKey = some key) :
    Headers.get? (applyCookieRulesToHeaders (some m) rules) key =
      setCookieOutcome ((slice m key).filterMap (rulesOnToken rules)) := by
  obtain ⟨kv, hkv, rfl⟩ := List.mem_map.1 (findHeaderKey_some canonical_setCookie hkey).1
  have hget : Headers.get? (some m) kv.1 = some kv.2 := lookup_of_mem hkv
  rw [applyCookieRulesToHeaders_eq, get_mapEntries, hget, Option.bind_some, loopAt,
    if_neg fun h => findHeaderKey_ne m kv.1 h hkey, if_pos hkey, stepAll_setCookie rules hne,
    slice_of_mem hkv]

/-- The rules of a list may be applied in any order. -/
theorem applyCookieRulesToHeaders_perm (h : rules'.Perm rules) (m : StringMap) :
    applyCookieRulesToHeaders (some m) rules' = applyCookieRulesToHeaders (some m) rules := by
  by_cases hne : rules = []
  · subst hne
    rw [h.eq_nil]
  have hne' : rules' ≠ [] := fun he => hne (he ▸ h).nil_eq.symm
  rw [applyCookieRulesToHeaders_eq, applyCookieRulesToHeaders_eq]
  congr 2
  funext k vs
  have htoken := rulesOnToken_perm h
  have hline : editLine rules' = editLine rules := by
    funext line
    rw [editLine, htoken, editLine]
  rw [loopAt, loopAt, stepAll_cookie _ hne', stepAll_cookie _ hne, hline,
    stepAll_setCookie _ hne', stepAll_setCookie _ hne, htoken]

end

/-- **Rules that redact or strip edit a `Cookie` header part by part.** The header goes when
nothing is left of its lines, and its lines consist of the edited parts. The order of the rules
does not matter. -/
theorem cookie_rules_edit (rules : List CookieRule) (m : StringMap) (key : GoString)
    (hne : rules ≠ [])
    (hmode : ∀ rule ∈ rules, rule.mode = .redact ∨ rule.mode = .strip)
    (hnames : ∀ rule ∈ rules, [] ∉ rule.names)
    (hkey : findHeaderKey m cookieHeaderKey = some key) :
    (Headers.get? (applyCookieRulesToHeaders (some m) rules) key =
      if ∀ line ∈ slice m key, editedLine rules line = [] then none
      else some (some ((slice m key).map (editedLine rules)))) ∧
    (∀ line seg segs, (split line 0x3B).filterMap (editedSegment rules) = seg :: segs →
      split (editedLine rules line) 0x3B = trimLeft seg blanks :: segs) ∧
    ∀ rules', rules'.Perm rules →
      applyCookieRulesToHeaders (some m) rules' = applyCookieRulesToHeaders (some m) rules := by
  have hline := funext (editLine_eq_editedLine hmode hnames)
  refine ⟨?_, ?_, fun rules' hperm => applyCookieRulesToHeaders_perm hperm m⟩
  · rw [get_cookie hne hkey, cookieOutcome, hline]
    simp only [allEmpty_iff, List.forall_mem_map]
  · intro line seg segs hsegs
    have hparts : (split line 0x3B).filterMap (rulesOnToken rules) = seg :: segs := by
      rw [← hsegs]
      exact List.filterMap_congr fun seg hseg =>
        rulesOnToken_eq_editedSegment hmode hnames (not_mem_of_mem_split hseg)
    rw [← hline, split_editLine hparts]

/-- Strip `s` and redact `t`. -/
theorem cookie_rules_edit_two :
    Headers.get? (applyCookieRulesToHeaders
      (some ⟨[(cookieHeaderKey, some [str "s=1; t=2;u"])], by decide⟩)
      [⟨.strip, [str "s"]⟩, ⟨.redact, [str "t"]⟩]) cookieHeaderKey =
      some (some [str "t=[REDACTED];u"]) := by
  rw [(cookie_rules_edit _ _ _ (by decide) (by decide) (by decide) (by decide)).1]
  decide +kernel

/-! ### Allowlists -/

/-- The value of a cookie, in a part of a line or in a `Set-Cookie` entry. -/
def cookieValue (t : GoString) : GoString := afterByte (before t 0x3B) 0x3D

theorem cookieValue_trimLeft (t : GoString) : cookieValue (trimLeft t blanks) = cookieValue t := by
  rw [cookieValue, before_trimLeft _ semicolon_not_blank, cookieValue]
  generalize before t 0x3B = s
  by_cases h : 0x3D ∈ s
  · obtain ⟨u, w, hu, rfl⟩ := cut_at_eq h
    have hu' : 0x3D ∉ trimLeft u blanks := not_mem_trimLeft hu _
    rw [trimLeft_append_cons u w eq_not_blank, afterByte_append hu, afterByte_append hu']
  · have h' : 0x3D ∉ trimLeft s blanks := not_mem_trimLeft h _
    rw [afterByte_of_not_mem h, afterByte_of_not_mem h']

/-- What the parts of an edited line come from. -/
theorem mem_split_editLine {q : GoString} (h : q ∈ split (editLine rules line) 0x3B) :
    q = [] ∨ ∃ raw ∈ split line 0x3B, ∃ p, rulesOnToken rules raw = some p ∧
      (q = p ∨ q = trimLeft p blanks) := by
  have hmem : ∀ p ∈ (split line 0x3B).filterMap (rulesOnToken rules),
      ∃ raw ∈ split line 0x3B, rulesOnToken rules raw = some p := fun p => List.mem_filterMap.1
  cases hps : (split line 0x3B).filterMap (rulesOnToken rules) with
  | nil =>
    rw [editLine, hps] at h
    exact Or.inl (List.mem_singleton.1 h)
  | cons p ps =>
    rw [hps] at hmem
    rw [split_editLine hps] at h
    rcases List.mem_cons.1 h with rfl | h
    · obtain ⟨raw, hraw, hp⟩ := hmem p List.mem_cons_self
      exact Or.inr ⟨raw, hraw, p, hp, Or.inr rfl⟩
    · obtain ⟨raw, hraw, hp⟩ := hmem q (List.mem_cons_of_mem p h)
      exact Or.inr ⟨raw, hraw, q, hp, Or.inl rfl⟩

/-- What the rules leave of a part is in the edited line. -/
theorem split_editLine_of_mem (hraw : raw ∈ split line 0x3B)
    (hp : rulesOnToken rules raw = some p) :
    p ∈ split (editLine rules line) 0x3B ∨
      trimLeft p blanks ∈ split (editLine rules line) 0x3B := by
  have hmem : p ∈ (split line 0x3B).filterMap (rulesOnToken rules) :=
    List.mem_filterMap.2 ⟨raw, hraw, hp⟩
  obtain ⟨q, qs, hps⟩ := List.exists_cons_of_ne_nil (List.ne_nil_of_mem hmem)
  rw [hps] at hmem
  rw [split_editLine hps]
  rcases List.mem_cons.1 hmem with rfl | h
  · exact Or.inr List.mem_cons_self
  · exact Or.inl (List.mem_cons_of_mem _ h)

/-- No rule drops a cookie that is left in the list. -/
theorem verdict_of_mem_redactCookieSlice {cs : List Cookie} {c : Cookie}
    (h : c ∈ redactCookieSlice cs rules) :
    (∃ d ∈ cs, d.name = c.name) ∧ ∀ rule ∈ rules, rule.verdict c.name ≠ .drop := by
  induction rules generalizing cs with
  | nil => exact ⟨⟨c, h, rfl⟩, nofun⟩
  | cons rule rules ih =>
    rw [redactCookieSlice, List.foldl_cons, ← redactCookieSlice] at h
    obtain ⟨⟨d, hd, hname⟩, hrest⟩ := ih h
    obtain ⟨e, he, hed⟩ := List.mem_filterMap.1 hd
    -- the rule has kept the cookie, and with it the name
    have hkept : e.name = d.name ∧ rule.verdict e.name ≠ .drop := by
      unfold ruleOnCookie at hed
      split at hed
      · case h_1 hv => exact ⟨Option.some.inj hed ▸ rfl, by rw [hv]; decide⟩
      · case h_2 hv => exact ⟨Option.some.inj hed ▸ rfl, by rw [hv]; decide⟩
      · cases hed
    refine ⟨⟨e, he, hkept.1.trans hname⟩, List.forall_mem_cons.2 ⟨?_, hrest⟩⟩
    rw [← hname, ← hkept.1]
    exact hkept.2

/-- **Nothing but listed cookies is left**: no other part of the `Cookie` header, `Set-Cookie` entry
or cookie of the list has a value. -/
structure KeepsListed (names : List GoString) (rules : List CookieRule) (m : StringMap)
    (cookies : List Cookie) : Prop where
  cookie : ∀ key, findHeaderKey m cookieHeaderKey = some key →
    ∀ line ∈ (applyCookieRulesToHeaders (some m) rules).values key,
      ∀ seg ∈ split line 0x3B, cookieValue seg ≠ [] → cookieName seg ∈ names
  setCookie : ∀ key, findHeaderKey m setCookieHeaderKey = some key →
    ∀ v ∈ (applyCookieRulesToHeaders (some m) rules).values key,
      cookieValue v ≠ [] → cookieName v ∈ names
  list : ∀ c ∈ redactCookieSlice cookies rules, c.name ∈ names

/-- A cookie without a name has no value, either. -/
def NamelessEmpty (t : GoString) : Prop := cookieName t = [] → cookieValue t = []

instance (t : GoString) : Decidable (NamelessEmpty t) := inferInstanceAs (Decidable (_ → _))

section

variable {rules : List CookieRule} {al : CookieRule} {m : StringMap} {key : GoString}

theorem mem_names_of_verdict (hmode : al.mode = .allowlist) {name : GoString}
    (h : al.verdict name ≠ .drop) : name ∈ al.names := by
  by_contra hn
  exact h (verdict_drop_iff.2 (Or.inr ⟨hmode, hn⟩))

/-- What is left of a cookie is listed, or it had no name. -/
theorem listed_of_rulesOnToken (hal : al ∈ rules) (hmode : al.mode = .allowlist) {raw p : GoString}
    (h : rulesOnToken rules raw = some p) :
    cookieName p ∈ al.names ∨ cookieName raw = [] ∧ p = raw := by
  obtain ⟨hname, hraw | hkeep⟩ := rulesOnToken_some h
  · exact Or.inr hraw
  · exact Or.inl (hname ▸ mem_names_of_verdict hmode (hkeep al hal))

theorem mem_values_cookie (hne : rules ≠ []) (hkey : findHeaderKey m cookieHeaderKey = some key)
    {line : GoString} (hline : line ≠ []) :
    line ∈ (applyCookieRulesToHeaders (some m) rules).values key ↔
      ∃ line' ∈ slice m key, editLine rules line' = line := by
  rw [Headers.values, get_cookie hne hkey, cookieOutcome, ← List.mem_map]
  split_ifs with hempty
  · rw [allEmpty_iff] at hempty
    exact iff_of_false List.not_mem_nil fun hm => hline (hempty line hm)
  · rfl

theorem mem_values_setCookie (hne : rules ≠ [])
    (hkey : findHeaderKey m setCookieHeaderKey = some key) {v : GoString} :
    v ∈ (applyCookieRulesToHeaders (some m) rules).values key ↔
      ∃ v' ∈ slice m key, rulesOnToken rules v' = some v := by
  rw [Headers.values, get_setCookie hne hkey, setCookieOutcome, ← List.mem_filterMap]
  split_ifs with hempty
  · rw [hempty]
    rfl
  · rfl

/-- **When an allowlist leaves listed cookies only.** Parts without a name are never dropped. -/
theorem allowlist_keeps_iff (al : CookieRule) (hal : al ∈ rules) (hmode : al.mode = .allowlist)
    (m : StringMap) (cookies : List Cookie) :
    KeepsListed al.names rules m cookies ↔
      [] ∈ al.names ∨
        (∀ key, findHeaderKey m cookieHeaderKey = some key →
          ∀ line ∈ slice m key, ∀ seg ∈ split line 0x3B, NamelessEmpty seg) ∧
        ∀ key, findHeaderKey m setCookieHeaderKey = some key →
          ∀ v ∈ slice m key, NamelessEmpty v := by
  have hne : rules ≠ [] := List.ne_nil_of_mem hal
  constructor
  · intro h
    by_cases hempty : [] ∈ al.names
    · exact Or.inl hempty
    refine Or.inr ⟨fun key hkey line hline seg hseg hname => ?_, fun key hkey v hv hname => ?_⟩
    · -- the part is still there, and it has no name that could be listed
      by_contra hvalue
      have hkept := rulesOnToken_of_nameless hname rules
      obtain ⟨q, hq, hqname, hqvalue⟩ : ∃ q ∈ split (editLine rules line) 0x3B,
          cookieName q = [] ∧ cookieValue q = cookieValue seg := by
        rcases split_editLine_of_mem hseg hkept with hq | hq
        · exact ⟨seg, hq, hname, rfl⟩
        · exact ⟨_, hq, (cookieName_trimLeft seg).trans hname, cookieValue_trimLeft seg⟩
      have hline' : editLine rules line ≠ [] := by
        intro hnil
        rw [hnil] at hq
        obtain rfl : q = [] := List.mem_singleton.1 hq
        exact hvalue hqvalue.symm
      have hmem := (mem_values_cookie hne hkey hline').2 ⟨line, hline, rfl⟩
      exact hempty (hqname ▸ h.cookie key hkey _ hmem q hq (hqvalue ▸ hvalue))
    · by_contra hvalue
      have hmem := (mem_values_setCookie hne hkey).2 ⟨v, hv, rulesOnToken_of_nameless hname rules⟩
      exact hempty (hname ▸ h.setCookie key hkey v hmem hvalue)
  · intro h
    refine ⟨fun key hkey line hline seg hseg hvalue => ?_, fun key hkey v hv hvalue => ?_, ?_⟩
    · have hne' : line ≠ [] := by
        rintro rfl
        obtain rfl : seg = [] := List.mem_singleton.1 hseg
        exact hvalue rfl
      obtain ⟨line', hline', rfl⟩ := (mem_values_cookie hne hkey hne').1 hline
      rcases mem_split_editLine hseg with rfl | ⟨raw, hraw, p, hp, hq⟩
      · exact absurd rfl hvalue
      have hname : cookieName seg = cookieName p := by
        rcases hq with rfl | rfl
        · rfl
        · exact cookieName_trimLeft p
      have hvalue' : cookieValue seg = cookieValue p := by
        rcases hq with rfl | rfl
        · rfl
        · exact cookieValue_trimLeft p
      rw [hname]
      rcases listed_of_rulesOnToken hal hmode hp with hlisted | ⟨hnameless, rfl⟩
      · exact hlisted
      · rcases h with hempty | h
        · exact hnameless ▸ hempty
        · exact absurd (h.1 key hkey line' hline' p hraw hnameless) (hvalue' ▸ hvalue)
    · obtain ⟨v', hv', hp⟩ := (mem_values_setCookie hne hkey).1 hv
      rcases listed_of_rulesOnToken hal hmode hp with hlisted | ⟨hnameless, rfl⟩
      · exact hlisted
      · rcases h with hempty | h
        · exact hnameless ▸ hempty
        · exact absurd (h.2 key hkey v hv' hnameless) hvalue
    · intro c hc
      exact mem_names_of_verdict hmode ((verdict_of_mem_redactCookieSlice hc).2 al hal)

end

/-- An allowlist of `a`, and a line with another cookie. -/
theorem allowlist_keeps_listed :
    KeepsListed [str "a"] [⟨.allowlist, [str "a"]⟩]
      ⟨[(cookieHeaderKey, some [str "a=1; b=2"])], by decide⟩ [⟨str "b", str "2"⟩] := by
  refine (allowlist_keeps_iff ⟨.allowlist, [str "a"]⟩ List.mem_cons_self rfl _ _).2
    (Or.inr ⟨?_, ?_⟩)
  · intro key hkey
    obtain rfl : cookieHeaderKey = key := Option.some.inj hkey
    decide +kernel
  · intro key hkey
    cases hkey

/-- A part without a name gets through. -/
theorem allowlist_keeps_nameless :
    ¬ KeepsListed [str "a"] [⟨.allowlist, [str "a"]⟩]
      ⟨[(cookieHeaderKey, some [str "=secret"])], by decide⟩ [] := by
  intro h
  have := h.cookie cookieHeaderKey (by decide) (str "=secret") (by decide +kernel) (str "=secret")
    (by decide) (by decide)
  exact absurd this (by decide)

/-! ### Redacting a `Set-Cookie` entry -/

/-- The marker in place of what is between the first `=` and the next `;`, or the end. -/
def ReplacesValue (v out : GoString) : Prop :=
  ∃ u value rest, v = u ++ 0x3D :: (value ++ rest) ∧ 0x3D ∉ u ∧ 0x3B ∉ value ∧
    (rest = [] ∨ rest.head? = some 0x3B) ∧ out = u ++ 0x3D :: (redacted ++ rest)

/-- **Only the value is touched.** The attributes stay, and the value of a listed cookie goes. -/
structure TouchesValueOnly (names : List GoString) (v out : GoString) : Prop where
  edit : out = v ∨ ReplacesValue v out
  attributes_eq : attributes out = attributes v
  gone : cookieName v ∈ names → cookieValue v ≠ [] → cookieValue out = redacted

theorem replacesValue_append (hu : 0x3D ∉ u) (w : GoString) :
    ReplacesValue (u ++ 0x3D :: w) (u ++ 0x3D :: (redacted ++ attributes w)) := by
  refine ⟨u, before w 0x3B, attributes w, ?_, hu, not_mem_before w 0x3B, ?_, rfl⟩
  · rw [before_append_attributes]
  · refine (attributes_head w).imp_right ?_
    rintro ⟨rest, hrest⟩
    rw [hrest]
    rfl

/-- With the `=` before any `;` it is the value that is replaced. -/
theorem touchesValueOnly_of_mem {names : List GoString} (h : 0x3D ∈ before v 0x3B) :
    TouchesValueOnly names v (replaceCookieValue v) := by
  obtain ⟨u, w, hu, rfl⟩ := cut_at_eq ((List.takeWhile_sublist _).subset h)
  have hsemi : 0x3B ∉ u := by
    intro hm
    rw [before_append_of_mem hm] at h
    exact hu ((List.takeWhile_sublist _).subset h)
  have hmarker : 0x3B ∉ 0x3D :: redacted := by decide
  rw [replaceCookieValue_append hu]
  refine ⟨Or.inr (replacesValue_append hu w), ?_, fun _ _ => ?_⟩
  · rw [attributes_append hsemi, attributes_append hsemi, ← List.cons_append,
      attributes_append hmarker, attributes_attributes]
    rfl
  · have hcut : before (attributes w) 0x3B = [] := by
      rcases attributes_head w with hw | ⟨rest, hw⟩
      · rw [hw, before_nil]
      · rw [hw, before_cons_self]
    rw [cookieValue, before_append_of_not_mem hsemi, ← List.cons_append,
      before_append_of_not_mem hmarker, hcut, List.append_nil, afterByte_append hu]

/-- With the `=` after a `;` there is no value, and an attribute is replaced. -/
theorem touchesValueOnly_iff_of_not_mem {names : List GoString} (h : 0x3D ∉ before v 0x3B) :
    TouchesValueOnly names v (replaceCookieValue v) ↔ replaceCookieValue v = v := by
  constructor
  · intro ht
    by_cases hv : 0x3D ∈ v
    · obtain ⟨u, w, hu, rfl⟩ := cut_at_eq hv
      have hsemi : 0x3B ∈ u := by
        by_contra hsemi
        rw [before_append_of_not_mem hsemi, before_cons_of_ne (by decide)] at h
        exact h (List.mem_append_right u List.mem_cons_self)
      have hattr := ht.attributes_eq
      rw [replaceCookieValue_append hu, attributes_append_of_mem hsemi,
        attributes_append_of_mem hsemi, List.append_cancel_left_eq] at hattr
      rw [replaceCookieValue_append hu, hattr]
    · exact replaceCookieValue_of_not_mem hv
  · intro heq
    refine ⟨Or.inl heq, congrArg attributes heq, fun _ hvalue => ?_⟩
    exact absurd (afterByte_of_not_mem h) hvalue

/-- What a rule that redacts makes of an entry. -/
theorem applyRuleToSetCookieHeader_redact (names : List GoString) (v : GoString) :
    applyRuleToSetCookieHeader v ⟨.redact, names⟩ =
      some (if cookieName v ≠ [] ∧ cookieName v ∈ names then replaceCookieValue v else v) := by
  rw [applyRuleToSetCookieHeader_eq, ruleOnToken]
  by_cases hname : cookieName v = []
  · rw [if_pos hname, if_neg fun h => h.1 hname]
  · by_cases hlisted : cookieName v ∈ names
    · simp [CookieRule.verdict, hname, hlisted]
    · simp [CookieRule.verdict, hlisted]

/-- **When redacting a `Set-Cookie` entry touches its value only.** The value is looked for after
the first `=`, which may be one of an attribute. An entry without a name is left as it is. -/
theorem setCookie_redact_iff (names : List GoString) (v : GoString) :
    (∃ out, applyRuleToSetCookieHeader v ⟨.redact, names⟩ = some out ∧
      TouchesValueOnly names v out) ↔
      cookieName v ∉ names ∨
        if cookieName v = [] then cookieValue v = [] ∨ cookieValue v = redacted
        else 0x3D ∈ before v 0x3B ∨ 0x3D ∉ v ∨ before (afterByte v 0x3D) 0x3B = redacted := by
  have hself : TouchesValueOnly names v v ↔
      (cookieName v ∈ names → cookieValue v ≠ [] → cookieValue v = redacted) :=
    ⟨TouchesValueOnly.gone, fun h => ⟨Or.inl rfl, rfl, h⟩⟩
  simp only [applyRuleToSetCookieHeader_redact, Option.some.injEq, exists_eq_left']
  by_cases hlisted : cookieName v ∈ names
  · rw [or_iff_right (not_not.2 hlisted)]
    by_cases hname : cookieName v = []
    · rw [if_neg fun h => h.1 hname, if_pos hname, hself, or_iff_not_imp_left]
      exact ⟨fun h => h hlisted, fun h _ => h⟩
    · rw [if_pos ⟨hname, hlisted⟩, if_neg hname]
      by_cases hbefore : 0x3D ∈ before v 0x3B
      · exact iff_of_true (touchesValueOnly_of_mem hbefore) (Or.inl hbefore)
      · rw [touchesValueOnly_iff_of_not_mem hbefore, replaceCookieValue_eq_self_iff,
          or_iff_right hbefore]
  · rw [if_neg fun h => hlisted h.2]
    exact iff_of_true (hself.2 fun h => absurd h hlisted) (Or.inl hlisted)

/-- An entry without a value, and with an attribute that has one. -/
theorem setCookie_redact_attribute :
    ¬ ∃ out, applyRuleToSetCookieHeader (str "session; Path=/") ⟨.redact, [str "session"]⟩ =
      some out ∧ TouchesValueOnly [str "session"] (str "session; Path=/") out := by
  rintro ⟨out, hout, h⟩
  have : out = str "session; Path=[REDACTED]" := by
    have hrun : applyRuleToSetCookieHeader (str "session; Path=/") ⟨.redact, [str "session"]⟩ =
        some (str "session; Path=[REDACTED]") := by decide +kernel
    exact Option.some.inj (hout.symm.trans hrun)
  rw [this] at h
  exact absurd h.attributes_eq (by decide)

end HttpCatch.Redact

import HttpCatch.Library.JsonSearch
import HttpCatch.Redact.CookieLines
import HttpCatch.Redact.Uniform

/-!
# Reading cookies, and regex rules on a Cookie line

`net/http` reads a `Cookie` header line by line and part by part. Regex rules know nothing of the
parts: a rule replaces whatever its pattern matches in a line, and a match may lie within a part, go
across several or be empty.

What is known of a compiled pattern is what the documentation of `regexp` says: it finds matches in
a text, and `ReplaceAllLiteralString` puts the replacement in their place (`Finds`).

## Main results

* `mem_split_regexValue`: a part of a line that regex rules leave is one that no match touches, rule
  by rule, or has been made of a match.
* `redacted_infix_value`: the marker in a part that is read as a cookie is in the value of the
  cookie.
* `readLine_marker`: no cookie can be read from what regex rules make of the marker.
-/

namespace HttpCatch.Redact

open HttpCatch.Go HttpCatch.Capture HttpCatch.SearchQL

/-! ### Reading a Cookie header -/

/-- `validCookieValueByte` of `net/http`. -/
def validCookieValueByte (b : UInt8) : Bool :=
  0x20 ≤ b && b < 0x7F && b != 0x22 && b != 0x3B && b != 0x5C

/-- `parseCookieValue` of `net/http`; one pair of double quotes is taken off. -/
def parseCookieValue (raw : GoString) : Option GoString :=
  let v := if 1 < raw.length ∧ raw.head? = some 0x22 ∧
      raw.getLast? = some 0x22 then raw.tail.dropLast else raw
  if v.all validCookieValueByte then some v else none

/-- One part of a `Cookie` line, between two semicolons. -/
def readCookie (part : GoString) : Option Cookie :=
  let part := trimString part
  let name := trimString (before part 0x3D)
  if name ≠ [] ∧ name.all validHeaderFieldByte then (parseCookieValue (afterByte part 0x3D)).map
    (⟨name, ·⟩) else none

/-- The cookies of one line. -/
def readLine (line : GoString) : List Cookie := (split line 0x3B).filterMap readCookie

/-- The cookies that stand in the lines of a `Cookie` header. -/
def lineCookies (lines : List GoString) : List Cookie := lines.flatMap readLine

/-- `defaultCookieMaxNum` of `net/http`. -/
def cookieMaxNum : ℕ := 3000

/-- `readCookies` of `net/http`, on the lines of the `Cookie` header: what `r.Cookies()` returns. If
there are too many parts, none of them is read. -/
def readCookies (lines : List GoString) : List Cookie :=
  if cookieMaxNum < (lines.flatMap (split · 0x3B)).length then [] else lineCookies lines

theorem lineCookies_of_read {lines : List GoString} {c : Cookie} (h : c ∈ readCookies lines) :
    c ∈ lineCookies lines := by
  rw [readCookies] at h
  split_ifs at h
  · cases h
  · exact h

/-! ### Names -/

theorem visible_of_token {b : UInt8} (h : validHeaderFieldByte b) : 0x20 < b ∧ b < 0x80 := by
  simp only [validHeaderFieldByte, Bool.or_eq_true, Bool.and_eq_true, decide_eq_true_eq] at h
  rcases h with ((h | h) | h) | h
  iterate 3
    simp only [UInt8.lt_iff_toNat_lt, UInt8.le_iff_toNat_le, UInt8.reduceToNat] at h ⊢
    omega
  simp only [str, String.reduceToList, List.map_cons, List.map_nil, List.mem_cons, List.not_mem_nil,
    or_false] at h
  rcases h with rfl | rfl | rfl | rfl | rfl | rfl | rfl | rfl | rfl | rfl | rfl | rfl | rfl | rfl |
    rfl <;> decide

theorem blank_of_blanks {b : UInt8} (h : b ∈ blanks) : isBlank b := by
  rcases (by simpa [blanks, str] using h : b = 0x20 ∨ b = 0x09) with rfl | rfl <;> decide

/-- The redactor and `net/http` agree on the name of a cookie. -/
theorem cookieName_of_read {p : GoString} {c : Cookie} (h : readCookie p = some c) (hp : 0x3B ∉ p) :
    cookieName p = c.name ∧ c.name ≠ [] := by
  unfold readCookie at h
  dsimp only at h
  split_ifs at h with hn
  obtain ⟨v, -, rfl⟩ := Option.map_eq_some_iff.1 h
  obtain ⟨hne, htok⟩ := hn
  rw [List.all_eq_true] at htok
  refine ⟨?_, hne⟩
  have hword : Padded (trimString (before (trimString p) 0x3D)) (before p 0x3D) :=
    padded_before (by decide) (padded_trimString p) (padded_trimString _)
  have hsemi : before (trimLeft p blanks) 0x3B = trimLeft p blanks :=
    before_of_not_mem (not_mem_trimLeft hp _)
  rw [cookieName, hsemi, before_trimLeft p eq_not_blank]
  apply trimSpace_pad
  · refine padded_trimLeft hword hne fun b hb hbl => ?_
    exact not_lt_of_ge (le_of_isBlank (blank_of_blanks hbl)) (visible_of_token (htok b hb)).1
  · exact fun b hb => visible_of_token (htok b hb)

/-! ### The marker in a cookie -/

section Marker

variable {u s : GoString}

/-- A text is found between bytes it does not have. -/
theorem infix_of_padding {x y : GoString} (hne : u ≠ []) (hx : ∀ b ∈ x, b ∉ u) (hy : ∀ b ∈ y, b ∉ u)
    (h : u <:+: x ++ s ++ y) : u <:+: s := by
  have hleft : u <:+: s ++ y := by
    rw [List.append_assoc] at h
    induction x with
    | nil => exact h
    | cons b x ih =>
      rw [List.forall_mem_cons] at hx
      have hsep := (Json.infix_sep (a := []) hx.1).1 h
      exact ih hx.2 (hsep.resolve_left fun hnil => hne (List.infix_nil.1 hnil))
  cases y with
  | nil => rwa [List.append_nil] at hleft
  | cons b y =>
    rw [List.forall_mem_cons] at hy
    refine ((Json.infix_sep hy.1).1 hleft).resolve_right fun hin => ?_
    obtain ⟨c, t, rfl⟩ := List.exists_cons_of_ne_nil hne
    exact hy.2 c (hin.subset List.mem_cons_self) List.mem_cons_self

theorem redacted_ne_nil : redacted ≠ [] := by decide

theorem redacted_blank {b : UInt8} (h : isBlank b = true) : b ∉ redacted := by
  simp only [isBlank, Bool.or_eq_true, beq_iff_eq] at h
  rcases h with ((rfl | rfl) | rfl) | rfl <;> decide

/-- Trimming leaves the marker. -/
theorem redacted_infix_trimString (h : redacted <:+: s) : redacted <:+: trimString s := by
  obtain ⟨x, y, hx, hy, heq⟩ := padded_trimString s
  rw [heq] at h
  exact infix_of_padding redacted_ne_nil (fun b hb => redacted_blank (hx b hb))
    (fun b hb => redacted_blank (hy b hb)) h

/-- No name of a cookie has the marker in it. -/
theorem not_token_of_redacted (h : redacted <:+: s) : ¬s.all validHeaderFieldByte = true := by
  intro hall
  rw [List.all_eq_true] at hall
  exact absurd (hall 0x5B (h.subset (by decide))) (by decide)

/-- **The marker in a part that is read as a cookie is in the value of the cookie.** -/
theorem redacted_infix_value {p : GoString} {c : Cookie} (hread : readCookie p = some c)
    (h : redacted <:+: p) : redacted <:+: c.value := by
  rw [readCookie] at hread
  split_ifs at hread with hname
  obtain ⟨v, hv, rfl⟩ := Option.map_eq_some_iff.1 hread
  have hpart : redacted <:+: trimString p := redacted_infix_trimString h
  have hraw : redacted <:+: afterByte (trimString p) 0x3D := by
    by_cases heq : 0x3D ∈ trimString p
    · obtain ⟨u, w, hp, hu⟩ := List.eq_append_cons_of_mem heq
      rw [hp, before_append_of_not_mem hu, before_cons_self, List.append_nil] at hname
      rw [hp] at hpart ⊢
      rw [afterByte_append hu]
      refine ((Json.infix_sep (by decide)).1 hpart).resolve_left fun hin => ?_
      exact not_token_of_redacted (redacted_infix_trimString hin) hname.2
    · rw [before_of_not_mem heq] at hname
      exact absurd hname.2 (not_token_of_redacted (redacted_infix_trimString hpart))
  rw [parseCookieValue] at hv
  generalize afterByte (trimString p) 0x3D = raw at hv hraw
  split_ifs at hv with hquoted hvalid hvalid
  · -- the quotes are not part of the marker
    obtain rfl := Option.some.inj hv
    obtain ⟨hlen, hhead, hlast⟩ := hquoted
    cases raw with
    | nil => cases hhead
    | cons q t =>
      obtain rfl : q = 0x22 := Option.some.inj hhead
      have ht : t ≠ [] := by
        rintro rfl
        simp at hlen
      have hsplit : 0x22 :: t = [0x22] ++ t.dropLast ++ [t.getLast ht] := by
        rw [List.append_assoc, List.dropLast_append_getLast ht]
        rfl
      rw [List.getLast?_cons_of_ne_nil ht, List.getLast?_eq_some_getLast ht] at hlast
      rw [hsplit, Option.some.inj hlast] at hraw
      have hquote : ∀ b ∈ ([0x22] : GoString), b ∉ redacted := by
        intro b hb
        obtain rfl := List.mem_singleton.1 hb
        decide
      exact infix_of_padding redacted_ne_nil hquote hquote hraw
  · obtain rfl := Option.some.inj hv
    exact hraw

end Marker

/-! ### Regex rules on a line -/

/-- A text cut into the matches of a pattern and the bytes between them. -/
inductive Mark where
  /-- A byte that is in no match. -/
  | byte (b : UInt8)
  /-- A match. -/
  | found (m : GoString)
  deriving DecidableEq

/-- The text that was cut. -/
def Mark.text : Mark → GoString
  | .byte b => [b]
  | .found m => m

/-- The text with the marker in the place of each match. -/
def Mark.fill : Mark → GoString
  | .byte b => [b]
  | .found _ => redacted

/-- **What `ReplaceAllLiteralString` is said to do**: the pattern has matches in a text, and the
replacement takes their place. -/
structure Finds (p : Regexp) (marks : GoString → List Mark) : Prop where
  text : ∀ s, (marks s).flatMap Mark.text = s
  replace : ∀ s, p.replaceAllLiteralString s redacted = (marks s).flatMap Mark.fill

/-- The parts of a line that is cut so, between semicolons that are in no match. -/
def segments (ms : List Mark) : List (List Mark) := ms.splitOn (.byte 0x3B)

section Segments

variable {g : Mark → GoString} {ms : List Mark} {q : GoString}

theorem split_cons (b : UInt8) (s : GoString) (sep : UInt8) :
    split (b :: s) sep =
      if b = sep then [] :: split s sep else (split s sep).modifyHead (b :: ·) := by
  simp [split, List.splitOn_cons_eq_if_modifyHead]

theorem segments_cons (x : Mark) (ms : List Mark) :
    segments (x :: ms) =
      if x = .byte 0x3B then [] :: segments ms else (segments ms).modifyHead (x :: ·) := by
  simp [segments, List.splitOn_cons_eq_if_modifyHead]

theorem segments_ne_nil (ms : List Mark) : segments ms ≠ [] := List.splitOn_ne_nil _ _

theorem split_append_right {u s s' : GoString} {sep : UInt8} {parts : List GoString}
    (h : split s' sep = split s sep ++ parts) :
    split (u ++ s') sep = split (u ++ s) sep ++ parts := by
  induction u with
  | nil => exact h
  | cons b u ih =>
    obtain ⟨p, ps, hp⟩ := List.exists_cons_of_ne_nil (split_ne_nil (u ++ s) sep)
    rw [List.cons_append, List.cons_append, split_cons, split_cons, ih, hp]
    split_ifs <;> rfl

/-- A line is cut at the semicolons outside the matches, and then at those within. -/
theorem split_flatMap (hsep : g (.byte 0x3B) = [0x3B]) :
    split (ms.flatMap g) 0x3B = (segments ms).flatMap fun seg => split (seg.flatMap g) 0x3B := by
  induction ms with
  | nil => rfl
  | cons x ms ih =>
    obtain ⟨seg, segs, hsegs⟩ := List.exists_cons_of_ne_nil (segments_ne_nil ms)
    rw [segments_cons, List.flatMap_cons]
    split_ifs with hx
    · rw [hx, hsep, List.singleton_append, split_cons, if_pos rfl, ih, List.flatMap_cons]
      rfl
    · rw [hsegs, List.modifyHead_cons, List.flatMap_cons, List.flatMap_cons]
      rw [hsegs, List.flatMap_cons] at ih
      exact split_append_right ih

theorem split_of_not_mem {sep : UInt8} (h : sep ∉ q) : split q sep = [q] := by
  have hone := @split_join sep [q] (by simpa using h) (List.cons_ne_nil _ _)
  rwa [join, List.intercalate_singleton] at hone

/-- The bytes between two semicolons are none. -/
theorem not_mem_segment {seg : List Mark} (h : seg ∈ segments ms) : .byte 0x3B ∉ seg := by
  induction ms generalizing seg with
  | nil =>
    obtain rfl : seg = [] := by simpa [segments] using h
    exact List.not_mem_nil
  | cons x ms ih =>
    obtain ⟨p, ps, hp⟩ := List.exists_cons_of_ne_nil (segments_ne_nil ms)
    rw [segments_cons, hp] at h
    rw [hp] at ih
    split_ifs at h with hx
    · rcases List.mem_cons.1 h with rfl | h
      · exact List.not_mem_nil
      · exact ih h
    · rcases List.mem_cons.1 h with rfl | h
      · rw [List.mem_cons, not_or]
        exact ⟨Ne.symm hx, ih List.mem_cons_self⟩
      · exact ih (List.mem_cons_of_mem _ h)

/-- The replacement has no semicolon, so the parts of the result are the parts filled. -/
theorem split_fill (ms : List Mark) :
    split (ms.flatMap Mark.fill) 0x3B = (segments ms).map fun seg => seg.flatMap Mark.fill := by
  rw [split_flatMap rfl, ← List.flatMap_pure_eq_map]
  refine List.flatMap_congr fun seg hseg => split_of_not_mem fun hmem => ?_
  obtain ⟨x, hx, hb⟩ := List.mem_flatMap.1 hmem
  cases x with
  | byte b =>
    obtain rfl : 0x3B = b := List.mem_singleton.1 hb
    exact not_mem_segment hseg hx
  | found m =>
    have hno : 0x3B ∉ redacted := by decide
    exact hno hb

theorem flatMap_bytes (hg : ∀ b, g (.byte b) = [b]) (q : GoString) :
    (q.map Mark.byte).flatMap g = q := by
  rw [List.flatMap_map]
  simp only [hg]
  exact List.flatMap_singleton' q

/-- A part that is in no match is a part of the line. -/
theorem mem_split_of_segment (hg : ∀ b, g (.byte b) = [b])
    (h : q.map .byte ∈ segments ms) : q ∈ split (ms.flatMap g) 0x3B := by
  have hq : 0x3B ∉ q := fun hmem => not_mem_segment h (List.mem_map_of_mem hmem)
  rw [split_flatMap (hg 0x3B), List.mem_flatMap]
  refine ⟨_, h, ?_⟩
  rw [flatMap_bytes hg, split_of_not_mem hq]
  exact List.mem_singleton.2 rfl

/-- A part without a match is its bytes. -/
theorem bytes_or_found (seg : List Mark) :
    (∃ q : GoString, seg = q.map .byte) ∨ ∃ m, .found m ∈ seg := by
  induction seg with
  | nil => exact .inl ⟨[], rfl⟩
  | cons x seg ih =>
    cases x with
    | found m => exact .inr ⟨m, List.mem_cons_self⟩
    | byte b =>
      rcases ih with ⟨q, rfl⟩ | ⟨m, hm⟩
      · exact .inl ⟨b :: q, rfl⟩
      · exact .inr ⟨m, List.mem_cons_of_mem _ hm⟩

end Segments

section Rules

variable (find : RegexRule → GoString → List Mark)

/-- **No match of the rules touches the part**, in the line as the rules before have left it. -/
def Spared (q : GoString) : List RegexRule → GoString → Prop
  | [], _ => True
  | rule :: rules, line =>
    q.map .byte ∈ segments (find rule line) ∧
      Spared q rules ((find rule line).flatMap Mark.fill)

/-- A rule makes the part, with the marker in the place of a match, and no later one touches it. -/
def Forged (q : GoString) : List RegexRule → GoString → Prop
  | [], _ => False
  | rule :: rules, line =>
    (∃ seg ∈ segments (find rule line), (∃ m, .found m ∈ seg) ∧ seg.flatMap Mark.fill = q) ∧
        Spared find q rules ((find rule line).flatMap Mark.fill) ∨
      Forged q rules ((find rule line).flatMap Mark.fill)

variable {find} {rules : List RegexRule} {line q : GoString}

/-- **The parts of a line that regex rules leave.** -/
theorem mem_split_regexValue (h : ∀ rule ∈ rules, Finds rule.pattern (find rule)) :
    q ∈ split (regexValue rules line) 0x3B ↔
      q ∈ split line 0x3B ∧ Spared find q rules line ∨ Forged find q rules line := by
  induction rules generalizing line with
  | nil => simp [regexValue, Spared, Forged]
  | cons rule rules ih =>
    obtain ⟨hrule, hrules⟩ := List.forall_mem_cons.1 h
    rw [regexValue, List.foldl_cons, hrule.replace, ← regexValue, ih hrules, split_fill,
      List.mem_map, Spared, Forged]
    constructor
    · rintro (⟨⟨seg, hseg, rfl⟩, hspared⟩ | hforged)
      · rcases bytes_or_found seg with ⟨q, rfl⟩ | hfound
        · rw [flatMap_bytes fun _ => rfl] at hspared ⊢
          have hpart := mem_split_of_segment (g := Mark.text) (fun _ => rfl) hseg
          rw [hrule.text] at hpart
          exact .inl ⟨hpart, hseg, hspared⟩
        · exact .inr (.inl ⟨⟨seg, hseg, hfound, rfl⟩, hspared⟩)
      · exact .inr (.inr hforged)
    · rintro (⟨-, hseg, hspared⟩ | ⟨⟨seg, hseg, -, rfl⟩, hspared⟩ | hforged)
      · exact .inl ⟨⟨_, hseg, flatMap_bytes (fun _ => rfl) q⟩, hspared⟩
      · exact .inl ⟨⟨seg, hseg, rfl⟩, hspared⟩
      · exact .inr hforged

/-- A forged part has the marker in it. -/
theorem redacted_of_forged (h : Forged find q rules line) : redacted <:+: q := by
  induction rules generalizing line with
  | nil => exact h.elim
  | cons rule rules ih =>
    rcases h with ⟨⟨seg, -, ⟨m, hm⟩, rfl⟩, -⟩ | h
    · obtain ⟨a, b, rfl⟩ := List.append_of_mem hm
      rw [List.flatMap_append, List.flatMap_cons]
      exact ⟨_, _, List.append_assoc _ _ _⟩
    · exact ih h

/-- What regex rules make of the marker has a bracket, and neither `=` nor semicolon. -/
theorem regexValue_marker (h : ∀ rule ∈ rules, Finds rule.pattern (find rule))
    (hline : 0x5B ∈ line ∧ 0x3D ∉ line ∧ 0x3B ∉ line) :
    0x5B ∈ regexValue rules line ∧ 0x3D ∉ regexValue rules line ∧
      0x3B ∉ regexValue rules line := by
  induction rules generalizing line with
  | nil => exact hline
  | cons rule rules ih =>
    obtain ⟨hrule, hrules⟩ := List.forall_mem_cons.1 h
    rw [regexValue, List.foldl_cons, hrule.replace, ← regexValue]
    have htext := hrule.text line
    have hnot : ∀ b ∉ redacted, b ∉ line → b ∉ (find rule line).flatMap Mark.fill := by
      intro b hb hmem hfill
      obtain ⟨x, hx, hbx⟩ := List.mem_flatMap.1 hfill
      cases x with
      | byte c => exact hmem (htext ▸ List.mem_flatMap.2 ⟨_, hx, hbx⟩)
      | found m => exact hb hbx
    refine ih hrules ⟨?_, hnot _ (by decide) hline.2.1, hnot _ (by decide) hline.2.2⟩
    -- the bracket is in a match, and then there is a marker, or it stays
    obtain ⟨x, hx, hb⟩ := List.mem_flatMap.1 (htext.symm ▸ hline.1)
    cases x with
    | byte c => exact List.mem_flatMap.2 ⟨_, hx, hb⟩
    | found m =>
      have hin : 0x5B ∈ redacted := by decide
      exact List.mem_flatMap.2 ⟨_, hx, hin⟩

/-- **No cookie can be read from what regex rules make of the marker.** -/
theorem readLine_marker (h : ∀ rule ∈ rules, Finds rule.pattern (find rule)) :
    readLine (regexValue rules redacted) = [] := by
  have hmarker : 0x5B ∈ redacted ∧ 0x3D ∉ redacted ∧ 0x3B ∉ redacted := by decide
  obtain ⟨hbracket, heq, hsemi⟩ := regexValue_marker h hmarker
  generalize regexValue rules redacted = line at hbracket heq hsemi
  have htrim : ∀ s : GoString, 0x5B ∈ s → 0x5B ∈ trimString s := by
    intro s hs
    obtain ⟨x, y, hx, hy, hpad⟩ := padded_trimString s
    rw [hpad, List.mem_append, List.mem_append] at hs
    rcases hs with (hs | hs) | hs
    · exact absurd (hx _ hs) (by decide)
    · exact hs
    · exact absurd (hy _ hs) (by decide)
  have hno : 0x3D ∉ trimString line := by
    intro hmem
    obtain ⟨x, y, -, -, hpad⟩ := padded_trimString line
    exact heq (hpad ▸ List.mem_append_left y (List.mem_append_right x hmem))
  rw [readLine, split_of_not_mem hsemi, List.filterMap_cons, List.filterMap_nil, readCookie,
    before_of_not_mem hno, if_neg]
  · rintro ⟨-, hall⟩
    rw [List.all_eq_true] at hall
    exact absurd (hall 0x5B (htrim _ (htrim _ hbracket))) (by decide)

end Rules

end HttpCatch.Redact

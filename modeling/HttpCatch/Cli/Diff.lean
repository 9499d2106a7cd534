import HttpCatch.Library.Decimal
import HttpCatch.Library.LastWins
import HttpCatch.Redact.Cookies
import HttpCatch.Redact.Uniform

/-!
# The dry run of the redaction rules

`internal/cli/redactcmd`: `httpcatch redact --test` applies the rules to a sample and prints which
fields they change. The diff merges the keys of the two header maps by their canonical form, and
the cookies by their names, in maps where the last one wins.

A map is its list of entries in the order in which a loop visits them. The table of printable
characters is a parameter, `isPrint`.

* `mem_diffStringSliceMap`, `mem_diffCookieSlice` — the lines of a section.
* `mem_diffRecords` — the lines of the diff.
-/

namespace HttpCatch.Cli

open HttpCatch.Go HttpCatch.Capture HttpCatch.SearchQL HttpCatch.Redact HttpCatch.LastWins

/-! ### Formatting -/

/-- A digit as `strconv` writes it in base 16. -/
def lowerHex (n : ℕ) : UInt8 := UInt8.ofNat (if n < 10 then 0x30 + n else 0x57 + n)

/-- The last `w` digits of a number in base 16. -/
def hexText : ℕ → ℕ → GoString
  | 0, _ => []
  | w + 1, n => hexText w (n / 16) ++ [lowerHex (n % 16)]

/-- The code of a multi-byte character. -/
def runeOf (bs : GoString) : ℕ :=
  match bs with
  | [b₀, b₁] => b₀.toNat % 32 * 64 + b₁.toNat % 64
  | [b₀, b₁, b₂] => (b₀.toNat % 16 * 64 + b₁.toNat % 64) * 64 + b₂.toNat % 64
  | [b₀, b₁, b₂, b₃] =>
    ((b₀.toNat % 8 * 64 + b₁.toNat % 64) * 64 + b₂.toNat % 64) * 64 + b₃.toNat % 64
  | _ => 0

section Format

variable (isPrint : GoString → Bool)

/-- How `strconv.Quote` writes a piece of a string. -/
def quotePiece : Piece → GoString
  | .ascii b =>
    if b = 0x22 ∨ b = 0x5C then [0x5C, b]
    else if 0x20 ≤ b ∧ b < 0x7F then [b]
    else if b = 0x07 then str "\\a"
    else if b = 0x08 then str "\\b"
    else if b = 0x0C then str "\\f"
    else if b = 0x0A then str "\\n"
    else if b = 0x0D then str "\\r"
    else if b = 0x09 then str "\\t"
    else if b = 0x0B then str "\\v"
    else str "\\x" ++ hexText 2 b.toNat
  | .multi bs =>
    if isPrint bs then bs
    else if runeOf bs < 0x10000 then str "\\u" ++ hexText 4 (runeOf bs)
    else str "\\U" ++ hexText 8 (runeOf bs)
  | .bad b => str "\\x" ++ hexText 2 b.toNat

/-- `fmt.Sprintf("%q", s)`. -/
def quote (s : GoString) : GoString :=
  str "\"" ++ (pieces s).flatMap (quotePiece isPrint) ++ str "\""

/-- `fmt.Sprintf("<masked: %d chars>", utf8.RuneCountInString(v))`. -/
def masked (v : GoString) : GoString :=
  str "<masked: " ++ sprintDecimal (pieces v).length ++ str " chars>"

/-! ### The diff -/

/-- `DiffEntry`. -/
structure DiffEntry where
  path : GoString
  before : GoString
  after : GoString
  deriving DecidableEq

/-- `removedMarker`. -/
def removedMarker : GoString := str "<removed>"

/-- `addedMarker`. -/
def addedMarker : GoString := str "<added>"

/-- An entry of a map. -/
abbrev Entry := GoString × Option (List GoString)

/-- The `pair` of `diffStringSliceMap`; a side that is not present is none. -/
structure Pair where
  left : Option Entry
  right : Option Entry

/-- A round of the loop over `before`. -/
def mergeLeft (normaliseKey : GoString → GoString) (merged : GoString → Option Pair) (kv : Entry) :
    GoString → Option Pair :=
  Function.update merged (normaliseKey kv.1) (some ⟨some kv, none⟩)

/-- A round of the loop over `after`. -/
def mergeRight (normaliseKey : GoString → GoString) (merged : GoString → Option Pair)
    (kv : Entry) : GoString → Option Pair :=
  Function.update merged (normaliseKey kv.1)
    (match merged (normaliseKey kv.1) with
    | some p => some { p with right := some kv }
    | none => some ⟨none, some kv⟩)

/-- `merged`. -/
def merged (normaliseKey : GoString → GoString) (before after : List Entry) :
    GoString → Option Pair :=
  after.foldl (mergeRight normaliseKey) (before.foldl (mergeLeft normaliseKey) fun _ => none)

/-- The keys of `merged`, sorted. -/
def mergedKeys (normaliseKey : GoString → GoString) (before after : List Entry) : List GoString :=
  ((before ++ after).map fun kv => normaliseKey kv.1).dedup.mergeSort (· ≤ ·)

/-- `formatSliceSide`; a side that is not present is none. -/
def formatSliceSide (side : Option Entry) (absentMarker : GoString) (mask : Bool) : GoString :=
  match side with
  | none => absentMarker
  | some kv =>
    match kv.2.getD [] with
    | [] => str "\"\""
    | vals => (str ", ").intercalate (vals.map fun v => if mask then masked v else quote isPrint v)

/-- Both sides are present and `stringSliceEqual` says that they have the same values. -/
def Pair.same (p : Pair) : Bool :=
  match p.left, p.right with
  | some kv, some kv' => decide (kv.2.getD [] = kv'.2.getD [])
  | _, _ => false

/-- `p.left.display`, or `p.right.display` when it is empty. -/
def Pair.display (p : Pair) : GoString :=
  let left := (p.left.map Prod.fst).getD []
  if left = [] then (p.right.map Prod.fst).getD [] else left

/-- The line of a pair, if there is one. -/
def pairEntry (section_ : GoString) (maskBefore : Bool) (p : Pair) : Option DiffEntry :=
  if p.same then none
  else some ⟨section_ ++ str "." ++ p.display,
    formatSliceSide isPrint p.left addedMarker maskBefore,
    formatSliceSide isPrint p.right removedMarker false⟩

/-- `diffStringSliceMap`. -/
def diffStringSliceMap (section_ : GoString) (before after : Headers)
    (normaliseKey : GoString → GoString) (maskBefore : Bool) : List DiffEntry :=
  (mergedKeys normaliseKey before.entries after.entries).filterMap fun nk =>
    (merged normaliseKey before.entries after.entries nk).bind
      (pairEntry isPrint section_ maskBefore)

/-- How `diffCookieSlice` shows a value of the sample. -/
def shownValue (maskBefore : Bool) (v : GoString) : GoString := if maskBefore then masked v else v

/-- Both cookies are there, with the same value. -/
def sameCookie : Option Cookie → Option Cookie → Bool
  | some c, some c' => decide (c.value = c'.value)
  | _, _ => false

/-- The line of a cookie name, from what the two maps hold for it. -/
def cookieEntry (maskBefore : Bool) (name : GoString) (before after : Option Cookie) :
    Option DiffEntry :=
  if sameCookie before after then none
  else some ⟨str "cookies." ++ name,
    (before.map fun c => shownValue maskBefore c.value).getD addedMarker,
    (after.map Cookie.value).getD removedMarker⟩

/-- `diffCookieSlice`; `beforeMap` and `afterMap` hold the last cookie of each name. -/
def diffCookieSlice (before after : List Cookie) (maskBefore : Bool) : List DiffEntry :=
  let sorted := ((before ++ after).map Cookie.name).dedup.mergeSort (· ≤ ·)
  sorted.filterMap fun n =>
    cookieEntry maskBefore n (lastOf Cookie.name before n) (lastOf Cookie.name after n)

/-- `fmt.Sprintf("%d bytes", len(body))`. -/
def bodySize (body : Option GoString) : GoString :=
  sprintDecimal (body.getD []).length ++ str " bytes"

/-- `diffRecords`. -/
def diffRecords (before after : CapturedRequest) (maskBefore : Bool) : List DiffEntry :=
  let entries :=
    (if before.path ≠ after.path then [⟨str "path", before.path, after.path⟩] else []) ++
    diffStringSliceMap isPrint (str "headers") before.headers after.headers canonicalMIMEHeaderKey
      maskBefore ++
    diffStringSliceMap isPrint (str "query") before.query after.query id maskBefore ++
    diffCookieSlice (before.cookies.getD []) (after.cookies.getD []) maskBefore ++
    (if before.body.getD [] ≠ after.body.getD [] then
      [⟨str "body", bodySize before.body, bodySize after.body⟩] else [])
  entries.mergeSort fun e e' => e.path ≤ e'.path

end Format

/-- `cloneRecord`; nil slices in the maps become empty ones. -/
def cloneRecord (rec : CapturedRequest) : CapturedRequest :=
  { rec with headers := copyStringSliceMap rec.headers, query := copyStringSliceMap rec.query }

/-- The sample after `Redact`. -/
def redactRequest (U : Unicode) (L : Libraries) (rs : Ruleset) (r : CapturedRequest) :
    CapturedRequest :=
  if rs.isUnredacted then r else (redactCapturedRequest U L rs r).1

theorem redact_request (U : Unicode) (L : Libraries) (rs : Ruleset) (r : CapturedRequest) :
    (redact U L rs (.request r)).1 = .request (redactRequest U L rs r) := by
  rw [redact, redactRequest]
  split_ifs <;> rfl

/-- `renderDiff`. -/
def renderDiff (entries : List DiffEntry) : GoString :=
  if entries = [] then str "no changes\n"
  else entries.flatMap fun e => e.path ++ str ": " ++ e.before ++ str " -> " ++ e.after ++ str "\n"

/-! ### What the loops leave -/

/-- The second map has no key that the first one has not. -/
def KeysOf (h h' : Headers) : Prop := ∀ kv ∈ h'.entries, ∃ kv' ∈ h.entries, kv'.1 = kv.1

section Merge

variable {normaliseKey : GoString → GoString}

/-- What the loop over `before` leaves. -/
theorem foldl_mergeLeft (before : List Entry) (nk : GoString) :
    before.foldl (mergeLeft normaliseKey) (fun _ => none) nk =
      (lastOf (fun kv => normaliseKey kv.1) before nk).map fun kv => ⟨some kv, none⟩ := by
  induction before using List.reverseRecOn with
  | nil => rfl
  | append_singleton before kv ih =>
    rw [List.foldl_append, List.foldl_cons, List.foldl_nil, lastOf_concat, mergeLeft,
      Function.update_apply, ih]
    by_cases hk : normaliseKey kv.1 = nk
    · rw [if_pos hk.symm, if_pos hk, Option.map_some]
    · rw [if_neg (Ne.symm hk), if_neg hk]

/-- What the loop over `after` adds to it. -/
theorem foldl_mergeRight (m : GoString → Option Pair) (after : List Entry) (nk : GoString) :
    after.foldl (mergeRight normaliseKey) m nk =
      match lastOf (fun kv => normaliseKey kv.1) after nk with
      | none => m nk
      | some kv => some ⟨(m nk).bind Pair.left, some kv⟩ := by
  induction after using List.reverseRecOn with
  | nil => rfl
  | append_singleton after kv ih =>
    rw [List.foldl_append, List.foldl_cons, List.foldl_nil, lastOf_concat, mergeRight,
      Function.update_apply]
    by_cases hk : normaliseKey kv.1 = nk
    · subst hk
      rw [if_pos rfl, if_pos rfl, ih]
      cases lastOf (fun kv => normaliseKey kv.1) after (normaliseKey kv.1) with
      | some kv' => rfl
      | none => cases m (normaliseKey kv.1) <;> rfl
    · rw [if_neg (Ne.symm hk), if_neg hk, ih]

/-- `merged` holds the last entries of the two maps whose keys have the normal form. -/
theorem merged_eq (normaliseKey : GoString → GoString) (before after : List Entry)
    (nk : GoString) :
    merged normaliseKey before after nk =
      match lastOf (fun kv => normaliseKey kv.1) before nk,
        lastOf (fun kv => normaliseKey kv.1) after nk with
      | none, none => none
      | left, right => some ⟨left, right⟩ := by
  rw [merged, foldl_mergeRight, foldl_mergeLeft]
  cases lastOf (fun kv => normaliseKey kv.1) before nk <;>
    cases lastOf (fun kv => normaliseKey kv.1) after nk <;> rfl

/-- When `after` has no key of its own, each line is that of an entry of `before` that is the
last one of its normal form. -/
theorem mem_diffStringSliceMap {isPrint : GoString → Bool} {section_ : GoString}
    {before after : Headers} {mask : Bool} {e : DiffEntry}
    (hkeys : KeysOf before after) :
    e ∈ diffStringSliceMap isPrint section_ before after normaliseKey mask ↔
      ∃ kv, lastOf (fun kv => normaliseKey kv.1) before.entries (normaliseKey kv.1) = some kv ∧
        pairEntry isPrint section_ mask
          ⟨some kv, lastOf (fun kv => normaliseKey kv.1) after.entries (normaliseKey kv.1)⟩ =
            some e := by
  rw [diffStringSliceMap, List.mem_filterMap]
  constructor
  · rintro ⟨nk, -, he⟩
    obtain ⟨p, hp, he⟩ := Option.bind_eq_some_iff.1 he
    rw [merged_eq] at hp
    cases hleft : lastOf (fun kv => normaliseKey kv.1) before.entries nk with
    | some kv =>
      obtain ⟨-, rfl⟩ := mem_of_lastOf hleft
      rw [hleft] at hp
      obtain rfl := Option.some.inj hp
      exact ⟨kv, hleft, he⟩
    | none =>
      cases hright : lastOf (fun kv => normaliseKey kv.1) after.entries nk with
      | none =>
        rw [hleft, hright] at hp
        cases hp
      | some kv =>
        obtain ⟨hmem, rfl⟩ := mem_of_lastOf hright
        obtain ⟨kv', hmem', hkey⟩ := hkeys kv hmem
        exact absurd (by rw [hkey]) (lastOf_eq_none.1 hleft kv' hmem')
  · rintro ⟨kv, hkv, he⟩
    refine ⟨normaliseKey kv.1, ?_, ?_⟩
    · rw [mergedKeys, List.mem_mergeSort, List.mem_dedup]
      exact List.mem_map_of_mem (List.mem_append_left _ (mem_of_lastOf hkv).1)
    · rw [merged_eq, hkv]
      exact he

end Merge

/-- When `after` is an edit of `before` that keeps the names, each line is that of the last cookie
of its name. -/
theorem mem_diffCookieSlice {f : Cookie → Option Cookie} {before : List Cookie} {mask : Bool}
    {e : DiffEntry} (hname : ∀ c c', f c = some c' → c'.name = c.name)
    (hdrop : ∀ c c', c.name = c'.name → f c = none → f c' = none) :
    e ∈ diffCookieSlice before (before.filterMap f) mask ↔
      ∃ c, lastOf Cookie.name before c.name = some c ∧
        cookieEntry mask c.name (some c) (f c) = some e := by
  simp only [diffCookieSlice, List.mem_filterMap, lastOf_filterMap hname hdrop]
  constructor
  · rintro ⟨n, hn, he⟩
    rw [List.mem_mergeSort, List.mem_dedup, List.mem_map] at hn
    obtain ⟨c, hc, rfl⟩ := hn
    -- an edited cookie has the name of the one it was made from
    obtain ⟨c₀, hc₀, hnames⟩ : ∃ c₀ ∈ before, c₀.name = c.name := by
      rcases List.mem_append.1 hc with hc | hc
      · exact ⟨c, hc, rfl⟩
      · obtain ⟨c₀, hc₀, hf⟩ := List.mem_filterMap.1 hc
        exact ⟨c₀, hc₀, (hname c₀ c hf).symm⟩
    obtain ⟨l, hl⟩ := exists_lastOf Cookie.name hc₀
    rw [hnames] at hl
    obtain ⟨-, hlname⟩ := mem_of_lastOf hl
    rw [hl] at he
    exact ⟨l, by rwa [hlname], by rwa [hlname]⟩
  · rintro ⟨c, hc, he⟩
    refine ⟨c.name, ?_, by rwa [hc]⟩
    rw [List.mem_mergeSort, List.mem_dedup]
    exact List.mem_map_of_mem (List.mem_append_left _ (mem_of_lastOf hc).1)

section Records

variable {isPrint : GoString → Bool} {before after : CapturedRequest} {mask : Bool} {e : DiffEntry}

/-- The lines of the diff, section by section. -/
theorem mem_diffRecords :
    e ∈ diffRecords isPrint before after mask ↔
      (before.path ≠ after.path ∧ e = ⟨str "path", before.path, after.path⟩) ∨
        e ∈ diffStringSliceMap isPrint (str "headers") before.headers after.headers
          canonicalMIMEHeaderKey mask ∨
        e ∈ diffStringSliceMap isPrint (str "query") before.query after.query id mask ∨
        e ∈ diffCookieSlice (before.cookies.getD []) (after.cookies.getD []) mask ∨
        (before.body.getD [] ≠ after.body.getD [] ∧
          e = ⟨str "body", bodySize before.body, bodySize after.body⟩) := by
  rw [diffRecords, List.mem_mergeSort]
  simp only [List.mem_append, or_assoc]
  refine or_congr ?_ (or_congr Iff.rfl (or_congr Iff.rfl (or_congr Iff.rfl ?_)))
  · split_ifs with h <;> simp [h]
  · split_ifs with h <;> simp [h]

theorem path_of_pairEntry {section_ : GoString} {p : Pair}
    (h : pairEntry isPrint section_ mask p = some e) :
    e.path = section_ ++ str "." ++ p.display := by
  rw [pairEntry] at h
  split_ifs at h
  obtain rfl := Option.some.inj h
  rfl

theorem path_of_mem_slices {section_ : GoString} {b a : Headers} {norm : GoString → GoString}
    (h : e ∈ diffStringSliceMap isPrint section_ b a norm mask) :
    ∃ d, e.path = section_ ++ str "." ++ d := by
  obtain ⟨nk, -, he⟩ := List.mem_filterMap.1 h
  obtain ⟨p, -, he⟩ := Option.bind_eq_some_iff.1 he
  exact ⟨p.display, path_of_pairEntry he⟩

theorem path_of_cookieEntry {n : GoString} {c c' : Option Cookie}
    (h : cookieEntry mask n c c' = some e) : e.path = str "cookies." ++ n := by
  rw [cookieEntry] at h
  split_ifs at h
  obtain rfl := Option.some.inj h
  rfl

theorem path_of_mem_cookies {b a : List Cookie} (h : e ∈ diffCookieSlice b a mask) :
    ∃ n, e.path = str "cookies." ++ n := by
  obtain ⟨n, -, he⟩ := List.mem_filterMap.1 h
  exact ⟨n, path_of_cookieEntry he⟩

/-- The section of a line is known from the first byte of its path. -/
theorem mem_section (h : e ∈ diffRecords isPrint before after mask) :
    (e.path.head? = some 0x68 → e ∈ diffStringSliceMap isPrint (str "headers") before.headers
        after.headers canonicalMIMEHeaderKey mask) ∧
      (e.path.head? = some 0x71 → e ∈ diffStringSliceMap isPrint (str "query") before.query
        after.query id mask) ∧
      (e.path.head? = some 0x63 →
        e ∈ diffCookieSlice (before.cookies.getD []) (after.cookies.getD []) mask) ∧
      (e.path.head? = some 0x62 → before.body.getD [] ≠ after.body.getD []) := by
  rcases mem_diffRecords.1 h with ⟨-, he⟩ | h | h | h | ⟨h, he⟩
  · have hhead : e.path.head? = some 0x70 := by
      rw [he]
      rfl
    rw [hhead]
    exact ⟨fun h => absurd h (by decide), fun h => absurd h (by decide),
      fun h => absurd h (by decide), fun h => absurd h (by decide)⟩
  · have hhead : e.path.head? = some 0x68 := by
      obtain ⟨d, hd⟩ := path_of_mem_slices h
      rw [hd]
      rfl
    rw [hhead]
    exact ⟨fun _ => h, fun h => absurd h (by decide), fun h => absurd h (by decide),
      fun h => absurd h (by decide)⟩
  · have hhead : e.path.head? = some 0x71 := by
      obtain ⟨d, hd⟩ := path_of_mem_slices h
      rw [hd]
      rfl
    rw [hhead]
    exact ⟨fun h => absurd h (by decide), fun _ => h, fun h => absurd h (by decide),
      fun h => absurd h (by decide)⟩
  · have hhead : e.path.head? = some 0x63 := by
      obtain ⟨n, hn⟩ := path_of_mem_cookies h
      rw [hn]
      rfl
    rw [hhead]
    exact ⟨fun h => absurd h (by decide), fun h => absurd h (by decide), fun _ => h,
      fun h => absurd h (by decide)⟩
  · have hhead : e.path.head? = some 0x62 := by
      rw [he]
      rfl
    rw [hhead]
    exact ⟨fun h => absurd h (by decide), fun h => absurd h (by decide),
      fun h => absurd h (by decide), fun _ => h⟩

/-- The diff is said to be empty only if it is. -/
theorem renderDiff_noChanges
    (h : renderDiff (diffRecords isPrint before after mask) = str "no changes\n") :
    diffRecords isPrint before after mask = [] := by
  by_contra hne
  rw [renderDiff, if_neg hne] at h
  obtain ⟨e, es, hes⟩ := List.exists_cons_of_ne_nil hne
  have hmem : e ∈ diffRecords isPrint before after mask := hes ▸ List.mem_cons_self
  -- no path starts with the first letter of that line
  obtain ⟨c, hhead, hc⟩ : ∃ c, e.path.head? = some c ∧ c ≠ 0x6E := by
    rcases mem_diffRecords.1 hmem with ⟨-, he⟩ | hin | hin | hin | ⟨-, he⟩
    · exact ⟨0x70, by rw [he]; rfl, by decide⟩
    · obtain ⟨d, hd⟩ := path_of_mem_slices hin
      exact ⟨0x68, by rw [hd]; rfl, by decide⟩
    · obtain ⟨d, hd⟩ := path_of_mem_slices hin
      exact ⟨0x71, by rw [hd]; rfl, by decide⟩
    · obtain ⟨n, hn⟩ := path_of_mem_cookies hin
      exact ⟨0x63, by rw [hn]; rfl, by decide⟩
    · exact ⟨0x62, by rw [he]; rfl, by decide⟩
  obtain ⟨rest, hrest⟩ := List.head?_eq_some_iff.1 hhead
  rw [hes, List.flatMap_cons, hrest] at h
  exact hc (List.cons.inj h).1

end Records

end HttpCatch.Cli

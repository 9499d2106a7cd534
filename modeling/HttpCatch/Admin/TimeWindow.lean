import HttpCatch.Library.IsoDate
import HttpCatch.Library.UrlEncoded

/-!
# The remembered time window

`internal/admin/ui/app.js`: the explorer keeps its time window in the session storage and puts it
back into the URL when the operator returns. A window whose length is near that of a preset is
stored by the name of the preset, and restored relative to the clock; any other one by its bounds.

Times are in milliseconds. `date` is `new Date(text).getTime()`, none for an invalid date; which
texts it knows besides the ISO format is left to the browser.

* `window_restored_iff` — which windows come back with their bounds.
* `hour_window_lost` — one that does not.
-/

namespace HttpCatch.Admin.TimeWindow

open HttpCatch.Go HttpCatch.Url HttpCatch.Iso

/-! ### Presets -/

/-- The `presets` of `matchPresetMs`. -/
def presets : List (GoString × ℤ) :=
  [(str "15m", 15 * 60 * 1000),
   (str "1h", 60 * 60 * 1000),
   (str "4h", 4 * 60 * 60 * 1000),
   (str "1d", 24 * 60 * 60 * 1000),
   (str "2d", 2 * 24 * 60 * 60 * 1000),
   (str "3d", 3 * 24 * 60 * 60 * 1000),
   (str "1w", 7 * 24 * 60 * 60 * 1000),
   (str "15d", 15 * 24 * 60 * 60 * 1000),
   (str "1mo", 30 * 24 * 60 * 60 * 1000)]

/-- `toleranceMs`. -/
def toleranceMs : ℤ := 60 * 1000

/-- `matchPresetMs`. -/
def matchPresetMs (ms : ℤ) : Option GoString :=
  (presets.find? fun preset => |preset.2 - ms| < toleranceMs).map Prod.fst

/-- The white space that `trim` and `\s` know, on ASCII text. -/
def isSpace (b : UInt8) : Bool := b == 0x20 || (0x09 ≤ b && b ≤ 0x0D)

/-- The length of a unit of `parseShorthand`; `0` when the text is no unit. -/
def unitMs (unit : GoString) : ℤ :=
  if unit = str "s" then 1000
  else if unit = str "m" then 60 * 1000
  else if unit = str "h" then 60 * 60 * 1000
  else if unit = str "d" then 24 * 60 * 60 * 1000
  else if unit = str "w" then 7 * 24 * 60 * 60 * 1000
  else if unit = str "mo" then 30 * 24 * 60 * 60 * 1000
  else 0

/-- `parseShorthand`. -/
def parseShorthand (s : GoString) : ℤ :=
  let s := (((s.dropWhile isSpace).rdropWhile isSpace).map lowerByte)
  let digits := s.takeWhile fun b => 0x30 ≤ b && b ≤ 0x39
  match decimal digits with
  | none => 0
  | some n => n * unitMs ((s.drop digits.length).dropWhile isSpace)

/-- `rfc3339`: the ISO text without `.ddd` before its final `Z`. -/
def rfc3339 (t : ℤ) : GoString :=
  let s := toISOString t
  let tail := s.drop (s.length - 5)
  if tail.head? = some 0x2E ∧ ((tail.drop 1).take 3).all (fun b => 0x30 ≤ b && b ≤ 0x39) ∧
      tail.drop 4 = str "Z" then
    s.take (s.length - 5) ++ str "Z"
  else s

/-! ### Storing and restoring -/

/-- What is stored, as JSON. -/
inductive Descriptor where
  | live
  | preset (preset : GoString)
  | absolute (since until_ : GoString)
  deriving DecidableEq

/-- What `persistTimeWindow` reads of the page; an element may be missing. -/
structure Page where
  filterForm : Bool
  liveTailChecked : Bool
  hash : GoString
  since : Option GoString
  until_ : Option GoString

/-- `persistTimeWindow`: what the storage holds after it. -/
def persistTimeWindow (date : GoString → Option ℤ) (page : Page) (stored : Option Descriptor) :
    Option Descriptor :=
  if !page.filterForm then stored
  else if page.liveTailChecked || contains page.hash (str "live=1") then some .live
  else
    match page.since, page.until_ with
    | some since, some until_ =>
      if since ≠ [] ∧ until_ ≠ [] then
        match date since, date until_ with
        | some s, some u =>
          match matchPresetMs (u - s) with
          | some preset => some (.preset preset)
          | none => some (.absolute since until_)
        | _, _ => none
      else none
    | _, _ => none

/-- `readStoredWindow`; `JSON.parse` undoes `JSON.stringify`. -/
def readStoredWindow (stored : Option Descriptor) : Option Descriptor := stored

/-- The `base` of `explorerURLForWindow`. -/
def base : GoString := str "/ui/requests"

/-- The URL with a window in its query. -/
def windowURL (since until_ : GoString) : GoString :=
  base ++ str "?" ++ serialize (setParam (str "until") until_ (setParam (str "since") since []))

/-- `explorerURLForWindow`, at the instant `now`. -/
def explorerURLForWindow (desc : Option Descriptor) (now : ℤ) : Option GoString :=
  match desc with
  | none => none
  | some .live => some (base ++ str "#live=1")
  | some (.preset preset) =>
    let ms := parseShorthand preset
    if ms ≤ 0 then none else some (windowURL (rfc3339 (now - ms)) (rfc3339 now))
  | some (.absolute since until_) =>
    if since ≠ [] ∧ until_ ≠ [] then some (windowURL since until_) else none

/-! ### Texts of instants -/

/-- The text ends with the second. -/
theorem rfc3339_eq (t : ℤ) :
    rfc3339 t = minuteText t ++ str ":" ++ padded 2 (t / 1000 % 60).toNat ++ str "Z" := by
  have hiso : toISOString t = (minuteText t ++ str ":" ++ padded 2 (t / 1000 % 60).toNat) ++
      (0x2E :: (padded 3 (t % 1000).toNat ++ str "Z")) := by
    simp [toISOString, str]
  have hmillis : (padded 3 (t % 1000).toNat).length = 3 := length_padded _ _
  have hlen : (0x2E :: (padded 3 (t % 1000).toNat ++ str "Z")).length = 5 := by
    simp [hmillis, str]
  have hdigits : (padded 3 (t % 1000).toNat).all (fun b => 0x30 ≤ b && b ≤ 0x39) = true :=
    List.all_eq_true.2 fun b hb => by simpa using padded_digits b hb
  rw [rfc3339, hiso]
  generalize minuteText t ++ str ":" ++ padded 2 (t / 1000 % 60).toNat = front
  generalize padded 3 (t % 1000).toNat = millis at *
  have hcut : (front ++ 0x2E :: (millis ++ str "Z")).length - 5 = front.length := by
    rw [List.length_append, hlen, Nat.add_sub_cancel]
  have hZ : (0x2E :: (millis ++ str "Z")).drop 4 = str "Z" := by
    rw [List.drop_succ_cons, ← hmillis, List.drop_left]
  have hthree : ((0x2E :: (millis ++ str "Z")).drop 1).take 3 = millis := by
    rw [List.drop_succ_cons, List.drop_zero, ← hmillis, List.take_left]
  simp only [hcut, List.drop_left, List.take_left, hZ, hthree]
  exact if_pos ⟨rfl, hdigits, trivial⟩

theorem isText_padded (w n : ℕ) : IsText (padded w n) := by
  refine isText_of_ascii (List.all_eq_true.2 fun b hb => decide_eq_true ?_)
  exact lt_of_le_of_lt (padded_digits b hb).2 (by decide)

theorem isText_minuteText (t : ℤ) : IsText (minuteText t) := by
  have hdash : IsText (str "-") := isText_of_ascii (by decide)
  have hT : IsText (str "T") := isText_of_ascii (by decide)
  have hcolon : IsText (str ":") := isText_of_ascii (by decide)
  have hyear : ∀ year, IsText (yearText year) := by
    intro year
    rw [yearText]
    split_ifs
    · exact isText_padded _ _
    · exact hdash.append (isText_padded _ _)
    · exact (isText_of_ascii (by decide)).append (isText_padded _ _)
  exact ((((((((hyear _).append hdash).append (isText_padded _ _)).append hdash).append
    (isText_padded _ _)).append hT).append (isText_padded _ _)).append hcolon).append
    (isText_padded _ _)

theorem isText_rfc3339 (t : ℤ) : IsText (rfc3339 t) := by
  have hcolon : IsText (str ":") := isText_of_ascii (by decide)
  have hZ : IsText (str "Z") := isText_of_ascii (by decide)
  rw [rfc3339_eq]
  exact (((isText_minuteText t).append hcolon).append (isText_padded _ _)).append hZ

/-- A second later the text is another one. -/
theorem rfc3339_ne (t : ℤ) : rfc3339 t ≠ rfc3339 (t + 1000) := by
  intro h
  rw [rfc3339_eq, rfc3339_eq] at h
  have hsecond := List.append_inj_right' (List.append_cancel_right h) (by simp)
  have heq := padded_inj (by omega) (by omega) hsecond
  omega

/-! ### Presets -/

/-- The name of a preset stands for its length. -/
theorem parseShorthand_preset : ∀ preset ∈ presets, parseShorthand preset.1 = preset.2 := by
  decide

theorem matchPresetMs_eq_none {ms : ℤ} :
    matchPresetMs ms = none ↔ ∀ preset ∈ presets, toleranceMs ≤ |preset.2 - ms| := by
  simp [matchPresetMs, List.find?_eq_none]

theorem matchPresetMs_eq_some {ms : ℤ} {name : GoString} (h : matchPresetMs ms = some name) :
    0 < parseShorthand name := by
  obtain ⟨preset, hfind, rfl⟩ := Option.map_eq_some_iff.1 h
  have hmem := List.mem_of_find?_eq_some hfind
  have hpos : ∀ preset ∈ presets, 0 < preset.2 := by decide
  rw [parseShorthand_preset preset hmem]
  exact hpos preset hmem

/-! ### Coming back -/

section Restore

variable {date : GoString → Option ℤ}

/-- A valid value of a bound. -/
structure TimeValue (date : GoString → Option ℤ) where
  text : GoString
  ms : ℤ
  parses : date text = some ms
  nonempty : text ≠ []
  isText : IsText text

/-- The explorer once a range is picked. -/
def pickedPage (since until_ : TimeValue date) : Page :=
  ⟨true, false, [], some since.text, some until_.text⟩

/-- The URL to which the operator comes back at the instant `now`. -/
def restoredURL (since until_ : TimeValue date) (stored : Option Descriptor) (now : ℤ) :
    Option GoString :=
  explorerURLForWindow (readStoredWindow (persistTimeWindow date (pickedPage since until_) stored))
    now

/-- The URL has the bounds that were picked. -/
def Restored (since until_ : TimeValue date) (url : Option GoString) : Prop :=
  ∃ u, url = some u ∧ urlParam u (str "since") = some since.text ∧
    urlParam u (str "until") = some until_.text

/-- What the query of a restored URL says. -/
theorem urlParam_windowURL {since until_ : GoString} (hs : IsText since) (hu : IsText until_) :
    urlParam (windowURL since until_) (str "since") = some since ∧
      urlParam (windowURL since until_) (str "until") = some until_ := by
  have hentries : setParam (str "until") until_ (setParam (str "since") since []) =
      [(str "since", since), (str "until", until_)] := by
    simp only [setParam]
    rw [if_neg (by decide)]
  have htext : ∀ entry ∈ [(str "since", since), (str "until", until_)],
      IsText entry.1 ∧ IsText entry.2 := by
    intro entry hentry
    simp only [List.mem_cons, List.not_mem_nil, or_false] at hentry
    rcases hentry with rfl | rfl
    · exact ⟨isText_of_ascii (s := str "since") (by decide), hs⟩
    · exact ⟨isText_of_ascii (s := str "until") (by decide), hu⟩
  have hparam := @urlParam_serialize base (by decide) (by decide) _ htext
  rw [windowURL, hentries, List.append_assoc]
  constructor
  · refine (hparam (str "since")).trans ?_
    simp [getParam]
  · refine (hparam (str "until")).trans ?_
    have hne : ¬ str "since" = str "until" := by decide
    simp [getParam, hne]

/-- What is stored of a window, and so where it leads. -/
theorem restoredURL_eq (since until_ : TimeValue date) (stored : Option Descriptor) (now : ℤ) :
    restoredURL since until_ stored now =
      match matchPresetMs (until_.ms - since.ms) with
      | some name =>
        some (windowURL (rfc3339 (now - parseShorthand name)) (rfc3339 now))
      | none => some (windowURL since.text until_.text) := by
  have hlive : contains [] (str "live=1") = false := by decide
  simp only [restoredURL, readStoredWindow, persistTimeWindow, pickedPage, hlive, Bool.not_true,
    Bool.or_self, Bool.false_eq_true, if_false, since.parses, until_.parses, since.nonempty,
    until_.nonempty, ne_eq, not_false_eq_true, and_self, if_true]
  cases hpreset : matchPresetMs (until_.ms - since.ms) with
  | some name => simp [explorerURLForWindow, matchPresetMs_eq_some hpreset]
  | none => simp [explorerURLForWindow, since.nonempty, until_.nonempty]

/-- A window that did not end when it was chosen comes back with its bounds at all later times if
and only if its length is not near that of a preset. -/
theorem window_restored_iff (since until_ : TimeValue date) (stored : Option Descriptor)
    (chosen : ℤ) :
    (until_.text = rfc3339 chosen ∨
        ∀ now, chosen < now → Restored since until_ (restoredURL since until_ stored now)) ↔
      until_.text = rfc3339 chosen ∨
        ∀ preset ∈ presets, toleranceMs ≤ |preset.2 - (until_.ms - since.ms)| := by
  refine or_congr_right ?_
  rw [← matchPresetMs_eq_none]
  simp only [restoredURL_eq]
  cases hpreset : matchPresetMs (until_.ms - since.ms) with
  | none =>
    exact iff_of_true
      (fun _ _ => ⟨_, rfl, urlParam_windowURL since.isText until_.isText⟩) rfl
  | some name =>
    refine iff_of_false (fun h => ?_) (by simp)
    -- the end is the clock's, and the clock goes on
    have hend : ∀ now, chosen < now → until_.text = rfc3339 now := by
      intro now hnow
      obtain ⟨url, hurl, -, huntil⟩ := h now hnow
      obtain rfl := Option.some.inj hurl
      rw [(urlParam_windowURL (isText_rfc3339 _) (isText_rfc3339 _)).2] at huntil
      exact (Option.some.inj huntil).symm
    exact rfc3339_ne (chosen + 1) ((hend (chosen + 1) (by omega)).symm.trans
      (hend (chosen + 1 + 1000) (by omega)))

end Restore

/-- The instant of a text in the ISO format. -/
def isoValue (text : GoString) (ms : ℤ) (parses : isoDate text = some ms)
    (ascii : text.all (· < 0x80) = true) : TimeValue isoDate where
  text := text
  ms := ms
  parses := parses
  nonempty := by
    rintro rfl
    cases parses
  isText := isText_of_ascii ascii

/-- An hour of New Year's Day 2024 that was picked on the first of June. On return, a minute
later, it is the last hour. -/
theorem hour_window_lost :
    let since := isoValue (str "2024-01-01T00:00:00Z") 1704067200000 (by decide) (by decide)
    let until_ := isoValue (str "2024-01-01T01:00:00Z") 1704070800000 (by decide) (by decide)
    until_.text ≠ rfc3339 1717243200000 ∧
      restoredURL since until_ none 1717243260000 =
        some (windowURL (str "2024-06-01T11:01:00Z") (str "2024-06-01T12:01:00Z")) ∧
      ¬ Restored since until_ (restoredURL since until_ none 1717243260000) := by
  intro since until_
  have hurl : restoredURL since until_ none 1717243260000 =
      some (windowURL (str "2024-06-01T11:01:00Z") (str "2024-06-01T12:01:00Z")) := by
    rw [restoredURL_eq]
    decide
  refine ⟨by decide, hurl, ?_⟩
  rintro ⟨url, h, -, huntil⟩
  obtain rfl := Option.some.inj (hurl.symm.trans h)
  rw [(urlParam_windowURL (isText_of_ascii (by decide)) (isText_of_ascii (by decide))).2] at huntil
  exact absurd (Option.some.inj huntil) (by decide)

end HttpCatch.Admin.TimeWindow

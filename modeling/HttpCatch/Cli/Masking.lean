import HttpCatch.Cli.Diff

/-!
# Masked dry runs

`Run` of `internal/cli/redactcmd`: the flags, the configuration, the sample, and the diff of the
sample with what redaction leaves of it. Without `--show-values` the values of the sample are
masked, so that the output can go to a log.

Two samples are `Alike` for a ruleset if redaction leaves the same of both, and they differ in
their values only, not in the numbers of the values and of their characters, nor in which of them
are reported.

* `run_masked` — the output does not tell such samples apart.
-/

namespace HttpCatch.Cli

open HttpCatch.Go HttpCatch.Capture HttpCatch.SearchQL HttpCatch.Redact HttpCatch.LastWins

/-! ### The command -/

/-- The flags; `--test` and `--config` are empty by default. -/
structure Flags where
  test : GoString
  config : GoString
  showValues : Bool

/-- What `Run` writes to `stderr`. -/
inductive RunError where
  /-- The message of the flag package. -/
  | flags
  /-- `redact: --test <sample-file> is required`. -/
  | sampleRequired
  /-- `redact: load config: %v`. -/
  | loadConfig (err : GoString)
  /-- `redact: %v`. -/
  | ruleset (err : ConfigError)
  /-- `redact: read sample %q: %v`. -/
  | readSample (path err : GoString)
  /-- `redact: decode sample %q: %v`. -/
  | decodeSample (path err : GoString)
  /-- `redact: unexpected record type %T after redaction`. -/
  | unexpectedRecord

/-- What a run leaves. -/
structure Output where
  stdout : GoString
  stderr : Option RunError
  exitCode : ℕ

section Run

variable (isPrint : GoString → Bool) (U : Unicode) (L : Libraries)

/-- `Run`. The flags are none when they do not parse; the configuration, the file and its JSON are
given by what reading them returns. -/
def run (flags : Option Flags) (load : GoString → Except GoString RedactionConfig)
    (readFile : GoString → Except GoString GoString)
    (unmarshal : GoString → Except GoString CapturedRequest) : Output :=
  match flags with
  | none => ⟨[], some .flags, 2⟩
  | some flags =>
    if flags.test = [] then ⟨[], some .sampleRequired, 2⟩
    else
      match load flags.config with
      | .error err => ⟨[], some (.loadConfig err), 1⟩
      | .ok cfg =>
        match newRuleset U L cfg with
        | .error err => ⟨[], some (.ruleset err), 1⟩
        | .ok ruleset =>
          match readFile flags.test with
          | .error err => ⟨[], some (.readSample flags.test err), 1⟩
          | .ok data =>
            match unmarshal data with
            | .error err => ⟨[], some (.decodeSample flags.test err), 1⟩
            | .ok record =>
              let before := cloneRecord record
              match (redact U L ruleset (.request record)).1 with
              | .request after =>
                ⟨renderDiff (diffRecords isPrint before after !flags.showValues), none, 0⟩
              | _ => ⟨[], some .unexpectedRecord, 1⟩

end Run

/-! ### Samples that look alike -/

/-- `utf8.RuneCountInString`. -/
def runeCount (v : GoString) : ℕ := (pieces v).length

/-- The same key, with as many values of as many characters. -/
def SameShape (kv kv' : Entry) : Prop :=
  kv.1 = kv'.1 ∧
    List.Forall₂ (fun v v' => runeCount v = runeCount v') (kv.2.getD []) (kv'.2.getD [])

/-- The same name, with a value of as many characters. -/
def SameCookieShape (c c' : Cookie) : Prop :=
  c.name = c'.name ∧ runeCount c.value = runeCount c'.value

/-- The fields that a masked dry run reports. -/
def reported (isPrint : GoString → Bool) (U : Unicode) (L : Libraries) (rs : Ruleset)
    (r : CapturedRequest) : List GoString :=
  (diffRecords isPrint (cloneRecord r) (redactRequest U L rs r) true).map DiffEntry.path

/-- Two samples of which redaction leaves the same, and of which the masked dry run is to tell
no difference. The keys of the maps are visited in the same order. -/
structure Alike (isPrint : GoString → Bool) (U : Unicode) (L : Libraries) (rs : Ruleset)
    (r r' : CapturedRequest) : Prop where
  redacted : redactRequest U L rs r = redactRequest U L rs r'
  path : r.path = r'.path
  headers : List.Forall₂ SameShape r.headers.entries r'.headers.entries
  query : List.Forall₂ SameShape r.query.entries r'.query.entries
  cookies : List.Forall₂ SameCookieShape (r.cookies.getD []) (r'.cookies.getD [])
  body : (r.body.getD []).length = (r'.body.getD []).length
  reported : ∀ path, path ∈ reported isPrint U L rs r ↔ path ∈ reported isPrint U L rs r'

/-! ### Sections -/

section Sections

variable {isPrint : GoString → Bool} {section_ : GoString} {before before' after : Headers}
  {norm : GoString → GoString}

/-- The two sides of a pair have the normal form under which it is kept, and so has what is
displayed. -/
theorem norm_display {b a : List Entry} {nk : GoString} {p : Pair}
    (h : merged norm b a nk = some p) : norm p.display = nk := by
  rw [merged_eq] at h
  cases hleft : lastOf (fun kv => norm kv.1) b nk with
  | none =>
    cases hright : lastOf (fun kv => norm kv.1) a nk with
    | none =>
      rw [hleft, hright] at h
      cases h
    | some kv =>
      rw [hleft, hright] at h
      obtain rfl := Option.some.inj h
      exact (mem_of_lastOf hright).2
  | some kv =>
    rw [hleft] at h
    obtain rfl := Option.some.inj h
    have hkv := (mem_of_lastOf hleft).2
    simp only [Pair.display, Option.map_some, Option.getD_some]
    split_ifs with hempty
    · cases hright : lastOf (fun kv => norm kv.1) a nk with
      | none =>
        rw [hempty] at hkv
        exact hkv
      | some kv' => exact (mem_of_lastOf hright).2
    · exact hkv

/-- A function that does not tell corresponding elements apart. -/
theorem map_eq_of_forall₂ {α β : Type} {R : α → α → Prop} {f : α → β}
    (hf : ∀ a b, R a b → f a = f b) {l l' : List α} (h : List.Forall₂ R l l') :
    l.map f = l'.map f := by
  induction h with
  | nil => rfl
  | cons hab _ ih => rw [List.map_cons, List.map_cons, hf _ _ hab, ih]

theorem masked_eq {v v' : GoString} (h : runeCount v = runeCount v') : masked v = masked v' := by
  rw [masked, masked, ← runeCount, ← runeCount, h]

/-- Masked values of the same shape look the same. -/
theorem formatSliceSide_masked (isPrint : GoString → Bool) {side side' : Option Entry}
    (h : Option.Rel SameShape side side') (marker : GoString) :
    formatSliceSide isPrint side marker true = formatSliceSide isPrint side' marker true := by
  cases h with
  | none => rfl
  | @some kv kv' h =>
    obtain ⟨-, hvals⟩ := h
    simp only [formatSliceSide]
    revert hvals
    generalize kv.2.getD [] = vals
    generalize kv'.2.getD [] = vals'
    intro hvals
    have hmap := map_eq_of_forall₂
      (fun v v' (h : runeCount v = runeCount v') => masked_eq h) hvals
    cases hvals with
    | nil => rfl
    | cons hv hvals => simpa using congrArg ((str ", ").intercalate) hmap

/-- A pair is reported under what it displays unless its sides have the same values. -/
theorem path_mem_iff {mask : Bool} {nk : GoString} {p : Pair}
    (hnk : nk ∈ mergedKeys norm before.entries after.entries)
    (hp : merged norm before.entries after.entries nk = some p) :
    section_ ++ str "." ++ p.display ∈
        (diffStringSliceMap isPrint section_ before after norm mask).map DiffEntry.path ↔
      p.same = false := by
  rw [List.mem_map]
  constructor
  · rintro ⟨e, he, hpath⟩
    obtain ⟨nk', -, he⟩ := List.mem_filterMap.1 he
    obtain ⟨p', hp', he⟩ := Option.bind_eq_some_iff.1 he
    have hdisplay := List.append_cancel_left ((path_of_pairEntry he).symm.trans hpath)
    -- what is displayed says which pair it is
    obtain rfl : nk' = nk := by rw [← norm_display hp', ← norm_display hp, hdisplay]
    obtain rfl : p' = p := Option.some.inj (hp'.symm.trans hp)
    rw [pairEntry] at he
    split_ifs at he with hsame
    exact Bool.eq_false_iff.2 hsame
  · intro hsame
    refine ⟨⟨section_ ++ str "." ++ p.display, formatSliceSide isPrint p.left addedMarker mask,
      formatSliceSide isPrint p.right removedMarker false⟩,
      List.mem_filterMap.2 ⟨nk, hnk, ?_⟩, rfl⟩
    rw [hp, Option.bind_some, pairEntry, hsame]
    rfl

/-- A section is the same for maps of the same shape, if the same keys are reported. -/
theorem diffStringSliceMap_alike (hshape : List.Forall₂ SameShape before.entries before'.entries)
    (hreported : ∀ path,
      path ∈ (diffStringSliceMap isPrint section_ before after norm true).map DiffEntry.path ↔
        path ∈ (diffStringSliceMap isPrint section_ before' after norm true).map
          DiffEntry.path) :
    diffStringSliceMap isPrint section_ before after norm true =
      diffStringSliceMap isPrint section_ before' after norm true := by
  have hkeys : mergedKeys norm before.entries after.entries =
      mergedKeys norm before'.entries after.entries := by
    have hmap := map_eq_of_forall₂ (f := fun kv : Entry => norm kv.1)
      (fun kv kv' (h : SameShape kv kv') => congrArg norm h.1) hshape
    rw [mergedKeys, mergedKeys, List.map_append, List.map_append, hmap]
  rw [diffStringSliceMap, diffStringSliceMap, ← hkeys]
  refine List.filterMap_congr fun nk hnk => ?_
  have hrel := lastOf_rel (fun kv : Entry => norm kv.1) (fun kv : Entry => norm kv.1)
    (fun kv kv' h => congrArg norm h.1) hshape nk
  have hp := merged_eq norm before.entries after.entries nk
  have hp' := merged_eq norm before'.entries after.entries nk
  have hformat := formatSliceSide_masked isPrint hrel addedMarker
  revert hrel hp hp' hformat
  generalize lastOf (fun kv => norm kv.1) before.entries nk = left
  generalize lastOf (fun kv => norm kv.1) before'.entries nk = left'
  generalize lastOf (fun kv => norm kv.1) after.entries nk = right
  intro hrel hp hp' hformat
  cases hrel with
  | none => rw [hp, hp']
  | @some kv kv' h =>
    have hdisplay : (Pair.mk (some kv) right).display = (Pair.mk (some kv') right).display := by
      simp only [Pair.display, Option.map_some, h.1]
    have hsame : (Pair.mk (some kv) right).same = (Pair.mk (some kv') right).same := by
      have hiff := hreported (section_ ++ str "." ++ (Pair.mk (some kv) right).display)
      rw [path_mem_iff hnk hp, hdisplay, path_mem_iff (hkeys ▸ hnk) hp'] at hiff
      rw [Bool.eq_iff_iff, ← not_iff_not, Bool.not_eq_true, Bool.not_eq_true, hiff]
    rw [hp, hp', Option.bind_some, Option.bind_some, pairEntry, pairEntry, hsame, hdisplay,
      hformat]

/-- A cookie name is reported unless the two maps hold the same value for it. -/
theorem cookie_path_mem_iff {b a : List Cookie} {mask : Bool} {n : GoString}
    (hn : n ∈ ((b ++ a).map Cookie.name).dedup.mergeSort (· ≤ ·)) :
    str "cookies." ++ n ∈ (diffCookieSlice b a mask).map DiffEntry.path ↔
      sameCookie (lastOf Cookie.name b n) (lastOf Cookie.name a n) = false := by
  rw [List.mem_map]
  constructor
  · rintro ⟨e, he, hpath⟩
    obtain ⟨n', -, he⟩ := List.mem_filterMap.1 he
    obtain rfl : n' = n := List.append_cancel_left ((path_of_cookieEntry he).symm.trans hpath)
    rw [cookieEntry] at he
    split_ifs at he with hsame
    exact Bool.eq_false_iff.2 hsame
  · intro hsame
    refine ⟨⟨str "cookies." ++ n,
      ((lastOf Cookie.name b n).map fun c => shownValue mask c.value).getD addedMarker,
      ((lastOf Cookie.name a n).map Cookie.value).getD removedMarker⟩,
      List.mem_filterMap.2 ⟨n, hn, ?_⟩, rfl⟩
    rw [cookieEntry, hsame]
    rfl

/-- The lines of the cookies are the same for cookies of the same shape, if the same names are
reported. -/
theorem diffCookieSlice_alike {b b' a : List Cookie} (hshape : List.Forall₂ SameCookieShape b b')
    (hreported : ∀ path, path ∈ (diffCookieSlice b a true).map DiffEntry.path ↔
      path ∈ (diffCookieSlice b' a true).map DiffEntry.path) :
    diffCookieSlice b a true = diffCookieSlice b' a true := by
  have hnames : (b ++ a).map Cookie.name = (b' ++ a).map Cookie.name := by
    rw [List.map_append, List.map_append, map_eq_of_forall₂ (fun _ _ h => h.1) hshape]
  have hlist : diffCookieSlice b' a true =
      (((b ++ a).map Cookie.name).dedup.mergeSort (· ≤ ·)).filterMap fun n =>
        cookieEntry true n (lastOf Cookie.name b' n) (lastOf Cookie.name a n) := by
    rw [diffCookieSlice, ← hnames]
  rw [hlist]
  refine List.filterMap_congr fun n hn => ?_
  have hsame : sameCookie (lastOf Cookie.name b n) (lastOf Cookie.name a n) =
      sameCookie (lastOf Cookie.name b' n) (lastOf Cookie.name a n) := by
    have hiff := hreported (str "cookies." ++ n)
    rw [cookie_path_mem_iff hn, cookie_path_mem_iff (hnames ▸ hn)] at hiff
    rw [Bool.eq_iff_iff, ← not_iff_not, Bool.not_eq_true, Bool.not_eq_true, hiff]
  have hshown : (lastOf Cookie.name b n).map (fun c => shownValue true c.value) =
      (lastOf Cookie.name b' n).map fun c => shownValue true c.value := by
    have hrel := lastOf_rel Cookie.name Cookie.name (fun _ _ h => h.1) hshape n
    revert hrel
    generalize lastOf Cookie.name b n = c
    generalize lastOf Cookie.name b' n = c'
    intro hrel
    cases hrel with
    | none => rfl
    | some h => exact congrArg some (masked_eq h.2)
  rw [cookieEntry, cookieEntry, hsame, hshown]

end Sections

/-! ### The whole diff -/

section Whole

variable {isPrint : GoString → Bool} {before before' after : CapturedRequest}

/-- Lines whose paths begin with one byte, in two diffs, where the second diff reports what the
first one reports. -/
theorem reported_of_head {all all' entries entries' : List DiffEntry} {b : UInt8}
    (h : ∀ path ∈ all.map DiffEntry.path, path ∈ all'.map DiffEntry.path)
    (hin : ∀ e ∈ entries, e ∈ all) (hhead : ∀ e ∈ entries, e.path.head? = some b)
    (hout : ∀ e' ∈ all', e'.path.head? = some b → e' ∈ entries') :
    ∀ path ∈ entries.map DiffEntry.path, path ∈ entries'.map DiffEntry.path := by
  intro path hpath
  obtain ⟨e, he, rfl⟩ := List.mem_map.1 hpath
  obtain ⟨e', he', heq⟩ := List.mem_map.1 (h _ (List.mem_map_of_mem (hin e he)))
  exact List.mem_map.2 ⟨e', hout e' he' (by rw [heq, hhead e he]), heq⟩

/-- A field that is reported by the second diff whenever it is by the first, is so in each
section. -/
theorem reported_sections
    (h : ∀ path ∈ (diffRecords isPrint before after true).map DiffEntry.path,
      path ∈ (diffRecords isPrint before' after true).map DiffEntry.path) :
    (∀ path ∈ (diffStringSliceMap isPrint (str "headers") before.headers after.headers
          canonicalMIMEHeaderKey true).map DiffEntry.path,
        path ∈ (diffStringSliceMap isPrint (str "headers") before'.headers after.headers
          canonicalMIMEHeaderKey true).map DiffEntry.path) ∧
      (∀ path ∈ (diffStringSliceMap isPrint (str "query") before.query after.query id true).map
          DiffEntry.path,
        path ∈ (diffStringSliceMap isPrint (str "query") before'.query after.query id true).map
          DiffEntry.path) ∧
      (∀ path ∈ (diffCookieSlice (before.cookies.getD []) (after.cookies.getD []) true).map
          DiffEntry.path,
        path ∈ (diffCookieSlice (before'.cookies.getD []) (after.cookies.getD []) true).map
          DiffEntry.path) ∧
      (before.body.getD [] ≠ after.body.getD [] → before'.body.getD [] ≠ after.body.getD []) := by
  refine ⟨?_, ?_, ?_, fun hbody => ?_⟩
  · refine reported_of_head h (fun e he => mem_diffRecords.2 (.inr (.inl he))) (fun e he => ?_)
      fun e' he' => (mem_section he').1
    obtain ⟨d, hd⟩ := path_of_mem_slices he
    rw [hd]
    rfl
  · refine reported_of_head h (fun e he => mem_diffRecords.2 (.inr (.inr (.inl he))))
      (fun e he => ?_) fun e' he' => (mem_section he').2.1
    obtain ⟨d, hd⟩ := path_of_mem_slices he
    rw [hd]
    rfl
  · refine reported_of_head h (fun e he => mem_diffRecords.2 (.inr (.inr (.inr (.inl he)))))
      (fun e he => ?_) fun e' he' => (mem_section he').2.2.1
    obtain ⟨n, hn⟩ := path_of_mem_cookies he
    rw [hn]
    rfl
  · have hline : ⟨str "body", bodySize before.body, bodySize after.body⟩ ∈
        diffRecords isPrint before after true :=
      mem_diffRecords.2 (.inr (.inr (.inr (.inr ⟨hbody, rfl⟩))))
    obtain ⟨e', he', heq⟩ := List.mem_map.1 (h _ (List.mem_map_of_mem hline))
    have hhead : e'.path.head? = some 0x62 := by
      rw [heq]
      rfl
    exact (mem_section he').2.2.2 hhead

end Whole

/-- A copy has the shape of the map. -/
theorem sameShape_copy {h h' : Headers} (hshape : List.Forall₂ SameShape h.entries h'.entries) :
    List.Forall₂ SameShape (copyStringSliceMap h).entries (copyStringSliceMap h').entries := by
  have hcopy : ∀ h : Headers,
      (copyStringSliceMap h).entries = h.entries.map fun kv => (kv.1, some (kv.2.getD [])) := by
    intro h
    cases h <;> rfl
  rw [hcopy, hcopy, List.forall₂_map_left_iff, List.forall₂_map_right_iff]
  exact hshape

section Masked

variable {isPrint : GoString → Bool} {U : Unicode} {L : Libraries} {rs : Ruleset}
  {r r' : CapturedRequest}

/-- Samples that look alike have the same masked diff. -/
theorem Alike.diffRecords_eq (h : Alike isPrint U L rs r r') :
    diffRecords isPrint (cloneRecord r) (redactRequest U L rs r) true =
      diffRecords isPrint (cloneRecord r') (redactRequest U L rs r') true := by
  have hrep := h.reported
  simp only [Cli.reported, ← h.redacted] at hrep
  obtain ⟨hheaders, hquery, hcookies, hbody⟩ := reported_sections fun path => (hrep path).1
  obtain ⟨hheaders', hquery', hcookies', hbody'⟩ := reported_sections fun path => (hrep path).2
  have hpath : (cloneRecord r).path = (cloneRecord r').path := h.path
  have hsize : bodySize (cloneRecord r).body = bodySize (cloneRecord r').body := by
    rw [bodySize, bodySize]
    exact congrArg (fun n : ℕ => sprintDecimal n ++ str " bytes") h.body
  have hchanged : (cloneRecord r).body.getD [] ≠ (redactRequest U L rs r).body.getD [] ↔
      (cloneRecord r').body.getD [] ≠ (redactRequest U L rs r).body.getD [] := ⟨hbody, hbody'⟩
  have hheaderShape : List.Forall₂ SameShape (cloneRecord r).headers.entries
      (cloneRecord r').headers.entries := sameShape_copy h.headers
  have hqueryShape : List.Forall₂ SameShape (cloneRecord r).query.entries
      (cloneRecord r').query.entries := sameShape_copy h.query
  have hcookieLines : diffCookieSlice ((cloneRecord r).cookies.getD [])
      ((redactRequest U L rs r).cookies.getD []) true =
        diffCookieSlice ((cloneRecord r').cookies.getD [])
          ((redactRequest U L rs r).cookies.getD []) true :=
    diffCookieSlice_alike h.cookies fun path => ⟨hcookies path, hcookies' path⟩
  rw [← h.redacted, diffRecords, diffRecords, hpath, hsize, hcookieLines,
    diffStringSliceMap_alike hheaderShape fun path => ⟨hheaders path, hheaders' path⟩,
    diffStringSliceMap_alike hqueryShape fun path => ⟨hquery path, hquery' path⟩]
  simp only [hchanged]

/-- **The masked dry run does not tell samples apart that look alike.** -/
theorem run_masked (flags : Flags) (load : GoString → Except GoString RedactionConfig)
    (readFile readFile' : GoString → Except GoString GoString)
    (unmarshal : GoString → Except GoString CapturedRequest) {data data' : GoString}
    (hmask : flags.showValues = false)
    (hread : readFile flags.test = .ok data) (hread' : readFile' flags.test = .ok data')
    (hdecode : unmarshal data = .ok r) (hdecode' : unmarshal data' = .ok r')
    (halike : ∀ cfg rs, load flags.config = .ok cfg → newRuleset U L cfg = .ok rs →
      Alike isPrint U L rs r r') :
    run isPrint U L (some flags) load readFile unmarshal =
      run isPrint U L (some flags) load readFile' unmarshal := by
  simp only [run, hread, hread', hdecode, hdecode', hmask, Bool.not_false]
  split_ifs
  · rfl
  cases hload : load flags.config with
  | error err => rfl
  | ok cfg =>
    cases hrules : newRuleset U L cfg with
    | error err => simp only [hrules]
    | ok rs =>
      have heq := (halike cfg rs hload hrules).diffRecords_eq
      simp only [hrules, redact_request, heq]

end Masked

/-- A sample with one header. -/
def tokenSample (token : GoString) : CapturedRequest :=
  { CapturedRequest.blank [] 0 [] with
    headers := some ⟨[(str "Authorization", some [token])], List.nodup_singleton _⟩ }

/-- A rule for the header, and a file for each of two tokens of the same length. -/
theorem run_masked_token :
    run (fun _ => true) .asciiOnly noLibraries (some ⟨str "f", [], false⟩)
        (fun _ => .ok ⟨[str "authorization"], [], [], [], []⟩) (fun _ => .ok (str "ab"))
        (fun data => .ok (tokenSample data)) =
      run (fun _ => true) .asciiOnly noLibraries (some ⟨str "f", [], false⟩)
        (fun _ => .ok ⟨[str "authorization"], [], [], [], []⟩) (fun _ => .ok (str "cd"))
        (fun data => .ok (tokenSample data)) := by
  refine run_masked ⟨str "f", [], false⟩ _ _ _ _ rfl rfl rfl rfl rfl fun cfg rs hcfg hrs => ?_
  obtain rfl := Except.ok.inj hcfg
  obtain rfl : (⟨[str "authorization"], [], [], [], []⟩ : Ruleset) = rs := Except.ok.inj hrs
  have hreported : reported (fun _ => true) .asciiOnly noLibraries
      ⟨[str "authorization"], [], [], [], []⟩ (tokenSample (str "ab")) =
        reported (fun _ => true) .asciiOnly noLibraries
          ⟨[str "authorization"], [], [], [], []⟩ (tokenSample (str "cd")) := by
    decide +kernel
  exact ⟨by decide, rfl, .cons ⟨rfl, .cons rfl .nil⟩ .nil, .nil, .nil, rfl,
    fun path => by rw [hreported]⟩

end HttpCatch.Cli

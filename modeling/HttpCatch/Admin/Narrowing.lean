import HttpCatch.Admin.Chips
import HttpCatch.Admin.Inspect
import HttpCatch.Inspect.Cursor
import HttpCatch.Library.IsoDate
import HttpCatch.Library.UrlEncoded
import HttpCatch.SearchQL.IndexScans

/-!
# The narrowing gate

`internal/admin/query_parser.go` reads the parameters of a search; the handlers for `GET /requests`,
`GET /requests/aggregate` and `GET /ui/requests` run it against the readers. A search that scans an
index is refused unless a time bound or an exact service narrows it (`requiresNarrowing`).

A handler's result names the query that it ran against the readers, if it ran one.

* `narrowing_airtight` — the flag behind the gate says exactly whether the SQL scans an index, and
  every query that is run and scans one is narrowed.
-/

namespace HttpCatch.Admin

open HttpCatch.Go HttpCatch.SearchQL HttpCatch.Inspect HttpCatch.Url

/-! ### Parameters -/

/-- What is wrong with a parameter. -/
inductive FieldMessage where
  /-- `unknown query parameter %q`. -/
  | unknownParameter (key : GoString)
  /-- `must be an integer`. -/
  | notInteger
  /-- `must be between 1 and 500`. -/
  | limitRange
  /-- The error of `DecodeCursor`. -/
  | badCursor (e : CursorError)
  /-- `must be RFC 3339 (e.g. 2006-01-02T15:04:05Z)`. -/
  | notRFC3339
  /-- The error of `Parse`. -/
  | badQuery (e : ParseError)
  /-- `must be an integer between 1 and 240`. -/
  | bucketsRange
  /-- `leading-wildcard queries require a time range (since/until) or an exact service: term`. -/
  | notNarrow
  deriving DecidableEq

/-- `parseFieldError`. -/
structure FieldError where
  field : GoString
  message : FieldMessage
  deriving DecidableEq

/-- `knownQueryKeys`. -/
def knownQueryKeys : List GoString :=
  [str "limit", str "cursor", str "since", str "until", str "q", str "live", str "buckets"]

/-- `defaultLimit`. -/
def defaultLimit : ℕ := 50

/-- `maxLimit`. -/
def maxLimit : ℕ := 500

/-- `histogramBucketCount`. -/
def histogramBucketCount : ℤ := 40

/-- `maxHistogramBuckets`. -/
def maxHistogramBuckets : ℤ := 240

/-- `defaultExplorerWindow`, in nanoseconds. -/
def defaultExplorerWindow : ℤ := 15 * 60 * 1000000000

/-- The parameters of a URL, in order. -/
abbrev Values := List (GoString × GoString)

/-- `Values.Get`. -/
def Values.get (values : Values) (key : GoString) : GoString := (getParam values key).getD []

/-- The error that was found, if any. -/
def errorOf {α : Type} : Except FieldError α → List FieldError
  | .error e => [e]
  | .ok _ => []

/-- The value that was read, or the one before. -/
def valueOf {α : Type} (default : α) : Except FieldError α → α
  | .error _ => default
  | .ok a => a

/-- `limit`. -/
def parseLimit (s : GoString) : Except FieldError ℕ :=
  if s = [] then .ok defaultLimit
  else
    match atoi s with
    | none => .error ⟨str "limit", .notInteger⟩
    | some v =>
      if v < 1 ∨ maxLimit < v then .error ⟨str "limit", .limitRange⟩ else .ok v.toNat

/-- `cursor`. -/
def parseCursor (s : GoString) : Except FieldError (Option Cursor) :=
  if s = [] then .ok none
  else
    match decodeCursor s with
    | .error e => .error ⟨str "cursor", .badCursor e⟩
    | .ok c => .ok (some c)

/-- `since` and `until`. -/
def parseTime (field s : GoString) : Except FieldError (Option ℤ) :=
  if s = [] then .ok none
  else
    match Rfc3339.parse s with
    | none => .error ⟨field, .notRFC3339⟩
    | some t => .ok (some t)

/-- `requiresNarrowing`: the query is narrowed. -/
def requiresNarrowing (q : InspectQuery) : Bool :=
  q.since.isSome || q.until_.isSome ||
    q.query.terms.any fun t => t.field = .service && t.wildcard = .wildcardNone && !t.negated

/-! ### Answers -/

/-- `ReadSources`. -/
structure ReadSources where
  memory : Option Reader
  sqlite : Option Reader

/-- An error as it stands on the page. -/
inductive PageError where
  /-- `%s: %s`, the field and the message. -/
  | field (e : FieldError)
  /-- The message alone. -/
  | message (m : FieldMessage)
  deriving DecidableEq

/-- `listPageData`. -/
structure ListPage where
  error : Option PageError
  services : List GoString
  q : GoString
  sinceRaw : GoString
  untilRaw : GoString
  chips : List ChipView
  unindexedScan : Bool
  rows : List RootRow
  /-- The parameters of the link to the next page. -/
  next : Option Values

/-- The answer to a request. -/
inductive Response where
  /-- Status 400, with the error as JSON. -/
  | badRequest (e : FieldError)
  /-- Status 500: `read error: %v`. -/
  | readError (message : GoString)
  /-- A page of rows, where they were read, and whether the header warns of a scan. -/
  | roots (scan : Bool) (source : ReadSource) (rows : List RootRow) (next : Option GoString)
  /-- The histogram, and whether the header warns of a scan. -/
  | aggregate (scan : Bool) (aggregation : Aggregation)
  /-- A page of the UI. -/
  | page (code : ℕ) (data : ListPage)

/-- What a handler did: the query that it ran against the readers, if any, and its answer. -/
structure Served where
  ran : Option InspectQuery
  response : Response

/-! ### Handlers -/

section Handlers

variable (U : Unicode)

/-- `q`. -/
def parseQ (s : GoString) : Except FieldError Query :=
  if s = [] then .ok ⟨[]⟩
  else
    match parse U s with
    | .error e => .error ⟨str "q", .badQuery e⟩
    | .ok q => .ok q

/-- `parseInspectQuery`. -/
def parseInspectQuery (values : Values) : InspectQuery × List FieldError :=
  let unknown := (values.map Prod.fst).dedup.filter fun key => key ∉ knownQueryKeys
  if unknown ≠ [] then (⟨0, none, none, none, ⟨[]⟩⟩,
    unknown.map fun key => ⟨key, .unknownParameter key⟩)
  else
    let limit := parseLimit (values.get (str "limit"))
    let cursor := parseCursor (values.get (str "cursor"))
    let since := parseTime (str "since") (values.get (str "since"))
    let until_ := parseTime (str "until") (values.get (str "until"))
    let query := parseQ U (values.get (str "q"))
    (⟨valueOf defaultLimit limit, valueOf none cursor, valueOf none since, valueOf none until_,
      valueOf ⟨[]⟩ query⟩,
      errorOf limit ++ errorOf cursor ++ errorOf since ++ errorOf until_ ++ errorOf query)

variable (rs : ReadSources)

/-- `requestsHandler`. -/
def requestsHandler (values : Values) : Served :=
  let (q, fieldErrs) := parseInspectQuery U values
  match fieldErrs with
  | e :: _ => ⟨none, .badRequest e⟩
  | [] =>
    if q.query.isUnindexedScan && !requiresNarrowing q then
      ⟨none, .badRequest ⟨str "q", .notNarrow⟩⟩
    else
      ⟨some q,
        match gatherRoots q rs.memory rs.sqlite with
        | .error e => .readError e
        | .ok (rows, next, source) =>
          .roots q.query.isUnindexedScan source rows (next.map Cursor.encode)⟩

/-- `buckets`; none when it is out of range. -/
def parseBuckets (s : GoString) : Option ℤ :=
  if s = [] then some histogramBucketCount
  else (atoi s).filter fun n => 1 ≤ n ∧ n ≤ maxHistogramBuckets

/-- `requestsAggregateHandler`. -/
def requestsAggregateHandler (values : Values) : Served :=
  match parseBuckets (values.get (str "buckets")) with
  | none => ⟨none, .badRequest ⟨str "buckets", .bucketsRange⟩⟩
  | some bucketCount =>
    let (q, fieldErrs) := parseInspectQuery U values
    match fieldErrs with
    | e :: _ => ⟨none, .badRequest e⟩
    | [] =>
      if q.query.isUnindexedScan && !requiresNarrowing q then
        ⟨none, .badRequest ⟨str "q", .notNarrow⟩⟩
      else
        let q := { q with cursor := none, limit := 0 }
        ⟨some q,
          match gatherAggregation q bucketCount rs.memory rs.sqlite with
          | .error e => .readError e
          | .ok agg => .aggregate q.query.isUnindexedScan agg⟩

/-- The parameters of the list, with the default window where nothing else bounds it. -/
def explorerValues (now : ℤ) (values : Values) : Values :=
  if values.get (str "since") = [] ∧ values.get (str "until") = [] ∧
      values.get (str "cursor") = [] then
    setParam (str "until") (Rfc3339.formatNano now)
      (setParam (str "since") (Rfc3339.formatNano (now - defaultExplorerWindow)) values)
  else values

/-- `overrideQueryParam`. -/
def overrideQueryParam (values : Values) (key value : GoString) : Values :=
  (values.filter fun e => e.1 ≠ key) ++ [(key, value)]

/-- `requestListHandler`, from where the services for the form are known. -/
def requestListHandler (services : List GoString) (now : ℤ) (values : Values) : Served :=
  let values := explorerValues now values
  let data : ListPage := ⟨none, services, values.get (str "q"), values.get (str "since"),
    values.get (str "until"), [], false, [], none⟩
  let (q, fieldErrs) := parseInspectQuery U values
  match fieldErrs with
  | e :: _ => ⟨none, .page 200 { data with error := some (.field e) }⟩
  | [] =>
    let data := { data with
      chips := chipsFromQuery q.query
      unindexedScan := q.query.isUnindexedScan }
    if q.query.isUnindexedScan && !requiresNarrowing q then
      ⟨none, .page 400 { data with error := some (.message .notNarrow) }⟩
    else
      ⟨some q,
        match gatherRoots q rs.memory rs.sqlite with
        | .error e => .readError e
        | .ok (rows, next, _) =>
          .page 200 { data with
            rows := rows
            next := next.map fun c => overrideQueryParam values (str "cursor") c.encode }⟩

end Handlers

/-! ### What is run -/

section Runs

variable {U : Unicode} {rs : ReadSources} {services : List GoString} {now : ℤ} {values : Values}
  {q : InspectQuery}

/-- The query was read from the parameters, and passed the gate. -/
structure Passed (U : Unicode) (q : InspectQuery) : Prop where
  parsed : ∃ s, parse U s = .ok q.query
  gate : (q.query.isUnindexedScan && !requiresNarrowing q) = false

/-- Without errors, the query is one that `Parse` accepts. -/
theorem parseInspectQuery_ok (h : (parseInspectQuery U values).2 = []) :
    ∃ s, parse U s = .ok (parseInspectQuery U values).1.query := by
  rw [parseInspectQuery] at h ⊢
  simp only at h ⊢
  split_ifs at h ⊢ with hunknown
  · exact absurd (List.map_eq_nil_iff.mp h) hunknown
  · have hquery : errorOf (parseQ U (values.get (str "q"))) = [] :=
      (List.append_eq_nil_iff.mp h).2
    rw [parseQ] at hquery ⊢
    split_ifs at hquery ⊢
    · exact ⟨[], rfl⟩
    · cases hparse : parse U (values.get (str "q")) with
      | error e =>
        rw [hparse] at hquery
        cases hquery
      | ok parsed => exact ⟨_, hparse⟩

theorem requestsHandler_ran (h : (requestsHandler U rs values).ran = some q) : Passed U q := by
  rw [requestsHandler] at h
  simp only at h
  split at h
  · cases h
  · next herrs =>
    split_ifs at h with hgate
    obtain rfl := Option.some.inj h
    exact ⟨parseInspectQuery_ok herrs, Bool.eq_false_iff.mpr hgate⟩

theorem requestsAggregateHandler_ran (h : (requestsAggregateHandler U rs values).ran = some q) :
    Passed U q := by
  rw [requestsAggregateHandler] at h
  split at h
  · cases h
  · simp only at h
    split at h
    · cases h
    · next herrs =>
      split_ifs at h with hgate
      obtain rfl := Option.some.inj h
      exact ⟨parseInspectQuery_ok herrs, Bool.eq_false_iff.mpr hgate⟩

theorem requestListHandler_ran (h : (requestListHandler U rs services now values).ran = some q) :
    Passed U q := by
  rw [requestListHandler] at h
  simp only at h
  split at h
  · cases h
  · next herrs =>
    split_ifs at h with hgate
    obtain rfl := Option.some.inj h
    exact ⟨parseInspectQuery_ok herrs, Bool.eq_false_iff.mpr hgate⟩

/-- Without a query that is run, the readers have no part in the answer. -/
theorem requestsHandler_of_not_ran (h : (requestsHandler U rs values).ran = none)
    (rs' : ReadSources) : requestsHandler U rs' values = requestsHandler U rs values := by
  rw [requestsHandler] at h
  rw [requestsHandler, requestsHandler]
  simp only at h ⊢
  split at h
  · rfl
  · split_ifs at h ⊢
    rfl

theorem requestsAggregateHandler_of_not_ran (h : (requestsAggregateHandler U rs values).ran = none)
    (rs' : ReadSources) :
    requestsAggregateHandler U rs' values = requestsAggregateHandler U rs values := by
  rw [requestsAggregateHandler] at h
  rw [requestsAggregateHandler, requestsAggregateHandler]
  split at h
  · rfl
  · simp only at h ⊢
    split at h
    · rfl
    · split_ifs at h ⊢
      rfl

theorem requestListHandler_of_not_ran (h : (requestListHandler U rs services now values).ran = none)
    (rs' : ReadSources) :
    requestListHandler U rs' services now values = requestListHandler U rs services now values := by
  rw [requestListHandler] at h
  rw [requestListHandler, requestListHandler]
  simp only at h ⊢
  split at h
  · rfl
  · split_ifs at h ⊢
    rfl

/-- A time bound or an exact service narrows the query. -/
def Narrowed (q : InspectQuery) : Prop :=
  q.since ≠ none ∨ q.until_ ≠ none ∨
    ∃ t ∈ q.query.terms, t.field = .service ∧ t.negated = false ∧ t.wildcard = .wildcardNone

theorem requiresNarrowing_iff (q : InspectQuery) : requiresNarrowing q = true ↔ Narrowed q := by
  simp only [requiresNarrowing, Narrowed, Bool.or_eq_true, List.any_eq_true, Bool.and_eq_true,
    decide_eq_true_eq, Bool.not_eq_true', Option.isSome_iff_ne_none, or_assoc]
  refine or_congr Iff.rfl (or_congr Iff.rfl (exists_congr fun t => and_congr_right fun _ => ?_))
  exact ⟨fun ⟨⟨hf, hw⟩, hn⟩ => ⟨hf, hn, hw⟩, fun ⟨hf, hn, hw⟩ => ⟨⟨hf, hw⟩, hn⟩⟩

/-- What passed the gate and scans an index is narrowed. -/
theorem Passed.narrowed (h : Passed U q)
    (hscan : scansIndex (compileSQL U q.query) = true ∨
      scansIndex (compileSQLOrphans U q.query) = true) : Narrowed q := by
  obtain ⟨s, hs⟩ := h.parsed
  have hliteral := parse_literal hs
  have hflag : q.query.isUnindexedScan = true := by
    rcases hscan with hscan | hscan
    · rwa [scansIndex_compileSQL U hliteral] at hscan
    · exact scansIndex_compileSQLOrphans hliteral hscan
  have hgate := h.gate
  rw [hflag, Bool.true_and, Bool.not_eq_false'] at hgate
  exact (requiresNarrowing_iff q).mp hgate

end Runs

/-- **The warning is exact and the gate is airtight.** For every query that `Parse` accepts, the
flag says whether the clause for requests has a `LIKE` on an indexed column whose pattern starts
with `%`, and without it the clause for orphan events has none either. Every query that a handler
runs against the readers was accepted by `Parse`, and is narrowed if it scans an index; where a
handler runs none, its answer is the same whatever the readers hold. -/
theorem narrowing_airtight (U : Unicode) :
    (∀ s q, parse U s = .ok q →
      (q.isUnindexedScan = true ↔ scansIndex (compileSQL U q) = true) ∧
      (q.isUnindexedScan = false → scansIndex (compileSQLOrphans U q) = false)) ∧
    (∀ (rs : ReadSources) (services : List GoString) (now : ℤ) (values : Values),
      ∀ served ∈ [requestsHandler U rs values, requestsAggregateHandler U rs values,
        requestListHandler U rs services now values],
      ∀ q, served.ran = some q → (∃ s, parse U s = .ok q.query) ∧
        (scansIndex (compileSQL U q.query) = true ∨
          scansIndex (compileSQLOrphans U q.query) = true → Narrowed q)) ∧
    ∀ (rs rs' : ReadSources) (services : List GoString) (now : ℤ) (values : Values),
      ((requestsHandler U rs values).ran = none →
        requestsHandler U rs' values = requestsHandler U rs values) ∧
      ((requestsAggregateHandler U rs values).ran = none →
        requestsAggregateHandler U rs' values = requestsAggregateHandler U rs values) ∧
      ((requestListHandler U rs services now values).ran = none →
        requestListHandler U rs' services now values =
          requestListHandler U rs services now values) := by
  refine ⟨?_, ?_, fun rs rs' services now values =>
    ⟨fun h => requestsHandler_of_not_ran h rs', fun h => requestsAggregateHandler_of_not_ran h rs',
      fun h => requestListHandler_of_not_ran h rs'⟩⟩
  · intro s q h
    have hliteral := parse_literal h
    refine ⟨by rw [scansIndex_compileSQL U hliteral], fun hflag => ?_⟩
    rw [Bool.eq_false_iff] at hflag ⊢
    exact fun hscan => hflag (scansIndex_compileSQLOrphans hliteral hscan)
  · intro rs services now values served hmem q hran
    have hpassed : Passed U q := by
      rcases List.mem_cons.mp hmem with rfl | hmem
      · exact requestsHandler_ran hran
      · rcases List.mem_cons.mp hmem with rfl | hmem
        · exact requestsAggregateHandler_ran hran
        · rw [List.mem_singleton.mp hmem] at hran
          exact requestListHandler_ran hran
    exact ⟨hpassed.parsed, hpassed.narrowed⟩

end HttpCatch.Admin

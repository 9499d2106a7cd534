import HttpCatch.SearchQL.Conditions
import HttpCatch.SearchQL.Predicate
import HttpCatch.Sinks.SQLite

/-!
# What the compiled conditions say of stored rows

The conditions of a search term, evaluated on the row of a captured request in the tables
that hold some records. `sqlMatches` says what they come to in terms of the records, with
no SQL left: fields are compared, bodies are searched after ASCII letters are folded, and
headers are searched as the JSON text they are stored as. `eval_positiveCond` is the
theorem: a condition in `WHERE` is never `NULL`, and it is true exactly when `sqlMatches`
is.
-/

namespace HttpCatch.Sinks

open HttpCatch.Go HttpCatch.Json HttpCatch.Sql HttpCatch.Capture HttpCatch.SearchQL

/-! ### The forms of conditions -/

section Forms

variable {U : Unicode} {db : Db} {sc : Scope} {grp : List Scope} {c : Column} {t : Term}
  {s : GoString}

/-- What an indexed term asks of a column: equal bytes, or characters at the start or within. -/
def indexedHit (t : Term) (s : GoString) : Bool :=
  match t.wildcard with
  | .wildcardNone => s = t.value
  | .wildcardPrefix => likeStarts t.value s
  | .wildcardSubstring => likeWithin t.value s

theorem eval_indexedCond (h : c.value sc = .text s) :
    (indexedCond c t).eval db sc grp = some (indexedHit t s) := by
  unfold indexedCond indexedHit
  cases t.wildcard
  case wildcardNone =>
    simp [Cond.eval, Scalar.eval, Op.eval, h]
  case wildcardPrefix =>
    simp only [Cond.eval, Scalar.eval, h, like3_text, Option.some.injEq]
    exact like_starts t.value s
  case wildcardSubstring =>
    simp only [Cond.eval, Scalar.eval, h, like3_text, Option.some.injEq]
    exact like_within t.value s

theorem eval_indexedCond_null (h : c.value sc = .null) :
    (indexedCond c t).eval db sc grp = none := by
  unfold indexedCond
  cases t.wildcard <;> simp [Cond.eval, Scalar.eval, Op.eval, h]

theorem eval_exactCond (h : c.value sc = .text s) :
    (exactCond c t).eval db sc grp = some (decide (s = t.value)) := by
  simp [exactCond, Cond.eval, Scalar.eval, Op.eval, h]

/-- What is searched: ASCII letters are folded on the side of the text, all letters on the
side of the needle. -/
def scanHit (U : Unicode) (t : Term) (s : GoString) : Bool :=
  likeWithin (toLower U t.value) (s.map lowerByte)

/-- A column that may be `NULL`. -/
def scanHit? (U : Unicode) (t : Term) (s : Option GoString) : Bool := s.any (scanHit U t)

theorem like_needle : like (likeNeedle U t) (Go.before (s.map lowerByte) 0) = scanHit U t s := by
  rw [scanHit, ← like_within, like, like, chars_before]
  rfl

theorem eval_scannedCond (h : (c.value sc).castText = .text s) :
    (scannedCond U c t).eval db sc grp = some (scanHit U t s) := by
  have hl : ((c.value sc).castText.lower).like3 (.text (likeNeedle U t)) =
      some (scanHit U t s) := by
    rw [h, ← like_needle]
    rfl
  exact hl

theorem eval_scannedCond_null (h : c.value sc = .null) :
    (scannedCond U c t).eval db sc grp = none := by
  simp only [scannedCond, Cond.eval, Scalar.eval, h]
  rfl

/-- The condition on a blob column that may be `NULL` is true when there is a text with a hit. -/
theorem eval_scannedCond_true {b : Option GoString} (h : c.value sc = bytes b) :
    (scannedCond U c t).eval db sc grp = some true ↔ scanHit? U t b = true := by
  cases b with
  | none => simp [eval_scannedCond_null h, scanHit?]
  | some b => simp [eval_scannedCond (s := b) (by rw [h]; rfl), scanHit?]

/-- Some value of the named header, in a stored header map, has the needle in it. -/
def namedHit (U : Unicode) (t : Term) (doc : Value) : Bool :=
  (jsonEach doc (.text (jsonHeaderPath t.headerName))).any fun v => v.lower.like3
    (.text (likeNeedle U t)) == some true

theorem eval_namedValueCond :
    (namedValueCond U c t).eval db sc grp = some (namedHit U t (c.value sc)) := by
  have hv : ∀ v : Value, (bare "value").value (("json_each", [("value", v)]) :: sc) = v :=
    fun _ => rfl
  rw [namedValueCond, eval_exist, Source.eval, List.any_map, namedHit]
  simp only [Function.comp_def, Cond.eval, Scalar.eval, hv]

end Forms

/-! ### Events in the tables -/

/-- The searched columns of an event: `none` is `NULL`. -/
structure EventText where
  requestPath : Option GoString
  requestBody : Option GoString
  requestHeaders : Option GoString
  responseBody : Option GoString
  responseHeaders : Option GoString

/-- The searched columns of the row of an event. -/
def eventText : Record → EventText
  | .request _ => ⟨none, none, none, none, none⟩
  | .response e => ⟨none, none, none, e.body, some (marshalMap e.headers)⟩
  | .outbound e => ⟨some e.request.path, e.request.body, some (marshalMap e.request.headers),
    e.response.bind (·.body),
      e.response.map fun h => marshalMap h.headers⟩

/-- A `TEXT` column that may be `NULL`. -/
def textOrNull : Option GoString → Value
  | none => .null
  | some s => .text s

/-- A column of a row. -/
def field (row : Row) (name : String) : Value := (row.lookup name).getD .null

/-- What the row of an event has in the columns that are searched. -/
structure EventRow (ev : Record) (row : Row) : Prop where
  id : field row "id" = .text ev.id
  correlationID : field row "correlation_id" = .text ev.correlationID
  requestPath : field row "request_path" = textOrNull (eventText ev).requestPath
  requestBody : field row "request_body" = bytes (eventText ev).requestBody
  requestHeaders : field row "request_headers" = bytes (eventText ev).requestHeaders
  responseBody : field row "response_body" = bytes (eventText ev).responseBody
  responseHeaders : field row "response_headers" = bytes (eventText ev).responseHeaders

theorem eventRow?_spec {ev : Record} {row : Row} (h : eventRow? ev = some row) :
    EventRow ev row := by
  cases ev with
  | request r => cases h
  | response r =>
    cases h
    constructor <;> rfl
  | outbound r =>
    cases h
    obtain ⟨id, ts, cid, cs, sv, ss, dur, req, resp⟩ := r
    cases resp <;> constructor <;> rfl

/-- The events of some records with a correlation id. -/
def correlated (rs : List Record) (cid : GoString) : List Record :=
  rs.filter fun ev => !ev.isRequest && ev.correlationID = cid

theorem mem_correlated {rs : List Record} {cid : GoString} {ev : Record} :
    ev ∈ correlated rs cid ↔ ev ∈ rs ∧ ev.isRequest = false ∧ ev.correlationID = cid := by
  simp [correlated]

theorem eventRow?_event {ev : Record} {row : Row} (h : eventRow? ev = some row) :
    ev.isRequest = false :=
  (eventRow?_isSome ev).mp (by simp [h])

section Stored

variable {U : Unicode} {rs : List Record} {r : CapturedRequest} {t : Term} {sc : Scope}
  {grp : List Scope}

theorem stored_events : (stored rs).db "events" = rs.filterMap eventRow? := rfl

theorem stored_requests : (stored rs).db "captured_requests" = rs.filterMap requestRow? := rfl

/-- There is an event with the correlation id of the request at hand on whose row a condition
is true. -/
theorem eval_someEvent {c : Cond} (hcr : (cr "correlation_id").value sc = .text r.correlationID)
    {P : Record → Bool} (hP : ∀ ev row, EventRow ev row →
      (c.eval (stored rs).db (("e_h", row) :: sc) [] = some true ↔ P ev = true)) :
    (someEvent c).eval (stored rs).db sc grp = some ((correlated rs r.correlationID).any P) := by
  rw [someEvent, eval_exist, Option.some.injEq, Bool.eq_iff_iff, List.any_eq_true, List.any_eq_true]
  have hcid : ∀ ev row, EventRow ev row →
      (Cond.cmp .eq (.col (eH "correlation_id")) (.col (cr "correlation_id"))).eval
      (stored rs).db (("e_h", row) :: sc) [] =
        some (decide (ev.correlationID = r.correlationID)) := by
    intro ev row h
    have h₁ : (eH "correlation_id").value (("e_h", row) :: sc) = .text ev.correlationID :=
      h.correlationID
    have h₂ : (cr "correlation_id").value (("e_h", row) :: sc) = .text r.correlationID := hcr
    simp [Cond.eval, Scalar.eval, Op.eval, h₁, h₂]
  have hboth : ∀ ev row, EventRow ev row →
      ((Cond.and andWord (.cmp .eq (.col (eH "correlation_id")) (.col (cr "correlation_id")))
      (.paren c)).eval (stored rs).db (("e_h", row) :: sc) [] == some true) =
        (decide (ev.correlationID = r.correlationID) && P ev) := by
    intro ev row h
    rw [Cond.eval, Bool.eq_iff_iff, beq_iff_eq, and3_eq_true, hcid ev row h, Cond.eval, hP ev row h]
    simp
  constructor
  · rintro ⟨sc', hsc', hc⟩
    obtain ⟨row, hrow, rfl⟩ := List.mem_map.mp hsc'
    obtain ⟨ev, hev, hrow'⟩ := List.mem_filterMap.mp hrow
    rw [hboth ev row (eventRow?_spec hrow'), Bool.and_eq_true, decide_eq_true_iff] at hc
    exact ⟨ev, mem_correlated.mpr ⟨hev, eventRow?_event hrow', hc.1⟩, hc.2⟩
  · rintro ⟨ev, hev, hPev⟩
    obtain ⟨hmem, hnot, hcid'⟩ := mem_correlated.mp hev
    obtain ⟨row, hrow⟩ := Option.isSome_iff_exists.mp ((eventRow?_isSome ev).mpr hnot)
    refine ⟨("e_h", row) :: sc,
      List.mem_map.mpr ⟨row, List.mem_filterMap.mpr ⟨ev, hmem, hrow⟩, rfl⟩, ?_⟩
    rw [hboth ev row (eventRow?_spec hrow)]
    simp [hcid', hPev]

end Stored

/-! ### The conditions of a term -/

/-- An event that a freeform term finds. -/
def freeformEventHit (U : Unicode) (t : Term) (ev : Record) : Bool :=
  (eventText ev).requestPath.any (indexedHit t) || scanHit? U t (eventText ev).requestBody ||
    scanHit? U t (eventText ev).requestHeaders || scanHit? U t (eventText ev).responseBody ||
    scanHit? U t (eventText ev).responseHeaders

/-- A request that a freeform term finds. -/
def freeformHit (U : Unicode) (rs : List Record) (t : Term) (r : CapturedRequest) : Bool :=
  indexedHit t (hostColumn r) || indexedHit t r.path || indexedHit t r.service ||
    scanHit? U t r.body ||
    scanHit U t (marshalMap r.headers) || (correlated rs r.correlationID).any (freeformEventHit U t)

/-- A request that a term finds in the tables that hold some records, whatever the sign of the
term. Status and `has_events` terms are not decided by `WHERE`. -/
def sqlMatches (U : Unicode) (rs : List Record) (t : Term) (r : CapturedRequest) : Bool :=
  match t.field with
  | .freeform => rs.any fun
      | .request r' => r'.id = r.id && freeformHit U rs t r'
      | _ => false
  | .host => indexedHit t (hostColumn r)
  | .path => indexedHit t r.path
  | .service => indexedHit t r.service
  | .body => scanHit? U t r.body
  | .headers => scanHit U t (marshalMap r.headers) || (correlated rs r.correlationID).any fun ev =>
      scanHit? U t (eventText ev).requestHeaders || scanHit? U t (eventText ev).responseHeaders
  | .header =>
    namedHit U t (.blob (marshalMap r.headers)) || (correlated rs r.correlationID).any fun ev =>
      namedHit U t (bytes (eventText ev).requestHeaders) ||
      namedHit U t (bytes (eventText ev).responseHeaders)
  | .method => r.method = t.value
  | .sourceIP => r.sourceIP = t.value
  | .correlationID => r.correlationID = t.value
  | .status | .hasEvents => true

section Terms

variable {U : Unicode} {rs : List Record} {r : CapturedRequest} {t : Term} {ev : Row}
  {grp : List Scope}

/-- The scope of a request joined with an event. -/
def joinScope (ev : Row) (r : CapturedRequest) : Scope := [("e", ev), ("cr", requestRow r)]

theorem eval_headersAnyCond :
    (headersAnyCond U t).eval (stored rs).db (joinScope ev r) grp =
      some (scanHit U t (marshalMap r.headers) || (correlated rs r.correlationID).any fun ev =>
        scanHit? U t (eventText ev).requestHeaders ||
        scanHit? U t (eventText ev).responseHeaders) := by
  have hcol : ((cr "headers").value (joinScope ev r)).castText = .text (marshalMap r.headers) := rfl
  rw [headersAnyCond, Cond.eval, Cond.eval, eval_scannedCond hcol, eval_someEvent (r := r) rfl,
    or3_some]
  intro ev' row h
  rw [Cond.eval, or3_eq_true, Bool.or_eq_true]
  exact or_congr (eval_scannedCond_true h.requestHeaders) (eval_scannedCond_true h.responseHeaders)

theorem eval_headerNamedCond :
    (headerNamedCond U t).eval (stored rs).db (joinScope ev r) grp =
      some (namedHit U t (.blob (marshalMap r.headers)) ||
        (correlated rs r.correlationID).any fun ev =>
        namedHit U t (bytes (eventText ev).requestHeaders) ||
        namedHit U t (bytes (eventText ev).responseHeaders)) := by
  have hcol : (cr "headers").value (joinScope ev r) = .blob (marshalMap r.headers) := rfl
  rw [headerNamedCond, Cond.eval, Cond.eval, eval_namedValueCond, hcol, eval_someEvent (r := r) rfl,
    or3_some]
  intro ev' row h
  have h₁ : (eH "request_headers").value (("e_h", row) :: joinScope ev r) =
      bytes (eventText ev').requestHeaders :=
    h.requestHeaders
  have h₂ : (eH "response_headers").value (("e_h", row) :: joinScope ev r) =
      bytes (eventText ev').responseHeaders :=
    h.responseHeaders
  rw [Cond.eval, eval_namedValueCond, eval_namedValueCond, h₁, h₂, or3_some, Option.some.injEq]

theorem requestRow?_eq_some {rec : Record} {row : Row} :
    requestRow? rec = some row ↔ ∃ r', rec = .request r' ∧ row = requestRow r' := by
  cases rec <;> simp [requestRow?, eq_comm]

variable {c : Cond} {sc : Scope} {v : Value}

/-- The ids of the requests on whose rows a condition is true. -/
theorem mem_idsWhere :
    v ∈ (idsWhere capturedRequests c).eval (stored rs).db sc ↔ ∃ r', Record.request r' ∈ rs ∧
      c.eval (stored rs).db (("captured_requests", requestRow r') :: sc) [] = some true ∧
        v = .text r'.id := by
  rw [idsWhere, mem_eval_from]
  constructor
  · rintro ⟨sc', hsc', hc, rfl⟩
    obtain ⟨row, hrow, rfl⟩ := List.mem_map.mp hsc'
    obtain ⟨rec, hrec, hrow'⟩ := List.mem_filterMap.mp hrow
    obtain ⟨r', rfl, rfl⟩ := requestRow?_eq_some.mp hrow'
    exact ⟨r', hrec, hc, rfl⟩
  · rintro ⟨r', hr', hc, rfl⟩
    exact ⟨_, List.mem_map.mpr ⟨_, List.mem_filterMap.mpr ⟨_, hr', rfl⟩, rfl⟩, hc, rfl⟩

/-- An event joined to a request, on whose row the conditions of a freeform term hold. -/
theorem mem_joinIds {P : Record → Bool} (hP : ∀ r' ev row, EventRow ev row →
      (c.eval (stored rs).db (("e_ff", row) :: ("cr_ff", requestRow r') :: sc) [] = some true ↔
        P ev = true)) :
    v ∈ (Select.from (.col (crFf "id"))
      (.join (.alias capturedRequests ⟨"cr_ff", plain_ofList (by decide)⟩)
        (.alias events ⟨"e_ff", plain_ofList (by decide)⟩)
        (.cmp .eq (.col (eFf "correlation_id")) (.col (crFf "correlation_id")))) c).eval
          (stored rs).db sc ↔
      ∃ r', Record.request r' ∈ rs ∧ (correlated rs r'.correlationID).any P = true ∧
        v = .text r'.id := by
  rw [mem_eval_from]
  have hcid : ∀ r' ev row, EventRow ev row →
      (Cond.cmp .eq (.col (eFf "correlation_id")) (.col (crFf "correlation_id"))).eval
        (stored rs).db
        (("e_ff", row) :: ("cr_ff", requestRow r') :: sc) [] =
          some (decide (ev.correlationID = r'.correlationID)) := by
    intro r' ev row h
    have h₁ : (eFf "correlation_id").value (("e_ff", row) :: ("cr_ff", requestRow r') :: sc) =
        .text ev.correlationID :=
      h.correlationID
    have h₂ : (crFf "correlation_id").value (("e_ff", row) :: ("cr_ff", requestRow r') :: sc) =
        .text r'.correlationID := rfl
    simp [Cond.eval, Scalar.eval, Op.eval, h₁, h₂]
  constructor
  · rintro ⟨sc', hsc', hc, rfl⟩
    rw [Source.eval, List.mem_flatMap] at hsc'
    obtain ⟨sc₁, hsc₁, hsc'⟩ := hsc'
    obtain ⟨row₁, hrow₁, rfl⟩ := List.mem_map.mp hsc₁
    obtain ⟨rec, hrec, hrow₁'⟩ := List.mem_filterMap.mp hrow₁
    obtain ⟨hsc', hon⟩ := List.mem_filter.mp hsc'
    obtain ⟨row, hrow, rfl⟩ := List.mem_map.mp hsc'
    obtain ⟨ev, hev, hrow'⟩ := List.mem_filterMap.mp hrow
    obtain ⟨r', rfl, rfl⟩ := requestRow?_eq_some.mp hrow₁'
    have hspec := eventRow?_spec hrow'
    rw [hcid r' ev row hspec] at hon
    refine ⟨r', hrec, List.any_eq_true.mpr
      ⟨ev, mem_correlated.mpr ⟨hev, eventRow?_event hrow', by simpa using hon⟩, ?_⟩, rfl⟩
    exact (hP r' ev row hspec).mp hc
  · rintro ⟨r', hr', hany, rfl⟩
    obtain ⟨ev, hev, hPev⟩ := List.any_eq_true.mp hany
    obtain ⟨hmem, hnot, hcid'⟩ := mem_correlated.mp hev
    obtain ⟨row, hrow⟩ := Option.isSome_iff_exists.mp ((eventRow?_isSome ev).mpr hnot)
    have hspec := eventRow?_spec hrow
    refine ⟨("e_ff", row) :: ("cr_ff", requestRow r') :: sc, ?_, (hP r' ev row hspec).mpr hPev, rfl⟩
    rw [Source.eval, List.mem_flatMap]
    refine ⟨("cr_ff", requestRow r') :: sc,
      List.mem_map.mpr ⟨_, List.mem_filterMap.mpr ⟨_, hr', rfl⟩, rfl⟩, List.mem_filter.mpr
        ⟨List.mem_map.mpr ⟨row, List.mem_filterMap.mpr ⟨ev, hmem, hrow⟩, rfl⟩, ?_⟩⟩
    rw [hcid r' ev row hspec]
    simp [hcid']

/-- The indexed condition on a column that may be `NULL`. -/
theorem eval_indexedCond_true {c : Column} {db : Db} {s : Option GoString}
    (h : c.value sc = textOrNull s) :
    (indexedCond c t).eval db sc grp = some true ↔ s.any (indexedHit t) = true := by
  cases s with
  | none => simp [eval_indexedCond_null h]
  | some s => simp [eval_indexedCond h]

/-- The subquery of a freeform term returns the ids of the requests it finds. -/
theorem mem_freeform {q : Select} (hq : freeformCond U t = .within (.col (cr "id")) q) :
    v ∈ q.eval (stored rs).db sc ↔ ∃ r', Record.request r' ∈ rs ∧ freeformHit U rs t r' = true ∧
      v = .text r'.id := by
  rw [freeformCond, freeformUnion, Cond.within.injEq] at hq
  rw [← hq.2]
  have hhost : ∀ r' : CapturedRequest, (indexedCond (bare "host") t).eval (stored rs).db
      (("captured_requests", requestRow r') :: sc) [] = some (indexedHit t (hostColumn r')) :=
        fun _ => eval_indexedCond rfl
  have hpath : ∀ r' : CapturedRequest, (indexedCond (bare "path") t).eval (stored rs).db
      (("captured_requests", requestRow r') :: sc) [] = some (indexedHit t r'.path) :=
        fun _ => eval_indexedCond rfl
  have hservice : ∀ r' : CapturedRequest, (indexedCond (bare "service") t).eval (stored rs).db
      (("captured_requests", requestRow r') :: sc) [] = some (indexedHit t r'.service) :=
        fun _ => eval_indexedCond rfl
  have hbody : ∀ r' : CapturedRequest, (scannedCond U (bare "body") t).eval (stored rs).db
      (("captured_requests", requestRow r') :: sc) [] = some true ↔ scanHit? U t r'.body = true :=
    fun _ => eval_scannedCond_true rfl
  have hheaders : ∀ r' : CapturedRequest, (scannedCond U (bare "headers") t).eval (stored rs).db
      (("captured_requests", requestRow r') :: sc) [] =
        some (scanHit U t (marshalMap r'.headers)) :=
    fun _ => eval_scannedCond rfl
  rw [mem_eval_union, mem_eval_union, mem_eval_union, mem_eval_union, mem_eval_union, mem_idsWhere,
    mem_idsWhere, mem_idsWhere, mem_idsWhere, mem_idsWhere, mem_joinIds (P := freeformEventHit U t)]
  · simp only [hhost, hpath, hservice, hbody, hheaders, Option.some.injEq, freeformHit,
      Bool.or_eq_true, ← exists_or, ← and_or_left, ← or_and_right]
  · intro r' ev row h
    simp only [Cond.eval, or3_eq_true, freeformEventHit, Bool.or_eq_true]
    have hcol : ∀ name (hn : '?' ∉ name.toList),
        (eFf name hn).value (("e_ff", row) :: ("cr_ff", requestRow r') :: sc) = field row name :=
          fun _ _ => rfl
    rw [eval_indexedCond_true ((hcol _ _).trans h.requestPath),
      eval_scannedCond_true ((hcol _ _).trans h.requestBody),
      eval_scannedCond_true ((hcol _ _).trans h.requestHeaders),
      eval_scannedCond_true ((hcol _ _).trans h.responseBody),
      eval_scannedCond_true ((hcol _ _).trans h.responseHeaders)]

theorem eval_freeformCond :
    (freeformCond U t).eval (stored rs).db (joinScope ev r) grp =
      some (rs.any fun
        | .request r' => r'.id = r.id && freeformHit U rs t r'
        | _ => false) := by
  obtain ⟨q, hq⟩ : ∃ q, freeformCond U t = .within (.col (cr "id")) q := ⟨_, rfl⟩
  have hnull : Value.null ∉ q.eval (stored rs).db (joinScope ev r) := fun h => by
    obtain ⟨r', -, -, h⟩ := (mem_freeform hq).mp h
    cases h
  rw [hq, eval_within (v := .text r.id) rfl (by simp) hnull, Option.some.injEq, Bool.eq_iff_iff,
    decide_eq_true_iff, mem_freeform hq, List.any_eq_true]
  constructor
  · rintro ⟨r', hr', hhit, hid⟩
    exact ⟨_, hr', by simpa [hhit, eq_comm] using hid⟩
  · rintro ⟨rec, hrec, h⟩
    cases rec with
    | request r' =>
      simp only [Bool.and_eq_true, decide_eq_true_iff] at h
      exact ⟨r', hrec, h.2, by rw [h.1]⟩
    | response e => cases h
    | outbound e => cases h

/-- **What a condition in `WHERE` says of a stored request**: it is never `NULL`, and it is
true exactly when the term finds the request. -/
theorem eval_positiveCond (hc : positiveCond U t = some c) (hb : r.body ≠ none) :
    c.eval (stored rs).db (joinScope ev r) grp = some (sqlMatches U rs t r) := by
  unfold positiveCond at hc
  unfold sqlMatches
  cases hf : t.field <;> rw [hf] at hc <;> simp only [Option.some.injEq, reduceCtorEq] at hc <;>
    subst hc
  case freeform => exact eval_freeformCond
  case host => exact eval_indexedCond rfl
  case path => exact eval_indexedCond rfl
  case service => exact eval_indexedCond rfl
  case body =>
    obtain ⟨b, hb⟩ := Option.ne_none_iff_exists'.mp hb
    rw [hb]
    exact eval_scannedCond (by simp [cr, Column.value, joinScope, requestRow, List.lookup, hb,
      bytes, Value.castText])
  case headers => exact eval_headersAnyCond
  case header => exact eval_headerNamedCond
  case method => exact eval_exactCond rfl
  case sourceIP => exact eval_exactCond rfl
  case correlationID => exact eval_exactCond rfl

/-- The condition of a term with its sign. -/
theorem eval_termCond (hc : termCond U t = some c) (hb : r.body ≠ none) :
    c.eval (stored rs).db (joinScope ev r) grp = some (sqlMatches U rs t r != t.negated) := by
  obtain ⟨d, hd, rfl⟩ := Option.map_eq_some_iff.mp hc
  unfold negate
  cases t.negated
  · simpa using eval_positiveCond hd hb
  · simp [Cond.eval, eval_positiveCond hd hb]

end Terms

end HttpCatch.Sinks

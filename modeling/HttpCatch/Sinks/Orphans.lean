import HttpCatch.Sinks.Agreement
import HttpCatch.Sinks.MemoryReader

/-!
# The two readers on events without a request

For an event that no request has the correlation id of, SQLite evaluates the clause of
`CompileSQLOrphans` on the row of the event, and memory runs `matchOrphanResponse` or
`matchOrphanOutbound`. `eval_positiveOrphan` says what the clause of a term comes to
(`orphanTruth`), which may be `NULL` where the row has a `NULL` in one of its two header
columns.

`compileSQLOrphans_agree` is the comparison: for events with plain texts, the two agree on a
query exactly when no term of it `Differs`, or terms that do not decide the matter do.
-/

namespace HttpCatch.Sinks

open HttpCatch.Go HttpCatch.Json HttpCatch.Sql HttpCatch.Capture HttpCatch.SearchQL
  HttpCatch.Inspect

/-! ### What an event has -/

/-- The header maps of an event. -/
def eventHeaders : Record → List Headers
  | .request _ => []
  | .response v => [v.headers]
  | .outbound v => v.request.headers :: v.response.toList.map fun h => h.headers

/-- The bodies of an event. -/
def eventBodies : Record → List (Option GoString)
  | .request _ => []
  | .response v => [v.body]
  | .outbound v => v.request.body :: v.response.toList.map fun h => h.body

/-- The event has both a request and a response side, so that neither header column is `NULL`. -/
def twoSided : Record → Bool
  | .outbound v => v.response.isSome
  | _ => false

/-- The status of the event is one that a term asks for; only responses have one. -/
def hasStatus (t : Term) : Record → Bool
  | .response v => t.statusFilter.any fun sf => statusHit sf v.status
  | _ => false

/-- What the clause of a term says of an event before the sign of the term is looked at. -/
def orphanTruth (U : Unicode) (t : Term) (ev : Record) : Truth :=
  match t.field with
  | .service => some (indexedHit t ev.service)
  | .correlationID => some (ev.correlationID = t.value)
  | .headers =>
    if (eventHeaders ev).any fun h => scanHit U t (marshalMap h) then some true
    else if twoSided ev then some false else none
  | .header => some ((eventHeaders ev).any fun h => namedHit U t (.blob (marshalMap h)))
  | .status => some (hasStatus t ev)
  | .freeform => some (indexedHit t ev.service || freeformEventHit U t ev)
  | _ => some true

/-- What the loop of memory makes of a term. -/
def memOrphanKeeps (U : Unicode) (t : Term) : Record → Bool
  | .request _ => false
  | .response v => orphanTermKeeps t (evaluateOrphanResponseTerm U t v)
  | .outbound v => t.field ≠ .status && orphanTermKeeps t (evaluateOutboundOrphanTerm U t v)

/-- `matchOrphanResponse` or `matchOrphanOutbound`, by the kind of the event. -/
def matchOrphan (U : Unicode) (q : Query) : Record → Bool
  | .request _ => false
  | .response v => matchOrphanResponse U q v
  | .outbound v => matchOrphanOutbound U q v

/-! ### The clause of a term -/

section Clauses

variable {U : Unicode} {rs : List Record} {ev : Record} {t : Term}

theorem nodup_events (hs : Storable rs) :
    ((rs.filter fun ev => !ev.isRequest).map Record.id).Nodup := by
  obtain ⟨-, hid⟩ := hs
  rw [List.nodup_iff_pairwise_ne, List.pairwise_map, List.pairwise_filter]
  refine hid.imp fun {a b} hab ha hb => hab ?_
  rw [Bool.not_eq_true'] at ha hb
  rw [ha, hb]

variable {row : Row} {sc : Scope}

/-- A column that every row of an event has, under its own name. -/
theorem bare_event (h : eventRow? ev = some row) {name : String} (hn : '?' ∉ name.toList)
    (hname : name ∈ ["id", "service", "request_path", "request_body",
      "request_headers", "response_body", "response_headers"]) :
    (bare name hn).value (("events", row) :: sc) = field row name := by
  obtain ⟨v, hv⟩ : ∃ v, row.lookup name = some v := by
    simp only [List.mem_cons, List.not_mem_nil, or_false] at hname
    cases ev with
    | request r => cases h
    | response ev =>
      cases h
      rcases hname with rfl | rfl | rfl | rfl | rfl | rfl | rfl <;> exact ⟨_, rfl⟩
    | outbound ev =>
      cases h
      rcases hname with rfl | rfl | rfl | rfl | rfl | rfl | rfl <;> exact ⟨_, rfl⟩
  simp [Column.value, bare, field, hv]

/-- The ids of the events on whose rows a condition is true. -/
theorem mem_eventIds {c : Cond} {v : Value} {P : Record → Bool}
    (hP : ∀ ev row, eventRow? ev = some row →
      (c.eval (stored rs).db (("events", row) :: sc) [] = some true ↔ P ev = true)) :
    v ∈ (idsWhere events c).eval (stored rs).db sc ↔
      ∃ ev ∈ rs, ev.isRequest = false ∧ P ev = true ∧ v = .text ev.id := by
  rw [idsWhere, mem_eval_from]
  have hid : ∀ ev row, eventRow? ev = some row →
      (Scalar.col (bare "id")).eval (stored rs).db (("events", row) :: sc) [] =
      .text ev.id := fun ev row h => (bare_event h _ (by decide)).trans (eventRow?_spec h).id
  constructor
  · rintro ⟨sc', hsc', hc, rfl⟩
    obtain ⟨row, hrow, rfl⟩ := List.mem_map.mp hsc'
    obtain ⟨ev, hev, hrow'⟩ := List.mem_filterMap.mp hrow
    exact ⟨ev, hev, eventRow?_event hrow', (hP ev row hrow').mp hc, hid ev row hrow'⟩
  · rintro ⟨ev, hev, hevent, hPev, rfl⟩
    obtain ⟨row, hrow⟩ := Option.isSome_iff_exists.mp ((eventRow?_isSome ev).mpr hevent)
    exact ⟨_, List.mem_map.mpr ⟨row, List.mem_filterMap.mpr ⟨ev, hev, hrow⟩, rfl⟩,
      (hP ev row hrow).mpr hPev, hid ev row hrow⟩

theorem eventRow?_service (h : eventRow? ev = some row) :
    field row "service" = .text ev.service := by
  cases ev with
  | request r => cases h
  | response v => cases h; rfl
  | outbound v => cases h; rfl

/-- The subquery of a freeform term returns the ids of the events it finds. -/
theorem mem_freeformOrphan {v : Value} {q : Select}
    (hq : freeformOrphanCond U t = .within (.col (e "id")) q) :
    v ∈ q.eval (stored rs).db sc ↔ ∃ ev ∈ rs, ev.isRequest = false ∧
      (indexedHit t ev.service || freeformEventHit U t ev) = true ∧ v = .text ev.id := by
  rw [freeformOrphanCond, freeformOrphanUnion, Cond.within.injEq] at hq
  rw [← hq.2, mem_eval_union, mem_eval_union, mem_eval_union, mem_eval_union, mem_eval_union,
    mem_eventIds fun ev row h => eval_indexedCond_true (s := some ev.service)
      ((bare_event h _ (by decide)).trans (eventRow?_service h)),
    mem_eventIds fun ev row h => eval_indexedCond_true
      ((bare_event h _ (by decide)).trans (eventRow?_spec h).requestPath),
    mem_eventIds fun ev row h => eval_scannedCond_true
      ((bare_event h _ (by decide)).trans (eventRow?_spec h).requestBody),
    mem_eventIds fun ev row h => eval_scannedCond_true
      ((bare_event h _ (by decide)).trans (eventRow?_spec h).requestHeaders),
    mem_eventIds fun ev row h => eval_scannedCond_true
      ((bare_event h _ (by decide)).trans (eventRow?_spec h).responseBody),
    mem_eventIds fun ev row h => eval_scannedCond_true
      ((bare_event h _ (by decide)).trans (eventRow?_spec h).responseHeaders)]
  simp only [freeformEventHit, Bool.or_eq_true, Option.any_some, ← exists_or, ← and_or_left,
    ← or_and_right, or_assoc]

theorem eval_freeformOrphan (hs : Storable rs) (hev : ev ∈ rs) (h : eventRow? ev = some row) :
    (freeformOrphanCond U t).eval (stored rs).db (orphanScope ev) [] =
      some (indexedHit t ev.service || freeformEventHit U t ev) := by
  obtain ⟨q, hq⟩ : ∃ q, freeformOrphanCond U t = .within (.col (e "id")) q := ⟨_, rfl⟩
  have hnull : Value.null ∉ q.eval (stored rs).db (orphanScope ev) := fun hn => by
    obtain ⟨ev', -, -, -, hv⟩ := (mem_freeformOrphan hq).mp hn
    cases hv
  have hid : (Scalar.col (e "id")).eval (stored rs).db (orphanScope ev) [] = .text ev.id := by
    rw [orphanScope, h]
    exact (eventRow?_spec h).id
  rw [hq, eval_within hid (by simp) hnull, Option.some.injEq, Bool.eq_iff_iff, decide_eq_true_iff,
    mem_freeformOrphan hq]
  constructor
  · -- the events have different ids
    rintro ⟨ev', hev', hevent', hhit, hids⟩
    have hfilter : ∀ ev ∈ rs, ev.isRequest = false → ev ∈ rs.filter fun ev => !ev.isRequest :=
      fun ev hev hevent =>
      List.mem_filter.mpr ⟨hev, by simp [hevent]⟩
    obtain rfl : ev = ev' := List.inj_on_of_nodup_map (nodup_events hs)
        (hfilter ev hev (eventRow?_event h))
      (hfilter ev' hev' hevent') (Value.text.inj hids)
    exact hhit
  · exact fun hhit => ⟨ev, hev, eventRow?_event h, hhit, rfl⟩

theorem event_column (h : eventRow? ev = some row) {name : String} {hn : '?' ∉ name.toList} :
    (e name hn).value (orphanScope ev) = field row name := by
  rw [orphanScope, h]
  rfl

/-- A disjunction of two columns, of which some may be `NULL`. -/
theorem eval_headersOrphan (h : eventRow? ev = some row) :
    (Cond.paren (.or (scannedCond U (e "request_headers") t)
      (scannedCond U (e "response_headers") t))).eval (stored rs).db
        (orphanScope ev) [] =
      if (eventHeaders ev).any fun h => scanHit U t (marshalMap h) then some true
      else if twoSided ev then some false else none := by
  have hscan : ∀ (c : Column) (b : Option GoString), c.value (orphanScope ev) = bytes b →
      (scannedCond U c t).eval (stored rs).db (orphanScope ev) [] = b.map (scanHit U t) :=
        fun c b hb => by
    cases b with
    | none => exact eval_scannedCond_null hb
    | some b => exact eval_scannedCond (by rw [hb]; rfl)
  rw [Cond.eval, Cond.eval, hscan _ _ ((event_column h).trans (eventRow?_spec h).requestHeaders),
    hscan _ _ ((event_column h).trans (eventRow?_spec h).responseHeaders)]
  cases ev with
  | request r => cases h
  | response v => cases hhit : scanHit U t (marshalMap v.headers) <;>
      simp [eventText, eventHeaders, twoSided, hhit, or3]
  | outbound v =>
    cases hresp : v.response with
    | none => cases hhit : scanHit U t (marshalMap v.request.headers) <;>
        simp [eventText, eventHeaders, twoSided, hresp, hhit, or3]
    | some half =>
      cases hhit : scanHit U t (marshalMap v.request.headers) <;>
        cases hhit' : scanHit U t (marshalMap half.headers) <;>
        simp [eventText, eventHeaders, twoSided, hresp, hhit, hhit']

theorem eval_headerOrphan (h : eventRow? ev = some row) :
    (Cond.paren (.or (namedValueCond U (e "request_headers") t)
      (namedValueCond U (e "response_headers") t))).eval (stored rs).db
        (orphanScope ev)
        [] = some ((eventHeaders ev).any fun h => namedHit U t (.blob (marshalMap h))) := by
  have hnull : namedHit U t .null = false := by rw [namedHit, jsonEach_null]; rfl
  rw [Cond.eval, Cond.eval, eval_namedValueCond, eval_namedValueCond,
    (event_column h).trans (eventRow?_spec h).requestHeaders,
    (event_column h).trans (eventRow?_spec h).responseHeaders, or3_some, Option.some.injEq]
  cases ev with
  | request r => cases h
  | response v => simp [eventText, eventHeaders, bytes, hnull]
  | outbound v => cases hresp : v.response <;> simp [eventText, eventHeaders, bytes, hresp, hnull]

theorem eval_statusOrphan (h : eventRow? ev = some row) {sf : StatusFilter}
    (hsf : t.statusFilter = some sf) :
    (Cond.and andWord (.cmp .eq (.col (e "type"))
      (.lit ⟨"'response'", plain_ofList (by decide)⟩ (.text (str "response"))))
        (statusCond (.col (e "status")) sf)).eval (stored rs).db (orphanScope ev) [] =
          some (hasStatus t ev) := by
  cases ev with
  | request r => cases h
  | response v =>
    have hstatus : (Scalar.col (e "status")).eval (stored rs).db (orphanScope (.response v)) [] =
        (some v.status).elim .null .int := rfl
    have htype : (Cond.cmp .eq (.col (e "type"))
        (.lit ⟨"'response'", plain_ofList (by decide)⟩ (.text (str "response")))).eval
        (stored rs).db (orphanScope (.response v)) [] = some true := rfl
    rw [Cond.eval, htype, eval_statusCond sf hstatus, hasStatus, hsf, Option.map_some, and3_some,
      Option.any_some, Bool.true_and]
  | outbound v =>
    have htype : (Cond.cmp .eq (.col (e "type"))
        (.lit ⟨"'response'", plain_ofList (by decide)⟩ (.text (str "response")))).eval
        (stored rs).db (orphanScope (.outbound v)) [] = some false := rfl
    have hno : hasStatus t (.outbound v) = false := rfl
    rw [Cond.eval, htype, hno]
    cases (statusCond (.col (e "status")) sf).eval (stored rs).db (orphanScope (.outbound v)) [] <;>
      rfl

/-- **What the clause of a term says of the row of an event.** -/
theorem eval_positiveOrphan (hs : Storable rs) (hev : ev ∈ rs) (hevent : ev.isRequest = false)
    {c : Cond} (hc : positiveOrphan U t = some c) :
    c.eval (stored rs).db (orphanScope ev) [] = orphanTruth U t ev := by
  obtain ⟨row, hrow⟩ := Option.isSome_iff_exists.mp ((eventRow?_isSome ev).mpr hevent)
  unfold positiveOrphan at hc
  unfold orphanTruth
  cases hf : t.field <;> rw [hf] at hc
  case service =>
    cases hc
    exact eval_indexedCond ((event_column hrow).trans (eventRow?_service hrow))
  case correlationID =>
    cases hc
    exact eval_exactCond ((event_column hrow).trans (eventRow?_spec hrow).correlationID)
  case headers =>
    cases hc
    exact eval_headersOrphan hrow
  case header =>
    cases hc
    exact eval_headerOrphan hrow
  case status =>
    obtain ⟨sf, hsf, rfl⟩ := Option.map_eq_some_iff.mp hc
    exact eval_statusOrphan hrow hsf
  case freeform =>
    cases hc
    exact eval_freeformOrphan hs hev hrow
  all_goals cases hc

/-- The clause of a term, with its sign, is true of the event. -/
def sqlOrphanKeeps (U : Unicode) (t : Term) (ev : Record) : Bool :=
  (if t.negated then not3 (orphanTruth U t ev) else orphanTruth U t ev) == some true

/-- **What the clauses of a query say of an event**, where each term has one. -/
theorem holds_orphanCond (hs : Storable rs) (hev : ev ∈ rs) (hevent : ev.isRequest = false)
    {q : Query} (hq : ∀ t ∈ q.terms, ∃ c, positiveOrphan U t = some c) :
    holds (stored rs).db (orphanScope ev) [] (orphanCond U q) =
      q.terms.all fun t => sqlOrphanKeeps U t ev := by
  rw [orphanCond, holds_conj, List.all_filterMap, Bool.eq_iff_iff, List.all_eq_true,
    List.all_eq_true]
  refine forall₂_congr fun t ht => ?_
  obtain ⟨c, hc⟩ := hq t ht
  have heval := eval_positiveOrphan hs hev hevent hc
  rw [termOrphan, hc, sqlOrphanKeeps]
  cases hn : t.negated <;> simp [negate, hn, Cond.eval, heval]

end Clauses

/-! ### The same terms in memory -/

section Finding

variable (U : Unicode) (t : Term) (ev : Record)

/-- The needle is in the name or in a value of a header. -/
def InHeaders : Prop :=
  ∃ h ∈ eventHeaders ev, ∃ kv ∈ h.entries, OccursIn (toLower U t.value) kv

/-- The needle is in a value of the header of the name. -/
def InNamed : Prop :=
  ∃ h ∈ eventHeaders ev, ∃ v ∈ h.values t.headerName, Occurs (toLower U t.value) v

/-- The value is in the service or in the path of the event, or the needle in a body. -/
def InRest : Prop :=
  Asks t.wildcard t.value ev.service ∨
    (∃ p ∈ (eventText ev).requestPath, Asks t.wildcard t.value p) ∨
    ∃ b ∈ eventBodies ev, Occurs (toLower U t.value) (b.getD [])

/-- What a term asks of an event, the sign of the term aside. -/
def FoundIn : Prop :=
  match t.field with
  | .service => Asks t.wildcard t.value ev.service
  | .correlationID => ev.correlationID = t.value
  | .headers => InHeaders U t ev
  | .header => InNamed U t ev
  | .status => hasStatus t ev = true
  | _ => InRest U t ev ∨ InHeaders U t ev

/-- **The event is what a term asks for**, or for a negated term is not. No status term asks for an
outbound event. -/
def MetBy : Prop :=
  (t.field = .status → ∃ v, ev = .response v) ∧ Signed t (FoundIn U t ev)

/-- The needle is in the JSON text of the headers. -/
def InJSON : Prop :=
  ∃ h ∈ eventHeaders ev, Occurs (toLower U t.value) (marshalMap h)

/-- **What a NUL leaves of a needle is the end of the text.** SQLite sees neither the rest of the
needle nor the `%` behind it. -/
def CutWithin (n s : GoString) : Prop := 0 ∈ n ∧ Go.before n 0 <:+ s

/-- What a NUL leaves of the value of an indexed term is the text, or the end of it. -/
def CutAs (w : Wildcard) (v s : GoString) : Prop :=
  match w with
  | .wildcardNone => False
  | .wildcardPrefix => 0 ∈ v ∧ s = Go.before v 0
  | .wildcardSubstring => CutWithin v s

/-- The JSON text of the headers ends with what a NUL leaves of the needle. -/
def CutInJSON : Prop :=
  ∃ h ∈ eventHeaders ev, CutWithin (toLower U t.value) ((marshalMap h).map lowerByte)

/-- A value of the header of the name ends with what a NUL leaves of the needle. -/
def CutInNamed : Prop :=
  ∃ h ∈ eventHeaders ev, ∃ v ∈ h.values t.headerName,
    CutWithin (toLower U t.value) (v.map lowerByte)

/-- The service, the path or a body is or ends with what a NUL leaves of the value. -/
def CutInRest : Prop :=
  CutAs t.wildcard t.value ev.service ∨
    (∃ p ∈ (eventText ev).requestPath, CutAs t.wildcard t.value p) ∨
    ∃ b ∈ eventBodies ev, CutWithin (toLower U t.value) ((b.getD []).map lowerByte)

/-- The texts of the event stand for themselves in JSON: letters, digits, `-` and most other
printable ASCII. -/
structure PlainEvent (ev : Record) : Prop where
  service : PlainText ev.service
  path : ∀ p ∈ (eventText ev).requestPath, PlainText p
  headers : ∀ h ∈ eventHeaders ev, PlainMap h.entries
  bodies : ∀ b ∈ eventBodies ev, PlainText (b.getD [])

/-- What memory finds an event by, the sign of the term aside; status terms apart. -/
def memFound : Bool :=
  match t.field with
  | .service => matchString ev.service t
  | .correlationID => ev.correlationID = t.value
  | .headers => (eventHeaders ev).any fun h => headersAny U h t.value
  | .header => (eventHeaders ev).any fun h => headerValueContains U h t.headerName t.value
  | _ => matchString ev.service t || (eventText ev).requestPath.any (matchString · t) ||
      ((eventBodies ev).any fun b => bodyContainsFold U b (toLower U t.value)) ||
        (eventHeaders ev).any fun h => headersAny U h t.value

end Finding

section Memory

variable {U : Unicode} {ev : Record} {t : Term}

theorem memOrphanKeeps_eq (hevent : ev.isRequest = false)
    (hf : t.field ∈ [Field.service, .correlationID, .headers, .header, .freeform]) :
    memOrphanKeeps U t ev = (memFound U t ev != t.negated) := by
  have happlies : ∀ b : Bool, orphanTermKeeps t (b, true) = (b != t.negated) :=
    fun b => by simp [orphanTermKeeps]
  simp only [List.mem_cons, List.not_mem_nil, or_false] at hf
  cases ev with
  | request r => cases hevent
  | response v =>
    rcases hf with hf | hf | hf | hf | hf <;>
      simp only [memOrphanKeeps, memFound, evaluateOrphanResponseTerm, evaluateOrphanCommonTerm,
        hf, happlies]
    · rfl
    · rfl
    · simp [eventHeaders]
    · simp [eventHeaders]
    · simp [eventHeaders, eventBodies, eventText, matchFreeformResponseEvent, Record.service]
  | outbound v =>
    have hresp : ∀ p : OutboundResponseHalf → Bool, v.response.toList.any p = v.response.any p :=
      fun p => by
      cases v.response <;> simp
    rcases hf with hf | hf | hf | hf | hf <;>
      simp only [memOrphanKeeps, memFound, evaluateOutboundOrphanTerm, evaluateOrphanCommonTerm, hf,
        happlies, ne_eq, reduceCtorEq, not_false_eq_true, decide_true, Bool.true_and]
    · rfl
    · rfl
    · simp [eventHeaders, hresp, Function.comp_def]
    · simp [eventHeaders, hresp, Function.comp_def]
    · cases hr : v.response <;>
        simp [eventHeaders, eventBodies, eventText, matchFreeformOutboundEvent, Record.service, hr]
      ac_rfl

theorem matchOrphan_eq (hevent : ev.isRequest = false) {q : Query} :
    matchOrphan U q ev = q.terms.all fun t => memOrphanKeeps U t ev := by
  cases ev with
  | request r => cases hevent
  | response v => rfl
  | outbound v => rfl

theorem headersAny_iff {h : Headers} (hp : PlainMap h.entries) :
    headersAny U h t.value = true ↔ ∃ kv ∈ h.entries, OccursIn (toLower U t.value) kv := by
  rw [headersAny, List.any_eq_true]
  refine exists_congr fun kv => and_congr_right fun hkv => ?_
  obtain ⟨hk, hv⟩ := hp kv hkv
  rw [Bool.or_eq_true, contains_iff, toLower_of_plain hk, List.any_eq_true]
  refine or_congr Iff.rfl (exists_congr fun v => and_congr_right fun hvm => ?_)
  rw [contains_iff, toLower_of_plain (hv v hvm)]
  rfl

theorem headerValueContains_iff {h : Headers} (hp : PlainMap h.entries) :
    headerValueContains U h t.headerName t.value = true ↔
      ∃ v ∈ h.values t.headerName, Occurs (toLower U t.value) v := by
  have hvalues : headerValueContains U h t.headerName t.value =
      (h.values t.headerName).any fun v => contains (toLower U v) (toLower U t.value) := by
    rw [headerValueContains, Headers.values]
    cases h.get? t.headerName <;> rfl
  rw [hvalues, List.any_eq_true]
  refine exists_congr fun v => and_congr_right fun hv => ?_
  rw [contains_iff, toLower_of_plain (plain_values hp hv)]
  rfl

theorem bodyContainsFold_iff {b : Option GoString} (hp : PlainText (b.getD [])) :
    bodyContainsFold U b (toLower U t.value) = true ↔ Occurs (toLower U t.value) (b.getD []) := by
  unfold bodyContainsFold
  split_ifs with h
  · simp [h, Occurs]
  · rw [contains_iff, toLower_of_plain hp]
    rfl

/-- **What memory finds an event by is what the term asks for.** -/
theorem memFound_iff (hp : PlainEvent ev) (hf : t.field ≠ .status) :
    memFound U t ev = true ↔ FoundIn U t ev := by
  have hpath : (eventText ev).requestPath.any (matchString · t) = true ↔
      ∃ p ∈ (eventText ev).requestPath, Asks t.wildcard t.value p := by
    cases (eventText ev).requestPath <;> simp [matchString_iff]
  have hbodies : ((eventBodies ev).any fun b => bodyContainsFold U b (toLower U t.value)) = true ↔
      ∃ b ∈ eventBodies ev, Occurs (toLower U t.value) (b.getD []) := by
    rw [List.any_eq_true]
    exact exists_congr fun b => and_congr_right fun hb => bodyContainsFold_iff (hp.bodies b hb)
  have hheaders : ((eventHeaders ev).any fun h => headersAny U h t.value) = true ↔
      InHeaders U t ev := by
    rw [List.any_eq_true]
    exact exists_congr fun h => and_congr_right fun hh => headersAny_iff (hp.headers h hh)
  have hnamed : ((eventHeaders ev).any fun h =>
      headerValueContains U h t.headerName t.value) = true ↔ InNamed U t ev := by
    rw [List.any_eq_true]
    exact exists_congr fun h => and_congr_right fun hh =>
      headerValueContains_iff (hp.headers h hh)
  unfold memFound FoundIn
  cases h : t.field <;>
    simp_all [matchString_iff, InRest, or_assoc]

end Memory

/-! ### The same terms in SQLite -/

section Tables

variable {U : Unicode} {ev : Record} {t : Term} {s n : GoString}

theorem exists_and_or {α : Type} {S P A B : α → Prop} (h : ∀ a, S a → (P a ↔ A a ∨ B a)) :
    (∃ a, S a ∧ P a) ↔ (∃ a, S a ∧ A a) ∨ ∃ a, S a ∧ B a := by
  rw [← exists_or]
  refine exists_congr fun a => ?_
  rw [← and_or_left]
  exact and_congr_right (h a)

theorem seen_iff (hs : Printable s) : Seen n s ↔ CutWithin n s ∨ n <:+: s := by
  have hzero := printable_zero hs
  rw [Seen, CutWithin, before_of_not_mem hzero]
  split_ifs with h₀
  · have hno : ¬n <:+: s := fun h => hzero (h.subset h₀)
    simp [h₀, hno]
  · simp [h₀]

/-- What SQLite sees in plain text: the value, or what a NUL leaves of it. -/
theorem indexedHit_plain (hs : PlainText s) :
    indexedHit t s = true ↔ CutAs t.wildcard t.value s ∨ Asks t.wildcard t.value s := by
  have hprint := printable_of_plain hs
  have hzero := printable_zero hprint
  unfold indexedHit CutAs Asks
  cases t.wildcard with
  | wildcardNone => simp
  | wildcardPrefix =>
    refine (likeStarts_ascii (.inr fun b hb => (hprint b hb).2)).trans ?_
    rw [SeenFirst, before_of_not_mem hzero]
    split_ifs with h₀
    · have hno : ¬t.value <+: s := fun h => hzero (h.subset h₀)
      simp [h₀, hno, eq_comm]
    · simp [h₀]
  | wildcardSubstring => exact (likeWithin_printable hprint).trans (seen_iff hprint)

theorem scanHit_printable (hs : Printable s) :
    scanHit U t s = true ↔
      CutWithin (toLower U t.value) (s.map lowerByte) ∨ Occurs (toLower U t.value) s :=
  (likeWithin_printable (printable_lower hs)).trans (seen_iff (printable_lower hs))

theorem freeformEventHit_iff (hevent : ev.isRequest = false) :
    freeformEventHit U t ev = true ↔ (eventText ev).requestPath.any (indexedHit t) = true ∨
      (∃ b ∈ eventBodies ev, scanHit? U t b = true) ∨
      ((eventHeaders ev).any fun h => scanHit U t (marshalMap h)) = true := by
  cases ev with
  | request r => cases hevent
  | response v => simp [freeformEventHit, eventText, eventBodies, eventHeaders, scanHit?]
  | outbound v =>
    cases hr : v.response <;>
      simp [freeformEventHit, eventText, eventBodies, eventHeaders, scanHit?, hr, or_assoc,
        or_left_comm]

/-- No needle with a NUL is in plain text. -/
theorem not_asks_of_cut {w : Wildcard} {v : GoString} (hs : PlainText s) (h : CutAs w v s) :
    ¬Asks w v s := by
  have hzero := printable_zero (printable_of_plain hs)
  cases w with
  | wildcardNone => exact h.elim
  | wildcardPrefix => exact fun hasks => hzero (List.IsPrefix.subset hasks h.1)
  | wildcardSubstring => exact fun hasks => hzero (List.IsInfix.subset hasks h.1)

variable (hp : PlainEvent ev)

include hp

theorem any_scanHit_iff :
    ((eventHeaders ev).any fun h => scanHit U t (marshalMap h)) = true ↔
      CutInJSON U t ev ∨ InJSON U t ev := by
  rw [List.any_eq_true]
  exact exists_and_or fun h hh => scanHit_printable (printable_headers (hp.headers h hh))

theorem any_namedHit_iff :
    ((eventHeaders ev).any fun h => namedHit U t (.blob (marshalMap h))) = true ↔
      CutInNamed U t ev ∨ InNamed U t ev := by
  rw [List.any_eq_true]
  refine exists_and_or fun h hh => ?_
  have hplain := hp.headers h hh
  rw [namedHit_blob, member_of_plain hplain, List.any_eq_true]
  exact exists_and_or fun v hv => scanHit_printable (printable_of_plain (plain_values hplain hv))

/-- A nil body is `NULL` in SQLite, which no needle is in. What is in the empty body is in the JSON
text of the headers as well. -/
theorem scanned_bodies (hevent : ev.isRequest = false) :
    (∃ b ∈ eventBodies ev, scanHit? U t b = true) ∨ CutInJSON U t ev ∨ InJSON U t ev ↔
      ((∃ b ∈ eventBodies ev, CutWithin (toLower U t.value) ((b.getD []).map lowerByte)) ∨
        ∃ b ∈ eventBodies ev, Occurs (toLower U t.value) (b.getD [])) ∨
        CutInJSON U t ev ∨ InJSON U t ev := by
  have hsome : ∀ b, some b ∈ eventBodies ev → (scanHit? U t (some b) = true ↔
      CutWithin (toLower U t.value) (b.map lowerByte) ∨ Occurs (toLower U t.value) b) :=
    fun b hb => scanHit_printable (printable_of_plain (hp.bodies _ hb))
  obtain ⟨h, hh⟩ : ∃ h, h ∈ eventHeaders ev := by
    cases ev with
    | request r => cases hevent
    | response v => exact ⟨_, List.mem_cons_self⟩
    | outbound v => exact ⟨_, List.mem_cons_self⟩
  constructor
  · rintro (⟨_ | b, hb, hhit⟩ | hjson)
    · cases hhit
    · exact .inl (((hsome b hb).1 hhit).imp (⟨_, hb, ·⟩) (⟨_, hb, ·⟩))
    · exact .inr hjson
  · rintro ((⟨_ | b, hb, hcut⟩ | ⟨_ | b, hb, hocc⟩) | hjson)
    · exact .inr (.inl ⟨h, hh, hcut.1, hcut.2.trans List.nil_suffix⟩)
    · exact .inl ⟨_, hb, (hsome b hb).2 (.inl hcut)⟩
    · exact .inr (.inr ⟨h, hh, hocc.trans List.nil_infix⟩)
    · exact .inl ⟨_, hb, (hsome b hb).2 (.inr hocc)⟩
    · exact .inr hjson

/-- What a freeform term finds in SQLite. -/
theorem sqlFound_freeform (hevent : ev.isRequest = false) :
    (indexedHit t ev.service || freeformEventHit U t ev) = true ↔
      (CutInRest U t ev ∨ InRest U t ev) ∨ CutInJSON U t ev ∨ InJSON U t ev := by
  have hpath : (eventText ev).requestPath.any (indexedHit t) = true ↔
      (∃ p ∈ (eventText ev).requestPath, CutAs t.wildcard t.value p) ∨
        ∃ p ∈ (eventText ev).requestPath, Asks t.wildcard t.value p := by
    rw [Option.any_eq_true]
    exact exists_and_or fun p hmem => indexedHit_plain (hp.path p hmem)
  have hcollect : ∀ {c₁ a₁ c₂ a₂ c₃ a₃ j : Prop}, (c₁ ∨ a₁) ∨ (c₂ ∨ a₂) ∨ (c₃ ∨ a₃) ∨ j ↔
      ((c₁ ∨ c₂ ∨ c₃) ∨ a₁ ∨ a₂ ∨ a₃) ∨ j := by
    intros
    exact Iff.of_eq (by ac_rfl)
  rw [Bool.or_eq_true, indexedHit_plain hp.service, freeformEventHit_iff hevent, hpath,
    any_scanHit_iff hp, scanned_bodies hp hevent]
  exact hcollect

theorem not_inJSON_of_cut (h : CutInJSON U t ev) : ¬InJSON U t ev := by
  obtain ⟨-, -, hzero, -⟩ := h
  rintro ⟨h, hh, hn⟩
  exact printable_zero (printable_lower (printable_headers (hp.headers h hh))) (hn.subset hzero)

theorem not_inNamed_of_cut (h : CutInNamed U t ev) : ¬InNamed U t ev := by
  obtain ⟨-, -, -, -, hzero, -⟩ := h
  rintro ⟨h, hh, v, hv, hn⟩
  have hplain := printable_of_plain (plain_values (hp.headers h hh) hv)
  exact printable_zero (printable_lower hplain) (hn.subset hzero)

/-- A needle of a header is one of the JSON text. -/
theorem inJSON_of_inHeaders (h : InHeaders U t ev) : InJSON U t ev := by
  obtain ⟨h, hh, kv, hkv, hn⟩ := h
  refine ⟨h, hh, ?_⟩
  cases h with
  | none => cases hkv
  | some m => exact occurs_marshal_of_mem (hp.headers _ hh) hkv hn

/-- Only a needle of the JSON syntax is in the JSON text and in no header. -/
theorem inHeaders_of_bare (hbare : BareNeedle (toLower U t.value)) (h : InJSON U t ev) :
    InHeaders U t ev := by
  obtain ⟨h, hh, hn⟩ := h
  cases h with
  | none => exact absurd hn hbare.null
  | some m =>
    exact ⟨_, hh, (occurs_marshal hbare (m := some m.entries) (hp.headers _ hh)).1 hn⟩

end Tables

/-! ### Where they differ -/

/-- **The terms on which SQLite and memory differ**, for an event with plain texts: a negated
status on an outbound event, which has none; a needle with a NUL, if a text that SQLite looks
through ends with the part before it; a needle of the JSON syntax, if the JSON text of the headers
has it and nothing else that is searched; and a negated headers term on an event with one side, on
which the clause is `NULL` if the JSON text does not have the needle. -/
def Differs (U : Unicode) (t : Term) (ev : Record) : Prop :=
  match t.field with
  | .service => CutAs t.wildcard t.value ev.service
  | .header => CutInNamed U t ev
  | .status => t.negated = true ∧ ∃ v, ev = .outbound v
  | .headers =>
    CutInJSON U t ev ∨
      ¬BareNeedle (toLower U t.value) ∧ InJSON U t ev ∧ ¬InHeaders U t ev ∨
      t.negated = true ∧ twoSided ev = false ∧ ¬CutInJSON U t ev ∧ ¬InJSON U t ev
  | .freeform =>
    (CutInRest U t ev ∨ CutInJSON U t ev ∨ ¬BareNeedle (toLower U t.value) ∧ InJSON U t ev) ∧
      ¬InRest U t ev ∧ ¬InHeaders U t ev
  | _ => False

section Differing

variable {U : Unicode} {ev : Record} {t : Term}

theorem signed_eq {b : Bool} :
    ((if t.negated then not3 (some b) else some b) == some true) = (b != t.negated) := by
  cases t.negated <;> cases b <;> rfl

/-- A status term on a response. -/
theorem memOrphanKeeps_status {v : ResponseEvent} (ht : Accepted t) (hf : t.field = .status) :
    memOrphanKeeps U t (.response v) = (hasStatus t (.response v) != t.negated) := by
  obtain ⟨sf, hsf, -⟩ := ht.status hf
  simp only [memOrphanKeeps, evaluateOrphanResponseTerm, hf, hsf, hasStatus, Option.any_some,
    statusHit, orphanTermKeeps]
  split_ifs <;> simp

theorem keeps_status (hevent : ev.isRequest = false) (ht : Accepted t) (hf : t.field = .status) :
    sqlOrphanKeeps U t ev = memOrphanKeeps U t ev ↔ ¬Differs U t ev := by
  have htruth : orphanTruth U t ev = some (hasStatus t ev) := by rw [orphanTruth, hf]
  rw [sqlOrphanKeeps, htruth, signed_eq, Differs, hf]
  cases ev with
  | request r => cases hevent
  | response v => simp [memOrphanKeeps_status ht hf]
  | outbound v =>
    have hmem : memOrphanKeeps U t (.outbound v) = false := by simp [memOrphanKeeps, hf]
    have hno : hasStatus t (.outbound v) = false := rfl
    simp [hmem, hno]

variable (hevent : ev.isRequest = false) (hp : PlainEvent ev)

include hevent hp

/-- A term whose clause is never `NULL` differs where SQLite sees what memory does not find. -/
theorem keeps_found {sees : Bool} {Sees : Prop}
    (hf : t.field ∈ [Field.service, .correlationID, .headers, .header, .freeform])
    (htruth : orphanTruth U t ev = some sees) (hsees : sees = true ↔ Sees)
    (hsub : FoundIn U t ev → Sees) :
    sqlOrphanKeeps U t ev = memOrphanKeeps U t ev ↔ ¬(Sees ∧ ¬FoundIn U t ev) := by
  have hstatus : t.field ≠ .status := by
    rintro h
    simp [h] at hf
  rw [sqlOrphanKeeps, htruth, signed_eq, memOrphanKeeps_eq hevent hf, signed_eq_iff, hsees,
    memFound_iff hp hstatus]
  tauto

theorem keeps_headers (hf : t.field = .headers) :
    sqlOrphanKeeps U t ev = memOrphanKeeps U t ev ↔ ¬Differs U t ev := by
  have hfound : FoundIn U t ev ↔ InHeaders U t ev := by rw [FoundIn, hf]
  have hheaders := @inJSON_of_inHeaders U ev t hp
  rw [Differs, hf]
  by_cases hj : CutInJSON U t ev ∨ InJSON U t ev
  · have htruth : orphanTruth U t ev = some true := by
      rw [orphanTruth, hf]
      simp only [(any_scanHit_iff hp).2 hj, if_true]
    have hsees : true = true ↔ CutInJSON U t ev ∨ InJSON U t ev := by simp [hj]
    have hcut := @not_inJSON_of_cut U ev t hp
    have hbare := @inHeaders_of_bare U ev t hp
    rw [keeps_found hevent hp (by simp [hf]) htruth hsees fun _ => hj, hfound]
    tauto
  · have hno : memFound U t ev = false := by
      rw [Bool.eq_false_iff, ne_eq, memFound_iff hp (by simp [hf]), hfound]
      exact fun h => hj (.inr (hheaders h))
    rw [not_or] at hj
    rw [sqlOrphanKeeps, memOrphanKeeps_eq hevent (by simp [hf]), orphanTruth, hf]
    simp only [any_scanHit_iff hp, hj, or_self, if_false, hno, false_and, and_false, false_or,
      not_false_eq_true, and_self, and_true]
    cases twoSided ev <;> cases t.negated <;> simp

/-- The clause of a term and the loop of memory agree exactly where the term does not differ. -/
theorem keeps_iff (ht : Accepted t)
    (hf : t.field ∈ [Field.service, .correlationID, .headers, .header, .status, .freeform]) :
    sqlOrphanKeeps U t ev = memOrphanKeeps U t ev ↔ ¬Differs U t ev := by
  simp only [List.mem_cons, List.not_mem_nil, or_false] at hf
  rcases hf with hf | hf | hf | hf | hf | hf
  · have hfound : FoundIn U t ev ↔ Asks t.wildcard t.value ev.service := by rw [FoundIn, hf]
    have hcut := @not_asks_of_cut _ t.wildcard t.value hp.service
    rw [keeps_found hevent hp (by simp [hf]) (by rw [orphanTruth, hf])
      (indexedHit_plain hp.service) fun h => .inr (hfound.1 h), hfound, Differs, hf]
    tauto
  · have hfound : FoundIn U t ev ↔ ev.correlationID = t.value := by rw [FoundIn, hf]
    rw [keeps_found hevent hp (by simp [hf]) (by rw [orphanTruth, hf]) decide_eq_true_iff
      hfound.1, hfound, Differs, hf]
    simp
  · exact keeps_headers hevent hp hf
  · have hfound : FoundIn U t ev ↔ InNamed U t ev := by rw [FoundIn, hf]
    have hcut := @not_inNamed_of_cut U ev t hp
    rw [keeps_found hevent hp (by simp [hf]) (by rw [orphanTruth, hf])
      (any_namedHit_iff hp) fun h => .inr (hfound.1 h), hfound, Differs, hf]
    tauto
  · exact keeps_status hevent ht hf
  · have hfound : FoundIn U t ev ↔ InRest U t ev ∨ InHeaders U t ev := by rw [FoundIn, hf]
    have hheaders := @inJSON_of_inHeaders U ev t hp
    have hbare := @inHeaders_of_bare U ev t hp
    rw [keeps_found hevent hp (by simp [hf]) (by rw [orphanTruth, hf])
      (sqlFound_freeform hp hevent) fun h => (hfound.1 h).imp .inr fun h => .inr (hheaders h),
      hfound, Differs, hf]
    tauto

/-- What memory keeps is what a term asks for. -/
theorem memOrphanKeeps_iff (ht : Accepted t)
    (hf : t.field ∈ [Field.service, .correlationID, .headers, .header, .status, .freeform]) :
    memOrphanKeeps U t ev = true ↔ MetBy U t ev := by
  by_cases hs : t.field = .status
  · have hfound : hasStatus t ev = true ↔ FoundIn U t ev := by rw [FoundIn, hs]
    cases ev with
    | request r => cases hevent
    | response v =>
      rw [memOrphanKeeps_status ht hs, signed_iff hfound, MetBy]
      simp
    | outbound v => simp [memOrphanKeeps, MetBy, hs]
  · have hrest : t.field ∈ [Field.service, .correlationID, .headers, .header, .freeform] := by
      simp only [List.mem_cons, List.not_mem_nil, or_false] at hf ⊢
      tauto
    rw [memOrphanKeeps_eq hevent hrest, signed_iff (memFound_iff hp hs), MetBy]
    simp [hs]

end Differing

theorem orphan_fields {q : Query} (hq : q.hasRequestOnlyTerm = false) {t : Term}
    (ht : t ∈ q.terms) :
    t.field ∈ [Field.service, .correlationID, .headers, .header, .status, .freeform] := by
  have hno := List.any_eq_false.mp hq t ht
  cases hf : t.field <;> simp [hf] at hno ⊢

end HttpCatch.Sinks

import HttpCatch.Capture.BodyCap
import HttpCatch.Capture.Service

/-!
# The Events API

`internal/admin/events.go` and `events_counters.go`: `POST /events` takes one event or an array
of events, validates all of them, builds the records and offers each to the capture queue.

`encoding/json` is a set of arbitrary partial functions (`Decoder`). What `Enqueue` answers is
up to the other producers and the workers: the `i`-th call of a request gets the answer
`outcomes i`, whatever that sequence is. Clock and identifiers are inputs. The handler returns
its answer, the calls it made and the counters it left.

## Main result

* `eventsHandler_accounts`: a request is refused before the first enqueue, with one rejection
  counted, or every event is offered once, in order, and answer and counters say what became
  of each.
-/

namespace HttpCatch.Admin

open HttpCatch.Go HttpCatch.Capture HttpCatch.SearchQL

/-! ### Wire format -/

/-- `wireResponseEvent`. -/
structure WireResponseEvent where
  type : GoString
  correlationID : GoString
  service : GoString
  timestamp : Option ℤ
  status : Option ℤ
  headers : Headers
  body : GoString
  contentType : GoString
  durationMS : Option ℤ

/-- `wireOutboundHalf`. -/
structure WireOutboundHalf where
  method : GoString
  path : GoString
  headers : Headers
  body : GoString
  contentType : GoString
  status : Option ℤ

/-- `wireOutboundEvent`. -/
structure WireOutboundEvent where
  type : GoString
  correlationID : GoString
  service : GoString
  timestamp : Option ℤ
  request : Option WireOutboundHalf
  response : Option WireOutboundHalf
  durationMS : Option ℤ

/-- The three uses of `json.Unmarshal`, an error being its text, and the quoting of `fmt`. -/
structure Decoder where
  /-- Into `[]json.RawMessage`. -/
  items : GoString → Except GoString (List GoString)
  /-- Into a `wireResponseEvent`. -/
  response : GoString → Except GoString WireResponseEvent
  /-- Into a `wireOutboundEvent`. -/
  outbound : GoString → Except GoString WireOutboundEvent
  /-- `%q`. -/
  quote : GoString → GoString

/-! ### Counters -/

/-- The reasons of `incRejected`. -/
inductive RejectReason where
  | invalidJSON
  | payloadTooLarge
  | unknownType
  | missingType
  | missingRequiredField
  | emptyBatch
  | batchTooLarge
  | bodyTooLarge
  deriving DecidableEq

/-- `EventsCounters`. -/
structure EventsCounters where
  ingestedResponse : ℕ
  ingestedOutbound : ℕ
  /-- The eight rejection counters. -/
  rejected : RejectReason → ℕ
  droppedQueueFull : ℕ

/-- `NewEventsCounters`. -/
def EventsCounters.new : EventsCounters := ⟨0, 0, fun _ => 0, 0⟩

/-- `incRejected`. -/
def EventsCounters.incRejected (c : EventsCounters) (reason : RejectReason) : EventsCounters :=
  { c with rejected := Function.update c.rejected reason (c.rejected reason + 1) }

/-- `incIngestedSafe`. -/
def EventsCounters.incIngested (c : EventsCounters) : Record → EventsCounters
  | .response _ => { c with ingestedResponse := c.ingestedResponse + 1 }
  | .outbound _ => { c with ingestedOutbound := c.ingestedOutbound + 1 }
  | .request _ => c

/-- `incDroppedQueueFull`. -/
def EventsCounters.incDroppedQueueFull (c : EventsCounters) : EventsCounters :=
  { c with droppedQueueFull := c.droppedQueueFull + 1 }

/-! ### Validation -/

variable (U : Unicode)

/-- The check of the service that both kinds of event have. -/
def serviceErrors (service : GoString) : List GoString :=
  if trimSpace service = [] then [str "service: required"]
  else if sanitiseServiceLabel U (trimSpace service) = [] then [str "service: invalid"]
  else []

/-- A required field. -/
def missing {α : Type} (field : Option α) (message : GoString) : List GoString :=
  if field.isNone then [message] else []

/-- `validateResponseEvent`. -/
def validateResponseEvent (e : WireResponseEvent) : List GoString :=
  serviceErrors U e.service ++ missing e.status (str "status: required") ++
    missing e.durationMS (str "duration_ms: required")

/-- `validateOutboundEvent`. -/
def validateOutboundEvent (e : WireOutboundEvent) : List GoString :=
  serviceErrors U e.service ++
    (match e.request with
      | none => [str "request: required"]
      | some q =>
        (if trimSpace q.method = [] then [str "request.method: required"] else []) ++
          if trimSpace q.path = [] then [str "request.path: required"] else []) ++
    missing e.durationMS (str "duration_ms: required") ++
    match e.response with
    | none => []
    | some p => missing p.status (str "response.status: required when response is present")

/-- `validationError`. -/
structure ValidationError where
  /-- The position in a batch; `none` for a single object. -/
  index : Option ℕ
  field : GoString
  message : GoString
  deriving DecidableEq

/-- `strings.Cut(s, ": ")`. -/
def cutColon : GoString → GoString × GoString
  | [] => ([], [])
  | 0x3A :: 0x20 :: s => ([], s)
  | c :: s => (c :: (cutColon s).1, (cutColon s).2)

/-- `fieldErrors`. -/
def fieldErrors (idx : Option ℕ) (errs : List GoString) : List ValidationError :=
  errs.map fun e => ⟨idx, (cutColon e).1, (cutColon e).2⟩

/-! ### Records -/

/-- `capEventBody`. -/
def capEventBody (body : GoString) (bodyCap : ℤ) : Option GoString × ℤ × Bool :=
  if body = [] then (none, 0, false)
  else
    match capBody ⟨body, none⟩ bodyCap with
    | .ok (capped, size, truncated) => (some capped, size, truncated)
    | .error _ => (none, 0, false)

/-- A first value that is not empty. -/
def firstValue (vals : Option (List GoString)) : Option GoString :=
  match vals with
  | some (v :: _) => if v = [] then none else some v
  | _ => none

/-- `resolveContentType`. -/
def resolveContentType (wireContentType : GoString) (headers : Headers) : GoString :=
  let key := str "Content-Type"
  if wireContentType ≠ [] then wireContentType
  else
    match firstValue ((headers.get? key).getD none) with
    | some v => v
    | none =>
      ((headers.entries.filter fun kv => canonicalMIMEHeaderKey kv.1 = key).findSome?
        fun kv => firstValue kv.2).getD []

/-- The identifiers an event may need: its own, and a correlation key. -/
structure FreshIDs where
  id : UUID
  correlation : UUID

/-- `buildResponseRecord`, for a validated event. -/
def buildResponseRecord (e : WireResponseEvent) (bodyCap now : ℤ) (fresh : FreshIDs) :
    ResponseEvent :=
  let (correlationID, correlationSource) :=
    deriveCorrelation U fresh.correlation e.correlationID e.headers
  let (body, originalSize, truncated) := capEventBody e.body bodyCap
  { id := fresh.id.text
    timestamp := e.timestamp.getD now
    correlationID := correlationID
    correlationSource := correlationSource
    service := sanitiseServiceLabel U e.service
    serviceSource := str "explicit"
    status := e.status.getD 0
    headers := e.headers
    body := body
    bodyTruncated := truncated
    bodyOriginalSize := originalSize
    contentType := resolveContentType e.contentType e.headers
    durationMS := e.durationMS.getD 0 }

/-- The request half in `buildOutboundRecord`. -/
def buildRequestHalf (q : WireOutboundHalf) (bodyCap : ℤ) : OutboundRequestHalf :=
  let (body, originalSize, truncated) := capEventBody q.body bodyCap
  { method := q.method
    path := q.path
    headers := q.headers
    body := body
    bodyTruncated := truncated
    bodyOriginalSize := originalSize
    contentType := resolveContentType q.contentType q.headers }

/-- The response half in `buildOutboundRecord`. -/
def buildResponseHalf (p : WireOutboundHalf) (bodyCap : ℤ) : OutboundResponseHalf :=
  let (body, originalSize, truncated) := capEventBody p.body bodyCap
  { status := p.status.getD 0
    headers := p.headers
    body := body
    bodyTruncated := truncated
    bodyOriginalSize := originalSize
    contentType := resolveContentType p.contentType p.headers }

/-- `buildOutboundRecord`, for an event with request `q`. -/
def buildOutboundRecord (e : WireOutboundEvent) (q : WireOutboundHalf) (bodyCap now : ℤ)
    (fresh : FreshIDs) :
    OutboundEvent :=
  let (correlationID, correlationSource) :=
    deriveCorrelation U fresh.correlation e.correlationID q.headers
  { id := fresh.id.text
    timestamp := e.timestamp.getD now
    correlationID := correlationID
    correlationSource := correlationSource
    service := sanitiseServiceLabel U e.service
    serviceSource := str "explicit"
    durationMS := e.durationMS.getD 0
    request := buildRequestHalf q bodyCap
    response := e.response.map (buildResponseHalf · bodyCap) }

/-- A body over the cap, where there is a cap. -/
def overCap (body : GoString) (bodyCap : ℤ) : Bool := 0 < bodyCap && bodyCap < (body.length : ℤ)

variable (D : Decoder)

/-- `parseAndBuild`, with the counters it leaves. -/
def parseAndBuild (item : GoString) (idx : Option ℕ) (bodyCap now : ℤ) (fresh : FreshIDs)
    (c : EventsCounters) :
    Except (List ValidationError) Record × EventsCounters :=
  match D.response item with
  | .error err => (.error [⟨idx, str "body", err⟩], c.incRejected .invalidJSON)
  | .ok re =>
    if re.type = [] then (.error [⟨idx, str "type", str "required"⟩], c.incRejected .missingType)
    else if re.type = str "response" then
      if validateResponseEvent U re ≠ [] then
        (.error (fieldErrors idx (validateResponseEvent U re)), c.incRejected .missingRequiredField)
      else if overCap re.body bodyCap then
        (.error [⟨idx, str "body", str "body too large"⟩], c.incRejected .bodyTooLarge)
      else (.ok (.response (buildResponseRecord U re bodyCap now fresh)), c)
    else if re.type = str "outbound" then
      match D.outbound item with
      | .error err => (.error [⟨idx, str "body", err⟩], c.incRejected .invalidJSON)
      | .ok oe =>
        if validateOutboundEvent U oe ≠ [] then
          (.error (fieldErrors idx (validateOutboundEvent U oe)),
            c.incRejected .missingRequiredField)
        else
          match oe.request with
          -- validation has seen to it that there is a request
          | none => (.error (fieldErrors idx (validateOutboundEvent U oe)),
              c.incRejected .missingRequiredField)
          | some q =>
            if overCap q.body bodyCap then
              (.error [⟨idx, str "request.body", str "body too large"⟩],
                c.incRejected .bodyTooLarge)
            else if oe.response.any fun p => overCap p.body bodyCap then
              (.error [⟨idx, str "response.body", str "body too large"⟩],
                c.incRejected .bodyTooLarge)
            else (.ok (.outbound (buildOutboundRecord U oe q bodyCap now fresh)), c)
    else (.error [⟨idx, str "type", str "unknown type " ++ D.quote re.type⟩],
      c.incRejected .unknownType)

/-! ### The handler -/

/-- What the handler is configured with. A number that is not positive sets no limit. -/
structure EventsConfig where
  bodyCap : ℤ
  maxPayload : ℤ
  maxBatch : ℤ

/-- A request: its declared length, the bytes that can be read and whether reading them ends in an
error. -/
structure EventsRequest where
  contentLength : ℤ
  body : GoString
  readError : Bool

/-- The body of an answer. -/
inductive AnswerBody where
  /-- Nothing. -/
  | empty
  /-- `eventsErrorResponse`. -/
  | errors (errs : List ValidationError)
  /-- The object of a multi-status answer. -/
  | counts (accepted dropped : ℕ)
  /-- Plain text. -/
  | text (message : GoString)
  deriving DecidableEq

/-- An answer: status code and body. -/
structure Answer where
  status : ℕ
  body : AnswerBody
  deriving DecidableEq

/-- `singleFieldError`. -/
def singleFieldError (field message : GoString) : AnswerBody := .errors [⟨none, field, message⟩]

/-- A finished request. -/
structure Handled where
  /-- What the client gets. -/
  answer : Answer
  /-- The calls of `Enqueue` with what they returned, in order. -/
  calls : List (Record × Bool)
  /-- The counters at the end. -/
  counters : EventsCounters

/-- A request that is refused. -/
def Handled.refuse (status : ℕ) (body : AnswerBody) (c : EventsCounters) : Handled :=
  ⟨⟨status, body⟩, [], c⟩

/-- `io.ReadAll` on the body, limited by `http.MaxBytesReader`. -/
def EventsRequest.read (r : EventsRequest) (maxPayload : ℤ) : Option GoString :=
  if r.readError ∨ 0 < maxPayload ∧ maxPayload < (r.body.length : ℤ) then none else some r.body

/-- The first byte after white space opens an array. -/
def isBatch (rawBody : GoString) : Bool := (rawBody.dropWhile isBlank).head? = some 0x5B

/-- The first loop over a batch, from the `i`-th item on. -/
def buildAll (bodyCap now : ℤ) (fresh : ℕ → FreshIDs) :
    ℕ → List GoString → EventsCounters →
      Except (List ValidationError) (List Record) × EventsCounters
  | _, [], c => (.ok [], c)
  | i, item :: items, c =>
    match parseAndBuild U D item (some i) bodyCap now (fresh i) c with
    | (.error errs, c) => (.error errs, c)
    | (.ok rec, c) =>
      match buildAll bodyCap now fresh (i + 1) items c with
      | (.error errs, c) => (.error errs, c)
      | (.ok recs, c) => (.ok (rec :: recs), c)

/-- The second loop: the `i`-th call of `Enqueue` returns `outcomes i`. Besides the calls it keeps
the two numbers for the answer. -/
def enqueueAll (outcomes : ℕ → Bool) :
    ℕ → List Record → ℕ → ℕ → EventsCounters → List (Record × Bool) × ℕ × ℕ × EventsCounters
  | _, [], accepted, dropped, c => ([], accepted, dropped, c)
  | i, rec :: recs, accepted, dropped, c =>
    if outcomes i then
      let (calls, out) := enqueueAll outcomes (i + 1) recs (accepted + 1) dropped
        (c.incIngested rec)
      ((rec, true) :: calls, out)
    else
      let (calls, out) := enqueueAll outcomes (i + 1) recs accepted
          (dropped + 1) c.incDroppedQueueFull
      ((rec, false) :: calls, out)

/-- The `switch` at the end of a batch. -/
def batchAnswer (accepted dropped : ℕ) : Answer :=
  if dropped = 0 then ⟨202, .empty⟩
  else if 0 < accepted then ⟨207, .counts accepted dropped⟩
  else ⟨503, singleFieldError (str "queue") (str "queue full")⟩

/-- `eventsHandler`, on a request with or without a queue. -/
def eventsHandler (cfg : EventsConfig) (hasQueue : Bool) (now : ℤ) (fresh : ℕ → FreshIDs)
    (outcomes : ℕ → Bool) (r : EventsRequest) (c : EventsCounters) : Handled :=
  if 0 < cfg.maxPayload ∧ cfg.maxPayload < r.contentLength then
    .refuse 413 (singleFieldError (str "body") (str "payload too large"))
      (c.incRejected .payloadTooLarge)
  else
    match r.read cfg.maxPayload with
    | none => .refuse 413 (singleFieldError (str "body") (str "payload too large"))
        (c.incRejected .payloadTooLarge)
    | some rawBody =>
      if !hasQueue then .refuse 503 (.text (str "events pipeline not configured")) c
      else if isBatch rawBody then
        match D.items rawBody with
        | .error err => .refuse 400 (singleFieldError (str "body") err) (c.incRejected .invalidJSON)
        | .ok rawItems =>
          if rawItems = [] then
            .refuse 400 (singleFieldError (str "body") (str "empty batch"))
              (c.incRejected .emptyBatch)
          else if 0 < cfg.maxBatch ∧ cfg.maxBatch < (rawItems.length : ℤ) then
            .refuse 413 (singleFieldError (str "body") (str "batch too large"))
              (c.incRejected .batchTooLarge)
          else
            match buildAll U D cfg.bodyCap now fresh 0 rawItems c with
            | (.error errs, c) => .refuse 400 (.errors errs) c
            | (.ok records, c) =>
              let (calls, accepted, dropped, c) := enqueueAll outcomes 0 records 0 0 c
              ⟨batchAnswer accepted dropped, calls, c⟩
      else
        match parseAndBuild U D rawBody none cfg.bodyCap now (fresh 0) c with
        | (.error errs, c) => .refuse 400 (.errors errs) c
        | (.ok rec, c) =>
          if outcomes 0 then ⟨⟨202, .empty⟩, [(rec, true)], c.incIngested rec⟩
          else ⟨⟨503, singleFieldError (str "queue") (str "queue full")⟩, [(rec, false)],
            c.incDroppedQueueFull⟩

/-! ### One item -/

/-- **`parseAndBuild` makes a record and counts nothing, or counts one rejection.** Which of the
two does not depend on the counters. -/
theorem parseAndBuild_spec (item : GoString) (idx : Option ℕ) (bodyCap now : ℤ) (fresh : FreshIDs) :
    (∃ rec : Record, rec.isRequest = false ∧
      ∀ c, parseAndBuild U D item idx bodyCap now fresh c = (.ok rec, c)) ∨
      ∃ errs reason, ∀ c, parseAndBuild U D item idx bodyCap now fresh c =
        (.error errs, c.incRejected reason) := by
  unfold parseAndBuild
  cases D.response item with
  | error err => exact Or.inr ⟨_, _, fun c => rfl⟩
  | ok re =>
    dsimp only
    split_ifs
    · exact Or.inr ⟨_, _, fun c => rfl⟩
    · exact Or.inr ⟨_, _, fun c => rfl⟩
    · exact Or.inr ⟨_, _, fun c => rfl⟩
    · exact Or.inl ⟨_, rfl, fun c => rfl⟩
    · cases D.outbound item with
      | error err => exact Or.inr ⟨_, _, fun c => rfl⟩
      | ok oe =>
        by_cases hv : validateOutboundEvent U oe ≠ []
        · exact Or.inr ⟨_, _, fun c => if_pos hv⟩
        · simp only [if_neg hv]
          cases oe.request with
          | none => exact Or.inr ⟨_, _, fun c => rfl⟩
          | some q =>
            dsimp only
            split_ifs
            · exact Or.inr ⟨_, _, fun c => rfl⟩
            · exact Or.inr ⟨_, _, fun c => rfl⟩
            · exact Or.inl ⟨_, rfl, fun c => rfl⟩
    · exact Or.inr ⟨_, _, fun c => rfl⟩

/-- An item that makes a record is a validated event of one of the two kinds. -/
theorem parseAndBuild_ok {U : Unicode} {D : Decoder} {item : GoString} {idx : Option ℕ}
    {bodyCap now : ℤ} {fresh : FreshIDs} {c c' : EventsCounters} {rec : Record}
    (h : parseAndBuild U D item idx bodyCap now fresh c = (.ok rec, c')) :
    (∃ re, D.response item = .ok re ∧ re.type = str "response" ∧ validateResponseEvent U re = [] ∧
        rec = .response (buildResponseRecord U re bodyCap now fresh)) ∨
      ∃ re oe q, D.response item = .ok re ∧ re.type = str "outbound" ∧ D.outbound item = .ok oe ∧
        oe.request = some q ∧ validateOutboundEvent U oe = [] ∧
        rec = .outbound (buildOutboundRecord U oe q bodyCap now fresh) := by
  unfold parseAndBuild at h
  cases hre : D.response item with
  | error err =>
    rw [hre] at h
    cases h
  | ok re =>
    rw [hre] at h
    dsimp only at h
    split_ifs at h with htype hresponse hvalid hcap houtbound
    · cases h
    · cases h
    · cases h
    · cases h
      exact .inl ⟨re, rfl, hresponse, not_not.mp hvalid, rfl⟩
    · cases hoe : D.outbound item with
      | error err =>
        rw [hoe] at h
        cases h
      | ok oe =>
        rw [hoe] at h
        dsimp only at h
        by_cases hvalid : validateOutboundEvent U oe ≠ []
        · rw [if_pos hvalid] at h
          cases h
        · rw [if_neg hvalid] at h
          cases hq : oe.request with
          | none =>
            rw [hq] at h
            cases h
          | some q =>
            rw [hq] at h
            dsimp only at h
            split_ifs at h
            · cases h
            · cases h
            · cases h
              exact .inr ⟨re, oe, q, rfl, houtbound, rfl, hq, not_not.mp hvalid, rfl⟩
    · cases h

/-! ### A batch -/

/-- The record that the item at a position of the payload makes. -/
def Makes (bodyCap now : ℤ) (fresh : ℕ → FreshIDs) (idx : Option ℕ) (item : GoString × ℕ)
    (rec : Record) : Prop :=
  ∀ c, parseAndBuild U D item.1 idx bodyCap now (fresh item.2) c = (.ok rec, c)

/-- A batch is built whole, or it is refused with one rejection. -/
theorem buildAll_spec (bodyCap now : ℤ) (fresh : ℕ → FreshIDs) (items : List GoString) (i : ℕ) :
    (∃ recs : List Record, (∀ rec ∈ recs, rec.isRequest = false) ∧
        List.Forall₂ (fun item rec => Makes U D bodyCap now fresh (some item.2) item rec)
          (items.zipIdx i) recs ∧
        ∀ c, buildAll U D bodyCap now fresh i items c = (.ok recs, c)) ∨
      ∃ errs reason, ∀ c, buildAll U D bodyCap now fresh i items c =
        (.error errs, c.incRejected reason) := by
  induction items generalizing i with
  | nil =>
    refine Or.inl ⟨[], ?_, List.Forall₂.nil, fun c => rfl⟩
    intro rec hrec
    cases hrec
  | cons item items ih =>
    rcases parseAndBuild_spec U D item (some i) bodyCap now (fresh i) with ⟨rec, hkind, hrec⟩ |
      ⟨errs, reason, herr⟩
    · rcases ih (i + 1) with ⟨recs, hkinds, hrecs, hall⟩ | ⟨errs, reason, herr⟩
      · refine Or.inl ⟨rec :: recs, List.forall_mem_cons.2 ⟨hkind, hkinds⟩,
          List.Forall₂.cons hrec hrecs, fun c => ?_⟩
        rw [buildAll, hrec]
        dsimp only
        rw [hall]
      · -- what was built before the bad item is thrown away
        refine Or.inr ⟨errs, reason, fun c => ?_⟩
        rw [buildAll, hrec]
        dsimp only
        rw [herr]
    · refine Or.inr ⟨errs, reason, fun c => ?_⟩
      rw [buildAll, herr]

/-! ### The calls -/

/-- How many calls succeeded. -/
def accepted (calls : List (Record × Bool)) : ℕ := calls.countP fun call => call.2

/-- How many calls failed. -/
def dropped (calls : List (Record × Bool)) : ℕ := calls.countP fun call => !call.2

/-- The counters after the calls: each success counts by kind of event, each failure as dropped. -/
def EventsCounters.after (c : EventsCounters) (calls : List (Record × Bool)) : EventsCounters :=
  { c with
    ingestedResponse :=
      c.ingestedResponse + calls.countP fun call => call.2 && (call.1 matches .response _)
    ingestedOutbound :=
      c.ingestedOutbound + calls.countP fun call => call.2 && (call.1 matches .outbound _)
    droppedQueueFull := c.droppedQueueFull + dropped calls }

theorem EventsCounters.after_accept (c : EventsCounters) (rec : Record)
    (calls : List (Record × Bool)) :
    (c.incIngested rec).after calls = c.after ((rec, true) :: calls) := by
  cases rec <;> simp [EventsCounters.after, EventsCounters.incIngested, dropped] <;> omega

theorem EventsCounters.after_drop (c : EventsCounters) (rec : Record)
    (calls : List (Record × Bool)) :
    c.incDroppedQueueFull.after calls = c.after ((rec, false) :: calls) := by
  simp [EventsCounters.after, EventsCounters.incDroppedQueueFull, dropped]
  omega

/-- One call of `Enqueue` for each record, in order, with its answer. -/
def answered (outcomes : ℕ → Bool) (i : ℕ) (recs : List Record) : List (Record × Bool) :=
  (recs.zipIdx i).map fun p => (p.1, outcomes p.2)

/-- The second loop makes these calls and counts their answers. -/
theorem enqueueAll_eq (outcomes : ℕ → Bool) (recs : List Record) (i a d : ℕ) (c : EventsCounters) :
    enqueueAll outcomes i recs a d c =
      (answered outcomes i recs, a + accepted (answered outcomes i recs),
        d + dropped (answered outcomes i recs), c.after (answered outcomes i recs)) := by
  induction recs generalizing i a d c with
  | nil => rfl
  | cons rec recs ih =>
    have hcons : answered outcomes i (rec :: recs) =
    (rec, outcomes i) :: answered outcomes (i + 1) recs := rfl
    rw [enqueueAll, hcons]
    cases outcomes i with
    | true =>
      rw [if_pos rfl, ih, EventsCounters.after_accept c rec]
      simp only [accepted, dropped, List.countP_cons, Bool.not_true, Bool.false_eq_true, if_true,
        if_false, Prod.mk.injEq, true_and, and_true]
      omega
    | false =>
      rw [if_neg Bool.false_ne_true, ih, EventsCounters.after_drop c rec]
      simp only [accepted, dropped, List.countP_cons, Bool.not_false, Bool.false_eq_true, if_true,
        if_false, Prod.mk.injEq, true_and, and_true]
      omega

theorem accepted_add_dropped (calls : List (Record × Bool)) :
    accepted calls + dropped calls = calls.length := by
  rw [accepted, dropped, List.length_eq_countP_add_countP (fun call : Record × Bool => call.2)]
  congr 2
  funext call
  cases call.2 <;> rfl

/-! ### Every answer -/

/-- The records that a payload stands for: one for each item of an array, in order, or one for a
single object. -/
def Events (bodyCap now : ℤ) (fresh : ℕ → FreshIDs) (rawBody : GoString) (recs : List Record) :
    Prop :=
  if isBatch rawBody then
    ∃ items, D.items rawBody = .ok items ∧
      List.Forall₂ (fun item rec => Makes U D bodyCap now fresh (some item.2) item rec)
        items.zipIdx recs
  else ∃ rec, Makes U D bodyCap now fresh none (rawBody, 0) rec ∧ recs = [rec]

/-- The answer says what became of the calls. -/
structure Reports (answer : Answer) (calls : List (Record × Bool)) : Prop where
  /-- Accepted: no call failed. -/
  accepted_iff : answer.status = 202 ↔ ∀ call ∈ calls, call.2 = true
  /-- Multi-status: some calls succeeded, some failed. -/
  multi_iff : answer.status = 207 ↔ (∃ call ∈ calls, call.2 = true) ∧ ∃ call ∈ calls, call.2 = false
  /-- Unavailable: all calls failed. -/
  unavailable_iff : answer.status = 503 ↔ ∀ call ∈ calls, call.2 = false
  /-- The numbers of a multi-status answer. -/
  counts : answer.status = 207 → answer.body = .counts (accepted calls) (dropped calls)

theorem batchAnswer_status {a d : ℕ} (h : 0 < a + d) :
    ((batchAnswer a d).status = 202 ↔ d = 0) ∧
      ((batchAnswer a d).status = 207 ↔ ¬ a = 0 ∧ ¬ d = 0) ∧
      ((batchAnswer a d).status = 503 ↔ a = 0) ∧
      ((batchAnswer a d).status = 207 → (batchAnswer a d).body = .counts a d) := by
  unfold batchAnswer
  split_ifs with hd ha
  · refine ⟨?_, ?_, ?_, ?_⟩ <;> simp <;> omega
  · refine ⟨?_, ?_, ?_, ?_⟩ <;> simp <;> omega
  · refine ⟨?_, ?_, ?_, ?_⟩ <;> simp <;> omega

theorem reports_batchAnswer {calls : List (Record × Bool)} (hne : calls ≠ []) :
    Reports (batchAnswer (accepted calls) (dropped calls)) calls := by
  have hsum : 0 < accepted calls + dropped calls := by
    rw [accepted_add_dropped]
    exact List.length_pos_iff.2 hne
  obtain ⟨h202, h207, h503, hcounts⟩ := batchAnswer_status hsum
  have hd : dropped calls = 0 ↔ ∀ call ∈ calls, call.2 = true := by
    rw [dropped, List.countP_eq_zero]
    simp
  have ha : accepted calls = 0 ↔ ∀ call ∈ calls, call.2 = false := by
    rw [accepted, List.countP_eq_zero]
    simp
  refine ⟨h202.trans hd, h207.trans (and_congr ?_ ?_), h503.trans ha, hcounts⟩
  · rw [ha]
    simp
  · rw [hd]
    simp

/-- A request that was refused: nothing was offered, and one rejection was counted. -/
def Refused (c : EventsCounters) (out : Handled) : Prop :=
  (out.answer.status = 400 ∨ out.answer.status = 413) ∧ out.calls = [] ∧
    ∃ reason, out.counters = c.incRejected reason

/-- A request whose events were all offered, with an answer and counters that say what became of
them. -/
structure Offered (outcomes : ℕ → Bool) (c : EventsCounters) (events : List Record)
  (out : Handled) : Prop where
  /-- The status is not one of a refusal. -/
  status : ¬ (out.answer.status = 400 ∨ out.answer.status = 413)
  /-- No event is a captured request. -/
  kinds : ∀ rec ∈ events, rec.isRequest = false
  /-- Each event was offered once, in order. -/
  calls : out.calls = answered outcomes 0 events
  /-- The answer. -/
  reports : Reports out.answer out.calls
  /-- The counters. -/
  counters : out.counters = c.after out.calls

theorem refused_refuse {status : ℕ} (h : status = 400 ∨ status = 413) (body : AnswerBody)
    (c : EventsCounters) (reason : RejectReason) :
    Refused c (.refuse status body (c.incRejected reason)) :=
  ⟨h, rfl, reason, rfl⟩

theorem offered_batch (outcomes : ℕ → Bool) (c : EventsCounters) {recs : List Record}
    (hne : recs ≠ []) (hkinds : ∀ rec ∈ recs, rec.isRequest = false) :
    Offered outcomes c recs ⟨batchAnswer (accepted (answered outcomes 0 recs))
      (dropped (answered outcomes 0 recs)), answered outcomes 0 recs,
      c.after (answered outcomes 0 recs)⟩ := by
  have hcalls : answered outcomes 0 recs ≠ [] := by
    rw [← List.length_pos_iff, answered, List.length_map, List.length_zipIdx]
    exact List.length_pos_iff.2 hne
  refine ⟨fun hs => ?_, hkinds, rfl, reports_batchAnswer hcalls, rfl⟩
  -- a batch that was offered is answered 202, 207 or 503
  dsimp only [batchAnswer] at hs
  split_ifs at hs <;> simp at hs

/-- **What the handler does with a request**: it refuses the whole, or offers every event. -/
theorem eventsHandler_spec (cfg : EventsConfig) (now : ℤ) (fresh : ℕ → FreshIDs)
    (outcomes : ℕ → Bool) (r : EventsRequest) (c : EventsCounters) :
    Refused c (eventsHandler U D cfg true now fresh outcomes r c) ∨
      ∃ events, Events U D cfg.bodyCap now fresh r.body events ∧
        Offered outcomes c events (eventsHandler U D cfg true now fresh outcomes r c) := by
  unfold eventsHandler
  split
  · exact Or.inl (refused_refuse (Or.inr rfl) _ c _)
  split
  · exact Or.inl (refused_refuse (Or.inr rfl) _ c _)
  case h_2 rawBody hread =>
  -- what was read is the body
  obtain rfl : r.body = rawBody := by
    rw [EventsRequest.read] at hread
    split_ifs at hread
    exact Option.some.inj hread
  rw [if_neg (by simp)]
  split
  · case isTrue hbatch =>
    split
    · exact Or.inl (refused_refuse (Or.inl rfl) _ c _)
    case h_2 items hitems =>
    split
    · exact Or.inl (refused_refuse (Or.inl rfl) _ c _)
    case isFalse hne =>
    split
    · exact Or.inl (refused_refuse (Or.inr rfl) _ c _)
    rcases buildAll_spec U D cfg.bodyCap now fresh items 0 with ⟨recs, hkinds, hrecs, hall⟩ |
      ⟨errs, reason, herr⟩
    · rw [hall]
      dsimp only
      rw [enqueueAll_eq, Nat.zero_add, Nat.zero_add]
      have hrecs_ne : recs ≠ [] := by
        rw [← List.length_pos_iff, ← hrecs.length_eq, List.length_zipIdx]
        exact List.length_pos_iff.2 hne
      refine Or.inr ⟨recs, ?_, offered_batch outcomes c hrecs_ne hkinds⟩
      rw [Events, if_pos hbatch]
      exact ⟨items, hitems, hrecs⟩
    · rw [herr]
      exact Or.inl (refused_refuse (Or.inl rfl) _ c reason)
  · case isFalse hsingle =>
    rcases parseAndBuild_spec U D r.body none cfg.bodyCap now (fresh 0) with ⟨rec, hkind, hrec⟩ |
      ⟨errs, reason, herr⟩
    · rw [hrec]
      dsimp only
      refine Or.inr ⟨[rec], ?_, ?_⟩
      · rw [Events, if_neg hsingle]
        exact ⟨rec, hrec, rfl⟩
      · have hkinds : ∀ rec' ∈ [rec], rec'.isRequest = false :=
          fun rec' h => (List.mem_singleton.1 h) ▸ hkind
        have hcalls : ∀ b, outcomes 0 = b → [(rec, b)] = answered outcomes 0 [rec] := by
          rintro b rfl
          rfl
        split_ifs with ho
        · refine ⟨by simp, hkinds, hcalls true ho, ?_, EventsCounters.after_accept c rec []⟩
          constructor <;> simp
        · refine ⟨by simp, hkinds, hcalls false (Bool.eq_false_iff.2 ho), ?_,
            EventsCounters.after_drop c rec []⟩
          constructor <;> simp
    · rw [herr]
      exact Or.inl (refused_refuse (Or.inl rfl) _ c reason)

/-- **`POST /events` is all or nothing on validation, and accounts for every item.** An answer 400
or 413 means that nothing was offered to the queue and one rejection was counted. Any other answer
means that each event of the payload was offered once, in order; the answer and the counters say
which were accepted. -/
theorem eventsHandler_accounts (cfg : EventsConfig) (now : ℤ) (fresh : ℕ → FreshIDs)
    (outcomes : ℕ → Bool) (r : EventsRequest) (c : EventsCounters) :
    let out := eventsHandler U D cfg true now fresh outcomes r c
    (out.answer.status = 400 ∨ out.answer.status = 413 →
        out.calls = [] ∧ ∃ reason, out.counters = c.incRejected reason) ∧
      (¬ (out.answer.status = 400 ∨ out.answer.status = 413) →
        ∃ events, Events U D cfg.bodyCap now fresh r.body events ∧
        out.calls = answered outcomes 0 events ∧
          Reports out.answer out.calls ∧ accepted out.calls + dropped out.calls = events.length ∧
          out.counters = c.after out.calls) := by
  dsimp only
  rcases eventsHandler_spec U D cfg now fresh outcomes r c with ⟨hs, hcalls, hcount⟩ |
    ⟨events, hevents, hoffered⟩
  · exact ⟨fun _ => ⟨hcalls, hcount⟩, fun hn => absurd hs hn⟩
  · refine ⟨fun hs => absurd hs hoffered.status, fun _ => ?_⟩
    refine ⟨events, hevents, hoffered.calls, hoffered.reports, ?_, hoffered.counters⟩
    rw [accepted_add_dropped, hoffered.calls, answered, List.length_map, List.length_zipIdx]

/-! ### Service labels -/

/-- The service field of an item, in the shape that its type asks for. -/
def wireService (item : GoString) : GoString :=
  match D.response item with
  | .error _ => []
  | .ok re =>
    if re.type = str "outbound" then
      match D.outbound item with
      | .error _ => []
      | .ok oe => oe.service
    else re.service

section

variable {U : Unicode} {D : Decoder}

/-- Validation asks for a service that passes the check of labels. -/
theorem accepts_of_serviceErrors (hU : U.SimpleCase) {service : GoString}
    (h : serviceErrors U service = []) : Accepts service := by
  unfold serviceErrors at h
  split_ifs at h with hempty hinvalid
  have haccepts := (sanitiseServiceLabel_ne_nil hU).mp hinvalid
  rwa [Accepts, trimSpace_idem] at haccepts

/-- **The label of a record is made of the service field of its item**, which passed the check. -/
theorem service_of_parseAndBuild (hU : U.SimpleCase) {item : GoString} {idx : Option ℕ}
    {bodyCap now : ℤ} {fresh : FreshIDs} {c c' : EventsCounters} {rec : Record}
    (h : parseAndBuild U D item idx bodyCap now fresh c = (.ok rec, c')) :
    Accepts (wireService D item) ∧ rec.service = sanitiseServiceLabel U (wireService D item) := by
  rcases parseAndBuild_ok h with ⟨re, hre, htype, hvalid, rfl⟩ |
    ⟨re, oe, q, hre, htype, hoe, -, hvalid, rfl⟩
  · have hservice : wireService D item = re.service := by
      rw [wireService, hre]
      dsimp only
      rw [if_neg]
      rw [htype]
      decide
    rw [hservice]
    refine ⟨accepts_of_serviceErrors hU ?_, rfl⟩
    rw [validateResponseEvent, List.append_assoc, List.append_eq_nil_iff] at hvalid
    exact hvalid.1
  · have hservice : wireService D item = oe.service := by
      rw [wireService, hre]
      dsimp only
      rw [if_pos htype, hoe]
    rw [hservice]
    refine ⟨accepts_of_serviceErrors hU ?_, rfl⟩
    simp only [validateOutboundEvent, List.append_assoc, List.append_eq_nil_iff] at hvalid
    exact hvalid.1

/-- **Labels are canonical just when the text they are made of fits.** Whether it is for the label
of a captured request, for that of an event or for checking a label a second time, the only thing
that can go wrong is that the text outgrows its limit in lower case. -/
theorem labels_canonical_iff (hU : U.SimpleCase) :
    (∀ s, sanitiseServiceLabel U (sanitiseServiceLabel U s) = sanitiseServiceLabel U s ↔
        (Accepts s → Fits U s)) ∧
      (∀ headers configuredHeader,
        CanonicalLabel U (identifyService U headers configuredHeader).1 ↔
          if Accepts (headerLabel headers configuredHeader) then
            Fits U (headerLabel headers configuredHeader)
          else Accepts (hostLabel headers) → Fits U (hostLabel headers)) ∧
      ∀ item idx bodyCap now fresh c c' rec,
        parseAndBuild U D item idx bodyCap now fresh c = (.ok rec, c') →
          (CanonicalLabel U rec.service ↔ Fits U (wireService D item)) := by
  refine ⟨sanitise_idem_iff hU, identifyService_iff hU, ?_⟩
  intro item idx bodyCap now fresh c c' rec h
  obtain ⟨haccepts, hservice⟩ := service_of_parseAndBuild hU h
  rw [hservice]
  exact canonicalLabel_iff hU haccepts

/-- The headers of a request that names its service. -/
def namedService (value : GoString) : Headers :=
  some ⟨[(defaultServiceHeader, some [value])], List.nodup_singleton _⟩

/-- A response event of the service `Checkout`. -/
def checkoutEvent : WireResponseEvent :=
  ⟨str "response", [], str "Checkout", none, some 200, none, [], [], some 1⟩

/-- The text of `checkoutEvent`. -/
def checkoutItem : GoString :=
  str "\x7b\"type\":\"response\",\"service\":\"Checkout\",\"status\":200,\"duration_ms\":1\x7d"

/-- A decoder as far as `checkoutItem` needs one. -/
def checkoutDecoder : Decoder where
  items := fun _ => .error (str "json: cannot unmarshal object")
  response := fun item => if item = checkoutItem then .ok checkoutEvent else .error []
  outbound := fun _ => .error []
  quote := fun s => s

theorem labels_canonical_checkout :
    CanonicalLabel .asciiOnly (identifyService .asciiOnly (namedService (str " Checkout ")) []).1 ∧
      ∃ rec, parseAndBuild .asciiOnly checkoutDecoder checkoutItem none 0 0 ⟨.zero, .zero⟩ .new =
          (.ok rec, .new) ∧ CanonicalLabel .asciiOnly rec.service := by
  obtain ⟨-, hrequest, hevent⟩ := labels_canonical_iff (D := checkoutDecoder) simpleCase_asciiOnly
  constructor
  · rw [hrequest]
    decide +kernel
  · have hbuilt : parseAndBuild .asciiOnly checkoutDecoder checkoutItem none 0 0 ⟨.zero, .zero⟩
        .new =
        (.ok (.response (buildResponseRecord .asciiOnly checkoutEvent 0 0 ⟨.zero, .zero⟩)), .new) :=
      rfl
    refine ⟨_, hbuilt, (hevent _ _ _ _ _ _ _ _ hbuilt).mpr ?_⟩
    decide +kernel

/-- Eighty-six bytes that are no text pass the check and make a label of 258 bytes. Checked again,
the label is refused. -/
theorem label_outgrows_limit :
    let s := List.replicate 86 0xFF
    (identifyService .asciiOnly (namedService s) []).1.length = 258 ∧
      ¬ CanonicalLabel .asciiOnly (identifyService .asciiOnly (namedService s) []).1 ∧
      sanitiseServiceLabel .asciiOnly (sanitiseServiceLabel .asciiOnly s) = [] ∧
      sanitiseServiceLabel .asciiOnly s ≠ [] := by
  have hlen : (identifyService .asciiOnly (namedService (List.replicate 86 0xFF)) []).1.length =
      258 := by
    decide +kernel
  refine ⟨hlen, fun hlabel => ?_, by decide +kernel, by decide +kernel⟩
  have hbounded := hlabel.bounded
  omega

end

end HttpCatch.Admin

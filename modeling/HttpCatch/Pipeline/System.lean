import Mathlib.Logic.Relation
import HttpCatch.Admin.Events

/-!
# The capture pipeline

`captureHandler` (`internal/capture/server.go`) and `eventsHandler` offer records to one bounded
queue (`internal/capture/queue.go`); the workers (`internal/pipeline/worker.go`) take them out,
redact them and write them to every sink in turn.

## The model

The pipeline is a transition system (`Step`). A handler is the list of records it has yet to
offer and the list of counters it has yet to advance; everything else happens between two steps
of a handler. A worker is idle, has received a record, or is on its way through the sinks. A
write may succeed, fail or panic, and so may the redactor panic; a worker that panics recovers
and goes on with the next record. The state also has a history that no step reads: what was
offered, received, redacted and written. A record that was accepted goes by its ticket, its
place among the accepted records.

`HttpCatch.Pipeline.Sound` proves what holds of every state it can reach.
-/

namespace HttpCatch.Pipeline

open HttpCatch.Go HttpCatch.Capture HttpCatch.Admin

/-! ### Counters -/

/-- The counters that tell what became of a record. -/
inductive Counter where
  /-- `Counters.captured`. -/
  | captured
  /-- `Counters.withoutService`. -/
  | withoutService
  /-- `Counters.withoutCorrelation`. -/
  | withoutCorrelation
  /-- `EventsCounters.ingestedResponse`. -/
  | ingestedResponse
  /-- `EventsCounters.ingestedOutbound`. -/
  | ingestedOutbound
  /-- `EventsCounters.droppedQueueFull`. -/
  | eventsDropped
  /-- `Queue.dropped`. -/
  | queueDropped
  deriving DecidableEq

/-- `SinkErrorCounters`. -/
structure SinkErrorCounters where
  memory : ℕ
  sqlite : ℕ
  stdout : ℕ
  deriving DecidableEq

/-- `IncBySinkName`; unknown names are ignored. -/
def SinkErrorCounters.incBySinkName (c : SinkErrorCounters) (name : GoString) : SinkErrorCounters :=
  if name = str "memory" then { c with memory := c.memory + 1 }
  else if name = str "sqlite" then { c with sqlite := c.sqlite + 1 }
  else if name = str "stdout" then { c with stdout := c.stdout + 1 }
  else c

/-! ### Handlers -/

/-- The port a request came in on. -/
inductive Port where
  /-- The capture port. -/
  | capture
  /-- The admin port, `POST /events`. -/
  | events
  deriving DecidableEq

/-- What a handler counts after `Enqueue`, which itself counts a failure. -/
def owes : Port → Record → Bool → List Counter
  | .capture, .request r, true =>
    .captured :: ((if r.serviceSource = serviceSourceUnknown then [.withoutService] else []) ++
      if r.correlationSource = sourceSynthesized then [.withoutCorrelation] else [])
  | .capture, _, true => [.captured]
  | .capture, _, false => [.queueDropped]
  | .events, .response _, true => [.ingestedResponse]
  | .events, .outbound _, true => [.ingestedOutbound]
  | .events, .request _, true => []
  | .events, _, false => [.queueDropped, .eventsDropped]

/-- A request that is being served. -/
structure Handler where
  port : Port
  /-- The counters to advance before the next record is offered. -/
  owed : List Counter
  /-- The records to offer. -/
  todo : List Record

/-- The records that `POST /events` offers for some request, which are none if it refuses the
request. -/
def IsPost (recs : List Record) : Prop :=
  ∃ (U : Unicode) (D : Decoder) (cfg : EventsConfig) (now : ℤ) (fresh : ℕ → FreshIDs)
    (outcomes : ℕ → Bool)
    (r : EventsRequest) (c : EventsCounters),
    (eventsHandler U D cfg true now fresh outcomes r c).calls.map Prod.fst = recs

theorem IsPost.kinds {recs : List Record} (h : IsPost recs) :
    ∀ rec ∈ recs, rec.isRequest = false := by
  obtain ⟨U, D, cfg, now, fresh, outcomes, r, c, rfl⟩ := h
  intro rec hrec
  rcases eventsHandler_spec U D cfg now fresh outcomes r c with ⟨-, hcalls, -⟩ |
    ⟨events, -, hoffered⟩
  · rw [hcalls] at hrec
    cases hrec
  · rw [hoffered.calls, answered, List.map_map] at hrec
    obtain ⟨p, hp, rfl⟩ := List.mem_map.1 hrec
    exact hoffered.kinds _ (List.fst_mem_of_mem_zipIdx hp)

/-! ### Workers -/

/-- Where a worker is in `run` and `process`. -/
inductive Worker where
  /-- Waiting for a record. -/
  | idle
  /-- With a record, before `Redact`. -/
  | received (ticket : ℕ) (rec : Record)
  /-- With a redacted record, before the sink with this number. -/
  | writing (ticket : ℕ) (redacted : Record) (sink : ℕ)

/-- What `Write` does. -/
inductive Outcome where
  /-- It returns nil. -/
  | ok
  /-- It returns an error. -/
  | error
  /-- It panics. -/
  | panic
  deriving DecidableEq

/-- An offer made to the queue. -/
structure Attempt where
  port : Port
  record : Record
  ok : Bool

/-- A call of `Write`. -/
structure Written where
  sink : ℕ
  ticket : ℕ
  value : Record
  outcome : Outcome

/-- A record that a worker is done with. -/
structure Settled where
  ticket : ℕ
  /-- How many sinks were called. -/
  calls : ℕ
  /-- The worker panicked over it. -/
  panicked : Bool

/-- The number of sinks and of workers, and the rest of what the pipeline is built from. -/
structure Config where
  /-- The capacity given to `NewQueue`. -/
  capacity : ℕ
  /-- The size given to `NewWorkerPool`. -/
  size : ℕ
  /-- The names of the sinks. -/
  sinks : List GoString
  /-- `Redactor.Redact`. -/
  redactor : Record → Record

/-- The capacity of the queue: `NewQueue` takes at least 1. -/
def Config.queueCapacity (cfg : Config) : ℕ := max 1 cfg.capacity

/-- The number of workers: `NewWorkerPool` takes at least 1. -/
def Config.poolSize (cfg : Config) : ℕ := max 1 cfg.size

/-! ### States -/

/-- A state of the pipeline, with its history. -/
structure State where
  /-- The records in the channel. -/
  queue : List (ℕ × Record)
  handlers : List Handler
  workers : List Worker
  count : Counter → ℕ
  errors : SinkErrorCounters
  /-- `WorkerPool.panics`. -/
  panics : ℕ
  /-- History: the calls of `Enqueue`. -/
  attempts : List Attempt
  /-- History: the tickets received from the channel. -/
  received : List ℕ
  /-- History: the tickets of the records passed to `Redact`. -/
  redactions : List ℕ
  /-- History: the calls of `Write`. -/
  writes : List Written
  /-- History: the records that workers are done with. -/
  settled : List Settled

/-- The pipeline at the start. -/
def State.init (cfg : Config) : State :=
  ⟨[], [], List.replicate cfg.poolSize .idle, fun _ => 0, ⟨0, 0, 0⟩, 0, [], [], [], [], []⟩

/-- The records that were accepted, by ticket. -/
def accepted (attempts : List Attempt) : List Record :=
  (attempts.filter Attempt.ok).map Attempt.record

/-- The counter with this number of the sinks, one more if the write failed. -/
def countError (cfg : Config) (errors : SinkErrorCounters) (sink : ℕ) : Outcome → SinkErrorCounters
  | .error => errors.incBySinkName (cfg.sinks.getD sink [])
  | _ => errors

/-- One step of a handler or of a worker, or a new request. -/
inductive Step (cfg : Config) : State → State → Prop
  /-- A request on the capture port; `none` if its body cannot be read. -/
  | capture (s : State) (rec : Option CapturedRequest) :
      Step cfg s { s with handlers := ⟨.capture, [], rec.toList.map .request⟩ :: s.handlers }
  /-- A request on the admin port. -/
  | post (s : State) {recs : List Record} (h : IsPost recs) :
      Step cfg s { s with handlers := ⟨.events, [], recs⟩ :: s.handlers }
  /-- `Enqueue` with room in the channel. -/
  | send (s : State) {hs hs' : List Handler} {port : Port} {rec : Record} {todo : List Record}
      (h : s.handlers = hs ++ ⟨port, [], rec :: todo⟩ :: hs')
      (hroom : s.queue.length < cfg.queueCapacity) :
      Step cfg s { s with
        queue := s.queue ++ [((accepted s.attempts).length, rec)]
        handlers := hs ++ ⟨port, owes port rec true, todo⟩ :: hs'
        attempts := s.attempts ++ [⟨port, rec, true⟩] }
  /-- `Enqueue` with the channel full. -/
  | drop (s : State) {hs hs' : List Handler} {port : Port} {rec : Record} {todo : List Record}
      (h : s.handlers = hs ++ ⟨port, [], rec :: todo⟩ :: hs')
      (hfull : cfg.queueCapacity ≤ s.queue.length) :
      Step cfg s { s with
        handlers := hs ++ ⟨port, owes port rec false, todo⟩ :: hs'
        attempts := s.attempts ++ [⟨port, rec, false⟩] }
  /-- A handler advances a counter. -/
  | count (s : State) {hs hs' : List Handler} {port : Port} {c : Counter} {owed : List Counter}
      {todo : List Record}
      (h : s.handlers = hs ++ ⟨port, c :: owed, todo⟩ :: hs') :
      Step cfg s { s with
        count := Function.update s.count c (s.count c + 1)
        handlers := hs ++ ⟨port, owed, todo⟩ :: hs' }
  /-- A handler returns. -/
  | finish (s : State) {hs hs' : List Handler} {port : Port}
      (h : s.handlers = hs ++ ⟨port, [], []⟩ :: hs') :
      Step cfg s { s with handlers := hs ++ hs' }
  /-- A worker receives from the channel. -/
  | receive (s : State) {ws ws' : List Worker} {ticket : ℕ} {rec : Record}
      {queue : List (ℕ × Record)}
      (h : s.workers = ws ++ .idle :: ws') (hq : s.queue = (ticket, rec) :: queue) :
      Step cfg s { s with
        queue := queue
        workers := ws ++ .received ticket rec :: ws'
        received := s.received ++ [ticket] }
  /-- `Redact` returns. -/
  | redact (s : State) {ws ws' : List Worker} {ticket : ℕ} {rec : Record}
      (h : s.workers = ws ++ .received ticket rec :: ws') :
      Step cfg s { s with
        workers := ws ++ .writing ticket (cfg.redactor rec) 0 :: ws'
        redactions := s.redactions ++ [ticket] }
  /-- `Redact` panics. -/
  | redactPanic (s : State) {ws ws' : List Worker} {ticket : ℕ} {rec : Record}
      (h : s.workers = ws ++ .received ticket rec :: ws') :
      Step cfg s { s with
        workers := ws ++ .idle :: ws'
        panics := s.panics + 1
        redactions := s.redactions ++ [ticket]
        settled := s.settled ++ [⟨ticket, 0, true⟩] }
  /-- `Write` of the next sink returns, with or without an error. -/
  | write (s : State) {ws ws' : List Worker} {ticket sink : ℕ} {value : Record} {outcome : Outcome}
      (h : s.workers = ws ++ .writing ticket value sink :: ws') (hsink : sink < cfg.sinks.length)
      (ho : outcome ≠ .panic) :
      Step cfg s { s with
        workers := ws ++ .writing ticket value (sink + 1) :: ws'
        errors := countError cfg s.errors sink outcome
        writes := s.writes ++ [⟨sink, ticket, value, outcome⟩] }
  /-- `Write` of the next sink panics. -/
  | writePanic (s : State) {ws ws' : List Worker} {ticket sink : ℕ} {value : Record}
      (h : s.workers = ws ++ .writing ticket value sink :: ws') (hsink : sink < cfg.sinks.length) :
      Step cfg s { s with
        workers := ws ++ .idle :: ws'
        panics := s.panics + 1
        writes := s.writes ++ [⟨sink, ticket, value, .panic⟩]
        settled := s.settled ++ [⟨ticket, sink + 1, true⟩] }
  /-- All sinks have been called. -/
  | settle (s : State) {ws ws' : List Worker} {ticket : ℕ} {value : Record}
      (h : s.workers = ws ++ .writing ticket value cfg.sinks.length :: ws') :
      Step cfg s { s with
        workers := ws ++ .idle :: ws'
        settled := s.settled ++ [⟨ticket, cfg.sinks.length, false⟩] }

/-- A state that the pipeline can be in before the queue is closed. -/
def Reachable (cfg : Config) (s : State) : Prop :=
  Relation.ReflTransGen (Step cfg) (State.init cfg) s

end HttpCatch.Pipeline

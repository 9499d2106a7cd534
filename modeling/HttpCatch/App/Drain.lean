import HttpCatch.Pipeline.Sound

/-!
# Draining the queue

`App.shutdown` (`internal/app/app.go`) closes the queue, waits until the workers have returned or
the timer fires, and closes SQLite. A worker (`WorkerPool.run`) goes on receiving from the closed
channel until it is empty, and returns then.

## The model

A state has the pipeline of `HttpCatch.Pipeline.System`, the number of workers that have returned
and where `App.shutdown` is. The workers that have returned are among the idle ones. After
`Queue.Close` the pipeline takes the same steps as before, but for `Enqueue`, which panics: the
request is abandoned, with what it has yet to offer. A write may still end in any way. Requests
may come in at any time, as nothing waits for the admin port.

## Main results

* `shutdown_drains`: when the timer does not fire, every record that was ever accepted is settled
  before SQLite is closed, and nothing is written after that.
* `drain_ends`: the workers cannot get stuck before all of them have returned, and take a bounded
  number of steps.
-/

namespace HttpCatch.App.Drain

open HttpCatch.Go HttpCatch.Capture HttpCatch.Pipeline

/-! ### States -/

/-- Where `App.shutdown` is. -/
inductive Phase where
  /-- Before `Queue.Close`. -/
  | serving
  /-- In the `select`. -/
  | draining
  /-- Before `SQLite.Close`. -/
  | leaving
  /-- After it. -/
  | closed
  deriving DecidableEq

/-- A state of the shutdown. -/
structure State where
  pipeline : Pipeline.State
  /-- How many workers have returned. -/
  exited : ℕ
  phase : Phase
  /-- History: the timer fired before the workers had returned. -/
  timedOut : Bool
  /-- History: how many requests were abandoned. -/
  abandoned : ℕ
  /-- History: the calls of `Write` before `SQLite.Close`. -/
  beforeClose : List Written

/-- The application at the start. -/
def State.init (cfg : Config) : State := ⟨Pipeline.State.init cfg, 0, .serving, false, 0, []⟩

/-- The worker waits for a record, or has returned. -/
def isIdle : Worker → Bool
  | .idle => true
  | _ => false

/-- How many workers are idle. -/
def idleCount (p : Pipeline.State) : ℕ := p.workers.countP isIdle

/-! ### Steps -/

/-- A step of the pipeline or of `App.shutdown`. -/
inductive Step (cfg : Config) : State → State → Prop
  /-- The pipeline, before the queue is closed. -/
  | serve (s : State) {p : Pipeline.State} (hopen : s.phase = .serving)
      (h : Pipeline.Step cfg s.pipeline p) : Step cfg s { s with pipeline := p }
  /-- `Queue.Close`. -/
  | close (s : State) (h : s.phase = .serving) : Step cfg s { s with phase := .draining }
  /-- The pipeline, after that: any step that is no `Enqueue`. -/
  | work (s : State) {p : Pipeline.State} (hclosed : s.phase ≠ .serving)
      (h : Pipeline.Step cfg s.pipeline p) (hsame : p.attempts = s.pipeline.attempts) :
      Step cfg s { s with pipeline := p }
  /-- `Enqueue` on the closed queue panics. -/
  | enqueuePanic (s : State) {hs hs' : List Handler} {port : Port} {rec : Record}
      {todo : List Record} (hclosed : s.phase ≠ .serving)
      (h : s.pipeline.handlers = hs ++ ⟨port, [], rec :: todo⟩ :: hs') :
      Step cfg s { s with
        pipeline := { s.pipeline with handlers := hs ++ hs' }
        abandoned := s.abandoned + 1 }
  /-- A worker finds the queue closed and empty. -/
  | exit (s : State) (hclosed : s.phase ≠ .serving) (hempty : s.pipeline.queue = [])
      (h : s.exited < idleCount s.pipeline) : Step cfg s { s with exited := s.exited + 1 }
  /-- `case <-done`: all workers have returned. -/
  | done (s : State) (h : s.phase = .draining) (hall : s.exited = cfg.poolSize) :
      Step cfg s { s with phase := .leaving }
  /-- `case <-time.After(shutdownDrainTimeout)`. -/
  | timeout (s : State) (h : s.phase = .draining) :
      Step cfg s { s with phase := .leaving, timedOut := true }
  /-- `SQLite.Close`. -/
  | closeSQLite (s : State) (h : s.phase = .leaving) :
      Step cfg s { s with phase := .closed, beforeClose := s.pipeline.writes }

/-- A state that the application can be in. -/
def Reachable (cfg : Config) (s : State) : Prop :=
  Relation.ReflTransGen (Step cfg) (State.init cfg) s

/-! ### Steps of the pipeline -/

section Pipeline

variable {cfg : Config} {p p' : Pipeline.State}

/-- `WorkerPool.panics` counts the records that a worker panicked over. -/
def PanicsCounted (p : Pipeline.State) : Prop := p.panics = p.settled.countP Settled.panicked

theorem PanicsCounted.step (h : PanicsCounted p) (hstep : Pipeline.Step cfg p p') :
    PanicsCounted p' := by
  rw [PanicsCounted] at h ⊢
  cases hstep with
  | capture | post | send | drop | count | finish | receive | redact | write => exact h
  | redactPanic | writePanic =>
    rw [List.countP_append, ← h]
    rfl
  | settle =>
    rw [List.countP_append, ← h]
    rfl

theorem idleCount_le (p : Pipeline.State) : idleCount p ≤ p.workers.length := List.countP_le_length

theorem idleCount_append {ws ws' : List Worker} {w : Worker} (h : p.workers = ws ++ w :: ws') :
    idleCount p = ws.countP isIdle + ws'.countP isIdle + if isIdle w then 1 else 0 := by
  rw [idleCount, h, List.countP_append, List.countP_cons]
  omega

/-- With the channel empty and nothing offered, no worker gets a record. -/
theorem idleCount_step (hstep : Pipeline.Step cfg p p') (hempty : p.queue = [])
    (hsame : p'.attempts = p.attempts) : p'.queue = [] ∧ idleCount p ≤ idleCount p' := by
  have hoffer : ∀ a : Attempt, p.attempts ++ [a] ≠ p.attempts := fun a h => by
    simpa using congrArg List.length h
  cases hstep with
  | capture | post | count | finish => exact ⟨hempty, le_rfl⟩
  | send => exact absurd hsame (hoffer _)
  | drop => exact absurd hsame (hoffer _)
  | receive h hq =>
    rw [hempty] at hq
    cases hq
  | redact h | redactPanic h | write h | writePanic h | settle h =>
    refine ⟨hempty, ?_⟩
    rw [idleCount_append h, idleCount_append rfl]
    simp [isIdle]

/-- With all workers idle too, none writes. -/
theorem writes_step (hstep : Pipeline.Step cfg p p') (hidle : ∀ w ∈ p.workers, w = .idle) :
    p'.writes = p.writes := by
  have hnot : ∀ {ws ws' : List Worker} {w : Worker}, p.workers = ws ++ w :: ws' → w = .idle :=
    fun h => hidle _ (h ▸ List.mem_append_right _ List.mem_cons_self)
  cases hstep with
  | capture | post | send | drop | count | finish | receive | redact | redactPanic | settle => rfl
  | write h | writePanic h => cases hnot h

/-- A request that offers a record and has counted everything may go. -/
theorem inv_abandon (h : Inv cfg p) {hs hs' : List Handler} {port : Port} {todo : List Record}
    (hh : p.handlers = hs ++ ⟨port, [], todo⟩ :: hs') :
    Inv cfg { p with handlers := hs ++ hs' } := by
  refine ⟨⟨h.bounded.queue, h.bounded.workers⟩,
    ⟨h.placed.received, h.placed.held, h.placed.redacted⟩,
    ⟨h.faithful.queue, h.faithful.workers, h.faithful.writes, h.faithful.settled⟩,
    h.marked, h.errors, ⟨?_, ?_, h.accounted.attempts⟩⟩
  · intro c
    have hcount := h.accounted.count c
    rw [hh] at hcount
    simpa using hcount
  · intro g hg
    apply h.accounted.handlers g
    rw [hh]
    rcases List.mem_append.1 hg with hg | hg
    · exact List.mem_append_left _ hg
    · exact List.mem_append_right _ (List.mem_cons_of_mem _ hg)

end Pipeline

/-! ### The invariant -/

/-- What holds all the time. -/
structure Sound (cfg : Config) (s : State) : Prop where
  pipeline : Inv cfg s.pipeline
  panics : PanicsCounted s.pipeline
  exited : s.exited ≤ idleCount s.pipeline
  /-- A worker returns only when the closed queue is empty. -/
  empty : 0 < s.exited → s.phase ≠ .serving ∧ s.pipeline.queue = []
  /-- Without the timer, `App.shutdown` goes on when all workers have returned. -/
  waited : s.phase = .leaving ∨ s.phase = .closed → s.timedOut = false → s.exited = cfg.poolSize
  /-- Nothing is written then. -/
  silent : s.phase = .closed → s.timedOut = false → s.beforeClose = s.pipeline.writes

section Invariant

variable {cfg : Config} {s s' : State}

theorem Sound.init : Sound cfg (State.init cfg) :=
  ⟨Inv.init, rfl, Nat.zero_le _, fun h => absurd h (Nat.lt_irrefl 0), nofun, nofun⟩

/-- When all have returned, all are idle. -/
theorem Sound.all_idle (h : Sound cfg s) (hall : s.exited = cfg.poolSize) :
    ∀ w ∈ s.pipeline.workers, w = .idle := by
  have hcount : idleCount s.pipeline = s.pipeline.workers.length := by
    apply le_antisymm (idleCount_le _)
    rw [h.pipeline.bounded.workers, ← hall]
    exact h.exited
  intro w hw
  have hidle := List.countP_eq_length.1 hcount w hw
  cases w with
  | idle => rfl
  | received | writing => cases hidle

/-- A step of the pipeline after `Queue.Close`. -/
theorem Sound.work (h : Sound cfg s) {p : Pipeline.State} (hclosed : s.phase ≠ .serving)
    (hstep : Pipeline.Step cfg s.pipeline p) (hsame : p.attempts = s.pipeline.attempts) :
    Sound cfg { s with pipeline := p } := by
  refine ⟨h.pipeline.step hstep, h.panics.step hstep, ?_, ?_, h.waited, ?_⟩
  · rcases Nat.eq_zero_or_pos s.exited with hzero | hpos
    · show s.exited ≤ _
      rw [hzero]
      exact Nat.zero_le _
    · exact h.exited.trans (idleCount_step hstep (h.empty hpos).2 hsame).2
  · intro hpos
    exact ⟨hclosed, (idleCount_step hstep (h.empty hpos).2 hsame).1⟩
  · intro hphase htimer
    have hidle := h.all_idle (h.waited (.inr hphase) htimer)
    exact (h.silent hphase htimer).trans (writes_step hstep hidle).symm

theorem Sound.step (h : Sound cfg s) (hstep : Step cfg s s') : Sound cfg s' := by
  cases hstep with
  | serve hopen hp =>
    have hzero : s.exited = 0 := by
      by_contra hne
      exact (h.empty (Nat.pos_of_ne_zero hne)).1 hopen
    refine ⟨h.pipeline.step hp, h.panics.step hp, ?_, fun hpos => ?_, h.waited, ?_⟩
    · show s.exited ≤ _
      rw [hzero]
      exact Nat.zero_le _
    · exact absurd hpos (by rw [hzero]; exact Nat.lt_irrefl 0)
    · intro hphase
      cases hopen.symm.trans hphase
  | close hopen =>
    exact ⟨h.pipeline, h.panics, h.exited, fun hpos => ⟨nofun, (h.empty hpos).2⟩, nofun, nofun⟩
  | work hclosed hp hsame => exact h.work hclosed hp hsame
  | enqueuePanic hclosed hh =>
    exact ⟨inv_abandon h.pipeline hh, h.panics, h.exited, h.empty, h.waited, h.silent⟩
  | exit hclosed hempty hlt =>
    refine ⟨h.pipeline, h.panics, hlt, fun _ => ⟨hclosed, hempty⟩, ?_, h.silent⟩
    intro hphase htimer
    -- all had returned before
    have hall := h.waited hphase htimer
    have hle := idleCount_le s.pipeline
    rw [h.pipeline.bounded.workers, ← hall] at hle
    exact absurd hlt (not_lt.2 hle)
  | done hphase hall =>
    exact ⟨h.pipeline, h.panics, h.exited, fun hpos => ⟨nofun, (h.empty hpos).2⟩,
      fun _ _ => hall, nofun⟩
  | timeout =>
    exact ⟨h.pipeline, h.panics, h.exited, fun hpos => ⟨nofun, (h.empty hpos).2⟩, nofun, nofun⟩
  | closeSQLite hphase =>
    exact ⟨h.pipeline, h.panics, h.exited, fun hpos => ⟨nofun, (h.empty hpos).2⟩,
      fun _ => h.waited (.inl hphase), fun _ _ => rfl⟩

theorem Reachable.sound (h : Reachable cfg s) : Sound cfg s := by
  induction h with
  | refl => exact Sound.init
  | tail _ hstep ih => exact ih.step hstep

end Invariant

/-! ### A clean shutdown -/

/-- What is left when SQLite is closed after the workers have returned. -/
structure Drained (cfg : Config) (s : State) : Prop where
  /-- No record is in the channel or with a worker. -/
  empty : s.pipeline.queue = [] ∧ ∀ w ∈ s.pipeline.workers, w = .idle
  /-- Every record that was ever accepted was settled once. -/
  settled : (s.pipeline.settled.map Settled.ticket).Perm
    (List.range (accepted s.pipeline.attempts).length)
  /-- Every sink was called once before `SQLite.Close` for a record that no worker panicked
  over. -/
  written : ∀ e ∈ s.pipeline.settled, e.panicked = false → ∀ sink < cfg.sinks.length,
    (s.beforeClose.map Written.call).count (sink, e.ticket) = 1
  /-- What it was given is the record, redacted. -/
  clear : ∀ w ∈ s.beforeClose, ∃ rec, (accepted s.pipeline.attempts)[w.ticket]? = some rec ∧
    w.value = cfg.redactor rec
  /-- The other records are those that `PanicsCount` counts. -/
  panicked : s.pipeline.panics + s.pipeline.settled.countP (fun e => !e.panicked) =
    (accepted s.pipeline.attempts).length
  /-- Nothing was written after `SQLite.Close`. -/
  silent : s.pipeline.writes = s.beforeClose

section Clean

variable {cfg : Config} {s : State}

/-- When all workers have returned the channel is empty. -/
theorem Sound.queue_empty (h : Sound cfg s) (hall : s.exited = cfg.poolSize) :
    s.pipeline.queue = [] := by
  apply (h.empty ?_).2
  rw [hall, Config.poolSize]
  omega

/-- With nothing in the channel and nothing with the workers, each accepted record is settled. -/
theorem Sound.settled_perm (h : Sound cfg s) (hall : s.exited = cfg.poolSize) :
    (s.pipeline.settled.map Settled.ticket).Perm
      (List.range (accepted s.pipeline.attempts).length) := by
  rw [List.perm_iff_count]
  intro t
  have hqueued : s.pipeline.queued t = 0 := by
    rw [State.queued, h.queue_empty hall]
    rfl
  have hheld : s.pipeline.held t = 0 := by
    rw [State.held, List.count_eq_zero, List.mem_flatMap]
    rintro ⟨w, hw, ht⟩
    rw [h.all_idle hall w hw] at ht
    cases ht
  have hreceived := h.pipeline.placed.received t
  have hdone := h.pipeline.placed.held t
  rw [hqueued] at hreceived
  rw [hheld, State.done] at hdone
  rw [List.nodup_range.count]
  simp only [List.mem_range]
  omega

end Clean

/-- **A clean shutdown loses nothing.** Whatever the requests, the workers and the sinks do: if
the timer has not fired when SQLite is closed, every record that was ever accepted has been
written to every sink, unless a worker panicked over it, and nothing is written any more. -/
theorem shutdown_drains (cfg : Config) (s : State) (hr : Reachable cfg s)
    (hclosed : s.phase = .closed) (htimer : s.timedOut = false) : Drained cfg s := by
  have h := hr.sound
  have hall := h.waited (.inr hclosed) htimer
  have hsilent := h.silent hclosed htimer
  have hperm := h.settled_perm hall
  refine ⟨⟨h.queue_empty hall, h.all_idle hall⟩, hperm, ?_, ?_, ?_, hsilent.symm⟩
  · intro e he hp sink hsink
    rw [hsilent]
    exact le_antisymm (h.pipeline.writes_le_one sink e.ticket) (h.pipeline.writes_pos he hp hsink)
  · intro w hw
    rw [hsilent] at hw
    exact (h.pipeline.faithful.writes w hw).2
  · have hlen := hperm.length_eq
    rw [List.length_map, List.length_range] at hlen
    have hsplit := List.length_eq_countP_add_countP Settled.panicked (l := s.pipeline.settled)
    rw [h.panics, ← hlen, hsplit]
    simp

/-- A request that is accepted and in the channel when the queue is closed. -/
theorem reachable_accepted (r : CapturedRequest) : ∃ s, Reachable smallConfig s ∧
    s.phase = .draining ∧ s.pipeline.queue = [(0, .request r)] ∧
    s.pipeline.workers = [.idle] ∧ s.timedOut = false ∧ s.exited = 0 ∧
    accepted s.pipeline.attempts = [.request r] := by
  have hstart : Reachable smallConfig (State.init smallConfig) := .refl
  exact ⟨_, ((hstart.tail (.serve _ rfl (.capture _ (some r)))).tail
    (.serve _ rfl (@Pipeline.Step.send smallConfig _ [] [] .capture (.request r) [] rfl
      Nat.one_pos))).tail (.close _ rfl), rfl, rfl, rfl, rfl, rfl, rfl⟩

/-- It is written before SQLite is closed. -/
theorem shutdown_drains_one : ∃ s, s.phase = .closed ∧
    (accepted s.pipeline.attempts).length = 1 ∧ Drained smallConfig s := by
  let r := CapturedRequest.blank (str "r") 0 (str "c")
  obtain ⟨s, hr, hphase, hqueue, hworkers, htimer, hexited, haccepted⟩ := reachable_accepted r
  have hclosed : s.phase ≠ .serving := by rw [hphase]; nofun
  have hok : Outcome.ok ≠ .panic := nofun
  have hreceived := hr.tail (.work s hclosed
    (@Pipeline.Step.receive smallConfig _ [] [] 0 (.request r) [] hworkers hqueue) rfl)
  have hwritten := (hreceived.tail (.work _ hclosed
    (@Pipeline.Step.redact smallConfig _ [] [] 0 (.request r) rfl) rfl)).tail (.work _ hclosed
      (@Pipeline.Step.write smallConfig _ [] [] 0 0 (.request r) .ok rfl (by decide) hok) rfl)
  have hsettled := hwritten.tail (.work _ hclosed
    (@Pipeline.Step.settle smallConfig _ [] [] 0 (.request r) rfl) rfl)
  have hexit := hsettled.tail (.exit _ hclosed rfl (by
    show s.exited < 1
    rw [hexited]
    exact Nat.one_pos))
  have hend := (hexit.tail (.done _ hphase (by
    show s.exited + 1 = _
    rw [hexited]
    rfl))).tail (.closeSQLite _ rfl)
  refine ⟨_, rfl, ?_, shutdown_drains smallConfig _ hend rfl htimer⟩
  show (accepted s.pipeline.attempts).length = 1
  rw [haccepted]
  rfl

/-! ### The end of the drain -/

/-- The steps that a worker has left with the record in hand. -/
def stepsLeft (cfg : Config) : Worker → ℕ
  | .idle => 0
  | .received _ _ => cfg.sinks.length + 2
  | .writing _ _ sink => cfg.sinks.length - sink + 1

/-- The steps that the workers have left with the records, at most. -/
def workLeft (cfg : Config) (p : Pipeline.State) : ℕ :=
  p.queue.length * (cfg.sinks.length + 3) + (p.workers.map (stepsLeft cfg)).sum

/-- The steps that they have left until all of them have returned, at most. -/
def State.remaining (cfg : Config) (s : State) : ℕ :=
  workLeft cfg s.pipeline + (cfg.poolSize - s.exited)

/-- A worker took the step. -/
def Moves (s s' : State) : Prop :=
  s'.pipeline.workers ≠ s.pipeline.workers ∨ s'.exited ≠ s.exited

/-- A run with this number of steps of the workers, among any others. -/
inductive Works (cfg : Config) : ℕ → State → State → Prop
  | refl (s : State) : Works cfg 0 s s
  | other {n : ℕ} {s s' s'' : State} (h : Works cfg n s s') (hstep : Step cfg s' s'')
      (hmoves : ¬ Moves s' s'') : Works cfg n s s''
  | work {n : ℕ} {s s' s'' : State} (h : Works cfg n s s') (hstep : Step cfg s' s'')
      (hmoves : Moves s' s'') : Works cfg (n + 1) s s''

section Ends

variable {cfg : Config} {s s' : State} {p p' : Pipeline.State}

theorem replaced_ne {ws ws' : List Worker} {w w' : Worker} (h : w' ≠ w) :
    ws ++ w' :: ws' ≠ ws ++ w :: ws' := by simpa using h

/-- A worker that goes on with its record has less to do. -/
theorem workLeft_lt {ws ws' : List Worker} {w w' : Worker} (h : p.workers = ws ++ w :: ws')
    (h' : p'.workers = ws ++ w' :: ws') (hq : p'.queue = p.queue)
    (hlt : stepsLeft cfg w' < stepsLeft cfg w) :
    p'.workers ≠ p.workers ∧ workLeft cfg p' < workLeft cfg p := by
  constructor
  · rw [h, h']
    apply replaced_ne
    rintro rfl
    exact Nat.lt_irrefl _ hlt
  · simp only [workLeft, hq, h, h', List.map_append, List.map_cons, List.sum_append, List.sum_cons]
    omega

/-- A step of the pipeline that is no `Enqueue` is one of a worker, with less work left after it,
or leaves the workers and the channel alone. -/
theorem workLeft_step (hstep : Pipeline.Step cfg p p') (hsame : p'.attempts = p.attempts) :
    p'.workers = p.workers ∧ p'.queue = p.queue ∨
      p'.workers ≠ p.workers ∧ workLeft cfg p' < workLeft cfg p := by
  have hoffer : ∀ a : Attempt, p.attempts ++ [a] ≠ p.attempts := fun a h => by
    simpa using congrArg List.length h
  cases hstep with
  | capture | post | count | finish => exact .inl ⟨rfl, rfl⟩
  | send => exact absurd hsame (hoffer _)
  | drop => exact absurd hsame (hoffer _)
  | receive h hq =>
    right
    constructor
    · rw [h]
      exact replaced_ne nofun
    · simp only [workLeft, hq, h, List.map_append, List.map_cons, List.sum_append, List.sum_cons,
        List.length_cons, stepsLeft, Nat.succ_mul]
      omega
  | redact h =>
    refine .inr (workLeft_lt h rfl rfl ?_)
    simp only [stepsLeft]
    omega
  | redactPanic h | writePanic h | settle h => exact .inr (workLeft_lt h rfl rfl (Nat.succ_pos _))
  | write h hsink =>
    refine .inr (workLeft_lt h rfl rfl ?_)
    simp only [stepsLeft]
    omega

/-- **After `Queue.Close` each step of a worker is one less**, and no other step makes work. -/
theorem remaining_step (h : Sound cfg s) (hclosed : s.phase ≠ .serving) (hstep : Step cfg s s') :
    s'.phase ≠ .serving ∧ (Moves s s' → s'.remaining cfg < s.remaining cfg) ∧
      (¬ Moves s s' → s'.remaining cfg = s.remaining cfg) := by
  cases hstep with
  | serve hopen => exact absurd hopen hclosed
  | close hopen => exact absurd hopen hclosed
  | work _ hp hsame =>
    refine ⟨hclosed, ?_⟩
    rcases workLeft_step hp hsame with ⟨hworkers, hqueue⟩ | ⟨hworkers, hlt⟩
    · refine ⟨fun hmoves => ?_, fun _ => ?_⟩
      · exact absurd hmoves (not_or.2 ⟨not_not.2 hworkers, not_not.2 rfl⟩)
      · simp only [State.remaining, workLeft, hworkers, hqueue]
    · refine ⟨fun _ => Nat.add_lt_add_right hlt _, fun hmoves => ?_⟩
      exact absurd (.inl hworkers) hmoves
  | enqueuePanic =>
    exact ⟨hclosed, fun hmoves => absurd hmoves (not_or.2 ⟨not_not.2 rfl, not_not.2 rfl⟩),
      fun _ => rfl⟩
  | exit _ _ hlt =>
    refine ⟨hclosed, fun _ => ?_, fun hmoves => absurd (.inr (Nat.succ_ne_self _)) hmoves⟩
    have hpool := hlt.trans_le (idleCount_le s.pipeline)
    rw [h.pipeline.bounded.workers] at hpool
    simp only [State.remaining]
    omega
  | done | timeout | closeSQLite =>
    exact ⟨nofun, fun hmoves => absurd hmoves (not_or.2 ⟨not_not.2 rfl, not_not.2 rfl⟩),
      fun _ => rfl⟩

theorem Works.sound {n : ℕ} (hw : Works cfg n s s') (h : Sound cfg s)
    (hclosed : s.phase ≠ .serving) :
    Sound cfg s' ∧ s'.phase ≠ .serving ∧ n + s'.remaining cfg ≤ s.remaining cfg := by
  induction hw with
  | refl => exact ⟨h, hclosed, (Nat.zero_add _).le⟩
  | other _ hstep hmoves ih =>
    obtain ⟨hsound, hphase, hle⟩ := ih h hclosed
    obtain ⟨hphase', -, heq⟩ := remaining_step hsound hphase hstep
    exact ⟨hsound.step hstep, hphase', (heq hmoves).symm ▸ hle⟩
  | work _ hstep hmoves ih =>
    obtain ⟨hsound, hphase, hle⟩ := ih h hclosed
    obtain ⟨hphase', hlt, -⟩ := remaining_step hsound hphase hstep
    have := hlt hmoves
    exact ⟨hsound.step hstep, hphase', by omega⟩

/-- A worker with a record can go on. -/
theorem exists_work {w : Worker} (h : Sound cfg s) (hclosed : s.phase ≠ .serving)
    (hw : w ∈ s.pipeline.workers) (hbusy : w ≠ .idle) : ∃ s', Step cfg s s' ∧ Moves s s' := by
  obtain ⟨ws, ws', hws⟩ := List.append_of_mem hw
  have hmoves : ∀ {w' : Worker}, w' ≠ w → ws ++ w' :: ws' ≠ s.pipeline.workers := by
    intro w' hne
    rw [hws]
    exact replaced_ne hne
  cases w with
  | idle => exact absurd rfl hbusy
  | received t rec =>
    exact ⟨_, .work s hclosed (.redact _ hws) rfl, .inl (hmoves nofun)⟩
  | writing t value sink =>
    rcases (h.pipeline.faithful.workers _ hw).2.lt_or_eq with hlt | rfl
    · have hok : Outcome.ok ≠ .panic := nofun
      refine ⟨_, .work s hclosed (.write _ hws hlt hok) rfl, .inl (hmoves ?_)⟩
      intro heq
      exact Nat.succ_ne_self _ (Worker.writing.inj heq).2.2
    · exact ⟨_, .work s hclosed (.settle _ hws) rfl, .inl (hmoves nofun)⟩

/-- **The drain does not get stuck**: as long as a worker has not returned one of them can go on. -/
theorem exists_moves (h : Sound cfg s) (hclosed : s.phase ≠ .serving)
    (hleft : s.exited < cfg.poolSize) : ∃ s', Step cfg s s' ∧ Moves s s' := by
  by_cases hidle : ∀ w ∈ s.pipeline.workers, w = .idle
  · have hlen := h.pipeline.bounded.workers
    cases hq : s.pipeline.queue with
    | nil =>
      have hcount : idleCount s.pipeline = s.pipeline.workers.length :=
        List.countP_eq_length.2 fun w hw => by rw [hidle w hw]; rfl
      refine ⟨_, .exit s hclosed hq ?_, .inr (Nat.succ_ne_self _)⟩
      rw [hcount, hlen]
      exact hleft
    | cons p queue =>
      obtain ⟨w, ws, hws⟩ := List.exists_cons_of_ne_nil (l := s.pipeline.workers) (by
        rw [← List.length_pos_iff, hlen]
        omega)
      obtain rfl := hidle w (hws ▸ List.mem_cons_self)
      refine ⟨_, .work s hclosed (@Pipeline.Step.receive cfg _ [] ws p.1 p.2 queue hws hq) rfl,
        .inl ?_⟩
      rw [hws]
      exact @replaced_ne [] ws _ _ nofun
  · push Not at hidle
    obtain ⟨w, hw, hbusy⟩ := hidle
    exact exists_work h hclosed hw hbusy

end Ends

/-- **The drain comes to an end.** From `Queue.Close` on the workers take no more steps than the
records in the channel and in hand call for, whatever else happens; and until all of them have
returned one of them can take a step. -/
theorem drain_ends (cfg : Config) (s : State) (hr : Reachable cfg s) (hclosed : s.phase ≠ .serving)
    (n : ℕ) (s' : State) (hw : Works cfg n s s') :
    n ≤ s.remaining cfg ∧
      (s'.exited < cfg.poolSize → ∃ s'', Step cfg s' s'' ∧ Moves s' s'') := by
  obtain ⟨hsound, hphase, hle⟩ := hw.sound hr.sound hclosed
  exact ⟨(Nat.le_add_right _ _).trans hle, exists_moves hsound hphase⟩

/-- With one request in the channel, one worker and one sink there are at most five steps left. -/
theorem drain_ends_one : ∃ s, Reachable smallConfig s ∧ s.remaining smallConfig = 5 ∧
    ∃ s', Step smallConfig s s' ∧ Moves s s' := by
  obtain ⟨s, hr, hphase, hqueue, hworkers, -, hexited, -⟩ :=
    reachable_accepted (.blank (str "r") 0 (str "c"))
  have hclosed : s.phase ≠ .serving := by rw [hphase]; nofun
  refine ⟨s, hr, ?_, (drain_ends smallConfig s hr hclosed 0 s (.refl s)).2 ?_⟩
  · rw [State.remaining, workLeft, hqueue, hworkers, hexited]
    rfl
  · rw [hexited]
    decide

end HttpCatch.App.Drain

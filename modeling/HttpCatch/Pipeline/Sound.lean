import HttpCatch.Pipeline.System

/-!
# No record is lost, handled twice or written in clear

Invariants of the pipeline of `HttpCatch.Pipeline.System`, each proved for the start and kept by
every step. They count: how often a ticket occurs in the channel, with the workers and in the
histories, and how often a counter occurs among what was counted and what is owed.

## Main results

* `pipeline_sound`: what holds of every state the pipeline can reach before the queue is closed.
* `pipeline_drains`: from each such state the workers can empty the channel and finish.
-/

namespace HttpCatch.Pipeline

open HttpCatch.Go HttpCatch.Capture HttpCatch.Admin

variable {cfg : Config} {s s' : State}

/-! ### Accepted records -/

theorem accepted_append (as : List Attempt) (a : Attempt) :
    accepted (as ++ [a]) = accepted as ++ if a.ok then [a.record] else [] := by
  cases ha : a.ok <;> simp [accepted, ha]

variable {as : List Attempt} {w : Worker} {ws ws' : List Worker}

/-- A ticket keeps its record. -/
theorem accepted_stable {t : ℕ} {rec : Record} (h : (accepted as)[t]? = some rec) (a : Attempt) :
    (accepted (as ++ [a]))[t]? = some rec := by
  obtain ⟨hlt, -⟩ := List.getElem?_eq_some_iff.1 h
  rw [accepted_append, List.getElem?_append_left hlt, h]

/-! ### Size -/

/-- The channel holds no more than its capacity, and no worker is ever lost. -/
structure Bounded (cfg : Config) (s : State) : Prop where
  queue : s.queue.length ≤ cfg.queueCapacity
  workers : s.workers.length = cfg.poolSize

theorem Bounded.init : Bounded cfg (State.init cfg) := ⟨Nat.zero_le _, List.length_replicate⟩

theorem Bounded.step (h : Bounded cfg s) (hstep : Step cfg s s') : Bounded cfg s' := by
  obtain ⟨hq, hw⟩ := h
  cases hstep with
  | capture | post | drop | count | finish => exact ⟨hq, hw⟩
  | send _ hroom =>
    refine ⟨?_, hw⟩
    rw [List.length_append, List.length_singleton]
    exact hroom
  | receive h hqueue =>
    refine ⟨?_, ?_⟩
    · rw [hqueue, List.length_cons] at hq
      exact Nat.le_of_succ_le hq
    · rw [h] at hw
      simpa using hw
  | redact h | redactPanic h | write h | writePanic h | settle h =>
    refine ⟨hq, ?_⟩
    rw [h] at hw
    simpa using hw

/-! ### Places -/

/-- The ticket a worker has in hand. -/
def Worker.held : Worker → List ℕ
  | .idle => []
  | .received t _ => [t]
  | .writing t _ _ => [t]

/-- The ticket a worker has passed to `Redact`. -/
def Worker.redacted : Worker → List ℕ
  | .writing t _ _ => [t]
  | _ => []

/-- How often a ticket is with the workers. -/
def State.held (s : State) (t : ℕ) : ℕ := (s.workers.flatMap Worker.held).count t

/-- How often a ticket is with a worker that has redacted it. -/
def State.redacted (s : State) (t : ℕ) : ℕ := (s.workers.flatMap Worker.redacted).count t

/-- How often a ticket is settled. -/
def State.done (s : State) (t : ℕ) : ℕ := (s.settled.map Settled.ticket).count t

/-- How often a ticket is in the channel. -/
def State.queued (s : State) (t : ℕ) : ℕ := (s.queue.map Prod.fst).count t

/-- Every ticket given out is in one place: in the channel, or received once and then with one
worker or settled. -/
structure Placed (s : State) : Prop where
  received : ∀ t, s.queued t + s.received.count t = if t < (accepted s.attempts).length then 1
    else 0
  held : ∀ t, s.received.count t = s.held t + s.done t
  redacted : ∀ t, s.redactions.count t = s.redacted t + s.done t

theorem Placed.init : Placed (State.init cfg) := by
  have hnil : ∀ (f : Worker → List ℕ) (n : ℕ), f .idle = [] →
      (List.replicate n Worker.idle).flatMap f = [] := by
    intro f n hf
    simp [hf]
  refine ⟨fun t => rfl, fun t => ?_, fun t => ?_⟩
  · simp [State.held, State.done, State.init, hnil Worker.held _ rfl]
  · simp [State.redacted, State.done, State.init, hnil Worker.redacted _ rfl]

theorem Placed.step (h : Placed s) (hstep : Step cfg s s') : Placed s' := by
  obtain ⟨hr, hh, hd⟩ := h
  simp only [State.queued, State.held, State.redacted, State.done] at hr hh hd
  cases hstep with
  | capture | post | count | finish => exact ⟨hr, hh, hd⟩
  | drop =>
    refine ⟨fun t => ?_, hh, hd⟩
    have := hr t
    simpa [accepted_append, State.queued] using this
  | send =>
    -- the new ticket is the number of tickets given out
    refine ⟨fun t => ?_, hh, hd⟩
    have := hr t
    simp only [State.queued, List.map_append, List.map_cons, List.map_nil, List.count_append,
      List.count_singleton, accepted_append, if_true, List.length_append, List.length_singleton,
      beq_iff_eq]
    split_ifs at this ⊢ <;> omega
  | receive h hqueue =>
    refine ⟨fun t => ?_, fun t => ?_, fun t => ?_⟩
    · have := hr t
      rw [hqueue] at this
      simp only [State.queued, List.map_cons, List.count_cons, List.count_append,
        List.count_nil] at this ⊢
      omega
    · have := hh t
      rw [h] at this
      simp only [State.held, State.done, List.flatMap_append, List.flatMap_cons, Worker.held,
        List.count_append, List.count_cons, List.count_nil, List.nil_append] at this ⊢
      omega
    · have := hd t
      rw [h] at this
      simp only [State.redacted, State.done, List.flatMap_append, List.flatMap_cons,
        Worker.redacted, List.count_append, List.nil_append] at this ⊢
      omega
  | redact h | redactPanic h | write h | writePanic h | settle h =>
    refine ⟨hr, fun t => ?_, fun t => ?_⟩
    · have := hh t
      rw [h] at this
      simp only [State.held, State.done, List.flatMap_append, List.flatMap_cons, Worker.held,
        List.count_append, List.map_append, List.map_cons, List.map_nil, List.count_cons,
        List.count_nil, List.nil_append] at this ⊢
      omega
    · have := hd t
      rw [h] at this
      simp only [State.redacted, State.done, List.flatMap_append, List.flatMap_cons,
        Worker.redacted, List.count_append, List.map_append, List.map_cons, List.map_nil,
        List.count_cons, List.count_nil, List.nil_append] at this ⊢
      omega

/-! ### Values -/

/-- The record a worker has in hand is the one of its ticket, redacted or not. -/
def Worker.Holds (cfg : Config) (as : List Attempt) : Worker → Prop
  | .idle => True
  | .received t rec => (accepted as)[t]? = some rec
  | .writing t value sink =>
    (∃ rec, (accepted as)[t]? = some rec ∧ value = cfg.redactor rec) ∧ sink ≤ cfg.sinks.length

theorem Worker.Holds.append (h : w.Holds cfg as) (a : Attempt) : w.Holds cfg (as ++ [a]) := by
  cases w with
  | idle => trivial
  | received t rec => exact accepted_stable h a
  | writing t value sink =>
    obtain ⟨⟨rec, hrec, hv⟩, hle⟩ := h
    exact ⟨⟨rec, accepted_stable hrec a, hv⟩, hle⟩

/-- What is in the channel, with the workers and written is what was accepted. -/
structure Faithful (cfg : Config) (s : State) : Prop where
  queue : ∀ p ∈ s.queue, (accepted s.attempts)[p.1]? = some p.2
  workers : ∀ w ∈ s.workers, w.Holds cfg s.attempts
  writes : ∀ w ∈ s.writes, w.sink < cfg.sinks.length ∧
    ∃ rec, (accepted s.attempts)[w.ticket]? = some rec ∧ w.value = cfg.redactor rec
  settled : ∀ e ∈ s.settled, e.panicked = false → e.calls = cfg.sinks.length

theorem Faithful.init : Faithful cfg (State.init cfg) := by
  refine ⟨List.forall_mem_nil _, fun w hw => ?_, List.forall_mem_nil _, List.forall_mem_nil _⟩
  rw [List.eq_of_mem_replicate hw]
  trivial

/-- Replacing one worker of a pool. -/
theorem forall_workers {P : Worker → Prop} {w' : Worker} (h : ∀ v ∈ ws ++ w :: ws', P v)
    (hw : P w → P w') : ∀ v ∈ ws ++ w' :: ws', P v := by
  intro v hv
  rcases List.mem_append.1 hv with hv | hv
  · exact h v (List.mem_append_left _ hv)
  rcases List.mem_cons.1 hv with rfl | hv
  · exact hw (h w (List.mem_append_right _ List.mem_cons_self))
  · exact h v (List.mem_append_right _ (List.mem_cons_of_mem w hv))

theorem forall_mem_append_singleton {α : Type} {P : α → Prop} {xs : List α} {x : α}
    (h : ∀ y ∈ xs, P y) (hx : P x) :
    ∀ y ∈ xs ++ [x], P y := by
  intro y hy
  rcases List.mem_append.1 hy with hy | hy
  · exact h y hy
  · rw [List.mem_singleton.1 hy]
    exact hx

theorem Faithful.step (h : Faithful cfg s) (hstep : Step cfg s s') : Faithful cfg s' := by
  obtain ⟨hq, hw, hwr, hs⟩ := h
  cases hstep with
  | capture | post | count | finish => exact ⟨hq, hw, hwr, hs⟩
  | send =>
    refine ⟨forall_mem_append_singleton (fun p hp => accepted_stable (hq p hp) _) ?_,
      fun w h => (hw w h).append _, ?_, hs⟩
    · rw [accepted_append, if_pos rfl]
      exact List.getElem?_concat_length
    · intro w hw'
      obtain ⟨hsink, rec, hrec, hv⟩ := hwr w hw'
      exact ⟨hsink, rec, accepted_stable hrec _, hv⟩
  | drop =>
    refine ⟨fun p hp => accepted_stable (hq p hp) _, fun w h => (hw w h).append _, ?_, hs⟩
    intro w hw'
    obtain ⟨hsink, rec, hrec, hv⟩ := hwr w hw'
    exact ⟨hsink, rec, accepted_stable hrec _, hv⟩
  | receive h hqueue =>
    rw [hqueue] at hq
    rw [h] at hw
    exact ⟨fun p hp => hq p (List.mem_cons_of_mem _ hp),
      forall_workers hw fun _ => hq _ List.mem_cons_self, hwr, hs⟩
  | redact h =>
    rw [h] at hw
    exact ⟨hq, forall_workers hw fun hrec => ⟨⟨_, hrec, rfl⟩, Nat.zero_le _⟩, hwr, hs⟩
  | redactPanic h =>
    rw [h] at hw
    exact ⟨hq, forall_workers hw fun _ => trivial, hwr, forall_mem_append_singleton hs nofun⟩
  | write h hsink =>
    rw [h] at hw
    have hholds := hw _ (List.mem_append_right _ List.mem_cons_self)
    exact ⟨hq, forall_workers hw fun hh => ⟨hh.1, hsink⟩,
      forall_mem_append_singleton hwr ⟨hsink, hholds.1⟩, hs⟩
  | writePanic h hsink =>
    rw [h] at hw
    have hholds := hw _ (List.mem_append_right _ List.mem_cons_self)
    exact ⟨hq, forall_workers hw fun _ => trivial,
      forall_mem_append_singleton hwr ⟨hsink, hholds.1⟩, forall_mem_append_singleton hs nofun⟩
  | settle h =>
    rw [h] at hw
    exact ⟨hq, forall_workers hw fun _ => trivial, hwr, forall_mem_append_singleton hs fun _ => rfl⟩

/-! ### Calls of Write -/

/-- The first `n` sinks, each with a ticket. -/
def marks (n t : ℕ) : List (ℕ × ℕ) := (List.range n).map fun k => (k, t)

theorem marks_succ (n t : ℕ) : marks (n + 1) t = marks n t ++ [(n, t)] := by
  rw [marks, List.range_succ, List.map_append]
  rfl

theorem count_marks (n t k u : ℕ) : (marks n t).count (k, u) = if k < n ∧ t = u then 1 else 0 := by
  induction n with
  | zero => simp [marks]
  | succ n ih =>
    rw [marks_succ, List.count_append, ih, List.count_singleton]
    simp only [beq_iff_eq, Prod.mk.injEq]
    split_ifs <;> omega

/-- The sinks a worker has called for the record in hand. -/
def Worker.marks : Worker → List (ℕ × ℕ)
  | .writing t _ sink => Pipeline.marks sink t
  | _ => []

/-- The sinks that were called for a settled record. -/
def Settled.marks (e : Settled) : List (ℕ × ℕ) := Pipeline.marks e.calls e.ticket

/-- A call of `Write`: which sink, for which ticket. -/
def Written.call (w : Written) : ℕ × ℕ := (w.sink, w.ticket)

/-- The calls of `Write` are those that the workers and the settled records stand for. -/
def Marked (s : State) : Prop :=
  ∀ p, (s.writes.map Written.call).count p =
    (s.workers.flatMap Worker.marks).count p + (s.settled.flatMap Settled.marks).count p

theorem Marked.init : Marked (State.init cfg) := by
  intro p
  have hnil : (List.replicate cfg.poolSize Worker.idle).flatMap Worker.marks = [] := by
    simp [Worker.marks]
  simp [State.init, hnil]

theorem Marked.step (h : Marked s) (hstep : Step cfg s s') : Marked s' := by
  cases hstep with
  | capture | post | send | drop | count | finish => exact h
  | receive hw | redact hw =>
    intro p
    have := h p
    rw [hw] at this
    simpa [Worker.marks, Pipeline.marks] using this
  | redactPanic hw =>
    intro p
    have := h p
    rw [hw] at this
    simpa [Worker.marks, Settled.marks, Pipeline.marks] using this
  | write hw =>
    intro p
    have := h p
    rw [hw] at this
    simp only [List.flatMap_append, List.flatMap_cons, Worker.marks, marks_succ, List.map_append,
      List.map_cons, List.map_nil, List.count_append, Written.call] at this ⊢
    omega
  | writePanic hw =>
    intro p
    have := h p
    rw [hw] at this
    simp only [List.flatMap_append, List.flatMap_cons, List.flatMap_nil, List.append_nil,
      List.nil_append, Worker.marks, Settled.marks, marks_succ, List.map_append, List.map_cons,
      List.map_nil, List.count_append, Written.call] at this ⊢
    omega
  | settle hw =>
    intro p
    have := h p
    rw [hw] at this
    simp only [List.flatMap_append, List.flatMap_cons, List.flatMap_nil, List.append_nil,
      List.nil_append, Worker.marks, Settled.marks, List.count_append] at this ⊢
    omega

/-! ### Counters -/

/-- The failed writes to the sinks of one name. -/
def failures (cfg : Config) (writes : List Written) (name : GoString) : ℕ :=
  writes.countP fun w => w.outcome = .error ∧ cfg.sinks.getD w.sink [] = name

/-- Each error counter is the number of failed writes to the sinks of its name. -/
def ErrorsCounted (cfg : Config) (s : State) : Prop :=
  s.errors = ⟨failures cfg s.writes (str "memory"), failures cfg s.writes (str "sqlite"),
    failures cfg s.writes (str "stdout")⟩

theorem failures_append (writes : List Written) (w : Written) (name : GoString) :
    failures cfg (writes ++ [w]) name =
      failures cfg writes name + if w.outcome = .error ∧ cfg.sinks.getD w.sink [] = name then 1
        else 0 := by
  rw [failures, List.countP_append, List.countP_singleton, failures]
  simp only [decide_eq_true_eq]

theorem ErrorsCounted.step (h : ErrorsCounted cfg s) (hstep : Step cfg s s') :
    ErrorsCounted cfg s' := by
  cases hstep with
  | capture | post | send | drop | count | finish | receive | redact | redactPanic | settle =>
    exact h
  | writePanic =>
    rw [ErrorsCounted] at h ⊢
    simpa [failures_append] using h
  | @write _ _ _ sink _ outcome =>
    rw [ErrorsCounted] at h ⊢
    simp only [failures_append]
    rw [h]
    cases outcome with
    | ok => simp [countError]
    | panic => simp [countError]
    | error =>
      have hms : str "memory" ≠ str "sqlite" := by decide
      have hmo : str "memory" ≠ str "stdout" := by decide
      have hso : str "sqlite" ≠ str "stdout" := by decide
      simp only [countError, SinkErrorCounters.incBySinkName, true_and]
      generalize cfg.sinks.getD sink [] = name
      split_ifs <;> simp_all

/-- A handler offers captured requests on the capture port and events on the admin port. -/
def Handler.Suits (port : Port) (rec : Record) : Prop := rec.isRequest = true ↔ port = .capture

/-- What was counted, with what is still owed, is what the offers made so far call for. -/
structure Accounted (s : State) : Prop where
  count : ∀ c, s.count c + (s.handlers.flatMap Handler.owed).count c =
    (s.attempts.flatMap fun a => owes a.port a.record a.ok).count c
  handlers : ∀ h ∈ s.handlers, ∀ rec ∈ h.todo, Handler.Suits h.port rec
  attempts : ∀ a ∈ s.attempts, Handler.Suits a.port a.record

theorem Accounted.init : Accounted (State.init cfg) :=
  ⟨fun _ => rfl, List.forall_mem_nil _, List.forall_mem_nil _⟩

/-- The handler that makes an offer, and the others. -/
theorem Accounted.offer (h : Accounted s) {hs hs' : List Handler} {port : Port} {rec : Record}
    {todo : List Record} (hh : s.handlers = hs ++ ⟨port, [], rec :: todo⟩ :: hs') (ok : Bool) :
    (∀ c, s.count c + ((hs ++ ⟨port, owes port rec ok, todo⟩ :: hs').flatMap Handler.owed).count c =
        ((s.attempts ++ [(⟨port, rec, ok⟩ : Attempt)]).flatMap fun a => owes a.port a.record
          a.ok).count c) ∧
      (∀ g ∈ hs ++ ⟨port, owes port rec ok, todo⟩ :: hs',
        ∀ rec ∈ g.todo, Handler.Suits g.port rec) ∧
      ∀ a ∈ s.attempts ++ [(⟨port, rec, ok⟩ : Attempt)], Handler.Suits a.port a.record := by
  obtain ⟨hc, hhs, has⟩ := h
  rw [hh] at hhs
  have hself := hhs _ (List.mem_append_right _ List.mem_cons_self)
  refine ⟨fun c => ?_, fun g hg => ?_,
    forall_mem_append_singleton has (hself rec List.mem_cons_self)⟩
  · have := hc c
    rw [hh] at this
    simp only [List.flatMap_append, List.flatMap_cons, List.flatMap_nil, List.append_nil,
      List.count_append, List.nil_append] at this ⊢
    omega
  · rcases List.mem_append.1 hg with hg | hg
    · exact hhs g (List.mem_append_left _ hg)
    rcases List.mem_cons.1 hg with rfl | hg
    · exact fun rec' hrec' => hself rec' (List.mem_cons_of_mem _ hrec')
    · exact hhs g (List.mem_append_right _ (List.mem_cons_of_mem _ hg))

theorem Accounted.step (h : Accounted s) (hstep : Step cfg s s') : Accounted s' := by
  cases hstep with
  | receive | redact | redactPanic | write | writePanic | settle =>
    exact ⟨h.count, h.handlers, h.attempts⟩
  | capture rec =>
    refine ⟨h.count, List.forall_mem_cons.2 ⟨fun rec' hrec' => ?_, h.handlers⟩, h.attempts⟩
    obtain ⟨r, -, rfl⟩ := List.mem_map.1 hrec'
    exact iff_of_true rfl rfl
  | post hpost =>
    refine ⟨h.count, List.forall_mem_cons.2 ⟨fun rec' hrec' => ?_, h.handlers⟩, h.attempts⟩
    exact iff_of_false (by rw [hpost.kinds rec' hrec']; exact Bool.false_ne_true) nofun
  | send hh =>
    obtain ⟨hc, hhs, has⟩ := h.offer hh true
    exact ⟨hc, hhs, has⟩
  | drop hh =>
    obtain ⟨hc, hhs, has⟩ := h.offer hh false
    exact ⟨hc, hhs, has⟩
  | @count hs hs' port c owed todo hh =>
    obtain ⟨hc, hhs, has⟩ := h
    rw [hh] at hhs
    refine ⟨fun d => ?_, fun g hg => ?_, has⟩
    · have := hc d
      rw [hh] at this
      simp only [List.flatMap_append, List.flatMap_cons, List.count_append, List.count_cons,
        List.cons_append, Function.update_apply, beq_iff_eq] at this ⊢
      by_cases hd : d = c
      · subst hd
        rw [if_pos rfl]
        rw [if_pos rfl] at this
        omega
      · rw [if_neg hd]
        rw [if_neg (Ne.symm hd)] at this
        omega
    · rcases List.mem_append.1 hg with hg | hg
      · exact hhs g (List.mem_append_left _ hg)
      rcases List.mem_cons.1 hg with rfl | hg
      · exact hhs ⟨port, c :: owed, todo⟩ (List.mem_append_right _ List.mem_cons_self)
      · exact hhs g (List.mem_append_right _ (List.mem_cons_of_mem _ hg))
  | finish hh =>
    obtain ⟨hc, hhs, has⟩ := h
    rw [hh] at hhs
    refine ⟨fun d => ?_, fun g hg => ?_, has⟩
    · have := hc d
      rw [hh] at this
      simpa using this
    · rcases List.mem_append.1 hg with hg | hg
      · exact hhs g (List.mem_append_left _ hg)
      · exact hhs g (List.mem_append_right _ (List.mem_cons_of_mem _ hg))

/-! ### All invariants -/

/-- All invariants together. -/
structure Inv (cfg : Config) (s : State) : Prop where
  bounded : Bounded cfg s
  placed : Placed s
  faithful : Faithful cfg s
  marked : Marked s
  errors : ErrorsCounted cfg s
  accounted : Accounted s

theorem Inv.init : Inv cfg (State.init cfg) :=
  ⟨Bounded.init, Placed.init, Faithful.init, Marked.init, rfl, Accounted.init⟩

theorem Inv.step (h : Inv cfg s) (hstep : Step cfg s s') : Inv cfg s' :=
  ⟨h.bounded.step hstep, h.placed.step hstep, h.faithful.step hstep, h.marked.step hstep,
    h.errors.step hstep, h.accounted.step hstep⟩

theorem Reachable.inv (h : Reachable cfg s) : Inv cfg s := by
  induction h with
  | refl => exact Inv.init
  | tail _ hstep ih => exact ih.step hstep

/-! ### What the invariants say -/

/-- No worker and no settled record stands for more calls of a sink than it has tickets. -/
theorem count_flatMap_marks_le {α : Type} (xs : List α) (f : α → List (ℕ × ℕ)) (g : α → List ℕ)
    (h : ∀ x, ∀ k t, (f x).count (k, t) ≤ (g x).count t) (k t : ℕ) :
    (xs.flatMap f).count (k, t) ≤ (xs.flatMap g).count t := by
  induction xs with
  | nil => exact le_rfl
  | cons x xs ih =>
    rw [List.flatMap_cons, List.flatMap_cons, List.count_append, List.count_append]
    exact Nat.add_le_add (h x k t) ih

theorem Worker.count_marks_le (w : Worker) (k t : ℕ) :
    w.marks.count (k, t) ≤ w.redacted.count t := by
  cases w with
  | idle | received => exact le_rfl
  | writing u value sink =>
    rw [Worker.marks, count_marks, Worker.redacted, List.count_singleton]
    split_ifs with h₁ h₂ <;> simp_all

theorem State.redacted_le_held (s : State) (t : ℕ) : s.redacted t ≤ s.held t := by
  rw [State.redacted, State.held]
  induction s.workers with
  | nil => exact le_rfl
  | cons w ws ih =>
    rw [List.flatMap_cons, List.flatMap_cons, List.count_append, List.count_append]
    refine Nat.add_le_add ?_ ih
    cases w <;> simp [Worker.redacted, Worker.held]

/-- Each sink is called at most once for a ticket. -/
theorem Inv.writes_le_one (h : Inv cfg s) (k t : ℕ) :
    (s.writes.map Written.call).count (k, t) ≤ 1 := by
  have hw := count_flatMap_marks_le s.workers Worker.marks Worker.redacted Worker.count_marks_le k t
  have hs := count_flatMap_marks_le s.settled Settled.marks (fun e => [e.ticket]) (fun e k t => by
    rw [Settled.marks, count_marks, List.count_singleton]
    split_ifs with h₁ h₂ <;> simp_all) k t
  have hdone : (s.settled.flatMap fun e => [e.ticket]) = s.settled.map Settled.ticket := by
    rw [← List.map_eq_flatMap]
  rw [hdone] at hs
  have hm := h.marked (k, t)
  have hred := h.placed.redacted t
  have hheld := h.placed.held t
  have hrec := h.placed.received t
  have hle := s.redacted_le_held t
  simp only [State.redacted, State.done] at hred hheld hle hs hw
  split_ifs at hrec <;> omega

/-- A record settled without a panic went to every sink. -/
theorem Inv.writes_pos (h : Inv cfg s) {e : Settled} (he : e ∈ s.settled) (hp : e.panicked = false)
    {k : ℕ} (hk : k < cfg.sinks.length) : 0 < (s.writes.map Written.call).count (k, e.ticket) := by
  have hmem : (k, e.ticket) ∈ s.settled.flatMap Settled.marks := by
    refine List.mem_flatMap.2 ⟨e, he, List.mem_map.2 ⟨k, List.mem_range.2 ?_, rfl⟩⟩
    rw [h.faithful.settled e he hp]
    exact hk
  have hpos := List.count_pos_iff.2 hmem
  rw [h.marked]
  omega

/-- The captured request names no service. -/
def Attempt.withoutService (a : Attempt) : Bool :=
  match a.record with
  | .request r => r.serviceSource = serviceSourceUnknown
  | _ => false

/-- The captured request has a made-up correlation key. -/
def Attempt.withoutCorrelation (a : Attempt) : Bool :=
  match a.record with
  | .request r => r.correlationSource = sourceSynthesized
  | _ => false

/-- The counters agree with the offers that were made. -/
structure Totals (s : State) : Prop where
  /-- `CapturedTotal` and the two ingested totals: the offers accepted. -/
  accepted : s.count .captured + s.count .ingestedResponse + s.count .ingestedOutbound =
    (Pipeline.accepted s.attempts).length
  /-- `Queue.DroppedTotal`: the offers refused. -/
  dropped : s.count .queueDropped = s.attempts.countP fun a => !a.ok
  /-- `EventsDroppedQueueFullTotal`: those of `POST /events`. -/
  eventsDropped : s.count .eventsDropped = s.attempts.countP fun a => !a.ok && a.port = .events
  /-- `CapturedTotal`: the offers of the capture port accepted. -/
  captured : s.count .captured = s.attempts.countP fun a => a.ok && a.port = .capture
  /-- `CapturedWithoutServiceTotal`. -/
  withoutService : s.count .withoutService = s.attempts.countP fun a => a.ok && a.withoutService
  /-- `CapturedWithoutCorrelationTotal`. -/
  withoutCorrelation : s.count .withoutCorrelation = s.attempts.countP fun a => a.ok &&
    a.withoutCorrelation

/-- How often a counter is owed for a list of offers, one offer at a time. -/
theorem count_owed {f : Attempt → ℕ} {p : Attempt → Bool}
    (h : ∀ a ∈ as, f a = if p a then 1 else 0) : (as.map f).sum = as.countP p := by
  induction as with
  | nil => rfl
  | cons a as ih =>
    rw [List.map_cons, List.sum_cons, h a List.mem_cons_self,
      ih fun b hb => h b (List.mem_cons_of_mem a hb), List.countP_cons, Nat.add_comm]

theorem count_flatMap_owes (as : List Attempt) (c : Counter) :
    (as.flatMap fun a => owes a.port a.record a.ok).count c =
      (as.map fun a => (owes a.port a.record a.ok).count c).sum := by
  rw [List.count_flatMap]
  rfl

theorem Accounted.totals (h : Accounted s) (hidle : s.handlers = []) : Totals s := by
  have hcount : ∀ c, s.count c =
      (s.attempts.map fun a => (owes a.port a.record a.ok).count c).sum := by
    intro c
    have := h.count c
    rw [hidle, count_flatMap_owes] at this
    simpa using this
  -- one offer: its kind of record fits the port
  have hone : ∀ a ∈ s.attempts,
      (owes a.port a.record a.ok).count .captured = (if a.ok && a.port = .capture then 1 else 0) ∧
      (owes a.port a.record a.ok).count .ingestedResponse + (owes a.port a.record a.ok).count
        .ingestedOutbound =
        (if a.ok && a.port = .events then 1 else 0) ∧
      (owes a.port a.record a.ok).count .queueDropped = (if !a.ok then 1 else 0) ∧
      (owes a.port a.record a.ok).count .eventsDropped =
        (if !a.ok && a.port = .events then 1 else 0) ∧
      (owes a.port a.record a.ok).count .withoutService =
        (if a.ok && a.withoutService then 1 else 0) ∧
      (owes a.port a.record a.ok).count .withoutCorrelation =
        (if a.ok && a.withoutCorrelation then 1 else 0) := by
    intro a ha
    obtain ⟨port, record, ok⟩ := a
    have hsuits := h.attempts _ ha
    cases port <;> cases record <;> cases ok <;>
      simp_all [Handler.Suits, owes, Attempt.withoutService, Attempt.withoutCorrelation,
        Record.isRequest]
    · rename_i r
      split_ifs <;> simp
  have hcaptured : s.count .captured = s.attempts.countP fun a => a.ok && a.port = .capture :=
    (hcount _).trans (count_owed fun a ha => (hone a ha).1)
  have hingested : s.count .ingestedResponse + s.count .ingestedOutbound =
      s.attempts.countP fun a => a.ok && a.port = .events := by
    rw [hcount, hcount, ← List.sum_map_add]
    exact count_owed fun a ha => (hone a ha).2.1
  have hports : ∀ as : List Attempt, (as.countP fun a => a.ok && a.port = .capture) +
      (as.countP fun a => a.ok && a.port = .events) = (Pipeline.accepted as).length := by
    intro as
    induction as with
    | nil => rfl
    | cons a as ih =>
      obtain ⟨port, record, ok⟩ := a
      cases port <;> cases ok <;> simp [Pipeline.accepted] at ih ⊢ <;> omega
  refine ⟨?_, ?_, ?_, hcaptured, ?_, ?_⟩
  · rw [Nat.add_assoc, hcaptured, hingested, hports]
  · exact (hcount _).trans (count_owed fun a ha => (hone a ha).2.2.1)
  · exact (hcount _).trans (count_owed fun a ha => (hone a ha).2.2.2.1)
  · exact (hcount _).trans (count_owed fun a ha => (hone a ha).2.2.2.2.1)
  · exact (hcount _).trans (count_owed fun a ha => (hone a ha).2.2.2.2.2)

/-! ### Progress -/

/-- A worker can finish with the record it has in hand. -/
theorem finish_worker (hr : Reachable cfg s) (h : s.workers = ws ++ w :: ws') :
    ∃ s', Reachable cfg s' ∧ s'.workers = ws ++ .idle :: ws' ∧ s'.queue = s.queue ∧
      s'.attempts = s.attempts := by
  -- the sinks that are left, one after the other
  have hwrite : ∀ (n : ℕ) (s : State) (t sink : ℕ) (value : Record), Reachable cfg s →
      s.workers = ws ++ .writing t value sink :: ws' → sink + n = cfg.sinks.length →
      ∃ s', Reachable cfg s' ∧ s'.workers = ws ++ .idle :: ws' ∧ s'.queue = s.queue ∧
        s'.attempts = s.attempts := by
    intro n
    induction n with
    | zero =>
      intro s t sink value hr h hn
      obtain rfl : sink = cfg.sinks.length := hn
      exact ⟨_, hr.tail (.settle s h), rfl, rfl, rfl⟩
    | succ n ih =>
      intro s t sink value hr h hn
      have hok : Outcome.ok ≠ .panic := nofun
      obtain ⟨s', hr', hw, hq, ha⟩ :=
        ih _ t (sink + 1) value (hr.tail (.write s h (by omega) hok)) rfl (by omega)
      exact ⟨s', hr', hw, hq, ha⟩
  cases w with
  | idle => exact ⟨s, hr, h, rfl, rfl⟩
  | received t rec =>
    obtain ⟨s', hr', hw, hq, ha⟩ :=
      hwrite cfg.sinks.length _ t 0 _ (hr.tail (.redact s h)) rfl (Nat.zero_add _)
    exact ⟨s', hr', hw, hq, ha⟩
  | writing t value sink =>
    have hle : sink ≤ cfg.sinks.length := by
      have hholds := hr.inv.faithful.workers (.writing t value sink)
          (h ▸ List.mem_append_right _ List.mem_cons_self)
      exact hholds.2
    exact hwrite (cfg.sinks.length - sink) s t sink value hr h (by omega)

theorem finish_workers (hr : Reachable cfg s) (h : s.workers = ws ++ ws')
    (hidle : ∀ w ∈ ws, w = .idle) :
    ∃ s', Reachable cfg s' ∧ (∀ w ∈ s'.workers, w = .idle) ∧ s'.queue = s.queue ∧
      s'.attempts = s.attempts := by
  induction ws' generalizing s ws with
  | nil =>
    rw [List.append_nil] at h
    exact ⟨s, hr, h ▸ hidle, rfl, rfl⟩
  | cons w ws' ih =>
    obtain ⟨s₁, hr₁, hw₁, hq₁, ha₁⟩ := finish_worker hr h
    have hcons : s₁.workers = (ws ++ [.idle]) ++ ws' := by
      rw [hw₁, List.append_assoc, List.singleton_append]
    obtain ⟨s₂, hr₂, hw₂, hq₂, ha₂⟩ := ih hr₁ hcons (forall_mem_append_singleton hidle rfl)
    exact ⟨s₂, hr₂, hw₂, hq₂.trans hq₁, ha₂.trans ha₁⟩

/-- **The workers can always empty the channel**, and then every record accepted so far is
settled. -/
theorem pipeline_drains (hr : Reachable cfg s) :
    ∃ s', Reachable cfg s' ∧ s'.attempts = s.attempts ∧ s'.queue = [] ∧
      ∀ w ∈ s'.workers, w = .idle := by
  have hloop : ∀ (n : ℕ) (s : State), Reachable cfg s → s.queue.length = n →
      ∃ s', Reachable cfg s' ∧ s'.attempts = s.attempts ∧ s'.queue = [] ∧
      ∀ w ∈ s'.workers, w = .idle := by
    intro n
    induction n with
    | zero =>
      intro s hr hn
      obtain ⟨s₁, hr₁, hw₁, hq₁, ha₁⟩ :=
        @finish_workers cfg s [] s.workers hr rfl (List.forall_mem_nil _)
      exact ⟨s₁, hr₁, ha₁, hq₁.trans (List.length_eq_zero_iff.1 hn), hw₁⟩
    | succ n ih =>
      intro s hr hn
      obtain ⟨s₁, hr₁, hw₁, hq₁, ha₁⟩ :=
        @finish_workers cfg s [] s.workers hr rfl (List.forall_mem_nil _)
      -- some worker is there to take the next record
      have hlen : 0 < s₁.workers.length := by
        rw [hr₁.inv.bounded.workers, Config.poolSize]
        omega
      obtain ⟨w, ws, hws⟩ := List.exists_cons_of_ne_nil (List.length_pos_iff.1 hlen)
      obtain rfl : w = .idle := hw₁ w (hws ▸ List.mem_cons_self)
      obtain ⟨p, queue, hp⟩ := List.exists_cons_of_ne_nil (l := s₁.queue) (by
        rw [hq₁, ← List.length_pos_iff, hn]
        exact Nat.succ_pos n)
      have hstep := @Step.receive cfg s₁ [] ws p.1 p.2 queue hws hp
      have hlen' : queue.length = n := by
        rw [← hq₁, hp, List.length_cons] at hn
        exact Nat.succ.inj hn
      obtain ⟨s₂, hr₂, ha₂, hq₂, hw₂⟩ := ih _ (hr₁.tail hstep) hlen'
      exact ⟨s₂, hr₂, ha₂.trans ha₁, hq₂, hw₂⟩
  exact hloop _ s hr rfl

/-! ### Main theorem -/

/-- What holds of the pipeline at any time. -/
structure Sound (cfg : Config) (s : State) : Prop where
  /-- The channel never holds more than its capacity. -/
  bound : s.queue.length ≤ cfg.queueCapacity
  /-- Each accepted record is in one place: in the channel, with one worker, or settled. -/
  placed : ∀ t < (accepted s.attempts).length, s.queued t + s.held t + s.done t = 1
  /-- A record that is not in the channel any more was received once. -/
  received : ∀ t < (accepted s.attempts).length, s.received.count t = 1 - s.queued t
  /-- No record is passed to `Redact` twice, and a settled one was passed to it. -/
  redacted : ∀ t, s.redactions.count t ≤ 1 ∧ (s.done t = 1 → s.redactions.count t = 1)
  /-- No sink is called twice for a record. -/
  once : ∀ sink t, (s.writes.map Written.call).count (sink, t) ≤ 1
  /-- Every sink was called for a record that was settled without a panic. -/
  complete : ∀ e ∈ s.settled, e.panicked = false →
    ∀ sink < cfg.sinks.length, (s.writes.map Written.call).count (sink, e.ticket) = 1
  /-- What a sink is given is the record of the ticket, redacted. -/
  clear : ∀ w ∈ s.writes, ∃ rec, (accepted s.attempts)[w.ticket]? = some rec ∧
    w.value = cfg.redactor rec
  /-- The error counters count the failed writes of their sinks. -/
  errors : ErrorsCounted cfg s
  /-- Between requests the counters agree with the offers made. -/
  totals : s.handlers = [] → Totals s

/-- **The pipeline is sound**, for every capacity, number of workers, list of sinks and redactor,
and every interleaving of requests and workers before the queue is closed; and whatever it has
accepted the workers can finish. -/
theorem pipeline_sound (cfg : Config) (s : State) (hr : Reachable cfg s) :
    Sound cfg s ∧ ∃ s', Reachable cfg s' ∧ s'.attempts = s.attempts ∧
      ∀ t < (accepted s.attempts).length, s'.done t = 1 := by
  have hinv := hr.inv
  have hplaced : ∀ {s : State}, Inv cfg s → ∀ t < (accepted s.attempts).length,
      s.queued t + s.held t + s.done t = 1 := by
    intro s hinv t ht
    have h₁ := hinv.placed.received t
    have h₂ := hinv.placed.held t
    rw [if_pos ht] at h₁
    omega
  refine ⟨⟨hinv.bounded.queue, hplaced hinv, fun t ht => ?_, fun t => ?_, hinv.writes_le_one,
    fun e he hp sink hsink => ?_, fun w hw => (hinv.faithful.writes w hw).2, hinv.errors,
    hinv.accounted.totals⟩, ?_⟩
  · have h₁ := hinv.placed.received t
    rw [if_pos ht] at h₁
    omega
  · have h₁ := hinv.placed.received t
    have h₂ := hinv.placed.held t
    have h₃ := hinv.placed.redacted t
    have hle := s.redacted_le_held t
    split_ifs at h₁ <;> omega
  · have h₁ := hinv.writes_le_one sink e.ticket
    have h₂ := hinv.writes_pos he hp hsink
    omega
  · obtain ⟨s', hr', ha, hq, hw⟩ := pipeline_drains hr
    refine ⟨s', hr', ha, fun t ht => ?_⟩
    have hone := hplaced hr'.inv t (ha.symm ▸ ht)
    have hqueued : s'.queued t = 0 := by rw [State.queued, hq]; rfl
    have hheld : s'.held t = 0 := by
      rw [State.held, List.count_eq_zero]
      intro hm
      obtain ⟨w, hmem, hwt⟩ := List.mem_flatMap.1 hm
      rw [hw w hmem] at hwt
      cases hwt
    omega

/-- One worker, a queue for one record and one sink. -/
def smallConfig : Config := ⟨1, 1, [str "memory"], id⟩

/-- A request that was accepted, received, redacted and written to the sink, while the next one
waits in the queue. -/
theorem pipeline_sound_written :
    ∃ s, (accepted s.attempts).length = 2 ∧ s.queue.length = 1 ∧ s.writes.length = 1 ∧
      s.done 0 = 0 ∧ Sound smallConfig s := by
  let r := CapturedRequest.blank (str "r") 0 (str "c")
  let r' := CapturedRequest.blank (str "s") 1 (str "c")
  have hsend : Reachable smallConfig _ :=
    (Relation.ReflTransGen.refl.tail (.capture _ (some r))).tail
      (@Step.send smallConfig _ [] [] .capture (.request r) [] rfl (by decide))
  have hredact := (hsend.tail (@Step.receive smallConfig _ [] [] 0 (.request r) [] rfl rfl)).tail
    (@Step.redact smallConfig _ [] [] 0 (.request r) rfl)
  have hwrite := hredact.tail
    (@Step.write smallConfig _ [] [] 0 0 (.request r) .ok rfl Nat.one_pos (by decide))
  have hnext := (hwrite.tail (.capture _ (some r'))).tail
    (@Step.send smallConfig _ [] _ .capture (.request r') [] rfl (by decide))
  exact ⟨_, rfl, rfl, rfl, rfl, (pipeline_sound smallConfig _ hnext).1⟩

end HttpCatch.Pipeline

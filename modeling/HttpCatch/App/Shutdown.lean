import Mathlib.Data.Nat.Notation
import Mathlib.Logic.Relation

/-!
# Shutdown

`App.Serve` and `App.shutdown` (`internal/app/app.go`) with `Server.Serve` of the admin port
(`internal/admin/server.go`): when the context is cancelled or one of the two servers fails,
`App.Serve` shuts down the capture server, waits for it, and closes the queue. The admin server
shuts itself down in a goroutine of its own, and nothing waits for that. An `Enqueue` on a
closed queue is a send on a closed channel: it panics, and the request is abandoned.

A request in flight is the number of calls of `Enqueue` it has yet to make. `http.Server.Shutdown`
returns once the requests in flight have returned, or when its deadline passes.

## Main result

* `shutdown_safe`: from which situations no interleaving ends in an `Enqueue` after `Close`.
-/

namespace HttpCatch.App

/-! ### States -/

/-- Why the application stops. -/
inductive Cause where
  /-- The context is cancelled. -/
  | cancelled
  /-- `Serve` of the capture server has returned. -/
  | captureFailed
  /-- `Serve` of the admin port has returned. -/
  | adminFailed
  deriving DecidableEq

/-- Where `App.Serve` is. -/
inductive Main where
  /-- In the `select`. -/
  | selecting
  /-- In `captureServer.Shutdown`. -/
  | stopping
  /-- Before `Queue.Close`. -/
  | closing
  /-- After it. -/
  | closed
  deriving DecidableEq

/-- Where `Server.Serve` of the admin port is. -/
inductive AdminPhase where
  /-- In its `select`. -/
  | serving
  /-- In `srv.Shutdown`. -/
  | stopping
  /-- Returned, with its result in `adminErrCh`. -/
  | returned
  deriving DecidableEq

/-- A state of the shutdown. -/
structure State where
  main : Main
  admin : AdminPhase
  /-- `ctx` is cancelled. -/
  cancelled : Bool
  /-- The result of the capture server is in `captureErrCh`. -/
  captureFailed : Bool
  /-- `serveCtx` is cancelled. -/
  serveCancelled : Bool
  /-- The requests in flight on the capture port. -/
  capture : List ℕ
  /-- The requests in flight on `POST /events`. -/
  events : List ℕ
  /-- An `Enqueue` was executed after `Queue.Close`. -/
  sentOnClosed : Bool
  deriving DecidableEq

/-- The application when it has a reason to stop, with these requests in flight. -/
def State.init (cause : Cause) (capture events : List ℕ) : State where
  main := .selecting
  admin := if cause = .adminFailed then .returned else .serving
  cancelled := cause = .cancelled
  captureFailed := cause = .captureFailed
  serveCancelled := cause = .cancelled
  capture := capture
  events := events
  sentOnClosed := false

/-! ### Steps -/

/-- A step of one of the goroutines. `deadline` says whether `captureServer.Shutdown` may return
because its deadline has passed. -/
inductive Step (deadline : Bool) : State → State → Prop
  /-- `case <-ctx.Done()`. -/
  | onCancel (s : State) (h : s.main = .selecting) (hc : s.cancelled = true) :
      Step deadline s { s with main := .stopping }
  /-- `case err := <-captureErrCh`. -/
  | onCapture (s : State) (h : s.main = .selecting) (hc : s.captureFailed = true) :
      Step deadline s { s with main := .stopping, serveCancelled := true }
  /-- `case err := <-adminErrCh`. -/
  | onAdmin (s : State) (h : s.main = .selecting) (hc : s.admin = .returned) :
      Step deadline s { s with main := .stopping }
  /-- `captureServer.Shutdown` returns. -/
  | captureStopped (s : State) (h : s.main = .stopping) (hc : s.capture = [] ∨ deadline = true) :
      Step deadline s { s with main := .closing }
  /-- `Queue.Close`. -/
  | close (s : State) (h : s.main = .closing) : Step deadline s { s with main := .closed }
  /-- The admin server sees its context cancelled. -/
  | adminCancelled (s : State) (h : s.admin = .serving) (hc : s.serveCancelled = true) :
      Step deadline s { s with admin := .stopping }
  /-- `srv.Shutdown` of the admin server returns, at its deadline if not before. -/
  | adminStopped (s : State) (h : s.admin = .stopping) :
      Step deadline s { s with admin := .returned }
  /-- A request on the capture port calls `Enqueue` on the open queue. -/
  | captureEnqueue (s : State) {xs ys : List ℕ} {n : ℕ} (h : s.capture = xs ++ (n + 1) :: ys)
      (ho : s.main ≠ .closed) :
      Step deadline s { s with capture := xs ++ n :: ys }
  /-- It does so on the closed queue and panics. -/
  | capturePanic (s : State) {xs ys : List ℕ} {n : ℕ} (h : s.capture = xs ++ (n + 1) :: ys)
      (ho : s.main = .closed) :
      Step deadline s { s with capture := xs ++ ys, sentOnClosed := true }
  /-- It returns. -/
  | captureReturn (s : State) {xs ys : List ℕ} (h : s.capture = xs ++ 0 :: ys) :
      Step deadline s { s with capture := xs ++ ys }
  /-- A request on `POST /events` calls `Enqueue` on the open queue. -/
  | eventsEnqueue (s : State) {xs ys : List ℕ} {n : ℕ} (h : s.events = xs ++ (n + 1) :: ys)
      (ho : s.main ≠ .closed) :
      Step deadline s { s with events := xs ++ n :: ys }
  /-- It does so on the closed queue and panics. -/
  | eventsPanic (s : State) {xs ys : List ℕ} {n : ℕ} (h : s.events = xs ++ (n + 1) :: ys)
      (ho : s.main = .closed) :
      Step deadline s { s with events := xs ++ ys, sentOnClosed := true }
  /-- It returns. -/
  | eventsReturn (s : State) {xs ys : List ℕ} (h : s.events = xs ++ 0 :: ys) :
      Step deadline s { s with events := xs ++ ys }

/-- A finite run. -/
abbrev Run (deadline : Bool) : State → State → Prop := Relation.ReflTransGen (Step deadline)

/-- No interleaving executes an `Enqueue` after `Queue.Close`; so no batch is abandoned part-way. -/
def Safe (deadline : Bool) (s : State) : Prop := ∀ s', Run deadline s s' → s'.sentOnClosed = false

/-! ### Safe situations -/

/-- Requests with nothing left to offer. -/
def Spent (xs : List ℕ) : Prop := ∀ n ∈ xs, n = 0

theorem Spent.not_cons {xs ys : List ℕ} {n : ℕ} (h : Spent (xs ++ (n + 1) :: ys)) : False :=
  absurd (h (n + 1) (List.mem_append_right _ List.mem_cons_self)) (Nat.succ_ne_zero n)

theorem Spent.remove {xs ys : List ℕ} {n : ℕ} (h : Spent (xs ++ n :: ys)) : Spent (xs ++ ys) := by
  intro m hm
  rcases List.mem_append.1 hm with hm | hm
  · exact h m (List.mem_append_left _ hm)
  · exact h m (List.mem_append_right _ (List.mem_cons_of_mem n hm))

/-- What keeps a run safe: `POST /events` has nothing to offer, and neither has the capture port
once its server has been waited for. -/
structure Guarded (deadline : Bool) (s : State) : Prop where
  events : Spent s.events
  capture : (deadline = true ∨ s.main = .closing ∨ s.main = .closed) → Spent s.capture
  safe : s.sentOnClosed = false

variable {deadline : Bool} {s : State}

theorem Guarded.step {s' : State} (h : Guarded deadline s) (hstep : Step deadline s s') :
    Guarded deadline s' := by
  obtain ⟨he, hc, hs⟩ := h
  cases hstep with
  | onCancel | onCapture | onAdmin =>
    exact ⟨he, fun hd => hc (hd.imp_right (fun h => h.elim nofun nofun)), hs⟩
  | captureStopped hm hempty =>
    refine ⟨he, fun _ => ?_, hs⟩
    -- the server has been waited for, or its deadline has passed
    rcases hempty with hnil | hd
    · show Spent s.capture
      rw [hnil]
      exact List.forall_mem_nil _
    · exact hc (Or.inl hd)
  | close hm => exact ⟨he, fun _ => hc (Or.inr (Or.inl hm)), hs⟩
  | adminCancelled | adminStopped => exact ⟨he, hc, hs⟩
  | @captureEnqueue xs ys n hcap ho =>
    refine ⟨he, fun hd => ?_, hs⟩
    have hspent := hc hd
    rw [hcap] at hspent
    exact hspent.not_cons.elim
  | capturePanic hcap hm =>
    have hspent := hc (Or.inr (Or.inr hm))
    rw [hcap] at hspent
    exact hspent.not_cons.elim
  | captureReturn hcap =>
    refine ⟨he, fun hd => ?_, hs⟩
    have hspent := hc hd
    rw [hcap] at hspent
    exact hspent.remove
  | eventsEnqueue hev | eventsPanic hev =>
    rw [hev] at he
    exact he.not_cons.elim
  | eventsReturn hev =>
    rw [hev] at he
    exact ⟨he.remove, hc, hs⟩

theorem Guarded.run {s' : State} (h : Guarded deadline s) (hrun : Run deadline s s') :
    Guarded deadline s' := by
  induction hrun with
  | refl => exact h
  | tail _ hstep ih => exact ih.step hstep

/-! ### Unsafe situations -/

/-- Whatever the cause, `App.Serve` gets to shutting down the capture server. -/
theorem run_select (deadline : Bool) (cause : Cause) (capture events : List ℕ) :
    ∃ s, Run deadline (State.init cause capture events) s ∧ s.main = .stopping ∧
      s.capture = capture ∧
      s.events = events := by
  cases cause with
  | cancelled => exact ⟨_, .single (.onCancel _ rfl rfl), rfl, rfl, rfl⟩
  | captureFailed => exact ⟨_, .single (.onCapture _ rfl rfl), rfl, rfl, rfl⟩
  | adminFailed => exact ⟨_, .single (.onAdmin _ rfl rfl), rfl, rfl, rfl⟩

/-- The requests on the capture port can all return while the queue is open. -/
theorem run_capture (h : s.main = .stopping) :
    ∃ s', Run deadline s s' ∧ s'.main = .stopping ∧ s'.capture = [] ∧ s'.events = s.events := by
  -- one request after the other, each offer by offer
  have hone : ∀ (n : ℕ) (s : State) (ys : List ℕ), s.main = .stopping → s.capture = n :: ys →
      ∃ s', Run deadline s s' ∧ s'.main = .stopping ∧ s'.capture = ys ∧ s'.events = s.events := by
    intro n
    induction n with
    | zero =>
      intro s ys h hcap
      exact ⟨_, .single (@Step.captureReturn deadline s [] ys hcap), h, rfl, rfl⟩
    | succ n ih =>
      intro s ys h hcap
      have hopen : s.main ≠ .closed := by rw [h]; decide
      obtain ⟨s', hrun, hm, hc, he⟩ := ih { s with capture := n :: ys } ys h rfl
      exact ⟨s', .head (@Step.captureEnqueue deadline s [] ys n hcap hopen) hrun, hm, hc, he⟩
  have hall : ∀ (xs : List ℕ) (s : State), s.main = .stopping → s.capture = xs →
      ∃ s', Run deadline s s' ∧ s'.main = .stopping ∧ s'.capture = [] ∧ s'.events = s.events := by
    intro xs
    induction xs with
    | nil => exact fun s h hcap => ⟨s, .refl, h, hcap, rfl⟩
    | cons n xs ih =>
      intro s h hcap
      obtain ⟨s₁, hrun₁, hm₁, hc₁, he₁⟩ := hone n s xs h hcap
      obtain ⟨s₂, hrun₂, hm₂, hc₂, he₂⟩ := ih s₁ hm₁ hc₁
      exact ⟨s₂, hrun₁.trans hrun₂, hm₂, hc₂, he₂.trans he₁⟩
  exact hall s.capture s h rfl

/-- Once the capture server has been waited for the queue is closed. -/
theorem run_close (h : s.main = .stopping) (hc : s.capture = [] ∨ deadline = true) :
    Run deadline s { s with main := .closed } :=
  .head (.captureStopped s h hc) (.single (.close { s with main := .closing } rfl))

/-- **When shutdown never races an enqueue.** For each of the three causes: just when no request
on `POST /events` has an `Enqueue` left to make, and, if the deadline of `captureServer.Shutdown`
may pass, none on the capture port has. -/
theorem shutdown_safe (deadline : Bool) (cause : Cause) (capture events : List ℕ) :
    Safe deadline (State.init cause capture events) ↔
      Spent events ∧ (deadline = true → Spent capture) := by
  constructor
  · intro hsafe
    obtain ⟨s, hrun, hm, hcap, hev⟩ := run_select deadline cause capture events
    refine ⟨fun n hn => ?_, fun hd n hn => ?_⟩
    · -- all of the capture port returns, the queue is closed, and then the event is offered
      rcases n with _ | k
      · rfl
      exfalso
      obtain ⟨xs, ys, hxs⟩ := List.append_of_mem hn
      obtain ⟨s₁, hrun₁, hm₁, hc₁, he₁⟩ := @run_capture deadline s hm
      have hbad := @Step.eventsPanic deadline { s₁ with main := .closed } xs ys k
          ((he₁.trans hev).trans hxs) rfl
      have := hsafe _ (((hrun.trans hrun₁).trans (run_close hm₁ (Or.inl hc₁))).tail hbad)
      cases this
    · rcases n with _ | k
      · rfl
      exfalso
      obtain ⟨xs, ys, hxs⟩ := List.append_of_mem hn
      have hbad := @Step.capturePanic deadline { s with main := .closed } xs ys k
          (hcap.trans hxs) rfl
      have := hsafe _ ((hrun.trans (run_close hm (Or.inr hd))).tail hbad)
      cases this
  · rintro ⟨hev, hcap⟩ s' hrun
    have hinit : Guarded deadline (State.init cause capture events) := by
      refine ⟨hev, fun h => ?_, rfl⟩
      rcases h with hd | h | h
      · exact hcap hd
      · cases h
      · cases h
    exact (hinit.run hrun).safe

/-- A batch of two events in flight when the context is cancelled: the queue is closed before the
second is offered. -/
theorem shutdown_abandons_batch : ¬ Safe false (State.init .cancelled [] [2]) := by
  intro hsafe
  have hrun : Run false (State.init .cancelled [] [2]) ⟨.closed, .serving, true, false, true, [],
      [], true⟩ :=
    (((((Relation.ReflTransGen.refl.tail (@Step.eventsEnqueue false _ [] [] 1 rfl (by decide))).tail
      (.onCancel _ rfl rfl)).tail (.captureStopped _ rfl (Or.inl rfl))).tail (.close _ rfl)).tail
        (@Step.eventsPanic false _ [] [] 0 rfl rfl))
  cases hsafe _ hrun

end HttpCatch.App

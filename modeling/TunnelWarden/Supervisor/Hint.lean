import TunnelWarden.Supervisor.Local
import TunnelWarden.Supervisor.Model.Retry

/-!
# What a supervisor does with its hint

Both supervisors treat the retry hint alike, and `HintMove` says how: it
is polled in the two waits after a failure and nowhere else, a poll that
is ready leads to the next attempt, and a wait that ends otherwise drops
the future. `hintMove_local` and `hintMove_remote` show that the two
supervisors do nothing else.
-/

namespace TunnelWarden

open Lifecycle

/-- How far a supervisor is, as far as the hint is concerned. -/
inductive Phase where
  | working
  | blocked
  | backoff
  | finished
  deriving DecidableEq, Repr

/-- What is seen of a supervisor. -/
structure HintView where
  phase : Phase
  hint : Notify
  state : SupervisorState
  cancelled : Bool

/-- **What a supervisor can do**, with what it lets others see. -/
inductive HintMove : HintView → List Effect → HintView → Prop
  /-- It works on. -/
  | work {v} (h : v.phase = .working) : HintMove v [] v
  /-- It reports how its worker is. -/
  | report {v} (state) (h : v.phase = .working) (hstate : ∀ reason, state ≠ .blocked reason) :
    HintMove v [.publish state] { v with state }
  /-- It makes its first attempt. -/
  | attempt {v} (n) (h : v.phase = .working) :
    HintMove v [.publish (.connecting n), .connect] { v with state := .connecting n }
  /-- An attempt failed for good. -/
  | block {v} (reason) (h : v.phase = .working) :
    HintMove v [.publish (.blocked reason)] { v with phase := .blocked, state := .blocked reason }
  /-- An attempt failed for now. -/
  | backOff {v} (n delay reason) (h : v.phase = .working) :
    HintMove v [.publish (.reconnecting n delay reason)]
      { v with phase := .backoff, state := .reconnecting n delay reason }
  /-- It polls the hint in vain. -/
  | wait {v hint} (h : v.phase = .blocked ∨ v.phase = .backoff) (hp : v.hint.poll = (false, hint)) :
    HintMove v [] { v with hint }
  /-- The hint is ready. -/
  | wake {v hint} (n) (h : v.phase = .blocked ∨ v.phase = .backoff)
    (hp : v.hint.poll = (true, hint)) (hlive : v.cancelled = false) :
    HintMove v [.publish (.connecting n), .connect]
      { v with phase := .working, hint, state := .connecting n }
  /-- The delay is over first. -/
  | elapse {v} (n) (h : v.phase = .backoff) :
    HintMove v [.publish (.connecting n), .connect]
      { v with phase := .working, hint := v.hint.drop, state := .connecting n }
  /-- It is cancelled. -/
  | cancel {v} : HintMove v [] { v with cancelled := true }
  /-- It ends. -/
  | finish {v v'} (h : v'.phase = .finished) (hlive : v.cancelled = true → v'.cancelled = true) :
    HintMove v [.publish .stopped] v'
  /-- It has ended. -/
  | rest {v} (h : v.phase = .finished) : HintMove v [] v

namespace HintMove

variable {v v' : HintView} {out : List Effect}

/-- A supervisor that has ended does no more. -/
theorem of_finished (h : HintMove v out v') (hv : v.phase = .finished) :
    .connect ∉ out ∧ v'.phase = .finished := by
  cases h <;> simp_all

/-- **A blocked supervisor with a quiet hint waits on**, or ends. -/
theorem of_blocked (h : HintMove v out v') (hv : v.phase = .blocked) (hq : v.hint.Quiet) :
    .connect ∉ out ∧
      (v'.phase = .finished ∨ v'.phase = .blocked ∧ v'.hint.Quiet ∧ v'.state = v.state) := by
  cases h with
  | wait _ hp =>
      have hquiet := hq.poll
      rw [hp] at hquiet
      exact ⟨by simp, .inr ⟨hv, hquiet, rfl⟩⟩
  | wake n _ hp _ =>
      have hready := hq.not_ready
      simp [hp] at hready
  | finish h _ => exact ⟨by simp, .inl h⟩
  | cancel => exact ⟨by simp, .inr ⟨hv, hq, rfl⟩⟩
  | _ => simp_all

/-- A blocked supervisor that is cancelled makes no attempt either. -/
theorem of_blocked_cancelled (h : HintMove v out v') (hv : v.phase = .blocked)
    (hc : v.cancelled = true) :
    .connect ∉ out ∧ (v'.phase = .finished ∨ v'.phase = .blocked ∧ v'.cancelled = true) := by
  cases h with
  | wake n _ _ hlive => simp [hc] at hlive
  | finish h _ => exact ⟨by simp, .inl h⟩
  | _ => simp_all

/-- **A supervisor that publishes `Blocked`** was working, and has not
polled the hint yet. -/
theorem of_publish_blocked {reason : String} (h : HintMove v out v')
    (hout : .publish (.blocked reason) ∈ out) :
    v.phase = .working ∧ v' = { v with phase := .blocked, state := .blocked reason } := by
  cases h with
  | block reason' hv =>
      obtain rfl : reason = reason' := by simpa using hout
      exact ⟨hv, rfl⟩
  | report state _ hstate =>
      obtain rfl : .blocked reason = state := by simpa using hout
      exact absurd rfl (hstate reason)
  | _ => simp at hout

/-- A cancellation is for good. -/
theorem cancelled (h : HintMove v out v') (hv : v.cancelled = true) : v'.cancelled = true := by
  cases h with
  | finish _ hlive => exact hlive hv
  | cancel => rfl
  | _ => exact hv

/-- Outside its waits the supervisor has no future that waits for the
hint. -/
theorem idle (h : HintMove v out v') (hv : v.phase = .working → v.hint.waiter = .idle)
    (hv' : v'.phase = .working) : v'.hint.waiter = .idle := by
  cases h with
  | wake n _ hp _ => exact Notify.poll_idle hp
  | elapse n _ => exact Notify.drop_idle
  | finish h _ => simp [h] at hv'
  | block => simp at hv'
  | backOff => simp at hv'
  | wait h _ => simp_all
  | rest h => simp_all
  | _ => exact hv hv'

end HintMove

/-! ## Local -/

namespace LocalForwardSupervisor

variable {s : LocalForwardSupervisor} {event : SupervisorEvent} {v : HintView}

def phase (s : LocalForwardSupervisor) : Phase :=
  match s.control with
  | .blocked _ => .blocked
  | .backoff _ => .backoff
  | .finished _ => .finished
  | _ => .working

def view (s : LocalForwardSupervisor) : HintView := ⟨s.phase, s.retryHint, s.state, s.cancelled⟩

theorem hintMove_finish (result : Except SupervisorError Unit) :
    HintMove v (s.finish result).1 (s.finish result).2.view :=
  .finish rfl fun _ => rfl

/-- The next attempt, after whatever led to it. -/
theorem hintMove_attempt (n : ℕ)
    (h : HintMove v [.publish (.connecting n), .connect]
      ⟨.working, s.retryHint, .connecting n, s.cancelled⟩) :
    HintMove v (s.attempt n).1 (s.attempt n).2.view := by
  unfold attempt
  split
  · exact hintMove_finish _
  · exact h

theorem view_working (hs : s.phase = .working) :
    s.view = ⟨.working, s.retryHint, s.state, s.cancelled⟩ := by
  rw [view, hs]

theorem hintMove_afterFailure (hs : s.phase = .working) (n : ℕ) (reason : String) (blocked : Bool)
    (jitter : ℤ) (resume : ℕ) :
    HintMove s.view (s.afterFailure n reason blocked jitter resume).1
      (s.afterFailure n reason blocked jitter resume).2.view := by
  rw [view_working hs]
  cases blocked with
  | true => exact .block _ rfl
  | false => exact .backOff _ _ _ rfl

theorem hintMove_whileUnhealthy {ready : Option (List Effect × LocalForwardSupervisor)}
    (hready : ∀ next, ready = some next → s.cancelled = false → HintMove v next.1 next.2.view)
    (hnone : ready = none → HintMove v [] s.view) :
    HintMove v (s.whileUnhealthy ready event).1 (s.whileUnhealthy ready event).2.view := by
  rcases whileUnhealthy_cases s ready event with ⟨-, result, -, heq⟩ | ⟨hlive, next, hnext, heq⟩ |
    ⟨-, -, error, heq⟩ | ⟨hn, -, clients, heq⟩
  · rw [heq]; exact hintMove_finish _
  · rw [heq]; exact hready next hnext hlive
  · rw [heq]; exact hintMove_finish _
  · rw [heq]; exact hnone hn

theorem hintMove_awaitHint (hs : s.phase = .blocked ∨ s.phase = .backoff) (resume : ℕ) :
    HintMove s.view (s.awaitHint resume event).1 (s.awaitHint resume event).2.view := by
  -- the hint is polled first, whatever event the task was woken for
  rcases hp : s.retryHint.poll with ⟨_ | _, hint⟩
  · rw [awaitHint_pending hp]
    refine hintMove_whileUnhealthy (fun _ hnext => by simp at hnext) fun _ => ?_
    exact .wait (v := s.view) hs hp
  · rw [awaitHint_ready hp]
    refine hintMove_whileUnhealthy (fun next hnext hlive => ?_) fun hnone => by simp at hnone
    rw [← Option.some.inj hnext]
    exact hintMove_attempt resume (.wake (v := s.view) resume hs hp hlive)

theorem hintMove_serve (hs : s.phase = .working) (n : ℕ) (rtts : List Duration) (now : Instant) :
    HintMove s.view (s.serve n rtts now).1 (s.serve n rtts now).2.view := by
  rw [view_working hs]
  unfold serve
  cases s.listener with
  | none => exact hintMove_finish _
  | some listener =>
      dsimp only
      split
      · exact hintMove_finish _
      · exact .report _ rfl nofun

/-- **The Local supervisor does nothing else.** -/
theorem hintMove_advance (s : LocalForwardSupervisor) (event : SupervisorEvent) :
    HintMove s.view (s.advance event).1 (s.advance event).2.view := by
  unfold advance
  cases hc : s.control with
  | spawned =>
      have hs : s.phase = .working := by rw [phase, hc]
      rw [view_working hs]
      exact hintMove_attempt 1 (.attempt 1 rfl)
  | connecting n =>
      have hs : s.phase = .working := by rw [phase, hc]
      refine hintMove_whileUnhealthy (fun next hnext _ => ?_) fun _ => .work hs
      split at hnext
      · rw [← Option.some.inj hnext, view_working hs]
        exact .work rfl
      · rw [← Option.some.inj hnext]
        exact hintMove_afterFailure hs ..
      · simp at hnext
  | pinging n =>
      have hs : s.phase = .working := by rw [phase, hc]
      dsimp only
      split
      · exact hintMove_serve hs ..
      · exact hintMove_afterFailure hs ..
      · exact .work hs
  | serving n since worker listener =>
      have hs : s.phase = .working := by rw [phase, hc]
      rw [view_working hs]
      dsimp only
      split
      · rcases hobs : worker.observe none with ⟨worker', _ | state⟩
        · exact .work rfl
        · exact .report state rfl (Worker.observe_ne_blocked hobs)
      · split
        · exact .work rfl
        · exact .work rfl
  | releasing n since outcome listener =>
      have hs : s.phase = .working := by rw [phase, hc]
      dsimp only
      split
      · split
        · exact hintMove_finish _
        · exact hintMove_afterFailure (s := { s with listener := some listener }) hs ..
      · exact .work hs
  | blocked resume => exact hintMove_awaitHint (.inl (by rw [phase, hc])) resume
  | backoff resume =>
      have hs : s.phase = .backoff := by rw [phase, hc]
      dsimp only
      split
      · refine hintMove_whileUnhealthy (fun next hnext _ => ?_) fun hnone => by simp at hnone
        rw [← Option.some.inj hnext]
        exact hintMove_attempt resume (.elapse (v := s.view) resume hs)
      · exact hintMove_awaitHint (.inr hs) resume
  | finished result => exact .rest (by rw [view, phase, hc])

theorem control_of_blocked (hs : s.phase = .blocked) : ∃ resume, s.control = .blocked resume := by
  unfold phase at hs
  split at hs
  · exact ⟨_, ‹_›⟩
  all_goals simp at hs

theorem connect_mem_attempt (hlive : s.cancelled = false) (n : ℕ) :
    .connect ∈ (s.attempt n).1 := by
  simp [attempt, hlive]

/-- **A blocked supervisor whose hint is ready makes its next attempt.** -/
theorem Going.connects (h : s.Going) (hs : s.phase = .blocked) (hready : s.retryHint.Ready) :
    .connect ∈ (s.step .poll).1 := by
  obtain ⟨resume, hc⟩ := control_of_blocked hs
  -- while it waits the supervisor holds the listener, so it cannot end for want of one
  have hsocket : s.socket ≠ none := by
    have hheld := h.held
    rwa [Held, hc] at hheld
  rcases hp : s.retryHint.poll with ⟨woken, hint⟩
  obtain rfl : woken = true := by rwa [Notify.Ready, hp] at hready
  have hstep : s.step .poll = s.awaitHint resume .poll := by
    simp only [LocalForwardSupervisor.step, LocalForwardSupervisor.advance, hc]
  rw [hstep, awaitHint_ready hp]
  rcases whileUnhealthy_cases { s with retryHint := hint }
    (some (({ s with retryHint := hint }).attempt resume)) .poll with
    ⟨hend, -⟩ | ⟨-, next, hnext, heq⟩ | ⟨hnone, -⟩ | ⟨hnone, -⟩
  · rcases hend with hend | hend
    · exact absurd hend hsocket
    · exact absurd (hend.symm.trans h.live) (by simp)
  · rw [heq, ← Option.some.inj hnext]
    exact connect_mem_attempt (s := { s with retryHint := hint }) h.live resume
  · simp at hnone
  · simp at hnone

theorem retryHint_new {listener : ListenerRuntime} {mode : SupervisorMode} {retry : RetryPolicy}
    (h : new listener mode retry = .ok s) : s.retryHint = {} := by
  unfold new at h
  split at h
  · simp at h
  · rw [← Except.ok.inj h]

end LocalForwardSupervisor

/-! ## Remote -/

namespace RemoteForwardSupervisor

variable {s : RemoteForwardSupervisor} {event : SupervisorEvent} {v : HintView}

def phase (s : RemoteForwardSupervisor) : Phase :=
  match s.control with
  | .blocked _ => .blocked
  | .backoff _ => .backoff
  | .finished => .finished
  | _ => .working

def view (s : RemoteForwardSupervisor) : HintView := ⟨s.phase, s.retryHint, s.state, s.cancelled⟩

theorem view_working (hs : s.phase = .working) :
    s.view = ⟨.working, s.retryHint, s.state, s.cancelled⟩ := by
  rw [view, hs]

theorem hintMove_finish (hlive : v.cancelled = true → s.cancelled = true) :
    HintMove v s.finish.1 s.finish.2.view :=
  .finish rfl hlive

/-- The next attempt, after whatever led to it. -/
theorem hintMove_attempt (hlive : v.cancelled = true → s.cancelled = true) (n : ℕ)
    (h : HintMove v [.publish (.connecting n), .connect]
      ⟨.working, s.retryHint, .connecting n, s.cancelled⟩) :
    HintMove v (s.attempt n).1 (s.attempt n).2.view := by
  unfold attempt
  split
  · exact hintMove_finish hlive
  · exact h

theorem hintMove_afterFailure (hs : s.phase = .working) (n : ℕ) (reason : String) (blocked : Bool)
    (jitter : ℤ) (resume : ℕ) :
    HintMove s.view (s.afterFailure n reason blocked jitter resume).1
      (s.afterFailure n reason blocked jitter resume).2.view := by
  rw [view_working hs]
  cases blocked with
  | true => exact .block _ rfl
  | false => exact .backOff _ _ _ rfl

theorem hintMove_awaitHint (hs : s.phase = .blocked ∨ s.phase = .backoff) (resume : ℕ) :
    HintMove s.view (s.awaitHint resume).1 (s.awaitHint resume).2.view := by
  unfold awaitHint
  split
  · exact hintMove_finish id
  · rename_i hcancel
    have hlive : s.cancelled = false := by simpa using hcancel
    rcases hp : s.retryHint.poll with ⟨_ | _, hint⟩
    · exact .wait (v := s.view) hs hp
    · exact hintMove_attempt id resume (.wake (v := s.view) resume hs hp hlive)

/-- **The Remote supervisor does nothing else.** -/
theorem hintMove_advance (s : RemoteForwardSupervisor) (event : SupervisorEvent) :
    HintMove s.view (s.advance event).1 (s.advance event).2.view := by
  unfold advance
  cases hc : s.control with
  | spawned =>
      have hs : s.phase = .working := by rw [phase, hc]
      rw [view_working hs]
      exact hintMove_attempt id 1 (.attempt 1 rfl)
  | connecting n =>
      have hs : s.phase = .working := by rw [phase, hc]
      dsimp only
      split
      · exact hintMove_finish id
      · split
        · rw [view_working hs]
          exact .work rfl
        · exact hintMove_afterFailure hs ..
        · exact .work hs
  | pinging n =>
      have hs : s.phase = .working := by rw [phase, hc]
      dsimp only
      split
      · unfold register
        split
        · rw [view_working hs]
          exact .work rfl
        · exact hintMove_afterFailure hs ..
      · exact hintMove_afterFailure hs ..
      · exact .work hs
  | registering n rtts =>
      have hs : s.phase = .working := by rw [phase, hc]
      dsimp only
      split
      · rw [view_working hs]
        exact .report _ rfl nofun
      · exact hintMove_afterFailure hs ..
      · exact .work hs
  | serving n since port worker =>
      have hs : s.phase = .working := by rw [phase, hc]
      rw [view_working hs]
      dsimp only
      split
      · exact .work rfl
      · split
        · rcases hobs : worker.observe (some port) with ⟨worker', _ | state⟩
          · exact .work rfl
          · exact .report state rfl (Worker.observe_ne_blocked hobs)
        · split
          · exact .work rfl
          · exact .work rfl
  | stopping n since outcome =>
      have hs : s.phase = .working := by rw [phase, hc]
      dsimp only
      split
      · split
        · exact hintMove_finish id
        · exact hintMove_afterFailure hs ..
      · exact .work hs
  | blocked resume => exact hintMove_awaitHint (.inl (by rw [phase, hc])) resume
  | backoff resume =>
      have hs : s.phase = .backoff := by rw [phase, hc]
      dsimp only
      split
      · split
        · exact hintMove_finish id
        · exact hintMove_attempt id resume (.elapse (v := s.view) resume hs)
      · exact hintMove_awaitHint (.inr hs) resume
  | finished => exact .rest (by rw [view, phase, hc])

theorem control_of_blocked (hs : s.phase = .blocked) : ∃ resume, s.control = .blocked resume := by
  unfold phase at hs
  split at hs
  · exact ⟨_, ‹_›⟩
  all_goals simp at hs

/-- **A blocked supervisor whose hint is ready makes its next attempt.** -/
theorem connects (hs : s.phase = .blocked) (hlive : s.cancelled = false)
    (hready : s.retryHint.Ready) : .connect ∈ (s.step .poll).1 := by
  obtain ⟨resume, hc⟩ := control_of_blocked hs
  rcases hp : s.retryHint.poll with ⟨woken, hint⟩
  obtain rfl : woken = true := by rwa [Notify.Ready, hp] at hready
  simp [step, advance, awaitHint, attempt, hc, hp, hlive]

end RemoteForwardSupervisor

/-! ## Either -/

namespace Supervisor

def view : Supervisor → HintView
  | .local s => s.view
  | .remote s => s.view

/-- **A step of a supervisor is a move**, unless it is a signal. -/
theorem hintMove_step (s : Supervisor) {event : SupervisorEvent} (h : event ≠ .notify) :
    HintMove s.view (s.step event).1 (s.step event).2.view := by
  cases s with
  | «local» s =>
      dsimp only [step, view, LocalForwardSupervisor.step]
      split
      · exact .cancel (v := s.view)
      · exact absurd rfl h
      · exact s.hintMove_advance _
  | remote s =>
      dsimp only [step, view, RemoteForwardSupervisor.step]
      split
      · exact .cancel (v := s.view)
      · exact absurd rfl h
      · exact s.hintMove_advance _

/-- A signal changes the hint and nothing else. -/
theorem view_notify (s : Supervisor) :
    (s.step .notify).2.view = { s.view with hint := s.view.hint.notifyOne } := by
  cases s <;> rfl

end Supervisor

end TunnelWarden

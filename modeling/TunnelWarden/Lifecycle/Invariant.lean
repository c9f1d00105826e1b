import TunnelWarden.Lifecycle.Steps

/-!
# The representation invariant of the lifecycle

Which values of the intent, the listener, the health and the hidden
restart flag go with which phase. `PhaseOk` is the table, one row for a
phase, and `Inv` adds what does not depend on the phase; `inv_step` is
the one induction step every later result about reachable machines uses.
`RepresentationInvariant` reads the table clause by clause.

The row for `starting` carries more than any clause: no ping has been
missed there, which is why a first missed ping degrades and does not
reconnect.
-/

namespace TunnelWarden

namespace Lifecycle

namespace StateMachine

variable {m c : StateMachine} {e : Event} {eff : Option TransitionEffect}

/-- No port conflict is on record. -/
def NoConflict (m : StateMachine) : Prop := ∀ a h, m.state.listener ≠ .conflict a h

/-- The tunnel is wanted, and no shutdown waits to start it again. -/
def Wanted (m : StateMachine) : Prop :=
  m.state.desired = .running ∧ m.restartAfterShutdown = false

/-- **The table of phases.** -/
def PhaseOk (m : StateMachine) : Prop :=
  match m.state.runtime with
  | .stopped =>
      m.state.desired = .stopped ∧ m.restartAfterShutdown = false ∧
        m.state.listener = idleListener m.listenerRequired ∧ m.state.health = {}
  | .starting _ =>
      m.Wanted ∧ m.NoConflict ∧ m.state.health.consecutivePingFailures = 0
  | .connecting hop total _ => m.Wanted ∧ m.NoConflict ∧ 1 ≤ hop ∧ hop ≤ total ∧ m.state.health = {}
  | .authenticating hop total =>
      m.Wanted ∧ m.NoConflict ∧ 1 ≤ hop ∧ hop ≤ total ∧ m.state.health = {}
  | .establishingForward => m.Wanted ∧ m.NoConflict ∧ m.state.health = { authenticated := true }
  | .healthy _ =>
      m.Wanted ∧ m.NoConflict ∧ m.Verified ∧ m.state.health.consecutivePingFailures = 0 ∧
        m.state.health.lastRttMs.isSome
  | .degraded .. =>
      m.Wanted ∧ m.NoConflict ∧ m.Verified ∧ 1 ≤ m.state.health.consecutivePingFailures ∧
        m.state.health.consecutivePingFailures ≤ 2
  | .reconnecting .. =>
      m.Wanted ∧ m.NoConflict ∧ m.state.health.authenticated = false ∧
        m.state.health.forwardReady = false
  | .blocked _ => m.Wanted
  | .stopping =>
      (m.state.desired = .running ↔ m.restartAfterShutdown = true) ∧ m.state.health = {}
  | .failed _ => False

/-- The invariant of the reducer. -/
structure Inv (m : StateMachine) : Prop where
  phase : m.PhaseOk
  listener : m.state.listener = .notRequired ↔ m.listenerRequired = false

theorem inv_new (listenerRequired : Bool) : Inv (new listenerRequired) := by
  cases listenerRequired <;> exact ⟨⟨rfl, rfl, rfl, rfl⟩, by simp [new, idleListener]⟩

/-! ## What a phase says -/

/-- In a phase `require_running` lets through, the tunnel is wanted and no
conflict is on record. -/
theorem Inv.of_running (hi : Inv m) (hr : m.Running) : m.Wanted ∧ m.NoConflict := by
  have hp := hi.phase
  have hph := hr.2
  unfold PhaseOk at hp
  unfold StateMachine.phase at hph
  split at hp <;> simp_all

/-- Outside the two stopped phases the tunnel is wanted. -/
theorem Inv.wanted (hi : Inv m) (h₁ : m.phase ≠ .stopped) (h₂ : m.phase ≠ .stopping) :
    m.Wanted := by
  have hp := hi.phase
  unfold PhaseOk at hp
  unfold StateMachine.phase at h₁ h₂
  split at hp <;> simp_all

theorem Inv.of_stopped (hi : Inv m) (h : m.phase = .stopped) :
    m.state.desired = .stopped ∧ m.restartAfterShutdown = false ∧
      m.state.listener = idleListener m.listenerRequired ∧ m.state.health = {} := by
  have hp := hi.phase
  unfold PhaseOk at hp
  unfold StateMachine.phase at h
  split at hp <;> simp_all

theorem Inv.of_stopping (hi : Inv m) (h : m.phase = .stopping) :
    (m.state.desired = .running ↔ m.restartAfterShutdown = true) ∧ m.state.health = {} := by
  have hp := hi.phase
  unfold PhaseOk at hp
  unfold StateMachine.phase at h
  split at hp <;> simp_all

/-- Where a ping result is accepted, at most two pings have been missed. -/
theorem Inv.failures_le (hi : Inv m) (h : m.phase ∈ [.starting, .healthy, .degraded]) :
    m.state.health.consecutivePingFailures ≤ 2 := by
  have hp := hi.phase
  unfold PhaseOk at hp
  unfold StateMachine.phase at h
  split at hp <;> simp_all

/-- A listener that is not needed is recorded as such, and only then. -/
theorem idleListener_notRequired {required : Bool} :
    idleListener required = .notRequired ↔ required = false := by
  cases required <;> simp [idleListener]

/-! ## The step and the run -/

theorem Inv.begin (m : StateMachine) (hr : m.restartAfterShutdown = false) : Inv m.begin := by
  refine ⟨⟨⟨rfl, hr⟩, ?_, rfl⟩, idleListener_notRequired⟩
  intro a h
  simp only [StateMachine.begin]
  cases m.listenerRequired <;> simp [idleListener]

theorem Inv.enterStopping (hi : Inv m) {d : DesiredState} {r : Bool}
    (h : d = .running ↔ r = true) : Inv (m.bump.enterStopping d r) :=
  ⟨⟨h, rfl⟩, hi.listener⟩

/-- **An applied event keeps the invariant.** -/
theorem Inv.applies (hi : Inv m) (h : Applies m e eff c) : Inv c := by
  cases h with
  | start hp hg => exact Inv.begin m.bump (hi.of_stopped hp).2.1
  | stop hp hp' hg => exact hi.enterStopping (by simp)
  | restartStopped hp hg => exact Inv.begin m.bump (hi.of_stopped hp).2.1
  | restartRunning hp hp' hg => exact hi.enterStopping (by simp [(hi.wanted hp hp').1])
  | configStopped hp hg => exact ⟨hi.phase, hi.listener⟩
  | configRunning hp hp' hg => exact hi.enterStopping (by simp)
  | shutdownRestart hp hr => exact Inv.begin _ rfl
  | shutdownStopped hp hr =>
      have hd : m.state.desired = .stopped := by
        have := (hi.of_stopping hp).1
        cases h : m.state.desired <;> simp_all
      exact ⟨⟨hd, hr, rfl, rfl⟩, idleListener_notRequired⟩
  | phase hr hp =>
      obtain ⟨hw, hn⟩ := hi.of_running hr
      refine ⟨⟨hw, hn, ?_⟩, hi.listener⟩
      have hok := hi.phase
      unfold PhaseOk at hok
      unfold StateMachine.phase at hp
      split at hok <;> simp_all
  | listenerBound hr hp hl hu =>
      obtain ⟨hw, -⟩ := hi.of_running hr
      have hok := hi.phase
      simp only [PhaseOk, hp] at hok
      refine ⟨?_, by simp [hl]⟩
      simp only [PhaseOk, hp]
      exact ⟨hw, fun a h => by simp, hok.2.2⟩
  | listenerConflict hr hp hl hu =>
      exact ⟨(hi.of_running hr).1, by simp [hl]⟩
  | connecting hr hp h₁ h₂ =>
      obtain ⟨hw, hn⟩ := hi.of_running hr
      exact ⟨⟨hw, hn, h₁, h₂, rfl⟩, hi.listener⟩
  | authenticating hr hp h₁ h₂ =>
      obtain ⟨hw, hn⟩ := hi.of_running hr
      have hok := hi.phase
      simp only [PhaseOk, hp] at hok
      exact ⟨⟨hw, hn, h₁, h₂, hok.2.2.2.2⟩, hi.listener⟩
  | authenticated hr hp =>
      obtain ⟨hw, hn⟩ := hi.of_running hr
      have hok := hi.phase
      simp only [PhaseOk, hp] at hok
      exact ⟨⟨hw, hn, by simp [hok.2.2.2.2]⟩, hi.listener⟩
  | hopAuthenticated hr hp hlt =>
      obtain ⟨hw, hn⟩ := hi.of_running hr
      have hok := hi.phase
      simp only [PhaseOk, hp] at hok
      exact ⟨⟨hw, hn, by omega, hlt, hok.2.2.2.2⟩, hi.listener⟩
  | forwardReady hr hp =>
      obtain ⟨hw, hn⟩ := hi.of_running hr
      refine ⟨⟨hw, hn, ?_⟩, hi.listener⟩
      have hok := hi.phase
      unfold PhaseOk at hok
      unfold StateMachine.phase at hp
      split at hok <;> simp_all
  | pingSucceeded hr hp hv =>
      obtain ⟨hw, hn⟩ := hi.of_running hr
      refine ⟨?_, hi.listener⟩
      by_cases hh : m.phase = .healthy
      · -- the runtime stays the one it was, a healthy one
        unfold StateMachine.phase at hh
        rcases hrun : m.state.runtime with _ | _ | _ | _ | _ | since | _ | _ | _ | _ | _ <;>
          simp_all [PhaseOk, StateMachine.phase, Wanted, NoConflict, Verified]
      · simp only [PhaseOk, if_neg hh]
        exact ⟨hw, hn, hv, trivial, rfl⟩
  | pingFailedReconnect hr hp hv hf =>
      obtain ⟨hw, hn⟩ := hi.of_running hr
      exact ⟨⟨hw, hn, rfl, rfl⟩, hi.listener⟩
  | pingFailedDegrade hr hp hv hf =>
      obtain ⟨hw, hn⟩ := hi.of_running hr
      have hle := hi.failures_le hp
      -- below the threshold, so this is the first or the second
      have hfail : 1 ≤ m.failures ∧ m.failures ≤ 2 := by unfold failures at hf ⊢; omega
      refine ⟨?_, hi.listener⟩
      by_cases hh : m.phase = .degraded
      · unfold StateMachine.phase at hh
        rcases hrun : m.state.runtime with _ | _ | _ | _ | _ | _ | ⟨since, why⟩ | _ | _ | _ | _ <;>
          simp_all [PhaseOk, StateMachine.phase, Wanted, NoConflict, Verified]
      · simp only [PhaseOk, if_neg hh]
        exact ⟨hw, hn, hv, hfail⟩
  | disconnectedTransient hr hk =>
      obtain ⟨hw, hn⟩ := hi.of_running hr
      exact ⟨⟨hw, hn, rfl, rfl⟩, hi.listener⟩
  | disconnectedBlocked hr hk =>
      exact ⟨(hi.of_running hr).1, hi.listener⟩

theorem Inv.record (hi : Inv m) (p : RuntimePhase) (s : String) : Inv (m.record p s) :=
  ⟨hi.phase, hi.listener⟩

/-- **Every event keeps the invariant.** -/
theorem inv_step (m : StateMachine) (e : Event) (hi : Inv m) : Inv (m.transition e).2 := by
  rcases transition_cases m e with ⟨eff, c, happ, -, hm⟩ | ⟨-, hm⟩
  · rw [hm]; exact (hi.applies happ).record _ _
  · rw [hm]; exact hi

/-- **Every machine reached from a new one satisfies it.** -/
theorem inv_run (listenerRequired : Bool) (events : List Event) :
    Inv (runState transition (new listenerRequired) events) :=
  runState_invariant inv_step (inv_new listenerRequired) events

/-! ## Clause by clause -/

/-- What is fixed at construction stays fixed. -/
theorem Applies.listenerRequired (h : Applies m e eff c) :
    c.listenerRequired = m.listenerRequired := by
  cases h <;> rfl

theorem listenerRequired_run (listenerRequired : Bool) (events : List Event) :
    (runState transition (new listenerRequired) events).listenerRequired = listenerRequired := by
  refine runState_invariant (I := fun m : StateMachine => m.listenerRequired = listenerRequired)
    (fun m e hm => ?_) rfl events
  rcases transition_cases m e with ⟨eff, c, happ, -, hc⟩ | ⟨-, hc⟩
  · rw [hc, record_listenerRequired, happ.listenerRequired]; exact hm
  · rw [hc]; exact hm

/-- The invariants a machine with the given need of a listener owes its
readers. -/
structure RepresentationInvariant (listenerRequired : Bool) (m : StateMachine) : Prop where
  never_failed : m.phase ≠ .failed
  stopped : m.phase = .stopped →
    m.state.desired = .stopped ∧ m.restartAfterShutdown = false ∧
      (m.state.listener = .unbound ∨ m.state.listener = .notRequired)
  stopping : m.phase = .stopping →
    (m.state.desired = .running ↔ m.restartAfterShutdown = true)
  running : m.phase ≠ .stopped → m.phase ≠ .stopping →
    m.state.desired = .running ∧ m.restartAfterShutdown = false
  listener_notRequired : m.state.listener = .notRequired ↔ listenerRequired = false
  conflict : ∀ a h, m.state.listener = .conflict a h → m.phase = .blocked ∨ m.phase = .stopping
  connecting_hop : ∀ hop total attempt, m.state.runtime = .connecting hop total attempt →
    1 ≤ hop ∧ hop ≤ total
  authenticating_hop : ∀ hop total, m.state.runtime = .authenticating hop total →
    1 ≤ hop ∧ hop ≤ total
  default_health : m.phase ∈ [.connecting, .authenticating, .stopping, .stopped] →
    m.state.health = {}
  establishingForward : m.phase = .establishingForward →
    m.state.health.authenticated = true ∧ m.state.health.forwardReady = false
  healthy : m.phase = .healthy →
    m.state.health.authenticated = true ∧ m.state.health.forwardReady = true ∧
      m.state.health.consecutivePingFailures = 0 ∧ m.state.health.lastRttMs.isSome
  degraded : m.phase = .degraded →
    m.state.health.authenticated = true ∧ m.state.health.forwardReady = true ∧
      (m.state.health.consecutivePingFailures = 1 ∨ m.state.health.consecutivePingFailures = 2)
  reconnecting : m.phase = .reconnecting →
    m.state.health.authenticated = false ∧ m.state.health.forwardReady = false

/-- **Every machine reached from a new one, by any events, satisfies
every clause.** -/
theorem representationInvariant_run (listenerRequired : Bool) (events : List Event) :
    RepresentationInvariant listenerRequired
      (runState transition (new listenerRequired) events) := by
  have hi := inv_run listenerRequired events
  have hl := listenerRequired_run listenerRequired events
  generalize runState transition (new listenerRequired) events = m at hi hl
  have hp := hi.phase
  refine
    { never_failed := fun h => ?_
      stopped := fun h => ?_
      stopping := fun h => (hi.of_stopping h).1
      running := hi.wanted
      listener_notRequired := by rw [hi.listener, hl]
      conflict := fun a h hc => ?_
      connecting_hop := fun hop total attempt h => ?_
      authenticating_hop := fun hop total h => ?_
      default_health := fun h => ?_
      establishingForward := fun h => ?_
      healthy := fun h => ?_
      degraded := fun h => ?_
      reconnecting := fun h => ?_ }
  · unfold StateMachine.phase at h
    unfold PhaseOk at hp
    split at hp <;> simp_all
  · obtain ⟨hd, hr, hlist, -⟩ := hi.of_stopped h
    refine ⟨hd, hr, ?_⟩
    rw [hlist]
    cases m.listenerRequired <;> simp [idleListener]
  · unfold StateMachine.phase
    unfold PhaseOk at hp
    -- a stopped machine has an idle listener, which is no conflict
    have hidle : m.state.listener ≠ idleListener m.listenerRequired := by
      rw [hc]; cases m.listenerRequired <;> simp [idleListener]
    split at hp <;> simp_all [NoConflict]
  · simp only [PhaseOk, h] at hp
    exact ⟨hp.2.2.1, hp.2.2.2.1⟩
  · simp only [PhaseOk, h] at hp
    exact ⟨hp.2.2.1, hp.2.2.2.1⟩
  · unfold StateMachine.phase at h
    unfold PhaseOk at hp
    split at hp <;> simp_all
  · unfold StateMachine.phase at h
    unfold PhaseOk at hp
    split at hp <;> simp_all
  · unfold StateMachine.phase at h
    unfold PhaseOk at hp
    split at hp <;> simp_all [Verified]
  · unfold StateMachine.phase at h
    unfold PhaseOk at hp
    split at hp <;> simp_all [Verified]
    omega
  · unfold StateMachine.phase at h
    unfold PhaseOk at hp
    split at hp <;> simp_all

end StateMachine

end Lifecycle

end TunnelWarden

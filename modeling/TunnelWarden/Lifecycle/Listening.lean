import TunnelWarden.Lifecycle.Invariant

/-!
# A tunnel that is up and its listener

The reducer keeps the listener and the session apart: it binds the
listener in one start phase and lets `Connecting` through in another, and
nothing asks for the first before the second. So a session can come up
with no port to serve. What holds is that the port recorded when the
session began is there as long as the session is: `Listening` ties the
phases of a session, and the health a session leaves behind in
`starting`, to a bound listener, and only the event that begins a session
can break it.
-/

namespace TunnelWarden

namespace Lifecycle

namespace StateMachine

variable {m c : StateMachine} {e : Event} {eff : Option TransitionEffect}

/-- The listener is recorded as bound. -/
def IsBound (m : StateMachine) : Prop := ∃ a, m.state.listener = .bound a

/-- The machine is reported as up. -/
def IsUp (m : StateMachine) : Prop := m.phase = .healthy ∨ m.phase = .degraded

instance (m : StateMachine) : Decidable m.IsBound :=
  match h : m.state.listener with
  | .bound a => isTrue ⟨a, h⟩
  | .notRequired => isFalse fun ⟨a, ha⟩ => by rw [h] at ha; cases ha
  | .unbound => isFalse fun ⟨a, ha⟩ => by rw [h] at ha; cases ha
  | .conflict .. => isFalse fun ⟨a, ha⟩ => by rw [h] at ha; cases ha

instance (m : StateMachine) : Decidable m.IsUp := inferInstanceAs (Decidable (_ ∨ _))

/-- Does the event begin a session? It is a `Connecting` of the current
generation to a hop of the chain, where the reducer waits for one. -/
def beginsSession (m : StateMachine) : Event → Bool
  | .connecting generation hop total _ =>
    generation = m.state.generation ∧ m.state.desired = .running ∧
      (m.state.runtime = .starting .buildingJumpChain ∨ m.phase = .reconnecting) ∧
      1 ≤ hop ∧ hop ≤ total
  | _ => false

/-- **A session has a listener**: while its chain is being built, while
its forward is being set up, and for as long as it is verified. -/
def Listening (m : StateMachine) : Prop :=
  m.phase ∈ [.connecting, .authenticating, .establishingForward] ∨ m.Verified → m.IsBound

theorem not_verified_of_health (h : m.state.health = {}) : ¬ m.Verified := by
  simp [Verified, h]

/-- A machine without a session promises nothing. -/
theorem listening_of_idle
    (hp : m.phase ∉ [.connecting, .authenticating, .establishingForward]) (hv : ¬ m.Verified) :
    m.Listening :=
  fun h => h.elim (fun h => absurd h hp) fun h => absurd h hv

/-- A machine that had its listener before the step and has the same one
after it. -/
theorem listening_of_bound (h : m.IsBound) : m.Listening := fun _ => h

/-- Where a session was under way, the listener it has is kept. -/
theorem Listening.keep (hl : m.Listening) (hc : c.state.listener = m.state.listener)
    (h : m.phase ∈ [.connecting, .authenticating, .establishingForward] ∨ m.Verified) :
    c.Listening :=
  listening_of_bound (by unfold IsBound; rw [hc]; exact hl h)

/-- **An applied event keeps `Listening`**, where one that begins a
session finds the listener bound. -/
theorem Listening.applies (hl : m.Listening) (hb : m.beginsSession e → m.IsBound)
    (h : Applies m e eff c) : c.Listening := by
  cases h with
  | start hp hg => exact listening_of_idle (by simp [phase, begin]) (not_verified_of_health rfl)
  | stop hp hp' hg =>
      exact listening_of_idle (by simp [phase, enterStopping]) (not_verified_of_health rfl)
  | restartStopped hp hg =>
      exact listening_of_idle (by simp [phase, begin]) (not_verified_of_health rfl)
  | restartRunning hp hp' hg =>
      exact listening_of_idle (by simp [phase, enterStopping]) (not_verified_of_health rfl)
  | configStopped hp hg => exact hl
  | configRunning hp hp' hg =>
      exact listening_of_idle (by simp [phase, enterStopping]) (not_verified_of_health rfl)
  | shutdownRestart hp hr =>
      exact listening_of_idle (by simp [phase, begin]) (not_verified_of_health rfl)
  | shutdownStopped hp hr => exact listening_of_idle (by simp [phase]) (not_verified_of_health rfl)
  | phase hr hp =>
      intro h
      -- the new phase is no phase of a session, so it is the health that speaks
      have hv : m.Verified := h.resolve_left (by simp [StateMachine.phase])
      exact hl (.inr hv)
  | listenerBound hr hp hq hu => exact listening_of_bound ⟨_, rfl⟩
  | listenerConflict hr hp hq hu =>
      intro h
      have hv : m.Verified := h.resolve_left (by simp [phase])
      obtain ⟨a, ha⟩ := hl (.inr hv)
      rw [hu] at ha
      cases ha
  | connecting hr hp h₁ h₂ =>
      refine listening_of_bound (hb ?_)
      simp [beginsSession, hr.1, hp, h₁, h₂]
  | authenticating hr hp h₁ h₂ => exact hl.keep rfl (.inl (by simp [phase, hp]))
  | authenticated hr hp => exact hl.keep rfl (.inl (by simp [phase, hp]))
  | hopAuthenticated hr hp hlt => exact hl.keep rfl (.inl (by simp [phase, hp]))
  | forwardReady hr hp => exact hl.keep rfl (.inl (by simp [hp]))
  | pingSucceeded hr hp hv => exact hl.keep rfl (.inr hv)
  | pingFailedReconnect hr hp hv hf => exact hl.keep rfl (.inr hv)
  | pingFailedDegrade hr hp hv hf => exact hl.keep rfl (.inr hv)
  | disconnectedTransient hr hk =>
      exact listening_of_idle (by simp [phase]) (not_verified_of_health rfl)
  | disconnectedBlocked hr hk =>
      exact listening_of_idle (by simp [phase]) (not_verified_of_health rfl)

/-- **Every event keeps it**, under the same condition. -/
theorem listening_step (m : StateMachine) (e : Event) (hb : m.beginsSession e → m.IsBound)
    (hl : m.Listening) : (m.transition e).2.Listening := by
  rcases transition_cases m e with ⟨eff, c, happ, -, hm⟩ | ⟨-, hm⟩
  · rw [hm]
    -- the journal is no part of it
    exact (hl.applies hb happ : c.Listening)
  · rw [hm]
    exact hl

theorem listening_new (listenerRequired : Bool) : (new listenerRequired).Listening :=
  listening_of_idle (by simp [phase, new]) (not_verified_of_health rfl)

/-- A tunnel that is up has been verified. -/
theorem Inv.verified (hi : Inv m) (h : m.IsUp) : m.Verified := by
  have hp := hi.phase
  unfold PhaseOk at hp
  unfold IsUp StateMachine.phase at h
  split at hp <;> simp_all

/-- **Up means listening, where sessions begin on a bound listener.** In
every run of a machine that needs a listener in which each event that
begins a session finds the listener bound, every state reported as
healthy or degraded has it bound. -/
theorem up_has_listener (events : List Event)
    (hb : ∀ x ∈ trace transition (new true) events, x.before.beginsSession x.input →
      x.before.IsBound) :
    ∀ m ∈ visited transition (new true) events, m.IsUp → m.IsBound := by
  have hrun : ∀ m ∈ visited transition (new true) events, Inv m ∧ m.Listening := by
    refine visited_invariant_of_trace (A := fun m e => m.beginsSession e → m.IsBound)
      (fun m e hA hm => ?_) ⟨inv_new true, listening_new true⟩ hb
    exact ⟨inv_step m e hm.1, listening_step m e hA hm.2⟩
  intro m hm hup
  obtain ⟨hi, hl⟩ := hrun m hm
  exact hl (.inr (hi.verified hup))

/-- A session of one hop, from the start to its first ping, with what is
done about the listener before the chain is built. -/
def sessionEvents (acquire : List Event) : List Event :=
  .start :: acquire ++
    [.phase 1 .buildingJumpChain, .connecting 1 1 1 0, .authenticating 1 1 1, .authenticated 1,
      .forwardReady 1, .pingSucceeded 1 0 0]

/-- The port is bound first. -/
def boundFirst : List Event :=
  [.phase 1 .acquiringListener, .listenerBound 1 ⟨.v4 127 0 0 1, 1080, 0⟩]

theorem up_has_listener_boundFirst :
    (runState transition (new true) (sessionEvents boundFirst)).IsUp ∧
      ∀ m ∈ visited transition (new true) (sessionEvents boundFirst), m.IsUp → m.IsBound :=
  ⟨by decide +kernel, up_has_listener (sessionEvents boundFirst) (by decide +kernel)⟩

/-- Nothing asks for the port: with no bind at all, the session comes up. -/
theorem up_without_listener :
    ¬ ∀ m ∈ visited transition (new true) (sessionEvents []), m.IsUp → m.IsBound := by
  decide +kernel

end StateMachine

end Lifecycle

end TunnelWarden

import TunnelWarden.Lifecycle.Invariant

/-!
# Stop

Once a machine is halted, with no restart pending, only a user's `start`
or `restart` sets it going again (`Halted.step`). A `stop` that is
accepted halts the machine, except where it arrives during a shutdown
that a `restart` or a configuration change has opened: there `stop`
changes nothing, the restart flag stays up, and the completed shutdown
begins a generation the user has just stopped. `stopIsFinal_iff` says
that this is the only exception.
-/

namespace TunnelWarden

namespace Lifecycle

namespace StateMachine

variable {m : StateMachine} {e : Event}

/-- Down or going down, with no restart pending. -/
def Halted (m : StateMachine) : Prop :=
  (m.phase = .stopping ∨ m.phase = .stopped) ∧ m.restartAfterShutdown = false

/-- Whatever comes, short of the user starting it again, the tunnel
stays down. -/
def StopIsFinal (m : StateMachine) : Prop :=
  ∀ events : List Event, (∀ e ∈ events, e ≠ .start ∧ e ≠ .restart) →
    (∀ s ∈ visited transition m events, s.phase = .stopping ∨ s.phase = .stopped) ∧
      ∀ g, TransitionEffect.beginGeneration g ∉ effects m events

/-- A halted machine refuses every report of progress. -/
theorem Halted.not_running (h : m.Halted) : ¬ m.Running := by
  rintro ⟨-, hr⟩
  rcases h.1 with hp | hp <;> simp [hp] at hr

/-- **A halted machine stays halted, and begins nothing.** -/
theorem Halted.step (h : m.Halted) (he : e ≠ .start ∧ e ≠ .restart) :
    (m.transition e).2.Halted ∧ effectOf (m.transition e).1 = none := by
  rcases transition_cases m e with ⟨eff, c, happ, ha, hm⟩ | ⟨hna, hm⟩
  · rw [ha, hm]
    cases happ with
    | start hp hg => exact absurd rfl he.1
    | restartStopped hp hg => exact absurd rfl he.2
    | restartRunning hp hp' hg => exact absurd rfl he.2
    | stop hp hp' hg => exact absurd h.1 (by simp [hp, hp'])
    | configRunning hp hp' hg => exact absurd h.1 (by simp [hp, hp'])
    | configStopped hp hg => exact ⟨h, rfl⟩
    | shutdownRestart hp hr => exact absurd hr (by simp [h.2])
    | shutdownStopped hp hr => exact ⟨⟨Or.inr rfl, h.2⟩, rfl⟩
    | phase hr | listenerBound hr | listenerConflict hr | connecting hr | authenticating hr
    | authenticated hr | hopAuthenticated hr | forwardReady hr | pingSucceeded hr
    | pingFailedReconnect hr | pingFailedDegrade hr | disconnectedTransient hr
    | disconnectedBlocked hr => exact absurd hr h.not_running
  · rw [hm]
    exact ⟨h, effectOf_eq_none hna⟩

/-- The run form. -/
theorem Halted.stopIsFinal (h : m.Halted) : m.StopIsFinal := by
  intro events hok
  have hstep : ∀ (s : StateMachine) (e : Event), e ≠ .start ∧ e ≠ .restart → s.Halted →
      (s.transition e).2.Halted ∧ effectOf (s.transition e).1 = none :=
    fun s e he hs => hs.step he
  refine ⟨fun s hs => ?_, fun g hg => ?_⟩
  · exact (visited_invariant (fun s e he hh => (hstep s e he hh).1) h hok s hs).1
  · obtain ⟨x, hx, hxg⟩ := List.mem_filterMap.1 hg
    have hnone : effectOf x.output = none :=
      trace_forall (P := fun x => effectOf x.output = none) hstep h hok x hx
    rw [hxg] at hnone
    cases hnone

/-- A shutdown with a restart pending begins a generation when it
completes. -/
theorem not_stopIsFinal_of_pending (hp : m.phase = .stopping) (hr : m.restartAfterShutdown = true) :
    ¬ m.StopIsFinal := by
  intro hfin
  have hbegin : effectOf (m.transition (.shutdownComplete m.state.generation)).1 =
      some (.beginGeneration m.state.generation) := by
    simp [transition, Event.generation, hp, hr, applied, effectOf, begin]
  refine (hfin [.shutdownComplete m.state.generation] (by simp)).2 m.state.generation ?_
  simp [effects, trace, hbegin]

/-- What `stop` answers. -/
theorem transition_stop (m : StateMachine) :
    m.transition .stop =
      if m.phase = .stopped ∨ m.phase = .stopping then (.ok .noChange, m)
      else if m.state.generation < generationMax then
        (m.bump.enterStopping .stopped false).applied m.phase "stop"
          (some (.cancelAndJoin m.state.generation))
      else (.error .generationExhausted, m) := by
  simp only [transition, Event.generation, Option.any_none, Bool.false_eq_true, if_false,
    withNextGeneration_eq, Event.cause]

/-- An accepted `stop` halts the machine, or finds a restart pending and
leaves it so. -/
theorem stop_cases {o : EventOutcome} {m' : StateMachine} (hi : Inv m)
    (h : m.transition .stop = (.ok o, m')) :
    (m'.Halted ∧ ¬ (m.phase = .stopping ∧ m.restartAfterShutdown = true)) ∨
      (m' = m ∧ m.phase = .stopping ∧ m.restartAfterShutdown = true) := by
  rw [transition_stop] at h
  split at h
  · rename_i hp
    obtain rfl : m = m' := (Prod.mk.inj h).2
    rcases hp with hp | hp
    · exact Or.inl ⟨⟨Or.inr hp, (hi.of_stopped hp).2.1⟩, by simp [hp]⟩
    · cases hr : m.restartAfterShutdown with
      | false => exact Or.inl ⟨⟨Or.inl hp, hr⟩, by simp⟩
      | true => exact Or.inr ⟨rfl, hp, rfl⟩
  · rename_i hp
    push Not at hp
    split at h
    · obtain rfl := (Prod.mk.inj h).2
      exact Or.inl ⟨⟨Or.inl rfl, rfl⟩, by simp [hp.2]⟩
    · cases (Prod.mk.inj h).1

/-- **When `stop` is final.** At any machine reached from a new one, an
accepted `stop` is final unless it arrived while a shutdown was in
flight that a `restart` or a configuration change had opened. -/
theorem stopIsFinal_iff (listenerRequired : Bool) (history : List Event) {o : EventOutcome}
    {m' : StateMachine}
    (h : (runState transition (new listenerRequired) history).transition .stop = (.ok o, m')) :
    m'.StopIsFinal ↔
      ¬ ((runState transition (new listenerRequired) history).phase = .stopping ∧
        (runState transition (new listenerRequired) history).restartAfterShutdown = true) := by
  have hi := inv_run listenerRequired history
  generalize runState transition (new listenerRequired) history = m at h hi
  rcases stop_cases hi h with ⟨hh, hn⟩ | ⟨rfl, hp, hr⟩
  · exact ⟨fun _ => hn, fun _ => hh.stopIsFinal⟩
  · exact ⟨fun hfin => absurd hfin (not_stopIsFinal_of_pending hp hr), fun hn => absurd ⟨hp, hr⟩ hn⟩

/-- The history of a tunnel that was started once and runs. -/
def startedOnce : List Event := [.start]

/-- The theorem at a started tunnel, where `stop` is applied and final. -/
theorem stopIsFinal_startedOnce :
    ∃ m', (runState transition (new true) startedOnce).transition .stop =
        (.ok (.applied (some (.cancelAndJoin 1))), m') ∧ m'.StopIsFinal := by
  refine ⟨_, rfl, ?_⟩
  exact (stopIsFinal_iff true startedOnce rfl).2 (by decide)

/-- **A `stop` that is not final.** During the shutdown of a restart it is
accepted as `noChange`, and the completed shutdown begins generation
`2`. -/
theorem stop_during_restart_not_final :
    (runState transition (new true) [.start, .restart]).transition .stop =
        (.ok .noChange, runState transition (new true) [.start, .restart]) ∧
      ¬ (runState transition (new true) [.start, .restart]).StopIsFinal ∧
      effects (runState transition (new true) [.start, .restart]) [.stop, .shutdownComplete 2] =
        [.beginGeneration 2] := by
  refine ⟨by decide, not_stopIsFinal_of_pending (by decide) (by decide), by decide⟩

end StateMachine

end Lifecycle

end TunnelWarden

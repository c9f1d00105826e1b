import TunnelWarden.Lifecycle.Steps

/-!
# Events that are not applied

An event the reducer refuses, ignores as stale or finds to change
nothing leaves no trace: not in the state, not in the journal, not in
the restart it remembers. A run is therefore the run of its applied
events.
-/

namespace TunnelWarden

namespace Lifecycle

namespace StateMachine

variable {m : StateMachine} {event : Event}

/-- `IsApplied`, as a test. -/
def wasApplied : Answer → Bool
  | .ok (.applied _) => true
  | _ => false

theorem wasApplied_iff {a : Answer} : wasApplied a = true ↔ IsApplied a := by
  constructor
  · intro h
    unfold wasApplied at h
    split at h
    · exact ⟨_, rfl⟩
    · simp at h
  · rintro ⟨effect, rfl⟩
    rfl

/-- The events of a run that were applied. -/
def appliedEvents (m : StateMachine) (events : List Event) : List Event :=
  keptInputs transition (fun x => wasApplied x.output) m events

/-- **An event that is not applied** leaves the machine alone. -/
theorem transition_eq_self (h : ¬ wasApplied (m.transition event).1) :
    (m.transition event).2 = m := by
  rcases transition_cases m event with ⟨effect, c, -, hanswer, -⟩ | ⟨-, heq⟩
  · rw [hanswer] at h
    simp [wasApplied] at h
  · exact heq

/-- What is not applied hands out nothing. -/
theorem effects_appliedEvents (m : StateMachine) (events : List Event) :
    m.effects (m.appliedEvents events) = m.effects events := by
  unfold effects appliedEvents
  rw [trace_keptInputs fun s e h => transition_eq_self h, List.filterMap_filter]
  refine List.filterMap_congr fun x _ => ?_
  by_cases hx : wasApplied x.output = true
  · rw [if_pos hx]
  · rw [if_neg hx, effectOf_eq_none fun happ => hx (wasApplied_iff.2 happ)]

/-- **Only applied events count.** An event that is refused, stale or
without a change leaves the machine exactly as it was, its journal and
the restart it remembers included. So every run ends in the machine of
its applied events and hands out their effects. -/
theorem only_applied_count (m : StateMachine) :
    (∀ event, ((∃ error, (m.transition event).1 = .error error) ∨
        (m.transition event).1 = .ok .ignoredStale ∨ (m.transition event).1 = .ok .noChange) →
      (m.transition event).2 = m) ∧
    ∀ events, runState transition m (m.appliedEvents events) = runState transition m events ∧
      m.effects (m.appliedEvents events) = m.effects events := by
  refine ⟨fun event h => ?_, fun events => ⟨?_, effects_appliedEvents m events⟩⟩
  · refine transition_eq_self ?_
    rcases h with ⟨error, h⟩ | h | h
    · rw [h]; exact nofun
    · rw [h]; exact nofun
    · rw [h]; exact nofun
  · exact runState_keptInputs fun s e h => transition_eq_self h

/-- A second start, a stale report and a restart during the shutdown. -/
theorem only_applied_count_start :
    ((StateMachine.new true).transition .stop).1 = .ok .noChange ∧
    ((StateMachine.new true).transition .stop).2 = StateMachine.new true ∧
    (StateMachine.new true).effects ((StateMachine.new true).appliedEvents
        [.start, .start, .authenticated 0, .stop, .restart, .shutdownComplete 2]) =
      (StateMachine.new true).effects
        [.start, .start, .authenticated 0, .stop, .restart, .shutdownComplete 2] := by
  have hstop : ((StateMachine.new true).transition .stop).1 = .ok .noChange := by decide
  have hcount := only_applied_count (StateMachine.new true)
  exact ⟨hstop, hcount.1 .stop (.inr (.inr hstop)), (hcount.2 _).2⟩

end StateMachine

end Lifecycle

end TunnelWarden

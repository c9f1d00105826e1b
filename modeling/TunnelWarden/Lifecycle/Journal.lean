import Mathlib.Data.List.Chain
import Mathlib.Data.List.DropRight
import TunnelWarden.Lifecycle.Applied
import TunnelWarden.Lifecycle.Generations

/-!
# The journal

Every applied event is recorded, once and at the end, and nothing else
is. So the journal is the end of the list of all applied transitions, cut
off where it is longer than `journalLimit`. No event changes the phase or
the generation without being applied, so the entries chain, and the last
one shows the machine as it is.
-/

namespace TunnelWarden

namespace Lifecycle

namespace StateMachine

variable {m c : StateMachine} {e : Event} {eff : Option TransitionEffect}

/-- A transition that was made, as the journal has it. -/
def transitionOf (x : Step StateMachine Event Answer) : StateTransition where
  fromPhase := x.before.phase
  toPhase := x.after.phase
  cause := x.input.cause
  generation := x.after.state.generation

/-- All applied transitions among the steps of a run, in order. -/
def appliedTransitions (tr : List (Step StateMachine Event Answer)) : List StateTransition :=
  (tr.filter fun x => wasApplied x.output).map transitionOf

theorem appliedTransitions_concat {tr : List (Step StateMachine Event Answer)}
    {x : Step StateMachine Event Answer} :
    appliedTransitions (tr ++ [x]) =
      if wasApplied x.output then appliedTransitions tr ++ [transitionOf x]
      else appliedTransitions tr := by
  unfold appliedTransitions
  rw [List.filter_append, List.map_append, List.filter_singleton]
  cases wasApplied x.output with
  | true => rfl
  | false => exact List.append_nil _

/-- The one ends in the phase the other begins in. -/
def Follows (a b : StateTransition) : Prop := a.toPhase = b.fromPhase

/-! ## The step -/

/-- The state a branch leaves has the journal it found. -/
theorem Applies.journal (h : Applies m e eff c) : c.journal = m.journal := by
  cases h <;> rfl

/-- One more entry, and the first one goes where there are enough. -/
theorem record_journal (p : RuntimePhase) (cause : String) :
    (m.record p cause).journal =
      (if m.journal.length = journalLimit then m.journal.tail else m.journal) ++
        [⟨p, m.phase, cause, m.state.generation⟩] := rfl

/-- An applied event is recorded as the transition it makes. -/
theorem journal_transition (h : wasApplied (m.transition e).1 = true) :
    (m.transition e).2.journal =
      (if m.journal.length = journalLimit then m.journal.tail else m.journal) ++
        [transitionOf ⟨m, e, (m.transition e).1, (m.transition e).2⟩] := by
  rcases transition_cases m e with ⟨eff, c, happ, -, hc⟩ | ⟨hna, -⟩
  · rw [hc, record_journal, happ.journal]
    rfl
  · exact absurd (wasApplied_iff.1 h) hna

/-! ## The window -/

section Window

variable {α : Type*} {l : List α} {a : α} {n : ℕ}

/-- A window of `n + 1` moves on by one entry. -/
theorem rtake_concat :
    (l ++ [a]).rtake (n + 1) =
      (if (l.rtake (n + 1)).length = n + 1 then (l.rtake (n + 1)).tail else l.rtake (n + 1)) ++
        [a] := by
  have hlength : (l.rtake (n + 1)).length = l.length - (l.length - (n + 1)) := List.length_drop
  rw [List.rtake_concat_succ]
  by_cases hfull : n + 1 ≤ l.length
  · have hdrop : l.length - (n + 1) + 1 = l.length - n := by omega
    rw [if_pos (by omega), List.rtake, List.rtake, List.tail_drop, hdrop]
  · have hnone : l.length - (n + 1) = 0 ∧ l.length - n = 0 := by omega
    rw [if_neg (by omega), List.rtake, List.rtake, hnone.1, hnone.2]

end Window

/-- What the journal is after the applied transitions `all`. -/
structure Journalled (m : StateMachine) (all : List StateTransition) : Prop where
  window : m.journal = all.rtake journalLimit
  chain : all.IsChain Follows
  last : ∀ a ∈ all.getLast?, a.toPhase = m.phase ∧ a.generation = m.state.generation
  ordered : all.Pairwise fun a b => a.generation ≤ b.generation
  past : ∀ a ∈ all, a.generation ≤ m.state.generation

theorem journalled_new (listenerRequired : Bool) : Journalled (new listenerRequired) [] where
  window := rfl
  chain := .nil
  last := by simp
  ordered := .nil
  past := by simp

/-- An applied event adds its transition. -/
theorem Journalled.applied {all : List StateTransition} (h : Journalled m all)
    (happ : wasApplied (m.transition e).1 = true) :
    Journalled (m.transition e).2
      (all ++ [transitionOf ⟨m, e, (m.transition e).1, (m.transition e).2⟩]) := by
  have hgen : m.state.generation ≤ (m.transition e).2.state.generation := generation_le m e
  have hpast : ∀ a ∈ all, a.generation ≤ (m.transition e).2.state.generation :=
    fun a ha => (h.past a ha).trans hgen
  refine ⟨?_, ?_, ?_, ?_, ?_⟩
  · rw [journal_transition happ, h.window]
    exact rtake_concat.symm
  · refine List.isChain_append.2 ⟨h.chain, .singleton _, fun a ha b hb => ?_⟩
    obtain rfl := Option.some.inj hb
    exact (h.last a ha).1
  · intro a ha
    rw [List.getLast?_concat] at ha
    obtain rfl := Option.some.inj ha
    exact ⟨rfl, rfl⟩
  · refine List.pairwise_append.2 ⟨h.ordered, List.pairwise_singleton _ _, fun a ha b hb => ?_⟩
    obtain rfl := List.mem_singleton.1 hb
    exact hpast a ha
  · intro a ha
    rcases List.mem_append.1 ha with ha | ha
    · exact hpast a ha
    · obtain rfl := List.mem_singleton.1 ha
      exact le_rfl

theorem journalled_run (listenerRequired : Bool) (events : List Event) :
    Journalled (runState transition (new listenerRequired) events)
      (appliedTransitions (trace transition (new listenerRequired) events)) := by
  refine trace_invariant (I := fun m tr => Journalled m (appliedTransitions tr))
    (journalled_new listenerRequired) (fun events e ih => ?_) events
  rw [appliedTransitions_concat]
  split
  · rename_i happ
    exact ih.applied happ
  · rename_i happ
    rw [transition_eq_self happ]
    exact ih

/-- **A faithful window** on the applied transitions `all`: the last of
them, as many as there is room for, in order and without a gap, up to the
machine as it is. -/
structure FaithfulJournal (m : StateMachine) (all : List StateTransition) : Prop where
  window : m.journal = all.drop (all.length - min all.length journalLimit)
  length : m.journal.length = min all.length journalLimit
  chain : m.journal.IsChain Follows
  last : ∀ a ∈ m.journal.getLast?, a.toPhase = m.phase ∧ a.generation = m.state.generation
  ordered : m.journal.Pairwise fun a b => a.generation ≤ b.generation

/-- What holds along all transitions holds along the window. -/
theorem Journalled.faithful {all : List StateTransition} (h : Journalled m all) :
    FaithfulJournal m all := by
  have hdrop : m.journal = all.drop (all.length - journalLimit) := h.window
  have hskip : all.length - min all.length journalLimit = all.length - journalLimit := by omega
  refine ⟨?_, ?_, ?_, fun a ha => ?_, ?_⟩
  · rw [hskip, hdrop]
  · rw [hdrop, List.length_drop]
    omega
  · rw [hdrop]
    exact h.chain.drop _
  · rw [hdrop, List.getLast?_drop] at ha
    split at ha
    · simp at ha
    · exact h.last a ha
  · rw [hdrop]
    exact h.ordered.sublist (List.drop_sublist _ _)

/-- **The journal is a faithful window**, after every sequence of
events. -/
theorem faithfulJournal_run (listenerRequired : Bool) (events : List Event) :
    FaithfulJournal (runState transition (new listenerRequired) events)
      (appliedTransitions (trace transition (new listenerRequired) events)) :=
  (journalled_run listenerRequired events).faithful

end StateMachine

end Lifecycle

end TunnelWarden

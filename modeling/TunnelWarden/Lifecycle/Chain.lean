import TunnelWarden.Lifecycle.Applied
import TunnelWarden.Lifecycle.Invariant

/-!
# The hops behind an authenticated session

`Authenticating` must name the hop the machine is connecting to, and
`HopAuthenticated` moves it on by one, so from the hop a chain is entered
at the reducer takes every hop in order: what was applied since the entry
is known to the letter (`onChain_run`). The hop it is entered at is the
event's own, and any hop of the chain will do. So the last hop is
authenticated after all the others exactly where the chain was entered
at the first.
-/

namespace TunnelWarden

namespace Lifecycle

namespace StateMachine

variable {m c : StateMachine} {e : Event} {eff : Option TransitionEffect}

/-- A step of the reducer. -/
abbrev Taken := Step StateMachine Event Answer

/-- Does the step enter `Connecting` from `Starting` or `Reconnecting`? -/
def entersChain (x : Taken) : Bool :=
  (x.before.phase = .starting ∨ x.before.phase = .reconnecting) ∧ x.after.phase = .connecting

/-- The events that were applied, among the steps given. -/
def appliedInputs (xs : List Taken) : List Event :=
  (xs.filter fun x => wasApplied x.output).map Step.input

/-- The hops from `hop` up to `current`, that one excluded, each
authenticated and left behind. -/
def hopsPassed (generation total hop current : ℕ) : List Event :=
  (List.range' hop (current - hop)).flatMap fun k =>
    [.authenticating generation k total, .hopAuthenticated generation]

/-- The hops from `hop` to the last, in order. -/
def chainEvents (generation total hop : ℕ) : List Event :=
  hopsPassed generation total hop total ++ [.authenticating generation total total]

/-! ## The lists -/

theorem hopsPassed_self (generation total hop : ℕ) : hopsPassed generation total hop hop = [] := by
  simp [hopsPassed]

theorem hopsPassed_succ {generation total hop current : ℕ} (h : hop ≤ current) :
    hopsPassed generation total hop (current + 1) =
      hopsPassed generation total hop current ++
        [.authenticating generation current total, .hopAuthenticated generation] := by
  have hlen : current + 1 - hop = (current - hop) + 1 := by omega
  have hlast : hop + (current - hop) = current := by omega
  unfold hopsPassed
  rw [hlen, List.range'_1_concat, List.flatMap_append, hlast]
  simp

theorem length_chainEvents (generation total hop : ℕ) :
    (chainEvents generation total hop).length = 2 * (total - hop) + 1 := by
  simp only [chainEvents, hopsPassed, List.length_append, List.length_flatMap, List.length_cons,
    List.length_nil, List.map_const', List.sum_replicate_nat, List.length_range']
  omega

/-- All hops are among those from a hop on exactly where that is the
first. -/
theorem chainEvents_sublist_iff {generation total hop : ℕ} (h₁ : 1 ≤ hop) (h₂ : hop ≤ total) :
    (chainEvents generation total 1).Sublist (chainEvents generation total hop) ↔ hop = 1 := by
  constructor
  · intro h
    have hle := h.length_le
    rw [length_chainEvents, length_chainEvents] at hle
    omega
  · rintro rfl
    exact List.Sublist.refl _

theorem appliedInputs_append (xs ys : List Taken) :
    appliedInputs (xs ++ ys) = appliedInputs xs ++ appliedInputs ys := by
  simp [appliedInputs]

theorem appliedInputs_applied {x : Taken} (h : x.output = .ok (.applied eff)) :
    appliedInputs [x] = [x.input] := by
  simp [appliedInputs, h, wasApplied]

theorem appliedInputs_idle {x : Taken} (h : ¬ IsApplied x.output) : appliedInputs [x] = [] := by
  have hx : ¬ wasApplied x.output := fun hw => h (wasApplied_iff.1 hw)
  simp [appliedInputs, hx]

/-! ## What leads to a hop -/

/-- A machine that connects to a hop was told so by the event, or has
just left the hop before it. -/
theorem Applies.of_connecting {hop total attempt : ℕ} (h : Applies m e eff c)
    (hc : c.state.runtime = .connecting hop total attempt) :
    c.state.generation = m.state.generation ∧
      ((e = .connecting m.state.generation hop total attempt ∧
          (m.phase = .starting ∨ m.phase = .reconnecting) ∧ 1 ≤ hop ∧ hop ≤ total) ∨
        ∃ k, e = .hopAuthenticated m.state.generation ∧
          m.state.runtime = .authenticating k total ∧ hop = k + 1) := by
  have hph : c.phase = .connecting := by rw [StateMachine.phase, hc]; rfl
  cases h with
  | connecting hr hp h₁ h₂ =>
      obtain ⟨rfl, rfl, rfl⟩ := RuntimeState.connecting.inj hc
      refine ⟨rfl, .inl ⟨rfl, ?_, h₁, h₂⟩⟩
      exact hp.imp_left fun h => by rw [StateMachine.phase, h]; rfl
  | hopAuthenticated hr hp hlt =>
      obtain ⟨rfl, rfl, -⟩ := RuntimeState.connecting.inj hc
      exact ⟨rfl, .inr ⟨_, rfl, hp, rfl⟩⟩
  | @pingSucceeded since rtt hr hp hv =>
      have hkeep := of_keep (m := m) (r := .healthy since) rfl
      cases hkeep.symm.trans hph
  | @pingFailedDegrade since attempt next hr hp hv hf =>
      have hkeep := of_keep (m := m) (r := .degraded since .pingTimeout) rfl
      cases hkeep.symm.trans hph
  | configStopped hp hg => exact absurd (hp.symm.trans hph) (by decide)
  | listenerBound hr hp hl hu => simp [hp] at hc
  | _ => cases hc

/-- A machine that authenticates at a hop was connecting to it. -/
theorem Applies.of_authenticating {hop total : ℕ} (h : Applies m e eff c)
    (hc : c.state.runtime = .authenticating hop total) :
    c.state.generation = m.state.generation ∧
      e = .authenticating m.state.generation hop total ∧
        ∃ attempt, m.state.runtime = .connecting hop total attempt := by
  have hph : c.phase = .authenticating := by rw [StateMachine.phase, hc]; rfl
  cases h with
  | authenticating hr hp h₁ h₂ =>
      obtain ⟨rfl, rfl⟩ := RuntimeState.authenticating.inj hc
      exact ⟨rfl, rfl, _, hp⟩
  | @pingSucceeded since rtt hr hp hv =>
      have hkeep := of_keep (m := m) (r := .healthy since) rfl
      cases hkeep.symm.trans hph
  | @pingFailedDegrade since attempt next hr hp hv hf =>
      have hkeep := of_keep (m := m) (r := .degraded since .pingTimeout) rfl
      cases hkeep.symm.trans hph
  | configStopped hp hg => exact absurd (hp.symm.trans hph) (by decide)
  | listenerBound hr hp hl hu => simp [hp] at hc
  | _ => cases hc

/-! ## The run -/

/-- **The steps taken, back to the entry**: the last entry into
`Connecting` named the given hop, and since then exactly the given events
have been applied. -/
structure Since (steps : List Taken) (generation total hop : ℕ) (events : List Event) : Prop where
  hop_pos : 1 ≤ hop
  hop_le : hop ≤ total
  split : ∃ before entry since attempt, steps = before ++ entry :: since ∧ entersChain entry ∧
    (∀ y ∈ since, ¬ entersChain y) ∧ entry.input = .connecting generation hop total attempt ∧
    appliedInputs since = events

/-- One more step that enters nothing adds what it applied. -/
theorem Since.concat {steps : List Taken} {generation total hop : ℕ} {events : List Event}
    {x : Taken} (h : Since steps generation total hop events) (hx : ¬ entersChain x) :
    Since (steps ++ [x]) generation total hop (events ++ appliedInputs [x]) := by
  obtain ⟨before, entry, since, attempt, rfl, hentry, hsince, hinput, rfl⟩ := h.split
  refine ⟨h.hop_pos, h.hop_le, before, entry, since ++ [x], attempt, by simp, hentry, ?_, hinput,
    appliedInputs_append _ _⟩
  intro y hy
  rcases List.mem_append.1 hy with hy | hy
  · exact hsince y hy
  · rw [List.mem_singleton.1 hy]
    exact hx

/-- What the steps taken say of a machine on its way along a chain. -/
structure OnChain (m : StateMachine) (steps : List Taken) : Prop where
  connecting : ∀ current total attempt, m.state.runtime = .connecting current total attempt →
    ∃ hop, hop ≤ current ∧ Since steps m.state.generation total hop
      (hopsPassed m.state.generation total hop current)
  authenticating : ∀ current total, m.state.runtime = .authenticating current total →
    ∃ hop, hop ≤ current ∧ Since steps m.state.generation total hop
      (hopsPassed m.state.generation total hop current ++
        [.authenticating m.state.generation current total])

/-- A step that changes nothing is no entry. -/
theorem not_entersChain_idle {x : Taken} (h : x.after = x.before) : ¬ entersChain x := by
  simp only [entersChain, decide_eq_true_eq, h]
  rintro ⟨hb | hb, ha⟩ <;> rw [hb] at ha <;> cases ha

theorem not_entersChain_of_phase {x : Taken} {p : RuntimePhase} (h : x.before.phase = p)
    (h₁ : p ≠ .starting) (h₂ : p ≠ .reconnecting) : ¬ entersChain x := by
  simp [entersChain, h, h₁, h₂]

section Step

variable {steps : List Taken} {x : Taken}

/-- One applied event later. -/
theorem OnChain.applied (h : OnChain x.before steps) (happ : Applies x.before x.input eff c)
    (hout : x.output = .ok (.applied eff)) (hafter : x.after.state = c.state) :
    OnChain x.after (steps ++ [x]) := by
  have hadd : appliedInputs [x] = [x.input] := appliedInputs_applied hout
  refine ⟨fun current total attempt hc => ?_, fun current total hc => ?_⟩
  · have hph : x.after.phase = .connecting := by rw [StateMachine.phase, hc]; rfl
    rw [hafter] at hc ⊢
    obtain ⟨hg, ⟨hin, hp, h₁, h₂⟩ | ⟨k, hin, hk, rfl⟩⟩ := happ.of_connecting hc
    · -- the entry itself: nothing has been applied since
      have hentry : entersChain x := by
        simp only [entersChain, decide_eq_true_eq]
        exact ⟨hp, hph⟩
      refine ⟨current, le_rfl, h₁, h₂, steps, x, [], attempt, rfl, hentry, by simp, ?_, ?_⟩
      · rw [hg, hin]
      · rw [hopsPassed_self]
        rfl
    · obtain ⟨hop, hle, hs⟩ := h.authenticating k total hk
      have hb : x.before.phase = .authenticating := by rw [StateMachine.phase, hk]; rfl
      have hs' := hs.concat (not_entersChain_of_phase hb (by decide) (by decide))
      rw [hadd, hin, List.append_assoc] at hs'
      rw [hg]
      refine ⟨hop, by omega, ?_⟩
      rw [hopsPassed_succ hle]
      exact hs'
  · rw [hafter] at hc ⊢
    obtain ⟨hg, hin, attempt, hk⟩ := happ.of_authenticating hc
    obtain ⟨hop, hle, hs⟩ := h.connecting current total attempt hk
    have hb : x.before.phase = .connecting := by rw [StateMachine.phase, hk]; rfl
    have hs' := hs.concat (not_entersChain_of_phase hb (by decide) (by decide))
    rw [hadd, hin] at hs'
    rw [hg]
    exact ⟨hop, hle, hs'⟩

/-- One event later that was not applied. -/
theorem OnChain.idle (h : OnChain x.before steps) (hout : ¬ IsApplied x.output)
    (hafter : x.after = x.before) : OnChain x.after (steps ++ [x]) := by
  have hsame : ∀ {generation total hop : ℕ} {events : List Event},
      Since steps generation total hop events →
        Since (steps ++ [x]) generation total hop events := by
    intro generation total hop events hs
    have := hs.concat (not_entersChain_idle hafter)
    rwa [appliedInputs_idle hout, List.append_nil] at this
  rw [hafter]
  refine ⟨fun current total attempt hc => ?_, fun current total hc => ?_⟩
  · obtain ⟨hop, hle, hs⟩ := h.connecting current total attempt hc
    exact ⟨hop, hle, hsame hs⟩
  · obtain ⟨hop, hle, hs⟩ := h.authenticating current total hc
    exact ⟨hop, hle, hsame hs⟩

/-- **One event later.** -/
theorem OnChain.step (h : OnChain x.before steps)
    (hout : x.output = (x.before.transition x.input).1)
    (hafter : x.after = (x.before.transition x.input).2) : OnChain x.after (steps ++ [x]) := by
  rcases transition_cases x.before x.input with ⟨eff, c, happ, hout', hm⟩ | ⟨hout', hm⟩
  · exact h.applied happ (hout.trans hout') (by rw [hafter, hm, record_state])
  · exact h.idle (by rwa [hout]) (hafter.trans hm)

end Step

theorem onChain_run (listenerRequired : Bool) (events : List Event) :
    OnChain (runState transition (new listenerRequired) events)
      (trace transition (new listenerRequired) events) :=
  trace_invariant (I := OnChain) ⟨by simp [new], by simp [new]⟩
    (fun js e h => OnChain.step (x := ⟨runState transition (new listenerRequired) js, e, _, _⟩)
      h rfl rfl) events

/-- **The whole chain, or not the whole.** In every run, whenever the
final session is authenticated at hop `n` of `n`, there is a last entry
into `Connecting`, and all hops from the first to the last have been
authenticated in order since then, each but the last followed by
`HopAuthenticated`, exactly where the event of that entry named hop 1. -/
theorem authenticated_whole_chain_iff (listenerRequired : Bool) (events : List Event)
    {pre rest : List Taken} {x : Taken} {generation n : ℕ}
    (htrace : trace transition (new listenerRequired) events = pre ++ x :: rest)
    (hinput : x.input = .authenticated generation) (happlied : IsApplied x.output)
    (hruntime : x.before.state.runtime = .authenticating n n) :
    ∃ before entry since hop attempt, pre = before ++ entry :: since ∧ entersChain entry ∧
      (∀ y ∈ since, ¬ entersChain y) ∧
      entry.input = .connecting generation hop n attempt ∧
      ((chainEvents generation n 1).Sublist (appliedInputs since) ↔ hop = 1) := by
  obtain ⟨js, ks, hpre, hbefore, -⟩ := trace_eq_append_cons htrace
  have hon := onChain_run listenerRequired js
  rw [← hbefore, ← hpre] at hon
  obtain ⟨hop, -, hs⟩ := hon.authenticating n n hruntime
  -- an applied event is one of the current generation
  have hgen : generation = x.before.state.generation := by
    have hx := mem_trace (x := x) (by rw [htrace]; simp)
    rw [hx.1, hinput] at happlied
    obtain ⟨eff, heff⟩ := happlied
    rcases transition_cases x.before (.authenticated generation) with ⟨_, _, happ, -⟩ | ⟨hna, -⟩
    · cases happ; rfl
    · exact absurd ⟨eff, heff⟩ hna
  obtain ⟨before, entry, since, attempt, hsteps, hentry, hsince, hin, happ⟩ := hs.split
  refine ⟨before, entry, since, hop, attempt, hsteps, hentry, hsince, by rw [hgen, hin], ?_⟩
  rw [happ, hgen]
  exact chainEvents_sublist_iff hs.hop_pos hs.hop_le

/-! ## A chain of two hops -/

/-- Up to where the chain is built. -/
def beforeChain : List Event := [.start, .phase 1 .buildingJumpChain]

/-- A chain of two hops entered at the given one, up to where the final
session authenticates. -/
def twoHops (hop : ℕ) : List Event :=
  beforeChain ++ .connecting 1 hop 2 0 :: chainEvents 1 2 hop

/-- The machine that waits for the final session's authentication. -/
def atLastHop (hop : ℕ) : StateMachine := runState transition (new true) (twoHops hop)

/-- Entered at its first hop. -/
theorem authenticated_whole_chain_first :
    IsApplied ((atLastHop 1).transition (.authenticated 1)).1 ∧
    ∃ before entry since hop attempt,
      trace transition (new true) (twoHops 1) = before ++ entry :: since ∧ entersChain entry ∧
      (∀ y ∈ since, ¬ entersChain y) ∧ entry.input = .connecting 1 hop 2 attempt ∧
      ((chainEvents 1 2 1).Sublist (appliedInputs since) ↔ hop = 1) := by
  have happlied : IsApplied ((atLastHop 1).transition (.authenticated 1)).1 :=
    ⟨none, by decide +kernel⟩
  have hruntime : (atLastHop 1).state.runtime = .authenticating 2 2 := by decide +kernel
  exact ⟨happlied, authenticated_whole_chain_iff true (twoHops 1 ++ [.authenticated 1])
    (x := ⟨atLastHop 1, .authenticated 1, _, _⟩) trace_concat rfl happlied hruntime⟩

/-- Entered at its second hop, the session is authenticated all the same,
with no event for the first. -/
theorem authenticated_without_first_hop :
    IsApplied ((atLastHop 2).transition (.authenticated 1)).1 ∧
    (atLastHop 2).state.runtime = .authenticating 2 2 ∧
    ∃ before entry since,
      trace transition (new true) (twoHops 2) = before ++ entry :: since ∧ entersChain entry ∧
      (∀ y ∈ since, ¬ entersChain y) ∧
      ¬ (chainEvents 1 2 1).Sublist (appliedInputs since) := by
  refine ⟨⟨none, by decide +kernel⟩, by decide +kernel, ?_⟩
  have hsplit : trace transition (new true) (twoHops 2) =
      trace transition (new true) beforeChain ++
        trace transition (runState transition (new true) beforeChain)
          (.connecting 1 2 2 0 :: chainEvents 1 2 2) := trace_append
  refine ⟨_, _, _, hsplit, ?_, ?_, ?_⟩
  · decide +kernel
  · decide +kernel
  · decide +kernel

end StateMachine

end Lifecycle

end TunnelWarden

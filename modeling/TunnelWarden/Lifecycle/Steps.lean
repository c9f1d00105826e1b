import TunnelWarden.Lifecycle.Model.Machine

/-!
# What one event can do

`Applies` lists the ways an event is applied, one constructor for each
branch of `transition` that reaches the journal, with the conditions
under which the branch is taken and the machine it leaves.
`transition_cases` says that there are no others: an event that is not
applied leaves the machine as it was. Every invariant of the reducer is
read off this list, and no later proof unfolds `transition`.
-/

namespace TunnelWarden

namespace Lifecycle

namespace StateMachine

variable {m c : StateMachine} {e : Event} {eff : Option TransitionEffect}

/-- The machine after `next_generation`. -/
def bump (m : StateMachine) : StateMachine :=
  { m with state := { m.state with generation := m.state.generation + 1 } }

/-- What `require_running` asks. -/
def Running (m : StateMachine) : Prop :=
  m.state.desired = .running ∧ m.phase ∉ [.stopping, .stopped, .blocked, .failed]

/-- The session has been verified end to end, which a ping result needs. -/
def Verified (m : StateMachine) : Prop :=
  m.state.health.authenticated = true ∧ m.state.health.forwardReady = true

/-- The count of missed pings after one more. -/
def failures (m : StateMachine) : ℕ := min (m.state.health.consecutivePingFailures + 1) 255

/-- **The ways an event is applied.** -/
inductive Applies (m : StateMachine) : Event → Option TransitionEffect → StateMachine → Prop
  | start : m.phase = .stopped → m.state.generation < generationMax →
      Applies m .start (some (.beginGeneration (m.state.generation + 1))) m.bump.begin
  | stop : m.phase ≠ .stopped → m.phase ≠ .stopping → m.state.generation < generationMax →
      Applies m .stop (some (.cancelAndJoin m.state.generation)) (m.bump.enterStopping .stopped false)
  | restartStopped : m.phase = .stopped → m.state.generation < generationMax →
      Applies m .restart (some (.beginGeneration (m.state.generation + 1))) m.bump.begin
  | restartRunning : m.phase ≠ .stopped → m.phase ≠ .stopping →
      m.state.generation < generationMax →
      Applies m .restart (some (.cancelAndJoin m.state.generation))
        (m.bump.enterStopping m.state.desired true)
  | configStopped : m.phase = .stopped → m.state.generation < generationMax →
      Applies m .configChanged none m.bump
  | configRunning : m.phase ≠ .stopped → m.phase ≠ .stopping →
      m.state.generation < generationMax →
      Applies m .configChanged (some (.cancelAndJoin m.state.generation))
        (m.bump.enterStopping m.state.desired (m.state.desired = .running))
  | shutdownRestart : m.phase = .stopping → m.restartAfterShutdown = true →
      Applies m (.shutdownComplete m.state.generation) (some (.beginGeneration m.state.generation))
        { m with restartAfterShutdown := false }.begin
  | shutdownStopped : m.phase = .stopping → m.restartAfterShutdown = false →
      Applies m (.shutdownComplete m.state.generation) none
        { m with
          state :=
            { m.state with
              listener := idleListener m.listenerRequired
              health := {}
              runtime := .stopped } }
  | phase {p : StartPhase} : m.Running → m.phase = .starting →
      Applies m (.phase m.state.generation p) none
        { m with state := { m.state with runtime := .starting p } }
  | listenerBound {a : SocketAddr} : m.Running → m.state.runtime = .starting .acquiringListener →
      m.listenerRequired = true → m.state.listener = .unbound →
      Applies m (.listenerBound m.state.generation a) none
        { m with state := { m.state with listener := .bound a } }
  | listenerConflict {a : SocketAddr} : m.Running →
      m.state.runtime = .starting .acquiringListener →
      m.listenerRequired = true → m.state.listener = .unbound →
      Applies m (.listenerConflict m.state.generation a) none
        { m with
          state :=
            { m.state with
              listener := .conflict a none
              runtime := .blocked (portConflict a) } }
  | connecting {hop total attempt : ℕ} : m.Running →
      m.state.runtime = .starting .buildingJumpChain ∨ m.phase = .reconnecting →
      1 ≤ hop → hop ≤ total →
      Applies m (.connecting m.state.generation hop total attempt) none
        { m with state := { m.state with health := {}, runtime := .connecting hop total attempt } }
  | authenticating {hop total attempt : ℕ} : m.Running →
      m.state.runtime = .connecting hop total attempt → 1 ≤ hop → hop ≤ total →
      Applies m (.authenticating m.state.generation hop total) none
        { m with state := { m.state with runtime := .authenticating hop total } }
  | authenticated {n : ℕ} : m.Running → m.state.runtime = .authenticating n n →
      Applies m (.authenticated m.state.generation) none
        { m with
          state :=
            { m.state with
              health := { m.state.health with authenticated := true }
              runtime := .establishingForward } }
  | hopAuthenticated {hop total : ℕ} : m.Running → m.state.runtime = .authenticating hop total →
      hop < total →
      Applies m (.hopAuthenticated m.state.generation) none
        { m with state := { m.state with runtime := .connecting (hop + 1) total 0 } }
  | forwardReady : m.Running → m.phase = .establishingForward →
      Applies m (.forwardReady m.state.generation) none
        { m with
          state :=
            { m.state with
              health := { m.state.health with forwardReady := true }
              runtime := .starting .startingHealthMonitor } }
  | pingSucceeded {at' : Instant} {rtt : Duration} : m.Running →
      m.phase ∈ [.starting, .healthy, .degraded] → m.Verified →
      Applies m (.pingSucceeded m.state.generation at' rtt) none
        { m with
          state :=
            { m.state with
              health :=
                { m.state.health with
                  lastRttMs := some (rttMillis rtt)
                  consecutivePingFailures := 0 }
              runtime := if m.phase = .healthy then m.state.runtime else .healthy at' } }
  | pingFailedReconnect {at' : Instant} {attempt : ℕ} {next : Instant} : m.Running →
      m.phase ∈ [.starting, .healthy, .degraded] → m.Verified → 3 ≤ m.failures →
      Applies m (.pingFailed m.state.generation at' attempt next) none
        { m with
          state :=
            { m.state with
              health :=
                { m.state.health with
                  consecutivePingFailures := m.failures
                  authenticated := false
                  forwardReady := false }
              runtime := .reconnecting attempt next pingTimedOut } }
  | pingFailedDegrade {at' : Instant} {attempt : ℕ} {next : Instant} : m.Running →
      m.phase ∈ [.starting, .healthy, .degraded] → m.Verified → m.failures < 3 →
      Applies m (.pingFailed m.state.generation at' attempt next) none
        { m with
          state :=
            { m.state with
              health := { m.state.health with consecutivePingFailures := m.failures }
              runtime :=
                if m.phase = .degraded then m.state.runtime else .degraded at' .pingTimeout } }
  | disconnectedTransient {error : TunnelError} {attempt : ℕ} {next : Instant} : m.Running →
      error.retryability = .transient →
      Applies m (.disconnected m.state.generation error attempt next) none
        { m with
          state := { m.state with health := {}, runtime := .reconnecting attempt next error } }
  | disconnectedBlocked {error : TunnelError} {attempt : ℕ} {next : Instant} : m.Running →
      error.retryability = .blocked →
      Applies m (.disconnected m.state.generation error attempt next) none
        { m with state := { m.state with health := {}, runtime := .blocked error } }

/-! ## What the checks ask -/

theorem requireRunning_ok (cause : String) :
    m.requireRunning cause m.phase = .ok () ↔ m.Running := by
  unfold requireRunning Running
  split <;> simp_all

theorem requirePhase_ok {cause : String} {valid : List RuntimePhase} :
    m.requirePhase cause m.phase valid = .ok () ↔ m.Running ∧ m.phase ∈ valid := by
  unfold requirePhase
  rw [← requireRunning_ok cause]
  cases m.requireRunning cause m.phase with
  | error e => simp
  | ok u => cases u; simp

theorem requireStartPhase_ok {cause : String} {p : StartPhase} :
    m.requireStartPhase cause p = .ok () ↔ m.Running ∧ m.state.runtime = .starting p := by
  unfold requireStartPhase
  rw [← requireRunning_ok cause]
  cases m.requireRunning cause m.phase with
  | error e => simp
  | ok u => cases u; simp

theorem checkHop_ok {hop total : ℕ} : checkHop hop total = .ok () ↔ 1 ≤ hop ∧ hop ≤ total := by
  unfold checkHop
  split
  · rename_i h; simp [h.2.1, h.2.2]
  · rename_i h; simp only [reduceCtorEq, false_iff]; omega

/-! ## The inversion -/

/-- Either the event was applied, in one of the ways listed, or the
machine is the one there was. -/
def Outcome (m : StateMachine) (e : Event) (r : Answer × StateMachine) : Prop :=
  (∃ eff c, Applies m e eff c ∧ r = (.ok (.applied eff), c.record m.phase e.cause)) ∨
    (¬ IsApplied r.1 ∧ r.2 = m)

theorem outcome_applied (h : Applies m e eff c) : Outcome m e (c.applied m.phase e.cause eff) :=
  Or.inl ⟨eff, c, h, rfl⟩

theorem outcome_error {x : MachineError} : Outcome m e (.error x, m) :=
  Or.inr ⟨(by rintro ⟨_, h⟩; cases h), rfl⟩

theorem outcome_noChange : Outcome m e (.ok .noChange, m) :=
  Or.inr ⟨(by rintro ⟨_, h⟩; cases h), rfl⟩

theorem outcome_guard {check : Except MachineError Unit} {next : Answer × StateMachine}
    (h : check = .ok () → Outcome m e next) : Outcome m e (m.guard check next) := by
  cases check with
  | error x => exact outcome_error
  | ok u => exact h rfl

theorem outcome_requirePhase {cause : String} {valid : List RuntimePhase}
    {next : Answer × StateMachine} (h : m.Running → m.phase ∈ valid → Outcome m e next) :
    Outcome m e (m.guard (m.requirePhase cause m.phase valid) next) := by
  refine outcome_guard fun hcheck => ?_
  obtain ⟨hr, hp⟩ := requirePhase_ok.1 hcheck
  exact h hr hp

theorem outcome_requireStartPhase {cause : String} {p : StartPhase} {next : Answer × StateMachine}
    (h : m.Running → m.state.runtime = .starting p → Outcome m e next) :
    Outcome m e (m.guard (m.requireStartPhase cause p) next) := by
  refine outcome_guard fun hcheck => ?_
  obtain ⟨hr, hp⟩ := requireStartPhase_ok.1 hcheck
  exact h hr hp

theorem outcome_checkHop {hop total : ℕ} {next : Answer × StateMachine}
    (h : 1 ≤ hop → hop ≤ total → Outcome m e next) :
    Outcome m e (m.guard (checkHop hop total) next) := by
  refine outcome_guard fun hcheck => ?_
  obtain ⟨h1, h2⟩ := checkHop_ok.1 hcheck
  exact h h1 h2

/-- Past the staleness check, a generation that is carried is the current
one. -/
theorem generation_eq {g : ℕ} (hfresh : ¬ e.generation.any (· ≠ m.state.generation))
    (hg : e.generation = some g) : g = m.state.generation := by
  rw [hg] at hfresh
  simpa using hfresh

/-- The counter moves on while there is a generation left. -/
theorem withNextGeneration_eq {next : StateMachine → Answer × StateMachine} :
    m.withNextGeneration next =
      if m.state.generation < generationMax then next m.bump
      else (.error .generationExhausted, m) := by
  unfold withNextGeneration nextGeneration
  by_cases hg : m.state.generation < generationMax
  · rw [if_pos hg, if_pos (Nat.succ_le_of_lt hg)]; rfl
  · rw [if_neg hg, if_neg (by omega)]

theorem outcome_withNextGeneration {next : StateMachine → Answer × StateMachine}
    (h : m.state.generation < generationMax → Outcome m e (next m.bump)) :
    Outcome m e (m.withNextGeneration next) := by
  rw [withNextGeneration_eq]
  split
  · rename_i hg; exact h hg
  · exact outcome_error

/-- **There are no other ways.** -/
theorem transition_outcome (m : StateMachine) (e : Event) : Outcome m e (m.transition e) := by
  unfold transition
  split
  · exact Or.inr ⟨(by rintro ⟨_, h⟩; cases h), rfl⟩
  rename_i hgen
  cases e with
  | start =>
      dsimp only
      split
      · exact outcome_error
      · rename_i hp
        exact outcome_withNextGeneration fun hg => outcome_applied (.start (not_not.1 hp) hg)
  | stop =>
      dsimp only
      split
      · exact outcome_noChange
      · rename_i hp
        push Not at hp
        exact outcome_withNextGeneration fun hg => outcome_applied (.stop hp.1 hp.2 hg)
  | restart =>
      dsimp only
      split
      · exact outcome_noChange
      · rename_i hp
        refine outcome_withNextGeneration fun hg => ?_
        split
        · rename_i hs; exact outcome_applied (.restartStopped hs hg)
        · rename_i hs; exact outcome_applied (.restartRunning hs hp hg)
  | configChanged =>
      dsimp only
      split
      · exact outcome_noChange
      · rename_i hp
        refine outcome_withNextGeneration fun hg => ?_
        split
        · rename_i hs; exact outcome_applied (.configStopped hs hg)
        · rename_i hs; exact outcome_applied (.configRunning hs hp hg)
  | shutdownComplete g =>
      obtain rfl := generation_eq hgen rfl
      dsimp only
      split
      · exact outcome_error
      · rename_i hp
        rw [not_not] at hp
        split
        · rename_i hr; exact outcome_applied (.shutdownRestart hp hr)
        · rename_i hr; exact outcome_applied (.shutdownStopped hp (by simpa using hr))
  | phase g p =>
      obtain rfl := generation_eq hgen rfl
      refine outcome_requirePhase fun hr hp => ?_
      exact outcome_applied (.phase hr (List.mem_singleton.1 hp))
  | listenerBound g a =>
      obtain rfl := generation_eq hgen rfl
      refine outcome_requireStartPhase fun hr hp => ?_
      split
      · exact outcome_error
      · rename_i hl
        push Not at hl
        exact outcome_applied (.listenerBound hr hp hl.1 hl.2)
  | listenerConflict g a =>
      obtain rfl := generation_eq hgen rfl
      refine outcome_requireStartPhase fun hr hp => ?_
      split
      · exact outcome_error
      · rename_i hl
        push Not at hl
        exact outcome_applied (.listenerConflict hr hp hl.1 hl.2)
  | connecting g hop total attempt =>
      obtain rfl := generation_eq hgen rfl
      refine outcome_requirePhase fun hr hp => outcome_guard fun hs => ?_
      refine outcome_checkHop fun h1 h2 => ?_
      refine outcome_applied (.connecting hr ?_ h1 h2)
      split at hs
      · exact Or.inl (requireStartPhase_ok.1 hs).2
      · rename_i hns
        right
        simpa [hns] using hp
  | authenticating g hop total =>
      obtain rfl := generation_eq hgen rfl
      refine outcome_requirePhase fun hr _ => outcome_checkHop fun h1 h2 => ?_
      split
      · rename_i hop' total' attempt hrun
        split
        · rename_i heq
          obtain ⟨rfl, rfl⟩ := heq
          exact outcome_applied (.authenticating hr hrun h1 h2)
        · exact outcome_error
      · exact outcome_error
  | authenticated g =>
      obtain rfl := generation_eq hgen rfl
      refine outcome_requirePhase fun hr _ => ?_
      split
      · rename_i hop total hrun
        split
        · rename_i heq
          subst heq
          exact outcome_applied (.authenticated hr hrun)
        · exact outcome_error
      · exact outcome_error
  | hopAuthenticated g =>
      obtain rfl := generation_eq hgen rfl
      refine outcome_requirePhase fun hr _ => ?_
      split
      · rename_i hop total hrun
        split
        · exact outcome_error
        · rename_i hlt
          exact outcome_applied (.hopAuthenticated hr hrun (Nat.not_le.1 hlt))
      · exact outcome_error
  | forwardReady g =>
      obtain rfl := generation_eq hgen rfl
      refine outcome_requirePhase fun hr hp => ?_
      exact outcome_applied (.forwardReady hr (List.mem_singleton.1 hp))
  | pingSucceeded g at' rtt =>
      obtain rfl := generation_eq hgen rfl
      refine outcome_requirePhase fun hr hp => ?_
      split
      · exact outcome_error
      · rename_i hv
        push Not at hv
        exact outcome_applied (.pingSucceeded hr hp hv)
  | pingFailed g at' attempt next =>
      obtain rfl := generation_eq hgen rfl
      refine outcome_requirePhase fun hr hp => ?_
      split
      · exact outcome_error
      · rename_i hv
        push Not at hv
        dsimp only
        split
        · rename_i hf; exact outcome_applied (.pingFailedReconnect hr hp hv hf)
        · rename_i hf; exact outcome_applied (.pingFailedDegrade hr hp hv (Nat.not_le.1 hf))
  | disconnected g error attempt next =>
      obtain rfl := generation_eq hgen rfl
      refine outcome_guard fun h => ?_
      have hr := (requireRunning_ok _).1 h
      cases hk : error.retryability with
      | transient => exact outcome_applied (.disconnectedTransient hr hk)
      | blocked => exact outcome_applied (.disconnectedBlocked hr hk)

/-- The inversion, as later proofs use it. -/
theorem transition_cases (m : StateMachine) (e : Event) :
    (∃ eff c, Applies m e eff c ∧ (m.transition e).1 = .ok (.applied eff) ∧
        (m.transition e).2 = c.record m.phase e.cause) ∨
      (¬ IsApplied (m.transition e).1 ∧ (m.transition e).2 = m) := by
  rcases transition_outcome m e with ⟨eff, c, happ, heq⟩ | hna
  · exact Or.inl ⟨eff, c, happ, by rw [heq], by rw [heq]⟩
  · exact Or.inr hna

/-- Only an applied event has an effect. -/
theorem effectOf_eq_none {a : Answer} (h : ¬ IsApplied a) : effectOf a = none := by
  rcases a with x | o
  · rfl
  · cases o with
    | applied eff => exact absurd ⟨eff, rfl⟩ h
    | ignoredStale => rfl
    | noChange => rfl

/-- A phase that is kept once entered: the runtime is left alone there and
otherwise replaced by one of that phase. -/
theorem of_keep {p : RuntimePhase} {r : RuntimeState} (hr : RuntimePhase.of r = p) :
    RuntimePhase.of (if m.phase = p then m.state.runtime else r) = p := by
  split
  · assumption
  · exact hr

/-! ## The branches are taken -/

/-- **Where the conditions of a branch hold, it is taken.** -/
theorem Applies.transition_eq (h : Applies m e eff c) :
    m.transition e = (.ok (.applied eff), c.record m.phase e.cause) := by
  have hphase : ∀ {cause : String} {valid : List RuntimePhase}, m.Running → m.phase ∈ valid →
      m.requirePhase cause m.phase valid = .ok () :=
    fun hr hp => requirePhase_ok.2 ⟨hr, hp⟩
  have hstart : ∀ {cause : String} {p : StartPhase}, m.Running → m.state.runtime = .starting p →
      m.requireStartPhase cause p = .ok () :=
    fun hr hp => requireStartPhase_ok.2 ⟨hr, hp⟩
  cases h with
  | start hp hg =>
      simp [transition, Event.generation, hp, withNextGeneration_eq, hg, applied, begin, bump]
  | stop hp hp' hg =>
      simp [transition, Event.generation, hp, hp', withNextGeneration_eq, hg, applied]
  | restartStopped hp hg =>
      simp [transition, Event.generation, hp, withNextGeneration_eq, hg, applied, begin, bump]
  | restartRunning hp hp' hg =>
      simp [transition, Event.generation, hp, hp', withNextGeneration_eq, hg, applied, bump]
  | configStopped hp hg =>
      simp [transition, Event.generation, hp, withNextGeneration_eq, hg, applied]
  | configRunning hp hp' hg =>
      simp only [transition, Event.generation, Option.any_none, Bool.false_eq_true, if_false, hp,
        hp', withNextGeneration_eq, if_pos hg]
      rfl
  | shutdownRestart hp hr => simp [transition, Event.generation, hp, hr, applied, begin]
  | shutdownStopped hp hr => simp [transition, Event.generation, hp, hr, applied]
  | phase hr hp =>
      have hok := List.mem_singleton.2 hp
      simp [transition, Event.generation, hphase hr hok, guard, applied]
  | listenerBound hr hp hl hu =>
      simp [transition, Event.generation, hstart hr hp, guard, applied, hl, hu]
  | listenerConflict hr hp hl hu =>
      simp [transition, Event.generation, hstart hr hp, guard, applied, hl, hu]
  | connecting hr hp h₁ h₂ =>
      have hhop := checkHop_ok.2 ⟨h₁, h₂⟩
      rcases hp with hp | hp
      · have hok : m.phase ∈ [.starting, .reconnecting] := by simp [StateMachine.phase, hp]
        simp [transition, Event.generation, hphase hr hok, hstart hr hp, guard, hhop, applied]
      · have hok : m.phase ∈ [.starting, .reconnecting] := by simp [hp]
        have hne : m.phase ≠ .starting := by simp [hp]
        simp [transition, Event.generation, hphase hr hok, hne, guard, hhop, applied]
  | authenticating hr hp h₁ h₂ =>
      have hhop := checkHop_ok.2 ⟨h₁, h₂⟩
      have hok : m.phase ∈ [.connecting] := by simp [StateMachine.phase, hp]
      simp [transition, Event.generation, hphase hr hok, guard, hhop, hp, applied]
  | authenticated hr hp =>
      have hok : m.phase ∈ [.authenticating] := by simp [StateMachine.phase, hp]
      simp [transition, Event.generation, hphase hr hok, guard, hp, applied]
  | hopAuthenticated hr hp hlt =>
      have hok : m.phase ∈ [.authenticating] := by simp [StateMachine.phase, hp]
      simp [transition, Event.generation, hphase hr hok, guard, hp, hlt, applied]
  | forwardReady hr hp =>
      have hok := List.mem_singleton.2 hp
      simp [transition, Event.generation, hphase hr hok, guard, applied]
  | pingSucceeded hr hp hv =>
      simp [transition, Event.generation, hphase hr hp, guard, hv.1, hv.2, applied]
  | pingFailedReconnect hr hp hv hf =>
      rw [failures] at hf
      simp only [transition, Event.generation, Option.any_some, ne_eq, not_true_eq_false,
        decide_false, Bool.false_eq_true, if_false, hphase hr hp, guard, hv.1, hv.2, or_self,
        if_pos hf]
      rfl
  | pingFailedDegrade hr hp hv hf =>
      rw [failures, ← Nat.not_le] at hf
      simp only [transition, Event.generation, Option.any_some, ne_eq, not_true_eq_false,
        decide_false, Bool.false_eq_true, if_false, hphase hr hp, guard, hv.1, hv.2, or_self,
        if_neg hf]
      rfl
  | disconnectedTransient hr hk =>
      simp [transition, Event.generation, (requireRunning_ok _).2 hr, guard, hk, applied]
  | disconnectedBlocked hr hk =>
      simp [transition, Event.generation, (requireRunning_ok _).2 hr, guard, hk, applied]

/-! ## The journal is beside the point -/

@[simp] theorem record_state (p : RuntimePhase) (s : String) : (m.record p s).state = m.state := rfl

@[simp] theorem record_listenerRequired (p : RuntimePhase) (s : String) :
    (m.record p s).listenerRequired = m.listenerRequired := rfl

end StateMachine

end Lifecycle

end TunnelWarden

import TunnelWarden.Lifecycle.Listening
import TunnelWarden.Supervisor.Model.Worker

/-!
# Two counts of the missed pings

The reducer and the workers count missed pings each for themselves: the
reducer in the health of the session, a worker in a variable of its loop.
Fed with the same outcomes they agree after every one of them
(`Matches.tick`). The outcome that is one too many ends the worker before
it reports anything, so there its last report is the one of the ping
before, and it is the error it returns that goes with the machine's
`Reconnecting`.
-/

namespace TunnelWarden

open Lifecycle StateMachine

variable {ε : Type}

/-- A ping of every hop, with what the reducer is told beside its
result. -/
structure PingOutcome where
  result : Except Ssh.SshChainError (List Duration)
  at' : Instant
  rtt : Duration
  attempt : ℕ
  nextRetryAt : Instant

/-- The event that tells the reducer. -/
def PingOutcome.event (o : PingOutcome) (generation : ℕ) : Event :=
  match o.result with
  | .ok _ => .pingSucceeded generation o.at' o.rtt
  | .error _ => .pingFailed generation o.at' o.attempt o.nextRetryAt

/-- The machine after the outcomes. -/
def fed (m : StateMachine) (outcomes : List PingOutcome) : StateMachine :=
  runState transition m (outcomes.map fun o => o.event m.state.generation)

/-- A worker, and what it has returned. -/
structure Pinged (ε : Type) where
  worker : Worker
  returned : Option (Except ε Unit)

/-- The health tick of a worker's loop. A worker that has returned is not
asked again. -/
def Pinged.tick (run : Worker → SupervisorEvent → Worker ⊕ Except ε Unit) (p : Pinged ε)
    (o : PingOutcome) : Pinged ε :=
  if p.returned.isSome then p
  else match run p.worker (.healthTick o.result) with
    | .inl worker => ⟨worker, none⟩
    | .inr result => ⟨p.worker, some result⟩

/-- The worker after the outcomes. -/
def ticked (run : Worker → SupervisorEvent → Worker ⊕ Except ε Unit) (w : Worker)
    (outcomes : List PingOutcome) : Pinged ε :=
  outcomes.foldl (Pinged.tick run) ⟨w, none⟩

/-- The loop of a Local or Dynamic worker that is not cancelled. -/
def localTick (w : Worker) (event : SupervisorEvent) : Worker ⊕ Except LocalForwardError Unit :=
  w.runLocal false event

/-- The loop of a Remote worker. -/
def remoteTick (w : Worker) (event : SupervisorEvent) : Worker ⊕ Except RemoteForwardError Unit :=
  w.runRemote event

/-- **In step**: what the worker has to show after an outcome, and the
machine. `health` is the error the worker makes of a failed ping. -/
structure InStep (health : Ssh.SshChainError → ε) (o : PingOutcome) (p : Pinged ε)
    (m : StateMachine) : Prop where
  healthy : p.returned = none →
    ((∃ rtts, p.worker.health = some (.healthy rtts)) ↔ m.phase = .healthy)
  degraded : p.returned = none → ∀ k,
    ((∃ reason, p.worker.health = some (.degraded k reason)) ↔
      m.phase = .degraded ∧ m.state.health.consecutivePingFailures = k ∧ (k = 1 ∨ k = 2))
  running : p.returned = none ↔ m.phase ≠ .reconnecting
  returned : (∃ error, o.result = .error error ∧ p.returned = some (.error (health error))) ↔
    m.phase = .reconnecting
  last : m.phase = .reconnecting → ∃ reason, p.worker.health = some (.degraded 2 reason)

/-! ## The reducer -/

section Reducer

variable {m : StateMachine}

theorem running_of_up (hi : Inv m) (hup : m.IsUp) : m.Running := by
  rcases hup with hp | hp
  · exact ⟨(hi.wanted (by simp [hp]) (by simp [hp])).1, by simp [hp]⟩
  · exact ⟨(hi.wanted (by simp [hp]) (by simp [hp])).1, by simp [hp]⟩

theorem phase_mem_of_up (hup : m.IsUp) : m.phase ∈ [.starting, .healthy, .degraded] := by
  rcases hup with hp | hp <;> simp [hp]

/-- The phase of a machine that is up says whether pings are missing. -/
theorem failures_of_up (hi : Inv m) (hup : m.IsUp) :
    m.state.health.consecutivePingFailures ≤ 2 ∧
      (m.phase = .healthy ↔ m.state.health.consecutivePingFailures = 0) := by
  refine ⟨hi.failures_le (phase_mem_of_up hup), ?_⟩
  have hp := hi.phase
  unfold PhaseOk at hp
  unfold IsUp StateMachine.phase at hup
  unfold StateMachine.phase
  split at hp <;> simp_all
  omega

/-- A ping that is answered. -/
theorem transition_pingSucceeded (hi : Inv m) (hup : m.IsUp) (at' : Instant) (rtt : Duration) :
    (m.transition (.pingSucceeded m.state.generation at' rtt)).2.phase = .healthy ∧
      (m.transition (.pingSucceeded m.state.generation at' rtt)).2.state.generation =
        m.state.generation ∧
      (m.transition (.pingSucceeded m.state.generation at'
        rtt)).2.state.health.consecutivePingFailures = 0 := by
  have happ := @Applies.pingSucceeded m at' rtt (running_of_up hi hup)
    (phase_mem_of_up hup) (hi.verified hup)
  rw [happ.transition_eq]
  exact ⟨of_keep rfl, rfl, rfl⟩

/-- A ping that is missed, while another may be. -/
theorem transition_pingFailed_degrade (hi : Inv m) (hup : m.IsUp)
    (hlt : m.state.health.consecutivePingFailures < 2) (at' : Instant) (attempt : ℕ)
    (next : Instant) :
    (m.transition (.pingFailed m.state.generation at' attempt next)).2.phase = .degraded ∧
      (m.transition (.pingFailed m.state.generation at' attempt next)).2.state.generation =
        m.state.generation ∧
      (m.transition (.pingFailed m.state.generation at' attempt
        next)).2.state.health.consecutivePingFailures =
          m.state.health.consecutivePingFailures + 1 := by
  have hfail : m.failures = m.state.health.consecutivePingFailures + 1 := by
    unfold failures
    omega
  have happ := @Applies.pingFailedDegrade m at' attempt next (running_of_up hi hup)
    (phase_mem_of_up hup) (hi.verified hup) (by omega)
  rw [happ.transition_eq]
  exact ⟨of_keep rfl, rfl, hfail⟩

/-- The ping that is one too many. -/
theorem transition_pingFailed_reconnect (hi : Inv m) (hup : m.IsUp)
    (hge : 2 ≤ m.state.health.consecutivePingFailures) (at' : Instant) (attempt : ℕ)
    (next : Instant) :
    (m.transition (.pingFailed m.state.generation at' attempt next)).2.phase = .reconnecting := by
  have hfail : 3 ≤ m.failures := by
    unfold failures
    omega
  have happ := @Applies.pingFailedReconnect m at' attempt next (running_of_up hi hup)
    (phase_mem_of_up hup) (hi.verified hup) hfail
  rw [happ.transition_eq]
  rfl

end Reducer

/-! ## The two together -/

/-- A worker that runs and a machine that is up, with the same count. -/
structure Matches (w : Worker) (m : StateMachine) : Prop where
  inv : Inv m
  up : m.IsUp
  count : w.pingFailures = m.state.health.consecutivePingFailures
  report : 0 < w.pingFailures → ∃ reason, w.health = some (.degraded w.pingFailures reason)

/-- Both workers take a ping result to `Worker.healthTick`. -/
structure HealthLoop (run : Worker → SupervisorEvent → Worker ⊕ Except ε Unit)
    (health : Ssh.SshChainError → ε) : Prop where
  goes_on : ∀ w w' result, w.healthTick result = .ok w' → run w (.healthTick result) = .inl w'
  returns : ∀ w error result, w.healthTick result = .error error →
    run w (.healthTick result) = .inr (.error (health error))

theorem healthLoop_local : HealthLoop localTick .health where
  goes_on w w' result h := by simp [localTick, Worker.runLocal, h]
  returns w error result h := by simp [localTick, Worker.runLocal, h]

theorem healthLoop_remote : HealthLoop remoteTick .health where
  goes_on w w' result h := by simp [remoteTick, Worker.runRemote, h]
  returns w error result h := by simp [remoteTick, Worker.runRemote, h]

section Step

variable {run : Worker → SupervisorEvent → Worker ⊕ Except ε Unit}
variable {health : Ssh.SshChainError → ε} {w : Worker} {m : StateMachine} {o : PingOutcome}

/-- What one outcome does to a worker and a machine that match: they
match again, or the worker returns and the machine reconnects. -/
theorem Matches.tick {p : Pinged ε} (hrun : HealthLoop run health) (hnone : p.returned = none)
    (h : Matches p.worker m) (o : PingOutcome) :
    InStep health o (p.tick run o) (m.transition (o.event m.state.generation)).2 ∧
      ((p.tick run o).returned = none →
        Matches (p.tick run o).worker (m.transition (o.event m.state.generation)).2 ∧
          (m.transition (o.event m.state.generation)).2.state.generation = m.state.generation) := by
  obtain ⟨w, r⟩ := p
  obtain rfl : r = none := hnone
  replace h : Matches w m := h
  have hinv := inv_step m (o.event m.state.generation) h.inv
  obtain ⟨hle, -⟩ := failures_of_up h.inv h.up
  rcases hres : o.result with error | rtts
  · rw [show o.event m.state.generation =
      .pingFailed m.state.generation o.at' o.attempt o.nextRetryAt by
        simp [PingOutcome.event, hres]] at hinv ⊢
    by_cases hlt : m.state.health.consecutivePingFailures < 2
    · -- the first or the second in a row
      obtain ⟨hphase, hgen, hcount⟩ :=
        transition_pingFailed_degrade h.inv h.up hlt o.at' o.attempt o.nextRetryAt
      have hmin : min (w.pingFailures + 1) 255 = w.pingFailures + 1 := by
        rw [h.count]
        omega
      have hlt' : ¬ maxPingFailures ≤ w.pingFailures + 1 := by
        rw [h.count, maxPingFailures]
        omega
      have hp : Pinged.tick run ⟨w, none⟩ o = ⟨{ w with
          pingFailures := w.pingFailures + 1
          health := some (.degraded (w.pingFailures + 1) (takeChars 512 error.display))
          unseen := true }, none⟩ := by
        simp only [Pinged.tick, Option.isSome_none, Bool.false_eq_true, if_false]
        rw [hrun.goes_on w _ o.result (by rw [hres, Worker.healthTick, hmin, if_neg hlt'])]
      rw [hp]
      refine ⟨⟨fun _ => ?_, fun _ k => ?_, ?_, ?_, ?_⟩, fun _ => ⟨⟨hinv, .inr hphase, ?_, ?_⟩, hgen⟩⟩
      · simp [hphase]
      · simp only [hphase, hcount, h.count]
        constructor
        · rintro ⟨reason, hr⟩
          obtain ⟨rfl, -⟩ : _ ∧ _ := by simpa using hr
          exact ⟨trivial, rfl, by omega⟩
        · rintro ⟨-, rfl, -⟩
          exact ⟨_, rfl⟩
      · simp [hphase]
      · simp [hphase]
      · simp [hphase]
      · rw [hcount, h.count]
      · exact fun _ => ⟨_, rfl⟩
    · have hphase :=
        transition_pingFailed_reconnect h.inv h.up (by omega) o.at' o.attempt o.nextRetryAt
      have htwo : w.pingFailures = 2 := by
        rw [h.count]
        omega
      have hp : Pinged.tick run ⟨w, none⟩ o = ⟨w, some (.error (health error))⟩ := by
        simp only [Pinged.tick, Option.isSome_none, Bool.false_eq_true, if_false]
        rw [hrun.returns w error o.result (by simp [hres, Worker.healthTick, htwo, maxPingFailures])]
      obtain ⟨reason, hreason⟩ := h.report (by omega)
      rw [hp]
      refine ⟨⟨nofun, nofun, by simp [hphase], ?_, fun _ => ⟨reason, ?_⟩⟩, nofun⟩
      · exact iff_of_true ⟨error, hres, rfl⟩ hphase
      · rw [hreason, htwo]
  · rw [show o.event m.state.generation = .pingSucceeded m.state.generation o.at' o.rtt by
      simp [PingOutcome.event, hres]] at hinv ⊢
    obtain ⟨hphase, hgen, hcount⟩ := transition_pingSucceeded h.inv h.up o.at' o.rtt
    have hp : Pinged.tick run ⟨w, none⟩ o = ⟨{ w with
        pingFailures := 0, health := some (.healthy rtts), unseen := true }, none⟩ := by
      simp only [Pinged.tick, Option.isSome_none, Bool.false_eq_true, if_false]
      rw [hrun.goes_on w _ o.result (by rw [hres, Worker.healthTick])]
    rw [hp]
    refine ⟨⟨fun _ => ?_, fun _ k => ?_, ?_, ?_, ?_⟩, fun _ => ⟨⟨hinv, .inl hphase, ?_, ?_⟩, hgen⟩⟩
    · simp [hphase]
    · simp [hphase]
    · simp [hphase]
    · simp [hphase]
    · simp [hphase]
    · exact hcount.symm
    · simp

theorem fed_concat (m : StateMachine) (outcomes : List PingOutcome) (o : PingOutcome) :
    fed m (outcomes ++ [o]) = ((fed m outcomes).transition (o.event m.state.generation)).2 := by
  unfold fed
  rw [List.map_append]
  exact runState_concat

theorem ticked_concat (w : Worker) (outcomes : List PingOutcome) (o : PingOutcome) :
    ticked run w (outcomes ++ [o]) = Pinged.tick run (ticked run w outcomes) o := by
  simp [ticked]

/-- A worker that has returned stays so. -/
theorem tick_returned {p : Pinged ε} (h : (Pinged.tick run p o).returned = none) :
    p.returned = none := by
  by_contra hne
  have hsome : p.returned.isSome := Option.isSome_iff_ne_none.2 hne
  rw [Pinged.tick, if_pos hsome] at h
  exact hne h

/-- **Every prefix the worker survives leaves the two matching.** -/
theorem matches_run (hrun : HealthLoop run health) (h : Matches w m)
    (outcomes : List PingOutcome) (hup : (ticked run w outcomes).returned = none) :
    Matches (ticked run w outcomes).worker (fed m outcomes) ∧
      (fed m outcomes).state.generation = m.state.generation := by
  induction outcomes using List.reverseRecOn with
  | nil => exact ⟨h, rfl⟩
  | append_singleton os o ih =>
      rw [ticked_concat] at hup ⊢
      have hbefore := tick_returned hup
      obtain ⟨hm, hgen⟩ := ih hbefore
      obtain ⟨-, hnext⟩ := hm.tick hrun hbefore o
      obtain ⟨hm', hgen'⟩ := hnext hup
      rw [fed_concat, ← hgen]
      exact ⟨hm', hgen'⟩

/-- The last outcome of a list, of which the worker survived the others. -/
theorem inStep_last (hrun : HealthLoop run health) (h : Matches w m) (outcomes : List PingOutcome)
    (o : PingOutcome) (hup : (ticked run w outcomes).returned = none) :
    InStep health o (ticked run w (outcomes ++ [o])) (fed m (outcomes ++ [o])) := by
  obtain ⟨hm, hgen⟩ := matches_run hrun h outcomes hup
  rw [ticked_concat, fed_concat, ← hgen]
  exact (hm.tick hrun hup o).1

end Step

/-- A healthy machine and a worker that has missed no ping. -/
theorem matches_healthy {w : Worker} {m : StateMachine} (hi : Inv m) (hm : m.phase = .healthy)
    (hw : w.pingFailures = 0) : Matches w m := by
  have hup : m.IsUp := .inl hm
  have hzero := (failures_of_up hi hup).2.1 hm
  exact ⟨hi, hup, by rw [hw, hzero], fun h => by omega⟩

/-- **Workers and reducer agree on the health of a session.** From any
reached machine that is healthy and any worker that has missed no ping,
after every list of outcomes up to and including the first fatal one: the
worker has returned its health error exactly where the machine is
reconnecting, and otherwise its last report and the machine's phase and
count are the same. Its last report does not follow the machine into
`Reconnecting`: there it is the one of the outcome before. -/
theorem health_in_step (listenerRequired : Bool) (events : List Event) (w : Worker)
    (outcomes : List PingOutcome) (o : PingOutcome)
    (hm : (runState transition (new listenerRequired) events).phase = .healthy)
    (hw : w.pingFailures = 0) :
    ((ticked localTick w outcomes).returned = none →
      InStep .health o (ticked localTick w (outcomes ++ [o]))
        (fed (runState transition (new listenerRequired) events) (outcomes ++ [o]))) ∧
    ((ticked remoteTick w outcomes).returned = none →
      InStep .health o (ticked remoteTick w (outcomes ++ [o]))
        (fed (runState transition (new listenerRequired) events) (outcomes ++ [o]))) := by
  have hmatch := matches_healthy (inv_run listenerRequired events) hm hw
  exact ⟨inStep_last healthLoop_local hmatch outcomes o,
    inStep_last healthLoop_remote hmatch outcomes o⟩

/-- A ping of one hop that timed out, or was answered. -/
def missed : PingOutcome := ⟨.error (.hop 1 (.timeout "SSH ping")), 0, 0, 1, 0⟩

def answered : PingOutcome := ⟨.ok [1000000], 0, 1000000, 1, 0⟩

/-- The machine of a session after its first ping. -/
def upMachine : StateMachine := runState transition (new true) (sessionEvents boundFirst)

/-- A missed ping, an answered one and another missed. -/
theorem health_in_step_missed :
    (runState transition (new true) (sessionEvents boundFirst)).phase = .healthy ∧
      InStep .health missed (ticked localTick {} [missed, answered, missed])
        (fed (runState transition (new true) (sessionEvents boundFirst))
          [missed, answered, missed]) ∧
      InStep .health missed (ticked remoteTick {} [missed, answered, missed])
        (fed (runState transition (new true) (sessionEvents boundFirst))
          [missed, answered, missed]) := by
  have hm : (runState transition (new true) (sessionEvents boundFirst)).phase = .healthy := by
    decide +kernel
  have hstep := health_in_step true (sessionEvents boundFirst) {} [missed, answered] missed hm rfl
  exact ⟨hm, hstep.1 (by decide +kernel), hstep.2 (by decide +kernel)⟩

/-- Three missed pings: the third is the first fatal one, and it leaves
the report of the second standing while the machine reconnects. -/
theorem report_outlives_degraded :
    (ticked localTick {} [missed, missed]).returned = none ∧
      ¬ ((ticked localTick {} [missed, missed, missed]).worker.health =
            some (.degraded 2 "SSH hop 1 failed: SSH connection timed out during SSH ping") ↔
          (fed upMachine [missed, missed, missed]).phase = .degraded ∧
            (fed upMachine [missed, missed, missed]).state.health.consecutivePingFailures = 2) := by
  decide +kernel

end TunnelWarden

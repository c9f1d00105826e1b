import TunnelWarden.Forwarding.RunLocal
import TunnelWarden.Forwarding.RunRemote

/-!
# The worker of a Remote tunnel as its supervisor sees it

The supervisor knows the worker by its connections' number and its health
(`Worker.runRemote`). A step of the worker with its session and its tasks
is a step of that one, or none of its concern.
-/

namespace TunnelWarden

namespace RemoteForwardWorker

open Ssh Relay

variable {s s' : RemoteForwardWorker} {events : List RemoteWorkerEvent}

/-- `run` is at work. -/
def serves : RemoteWorkerControl → Bool
  | .polling _ | .pinging => true
  | _ => false

def serving (s : RemoteForwardWorker) : Bool := serves s.control

/-- The worker of the supervisor is new, and counts the tasks while `run`
is at work. -/
def Counted (s : RemoteForwardWorker) : Prop :=
  (s.phase = .starting → s.worker = {} ∧ s.connections = []) ∧
    (s.serving = true → s.worker.connections = s.connections.length)

/-- **What the supervisor sees of a step.** -/
inductive Seen (s s' : RemoteForwardWorker) : Prop where
  /-- Nothing. -/
  | stays (hworker : s'.worker = s.worker) (hserving : s'.serving = s.serving)
  /-- The far side has registered the forward. -/
  | begins (hbefore : s.phase = .starting) (hworker : s'.worker = {}) (hserving : s'.serving = true)
  | runs (event : SupervisorEvent) (hrun : s.worker.runRemote event = .inl s'.worker)
      (hbefore : s.serving = true) (hserving : s'.serving = true)
  | returns (event : SupervisorEvent) (result : Except RemoteForwardError Unit)
      (hrun : s.worker.runRemote event = .inr result) (hbefore : s.serving = true)
      (hworker : s'.worker = s.worker) (hreturned : s'.control = .returned result)
  /-- The token was cancelled. -/
  | cancelled (htoken : s.cancelled = true) (hbefore : s.serving = true)
      (hworker : s'.worker = s.worker) (hreturned : s'.control = .returned (.ok ()))
  /-- `run` is dropped for `stop`. -/
  | calledOff (hbefore : s.serving = true) (hworker : s'.worker = s.worker)
      (hphase : s'.phase = .unregistering ∨ s'.phase = .draining)

/-- A step with what the supervisor sees of it. -/
def Sees (s : RemoteForwardWorker) (r : List RemoteWorkerEvent × RemoteForwardWorker) : Prop :=
  Counted r.2 ∧ Seen s r.2

/-- Steps beside `run`. -/
theorem sees_aside (h : Counted s) {r : List RemoteWorkerEvent × RemoteForwardWorker}
    (hworker : r.2.worker = s.worker) (hphase : r.2.phase = s.phase)
    (hserving : r.2.serving = s.serving)
    (hconnections : r.2.connections.length = s.connections.length) : Sees s r := by
  refine ⟨⟨fun hstarting => ?_, fun hserves => ?_⟩, .stays hworker hserving⟩
  · rw [hphase] at hstarting
    obtain ⟨hnew, hnone⟩ := h.1 hstarting
    rw [hnone, List.length_nil, List.length_eq_zero_iff] at hconnections
    exact ⟨hworker.trans hnew, hconnections⟩
  · rw [hserving] at hserves
    rw [hworker, hconnections, h.2 hserves]

theorem sees_same (h : Counted s) : Sees s ([], s) := sees_aside h rfl rfl rfl rfl

/-- Steps away from `run`. -/
theorem sees_away {r : List RemoteWorkerEvent × RemoteForwardWorker}
    (hphase : r.2.phase ≠ .starting) (hserving : r.2.serving = false) (hseen : Seen s r.2) :
    Sees s r := by
  refine ⟨⟨fun hstarting => absurd hstarting hphase, fun hserves => ?_⟩, hseen⟩
  rw [hserving] at hserves
  cases hserves

/-- Steps of `run`. -/
theorem sees_run {r : List RemoteWorkerEvent × RemoteForwardWorker}
    (hphase : r.2.phase ≠ .starting) (hcount : r.2.worker.connections = r.2.connections.length)
    (hseen : Seen s r.2) : Sees s r :=
  ⟨⟨fun hstarting => absurd hstarting hphase, fun _ => hcount⟩, hseen⟩

theorem sees_request (h : Counted s) (hphase : s.phase = .starting) (hserving : s.serving = false)
    (input : RemoteInput) : Sees s (s.request input) := by
  obtain ⟨hworker, hnone⟩ := h.1 hphase
  unfold request
  dsimp only
  split
  · refine sees_run nofun ?_ (.begins hphase hworker rfl)
    show s.worker.connections = s.connections.length
    rw [hworker, hnone]
    rfl
  · exact sees_away nofun rfl (.stays rfl hserving.symm)
  · exact sees_aside h rfl hphase.symm hserving.symm rfl

theorem sees_reply (h : Counted s) : Sees s s.reply := by
  unfold reply
  dsimp only
  split
  · exact sees_aside h rfl rfl rfl rfl
  · exact sees_aside h rfl rfl rfl rfl

theorem sees_task (h : Counted s) (place : ℕ) (event : RelayTaskEvent) :
    Sees s ([], s.task place event) := by
  unfold task
  split
  · exact sees_same h
  · exact sees_aside h rfl rfl rfl (List.length_set ..)

theorem length_joinReturned {place : ℕ} (hevents : (s.joinReturned place).1 ≠ []) :
    (s.joinReturned place).2.connections.length = s.connections.length - 1 := by
  unfold joinReturned at hevents ⊢
  split
  · rename_i channel result hplace
    have hlt := (List.getElem?_eq_some_iff.1 hplace).1
    exact List.length_eraseIdx_of_lt hlt
  · rename_i hother
    split at hevents
    · rename_i channel result hplace
      exact absurd hplace (hother channel result)
    · exact absurd rfl hevents

theorem sees_join (h : Counted s) (hserving : s.serving = true) (place : ℕ) :
    Sees s (s.join place) := by
  unfold join
  split
  · exact sees_same h
  · rename_i events t hsome heq
    have hevents : (s.joinReturned place).1 ≠ [] := by
      rw [heq]
      exact hsome
    have hlength := length_joinReturned hevents
    rw [heq] at hlength
    refine sees_run nofun ?_ (.runs .connectionDone rfl hserving rfl)
    show s.worker.connections - 1 = t.connections.length
    rw [hlength, h.2 hserving]

theorem sees_receive (h : Counted s) (hserving : s.serving = true)
    (hroom : s.connections.length < maxActiveConnections) : Sees s s.receive := by
  have hcount : s.worker.connections < maxActiveConnections := by
    rw [h.2 hserving]
    exact hroom
  unfold receive
  split
  · split
    · refine sees_away nofun rfl (.returns (.channel false) _ ?_ hserving rfl rfl)
      show (if s.worker.connections < maxActiveConnections then _ else _) = _
      rw [if_pos hcount]
      rfl
    · exact sees_same h
  · rename_i channel queue hqueue
    refine sees_run nofun ?_ (.runs (.channel true) ?_ hserving rfl)
    · show s.worker.connections + 1 = (s.connections ++ [_]).length
      rw [List.length_append, List.length_singleton, h.2 hserving]
    · show (if s.worker.connections < maxActiveConnections then _ else _) = _
      rw [if_pos hcount]
      rfl

theorem sees_pinged (h : Counted s) (hserving : s.serving = true)
    (result : Except SshChainError (List Duration)) : Sees s ([], s.pinged result) := by
  unfold pinged
  split
  · rename_i worker hping
    refine sees_run nofun ?_ (.runs (.healthTick result) ?_ hserving rfl)
    · exact (LocalForwardWorker.connections_of_healthTick hping).trans (h.2 hserving)
    · simp [Worker.runRemote, hping]
  · rename_i error hping
    refine sees_away nofun rfl (.returns (.healthTick result) _ ?_ hserving rfl rfl)
    simp [Worker.runRemote, hping]

theorem sees_unregister (input : RemoteInput) (lead : List RemoteWorkerEvent) :
    Sees s (lead ++ (s.unregister input).1, (s.unregister input).2) := by
  unfold unregister
  dsimp only
  cases hserving : s.serving with
  | true =>
      split
      · exact sees_away nofun rfl (.calledOff hserving rfl (.inr rfl))
      · exact sees_away nofun rfl (.calledOff hserving rfl (.inl rfl))
  | false =>
      split
      · exact sees_away nofun rfl (.stays rfl hserving.symm)
      · exact sees_away nofun rfl (.stays rfl hserving.symm)

theorem sees_dropSession (hserving : s.serving = false) {control : RemoteWorkerControl}
    (hover : phaseOf control = .over) (hserves : serves control = false) :
    Sees s (s.dropSession control) := by
  have hphase : (s.dropSession control).2.phase = .over := hover
  refine sees_away ?_ hserves (.stays rfl (hserves.trans hserving.symm))
  rw [hphase]
  nofun

/-- Steps that stay at an await away from `run`. -/
theorem sees_drain {r : List RemoteWorkerEvent × RemoteForwardWorker}
    (hphase : s.phase ≠ .starting) (hserving : s.serving = false)
    (hcontrol : r.2.control = s.control) (hworker : r.2.worker = s.worker) : Sees s r := by
  have hphase' : r.2.phase = s.phase := congrArg phaseOf hcontrol
  have hserving' : r.2.serving = s.serving := congrArg serves hcontrol
  refine sees_away ?_ (hserving'.trans hserving) (.stays hworker hserving')
  rw [hphase']
  exact hphase

theorem sees_joinReturned (hphase : s.phase ≠ .starting) (hserving : s.serving = false)
    (place : ℕ) : Sees s (s.joinReturned place) := by
  unfold joinReturned
  split
  · exact sees_drain hphase hserving rfl rfl
  · exact sees_drain hphase hserving rfl rfl

theorem sees_joinAborted (hphase : s.phase ≠ .starting) (hserving : s.serving = false)
    (place : ℕ) : Sees s (s.joinAborted place) := by
  unfold joinAborted
  split
  · exact sees_drain hphase hserving rfl rfl
  · exact sees_drain hphase hserving rfl rfl
  · exact sees_drain hphase hserving rfl rfl

theorem sees_drained (hphase : s.phase ≠ .starting) (hserving : s.serving = false)
    (result : Except SshConnectError Unit) : Sees s (s.drained result) := by
  unfold drained
  split
  · exact sees_away nofun rfl (.stays rfl hserving.symm)
  · exact sees_drain hphase hserving rfl rfl

/-- **Every step** is one of the worker of the supervisor, or none. -/
theorem sees_step (h : Counted s) (input : RemoteWorkerInput) : Sees s (s.step input) := by
  have hrunning : Phase.running ≠ .starting := by decide
  have hdraining : Phase.draining ≠ .starting := by decide
  have hover : Phase.over ≠ .starting := by decide
  unfold step
  split
  · split
    · exact sees_same h
    · exact sees_aside h rfl rfl rfl rfl
  · split
    · exact sees_same h
    · exact sees_reply h
  · exact sees_aside h rfl rfl rfl rfl
  · exact sees_aside h rfl rfl rfl rfl
  · exact sees_task h _ _
  · rename_i hcontrol
    have hphase : s.phase = .starting := by rw [phase, hcontrol]; rfl
    have hserving : s.serving = false := by rw [serving, hcontrol]; rfl
    unfold start
    split
    · exact sees_request h hphase hserving _
    · exact sees_away hover rfl (.stays rfl hserving.symm)
  · rename_i answer hcontrol
    have hphase : s.phase = .starting := by rw [phase, hcontrol]; rfl
    have hserving : s.serving = false := by rw [serving, hcontrol]; rfl
    exact sees_request h hphase hserving _
  · rename_i error hcontrol
    exact sees_dropSession (by rw [serving, hcontrol]; rfl) rfl rfl
  · rename_i branch hcontrol
    have hserving : s.serving = true := by rw [serving, hcontrol]; rfl
    unfold poll
    split
    · rename_i htoken
      exact sees_away hrunning rfl (.cancelled htoken.2 hserving rfl rfl)
    · exact sees_run hrunning (h.2 hserving) (.stays rfl hserving.symm)
  · rename_i closed hcontrol
    have hserving : s.serving = true := by rw [serving, hcontrol]; rfl
    unfold sessionTick
    cases closed with
    | true => exact sees_away hrunning rfl (.returns (.sessionTick true) _ rfl hserving rfl rfl)
    | false => exact sees_run hrunning (h.2 hserving) (.stays rfl hserving.symm)
  · rename_i hcontrol
    have hserving : s.serving = true := by rw [serving, hcontrol]; rfl
    exact sees_run hrunning (h.2 hserving) (.stays rfl hserving.symm)
  · rename_i result hcontrol
    exact sees_pinged h (by rw [serving, hcontrol]; rfl) result
  · rename_i place hcontrol
    exact sees_join h (by rw [serving, hcontrol]; rfl) place
  · rename_i hcontrol
    split
    · rename_i hroom
      exact sees_receive h (by rw [serving, hcontrol]; rfl) hroom
    · exact sees_same h
  · split
    · exact sees_unregister .cancel [.stopping]
    · exact sees_same h
  · exact sees_unregister _ []
  · rename_i result place hcontrol
    refine sees_joinReturned ?_ (by rw [serving, hcontrol]; rfl) place
    rw [phase, hcontrol]
    exact hdraining
  · rename_i result hcontrol
    have hserving : s.serving = false := by rw [serving, hcontrol]; rfl
    split
    · exact sees_same h
    · exact sees_away hdraining rfl (.stays rfl hserving.symm)
  · rename_i result place hcontrol
    refine sees_joinAborted ?_ (by rw [serving, hcontrol]; rfl) place
    rw [phase, hcontrol]
    exact hdraining
  · rename_i result hcontrol
    refine sees_drained ?_ (by rw [serving, hcontrol]; rfl) result
    rw [phase, hcontrol]
    exact hdraining
  · rename_i result hcontrol
    refine sees_drained ?_ (by rw [serving, hcontrol]; rfl) result
    rw [phase, hcontrol]
    exact hdraining
  · rename_i result hcontrol
    exact sees_dropSession (by rw [serving, hcontrol]; rfl) rfl rfl
  · exact sees_same h

/-- **The supervisor's worker** takes part in every step of a run. -/
theorem seen_run (localTarget : LocalEndpoint) (remote : Option RemoteEndpoint)
    (inputs : List RemoteWorkerInput) :
    ∀ x ∈ trace step (before localTarget remote) inputs, Seen x.before x.after := by
  have hstep : ∀ s input, True → Counted s → Counted (step s input).2 ∧ Seen s (step s input).2 :=
    fun _ input _ h => sees_step h input
  have hbefore : Counted (before localTarget remote) := ⟨fun _ => ⟨rfl, rfl⟩, nofun⟩
  exact trace_forall hstep hbefore fun _ _ => trivial

/-- A forward that the far side registers, the first poll, and the time
for a ping. -/
def registeredRun : List RemoteWorkerInput :=
  [.start, .registered (.success 9000)] ++ List.replicate 3 .poll ++ [.healthTick, .pinged (.ok [])]

theorem seen_run_registered :
    ∃ x ∈ trace step (before ⟨"127.0.0.1", 80⟩ (some ⟨"localhost", 9000⟩)) registeredRun,
      x.before.phase = .starting ∧ x.after.phase = .running ∧ Seen x.before x.after := by
  let run := trace step (before ⟨"127.0.0.1", 80⟩ (some ⟨"localhost", 9000⟩)) registeredRun
  have hmem : run.get ⟨1, by decide⟩ ∈ run := List.get_mem _ _
  exact ⟨_, hmem, rfl, rfl, seen_run _ _ registeredRun _ hmem⟩

end RemoteForwardWorker

end TunnelWarden

import TunnelWarden.Common.Notify
import TunnelWarden.Supervisor.Model.Worker

/-!
# The supervisor of a Remote tunnel

`RemoteForwardSupervisor::run`, one event at a time, in the manner of
the Local one. There is no listener to keep, so nothing but a
cancellation ends it, and the listener at the far side has to be
registered before the tunnel is healthy.
-/

namespace TunnelWarden

/-- The await a supervisor is at. -/
inductive RemoteControl where
  /-- Spawned, and not polled yet. -/
  | spawned
  /-- `connect(..)`, or a cancellation. -/
  | connecting (attempt : ℕ)
  /-- `chain.ping_all(..)`. -/
  | pinging (attempt : ℕ)
  /-- `RemoteForwardWorker::start_chain(..)`. -/
  | registering (attempt : ℕ) (rtts : List Duration)
  /-- The loop around `worker.run()`. -/
  | serving (attempt : ℕ) (since : Instant) (remotePort : ℕ) (worker : Worker)
  /-- `worker.stop()`. -/
  | stopping (attempt : ℕ) (since : Instant) (outcome : Except RemoteForwardError Unit)
  /-- `retry_hint.notified()`, or a cancellation. -/
  | blocked (resume : ℕ)
  /-- `sleep(delay)` or the hint, or a cancellation. -/
  | backoff (resume : ℕ)
  /-- `run` has returned. -/
  | finished

structure RemoteForwardSupervisor where
  localTarget : LocalEndpoint
  retries : RetryPolicy
  cancelled : Bool := false
  state : SupervisorState := .connecting 1
  retryHint : Notify := {}
  control : RemoteControl := .spawned

namespace RemoteForwardSupervisor

/-- `RemoteForwardSupervisor::new`. -/
def new (localTarget : LocalEndpoint) (retry : RetryPolicy) : RemoteForwardSupervisor :=
  { localTarget, retries := retry }

/-- The end of `run`. -/
def finish (s : RemoteForwardSupervisor) : List Effect × RemoteForwardSupervisor :=
  ([.publish .stopped], { s with state := .stopped, control := .finished })

/-- The top of the loop of `run`. -/
def attempt (n : ℕ) (s : RemoteForwardSupervisor) : List Effect × RemoteForwardSupervisor :=
  if s.cancelled then s.finish
  else ([.publish (.connecting n), .connect],
    { s with state := .connecting n, control := .connecting n })

/-- `after_failure` up to its wait. -/
def afterFailure (n : ℕ) (reason : String) (blocked : Bool) (jitter : ℤ) (resume : ℕ)
    (s : RemoteForwardSupervisor) : List Effect × RemoteForwardSupervisor :=
  let state := failureState s.retries n reason blocked jitter
  ([.publish state], { s with
    state, control := if blocked then .blocked resume else .backoff resume })

/-- A chain that answered its pings: the far side is asked to listen,
unless the local target cannot be one. -/
def register (n : ℕ) (rtts : List Duration) (jitter : ℤ) (s : RemoteForwardSupervisor) :
    List Effect × RemoteForwardSupervisor :=
  if validTarget s.localTarget then ([], { s with control := .registering n rtts })
  else
    let error := RemoteForwardError.invalidTarget
    s.afterFailure n error.display (remoteRetryability error = .blocked) jitter (nextAttempt n)

/-- What a worker's end is called. -/
def outcomeReason : Except RemoteForwardError Unit → String
  | .ok () => "remote SSH worker stopped unexpectedly"
  | .error error => error.display

/-- A round of a wait for the hint, and then attempt `resume`. -/
def awaitHint (resume : ℕ) (s : RemoteForwardSupervisor) :
    List Effect × RemoteForwardSupervisor :=
  if s.cancelled then s.finish
  else
    let (woken, hint) := s.retryHint.poll
    let polled := { s with retryHint := hint }
    if woken then polled.attempt resume else ([], polled)

/-- The task runs: one event, at the await it is at. -/
def advance (s : RemoteForwardSupervisor) (event : SupervisorEvent) :
    List Effect × RemoteForwardSupervisor :=
  match s.control with
  | .spawned => s.attempt 1
  | .connecting n =>
    if s.cancelled then s.finish
    else match event with
      | .connected (.ok ()) _ => ([], { s with control := .pinging n })
      | .connected (.error error) jitter =>
        s.afterFailure n error.display (chainRetryability error = .blocked) jitter (nextAttempt n)
      | _ => ([], s)
  | .pinging n =>
    match event with
    | .pinged (.ok rtts) _ jitter => s.register n rtts jitter
    | .pinged (.error error) _ jitter =>
      s.afterFailure n error.display false jitter (nextAttempt n)
    | _ => ([], s)
  | .registering n rtts =>
    match event with
    | .registered (.ok port) now _ =>
      ([.publish (.healthy rtts (some port))],
        { s with state := .healthy rtts (some port), control := .serving n now port {} })
    | .registered (.error source) _ jitter =>
      let error := RemoteForwardError.registration source
      s.afterFailure n error.display (remoteRetryability error = .blocked) jitter (nextAttempt n)
    | _ => ([], s)
  | .serving n since port worker =>
    if s.cancelled then ([], { s with control := .stopping n since (.ok ()) })
    else match event with
      | .healthChanged =>
        let (worker, state) := worker.observe (some port)
        let s := { s with control := .serving n since port worker }
        match state with
        | some state => ([.publish state], { s with state })
        | none => ([], s)
      | event =>
        match worker.runRemote event with
        | .inl worker => ([], { s with control := .serving n since port worker })
        | .inr outcome => ([], { s with control := .stopping n since outcome })
  | .stopping n since outcome =>
    match event with
    | .released now jitter =>
      if s.cancelled then s.finish
      else
        let n := if s.retries.shouldReset (now - since) then 1 else nextAttempt n
        s.afterFailure n (outcomeReason outcome) false jitter n
    | _ => ([], s)
  | .blocked resume => s.awaitHint resume
  | .backoff resume =>
    match event with
    | .elapsed =>
      let dropped := { s with retryHint := s.retryHint.drop }
      if dropped.cancelled then dropped.finish else dropped.attempt resume
    | _ => s.awaitHint resume
  | .finished => ([], s)

/-- One event. A signal and a cancellation come from other tasks. -/
def step (s : RemoteForwardSupervisor) (event : SupervisorEvent) :
    List Effect × RemoteForwardSupervisor :=
  match event with
  | .cancel => ([], { s with cancelled := true })
  | .notify => ([], { s with retryHint := s.retryHint.notifyOne })
  | event => s.advance event

end RemoteForwardSupervisor

end TunnelWarden

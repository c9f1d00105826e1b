import TunnelWarden.Common.Notify
import TunnelWarden.Supervisor.Model.Worker

/-!
# The supervisor of a Local or Dynamic tunnel

`LocalForwardSupervisor::run`, one event at a time. Its `control` is the
await it is at. Between two awaits it runs through, so what it does
there is one step: from leaving a wait to the next call of the
connector, and from a failure to the state that is published for it. The
shutdown at the end is one step as well, since nothing that happens
during it changes its outcome.
-/

namespace TunnelWarden

open Lifecycle

/-- `MAX_UNHEALTHY_CLIENTS`. -/
def maxUnhealthyClients : ℕ := 64

inductive SupervisorMode where
  | «local» (remote : RemoteEndpoint)
  | dynamic
  deriving DecidableEq, Repr

inductive SupervisorError where
  | noListener
  | accept (source : IoError)
  | worker (source : LocalForwardError)
  | shutdown (source : ListenerRuntimeError)
  deriving DecidableEq

/-- The text of a supervisor error. -/
def SupervisorError.display : SupervisorError → String
  | .noListener => "local listener is not bound"
  | .accept source => "local accept failed: " ++ source.text
  | .worker source => "local worker failed: " ++ source.display
  | .shutdown source => "listener shutdown failed: " ++ source.display

/-- The await a supervisor is at. A wait after a failure knows the
number of the attempt that follows it. -/
inductive LocalControl where
  /-- Spawned, and not polled yet. -/
  | spawned
  /-- `while_unhealthy(connect())`. -/
  | connecting (attempt : ℕ)
  /-- `chain.ping_all(..)`. -/
  | pinging (attempt : ℕ)
  /-- The loop around `worker.run()`; the worker owns the listener. -/
  | serving (attempt : ℕ) (since : Instant) (worker : Worker) (listener : ListenerRuntime)
  /-- `worker.release_listener()`. -/
  | releasing (attempt : ℕ) (since : Instant) (outcome : Except LocalForwardError Unit)
    (listener : ListenerRuntime)
  /-- `while_unhealthy(hint.notified())`. -/
  | blocked (resume : ℕ)
  /-- `while_unhealthy(sleep or hint)`. -/
  | backoff (resume : ℕ)
  /-- `run` has returned. -/
  | finished (result : Except SupervisorError Unit)

structure LocalForwardSupervisor where
  listener : Option ListenerRuntime
  mode : SupervisorMode
  retries : RetryPolicy
  cancelled : Bool := false
  state : SupervisorState := .connecting 1
  unhealthyClients : ℕ := 0
  retryHint : Notify := {}
  control : LocalControl := .spawned
  /-- The listener as it was when `run` dropped it. -/
  dropped : Option ListenerRuntime := none

namespace LocalForwardSupervisor

/-- `LocalForwardSupervisor::new`, of a listener with a bound socket. -/
def new (listener : ListenerRuntime) (mode : SupervisorMode) (retry : RetryPolicy) :
    Except SupervisorError LocalForwardSupervisor :=
  if listener.listener = none then .error .noListener
  else .ok { listener := some listener, mode, retries := retry }

/-- `listener.stop()` of the listener that was taken, and the listener as
it is dropped then. -/
def stopListener (s : LocalForwardSupervisor) :
    Except SupervisorError Unit × Option ListenerRuntime :=
  match s.listener with
  | none => (.ok (), s.dropped)
  | some listener =>
    match ListenerRuntime.stop.run listener with
    | (.ok (), listener) => (.ok (), some listener)
    | (.error error, listener) => (.error (.shutdown error), some listener)

/-- The end of `run`: the clients turned away are joined, the listener
is stopped and `Stopped` is published. -/
def finish (result : Except SupervisorError Unit) (s : LocalForwardSupervisor) :
    List Effect × LocalForwardSupervisor :=
  let (stopped, dropped) := s.stopListener
  let result : Except SupervisorError Unit :=
    match result with
    | .ok () => stopped
    | .error error => .error error
  ([.publish .stopped], { s with
    cancelled := true, unhealthyClients := 0, listener := none, state := .stopped,
    control := .finished result, dropped })

/-- The top of the loop of `run_until_stopped`. -/
def attempt (n : ℕ) (s : LocalForwardSupervisor) : List Effect × LocalForwardSupervisor :=
  if s.cancelled then s.finish (.ok ())
  else ([.publish (.connecting n), .connect],
    { s with state := .connecting n, control := .connecting n })

/-- `after_failure` up to its wait. -/
def afterFailure (n : ℕ) (reason : String) (blocked : Bool) (jitter : ℤ) (resume : ℕ)
    (s : LocalForwardSupervisor) : List Effect × LocalForwardSupervisor :=
  let state := failureState s.retries n reason blocked jitter
  ([.publish state], { s with
    state, control := if blocked then .blocked resume else .backoff resume })

/-- `reject_unhealthy`: a SOCKS client is told so by a task of its own, a
raw client is closed at once. -/
def rejectUnhealthy (s : LocalForwardSupervisor) : LocalForwardSupervisor :=
  match s.mode with
  | .dynamic => { s with unhealthyClients := s.unhealthyClients + 1 }
  | .local _ => s

/-- One round of `while_unhealthy`. `ready` is how `run` goes on where
the awaited future is ready; clients are looked at only where it is
not. -/
def whileUnhealthy (ready : Option (List Effect × LocalForwardSupervisor)) (event : SupervisorEvent)
    (s : LocalForwardSupervisor) : List Effect × LocalForwardSupervisor :=
  match s.listener.bind ListenerRuntime.listener with
  | none => s.finish (.error .noListener)
  | some _ =>
    if s.cancelled then s.finish (.ok ())
    else match ready, event with
      | some next, _ => next
      | none, .clientDone => ([], { s with unhealthyClients := s.unhealthyClients - 1 })
      | none, .accepted result =>
        if s.unhealthyClients < maxUnhealthyClients then
          match result with
          | .ok () => ([], s.rejectUnhealthy)
          | .error error => s.finish (.error (.accept error))
        else ([], s)
      | none, _ => ([], s)

/-- A chain that answered its pings: the worker takes the listener. -/
def serve (n : ℕ) (rtts : List Duration) (now : Instant) (s : LocalForwardSupervisor) :
    List Effect × LocalForwardSupervisor :=
  match s.listener with
  | none => s.finish (.error .noListener)
  | some listener =>
    let s := { s with listener := none }
    -- a listener that `build` refuses is dropped as it is
    if listener.listener = none then
      { s with dropped := some listener }.finish (.error (.worker .noListener))
    else ([.publish (.healthy rtts none)],
      { s with state := .healthy rtts none, control := .serving n now {} listener })

/-- What a worker's end is called. -/
def outcomeReason : Except LocalForwardError Unit → String
  | .ok () => "SSH worker stopped unexpectedly"
  | .error error => error.display

/-- A round of a wait for the hint, and then attempt `resume`. -/
def awaitHint (resume : ℕ) (event : SupervisorEvent) (s : LocalForwardSupervisor) :
    List Effect × LocalForwardSupervisor :=
  let (woken, hint) := s.retryHint.poll
  let polled := { s with retryHint := hint }
  polled.whileUnhealthy (if woken then some (polled.attempt resume) else none) event

/-- The task runs: one event, at the await it is at. -/
def advance (s : LocalForwardSupervisor) (event : SupervisorEvent) :
    List Effect × LocalForwardSupervisor :=
  match s.control with
  | .spawned => s.attempt 1
  | .connecting n =>
    let ready := match event with
      | .connected (.ok ()) _ => some ([], { s with control := .pinging n })
      | .connected (.error error) jitter =>
        some (s.afterFailure n error.display (chainRetryability error = .blocked) jitter
          (nextAttempt n))
      | _ => none
    s.whileUnhealthy ready event
  | .pinging n =>
    match event with
    | .pinged (.ok rtts) now _ => s.serve n rtts now
    | .pinged (.error error) _ jitter =>
      s.afterFailure n error.display false jitter (nextAttempt n)
    | _ => ([], s)
  | .serving n since worker listener =>
    match event with
    | .healthChanged =>
      let (worker, state) := worker.observe none
      let s := { s with control := .serving n since worker listener }
      match state with
      | some state => ([.publish state], { s with state })
      | none => ([], s)
    | event =>
      match worker.runLocal s.cancelled event with
      | .inl worker => ([], { s with control := .serving n since worker listener })
      | .inr outcome => ([], { s with control := .releasing n since outcome listener })
  | .releasing n since outcome listener =>
    match event with
    -- the listener comes back before anything else is looked at
    | .released now jitter =>
      let s := { s with listener := some listener }
      if s.cancelled then s.finish (.ok ())
      else
        let n := if s.retries.shouldReset (now - since) then 1 else nextAttempt n
        s.afterFailure n (outcomeReason outcome) false jitter n
    | _ => ([], s)
  | .blocked resume => s.awaitHint resume event
  | .backoff resume =>
    match event with
    | .elapsed =>
      -- the hint is polled no more, and a permit stays for the next wait
      let dropped := { s with retryHint := s.retryHint.drop }
      dropped.whileUnhealthy (some (dropped.attempt resume)) event
    | event => s.awaitHint resume event
  | .finished _ => ([], s)

/-- One event. A signal and a cancellation come from other tasks. -/
def step (s : LocalForwardSupervisor) (event : SupervisorEvent) :
    List Effect × LocalForwardSupervisor :=
  match event with
  | .cancel => ([], { s with cancelled := true })
  | .notify => ([], { s with retryHint := s.retryHint.notifyOne })
  | event => s.advance event

end LocalForwardSupervisor

end TunnelWarden

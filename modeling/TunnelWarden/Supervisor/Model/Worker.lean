import TunnelWarden.Lifecycle.Model.ListenerRuntime
import TunnelWarden.Supervisor.Model.State

/-!
# The workers of a connected tunnel

`LocalForwardWorker` and `RemoteForwardWorker` serve a tunnel while its
SSH connection is good: they count their connections, ping the hops and
report what they find. A worker ends with an outcome; the supervisor
makes a reason of it. What the forwarded connections do is left out:
nothing here depends on it.
-/

namespace TunnelWarden

open Lifecycle

/-- `MAX_ACTIVE_CONNECTIONS`. -/
def maxActiveConnections : ℕ := 64

/-- The pings in a row that may not all fail. -/
def maxPingFailures : ℕ := 3

/-- What reaches a supervisor, or happens beside it. An event that the
supervisor does not wait for passes it by. -/
inductive SupervisorEvent where
  /-- The connector has a chain or an error. -/
  | connected (result : Except Ssh.SshChainError Unit) (jitter : ℤ)
  /-- The first ping of every hop has an answer. -/
  | pinged (result : Except Ssh.SshChainError (List Duration)) (now : Instant) (jitter : ℤ)
  /-- The far side answers the registration of a Remote tunnel. -/
  | registered (result : Except Ssh.SshConnectError ℕ) (now : Instant) (jitter : ℤ)
  /-- The tick that looks whether the session is closed. -/
  | sessionTick (closed : Bool)
  /-- The tick that pings every hop. -/
  | healthTick (result : Except Ssh.SshChainError (List Duration))
  /-- A forwarded connection ends. -/
  | connectionDone
  /-- The listener has a client or an error. -/
  | accepted (result : Except IoError Unit)
  /-- The far side opens a channel, or will open none any more. -/
  | channel (opened : Bool)
  /-- The supervisor sees the health its worker reported last. -/
  | healthChanged
  /-- The worker has given back what it held. -/
  | released (now : Instant) (jitter : ℤ)
  /-- A client that was turned away is done. -/
  | clientDone
  /-- The delay before the next attempt is over. -/
  | elapsed
  /-- The task runs for another reason. -/
  | poll
  /-- `notify_one` on the retry hint. -/
  | notify
  /-- The cancellation token is cancelled. -/
  | cancel

/-- What others see of a step: a state that is published, and a call of
the connector. -/
inductive Effect where
  | publish (state : SupervisorState)
  | connect
  deriving DecidableEq, Repr

/-- A running worker: the pings that failed in a row, the connections it
forwards, and the health it reported last, with whether the supervisor
has seen it. -/
structure Worker where
  pingFailures : ℕ := 0
  connections : ℕ := 0
  health : Option WorkerHealth := none
  unseen : Bool := false
  deriving DecidableEq, Repr

namespace Worker

/-- The pings of `HEALTH_INTERVAL`: the error that is one too many ends
the worker. -/
def healthTick (w : Worker) :
    Except Ssh.SshChainError (List Duration) → Except Ssh.SshChainError Worker
  | .ok rtts => .ok { w with pingFailures := 0, health := some (.healthy rtts), unseen := true }
  | .error error =>
    let failures := min (w.pingFailures + 1) 255
    if maxPingFailures ≤ failures then .error error
    else .ok { w with
      pingFailures := failures
      health := some (.degraded failures (takeChars 512 error.display))
      unseen := true }

/-- One connection more. -/
def connectionOpened (w : Worker) : Worker := { w with connections := w.connections + 1 }

/-- One connection less. -/
def connectionDone (w : Worker) : Worker := { w with connections := w.connections - 1 }

/-- `borrow_and_update` of the health, and the state it is published as. -/
def observe (w : Worker) (remotePort : Option ℕ) : Worker × Option SupervisorState :=
  if w.unseen then
    ({ w with unseen := false }, w.health.map fun
      | .healthy rtts => .healthy rtts remotePort
      | .degraded failedPings reason => .degraded failedPings reason)
  else (w, none)

end Worker

/-! ## Local and Dynamic -/

inductive LocalForwardError where
  | noListener
  | sessionClosed
  | health (source : Ssh.SshChainError)
  | accept (source : IoError)
  | shutdown (source : ListenerRuntimeError)
  deriving DecidableEq

/-- The text of a worker error. -/
def LocalForwardError.display : LocalForwardError → String
  | .noListener => "local listener is not bound"
  | .sessionClosed => "SSH session closed"
  | .health source => "SSH health check failed: " ++ source.display
  | .accept source => "local accept failed: " ++ source.text
  | .shutdown source => "listener shutdown failed: " ++ source.display

/-- `LocalForwardWorker::run`, one event at a time: it goes on, or ends
with an outcome. -/
def Worker.runLocal (w : Worker) (cancelled : Bool) (event : SupervisorEvent) :
    Worker ⊕ Except LocalForwardError Unit :=
  if cancelled then .inr (.ok ())
  else match event with
    | .sessionTick closed => if closed then .inr (.error .sessionClosed) else .inl w
    | .healthTick result =>
      match w.healthTick result with
      | .ok w => .inl w
      | .error error => .inr (.error (.health error))
    | .connectionDone => .inl w.connectionDone
    | .accepted result =>
      if w.connections < maxActiveConnections then
        match result with
        | .ok () => .inl w.connectionOpened
        | .error error => .inr (.error (.accept error))
      else .inl w
    | _ => .inl w

/-! ## Remote -/

inductive RemoteForwardError where
  | invalidTarget
  | sessionClosed
  | health (source : Ssh.SshChainError)
  | registration (source : Ssh.SshConnectError)
  | cancellation (source : Ssh.SshConnectError)
  deriving DecidableEq

/-- The text of a worker error. -/
def RemoteForwardError.display : RemoteForwardError → String
  | .invalidTarget => "invalid local target"
  | .sessionClosed => "SSH session closed"
  | .health source => "SSH health check failed: " ++ source.display
  | .registration source => "remote forward registration failed: " ++ source.display
  | .cancellation source => "remote forward cancellation failed: " ++ source.display

/-- `remote_retryability`. -/
def remoteRetryability : RemoteForwardError → Retryability
  | .invalidTarget => .blocked
  | .registration source | .cancellation source => source.summary.retryability
  | .sessionClosed | .health _ => .transient

/-- The check `start_chain` makes of its target. -/
def validTarget (target : LocalEndpoint) : Bool :=
  target.host != "" && byteLen target.host ≤ 255 && target.port != 0

/-- `RemoteForwardWorker::run`, whose token only the supervisor
cancels. -/
def Worker.runRemote (w : Worker) (event : SupervisorEvent) :
    Worker ⊕ Except RemoteForwardError Unit :=
  match event with
  | .sessionTick closed => if closed then .inr (.error .sessionClosed) else .inl w
  | .healthTick result =>
    match w.healthTick result with
    | .ok w => .inl w
    | .error error => .inr (.error (.health error))
  | .connectionDone => .inl w.connectionDone
  | .channel opened =>
    if w.connections < maxActiveConnections then
      if opened then .inl w.connectionOpened else .inr (.error .sessionClosed)
    else .inl w
  | _ => .inl w

end TunnelWarden

import TunnelWarden.Common.Io
import TunnelWarden.Lifecycle.Model.Machine

/-!
# The owner of a local port

`ListenerRuntime`: a lifecycle machine and the TCP listener it accounts
for. Binding is the one operation of the system it performs; its outcome
and the addresses the socket reports are given from outside.
-/

namespace TunnelWarden

namespace Lifecycle

/-- The text of a phase, as `{:?}` writes it. -/
def RuntimePhase.debug : RuntimePhase → String
  | .stopped => "Stopped"
  | .starting => "Starting"
  | .connecting => "Connecting"
  | .authenticating => "Authenticating"
  | .establishingForward => "EstablishingForward"
  | .healthy => "Healthy"
  | .degraded => "Degraded"
  | .reconnecting => "Reconnecting"
  | .blocked => "Blocked"
  | .stopping => "Stopping"
  | .failed => "Failed"

/-- The text of a machine error. -/
def MachineError.display : MachineError → String
  | .invalidTransition event phase =>
    "event " ++ event ++ " is invalid while tunnel is " ++ phase.debug
  | .generationExhausted => "generation counter is exhausted"
  | .invalidHop => "hop index must be within a nonempty chain"

/-- A bound socket, with the address it is bound to. -/
structure TcpListener where
  address : SocketAddr
  deriving DecidableEq, Repr

/-- What `TcpListener::bind` gives, and what `local_addr` answers: while
the listener is started, and when it is asked again later. -/
inductive BindOutcome where
  | refused (source : IoError)
  | bound (listener : TcpListener) (first later : Except IoError SocketAddr)
  deriving Repr

inductive ListenerRuntimeError where
  | state (error : MachineError)
  | bind (address : SocketAddr) (source : IoError)
  deriving DecidableEq, Repr

/-- The text of a listener error. -/
def ListenerRuntimeError.display : ListenerRuntimeError → String
  | .state error => error.display
  | .bind address source => "cannot bind " ++ address.display ++ ": " ++ source.text

structure ListenerRuntime where
  machine : StateMachine
  listener : Option TcpListener
  deriving DecidableEq, Repr

/-- `bind_error`. -/
def bindError (source : IoError) : TunnelError :=
  let (kind, retryability) : TunnelErrorKind × Retryability :=
    match source.kind with
    | .permissionDenied => (.permissionDenied, .blocked)
    | .addrNotAvailable | .invalidInput => (.invalidConfig, .blocked)
    | _ => (.network, .transient)
  { kind, stage := .bindLocalPort, message := source.text, retryability }

namespace ListenerRuntime

/-- `ListenerRuntime::new`. -/
def new : ListenerRuntime := ⟨StateMachine.new true, none⟩

/-- A method of the runtime: it may fail, and what it did stays. -/
abbrev Method (α : Type) := ExceptT ListenerRuntimeError (StateM ListenerRuntime) α

/-- Pass an event to the machine; a refusal is an error. -/
def transition (event : Event) : Method EventOutcome := fun runtime =>
  match runtime.machine.transition event with
  | (.ok outcome, machine) => (.ok outcome, { runtime with machine })
  | (.error error, machine) => (.error (.state error), { runtime with machine })

/-- The error of a call the machine has no use for now. -/
def unexpected {α : Type} (event : String) : Method α := do
  throw (.state (.invalidTransition event (← get).machine.phase))

/-- `ListenerRuntime::record_bind_failure`. -/
def recordBindFailure (generation : ℕ) (address : SocketAddr) (source : IoError) (now : Instant) :
    Method Unit := do
  if source.kind = .addrInUse then
    let _ ← transition (.listenerConflict generation address)
  else
    let _ ← transition (.disconnected generation (bindError source) 0 now)

/-- `ListenerRuntime::start_listener`. -/
def startListener (address : SocketAddr) (bind : BindOutcome) (now : Instant) : Method ℕ := do
  match ← transition .start with
  | .applied (some (.beginGeneration generation)) =>
    let _ ← transition (.phase generation .acquiringListener)
    match bind with
    | .bound listener (.ok boundAddress) _ =>
      let _ ← transition (.listenerBound generation boundAddress)
      modify fun runtime => { runtime with listener := some listener }
      let _ ← transition (.phase generation .buildingJumpChain)
      return generation
    | .bound _ (.error source) _ | .refused source =>
      recordBindFailure generation address source now
      throw (.bind address source)
  | _ => unexpected "start"

/-- `ListenerRuntime::start_listener`, its future dropped while it binds:
what it did before the `await` stays, and a socket that came too late is
closed with it. -/
def startDropped : Method Unit := do
  match ← transition .start with
  | .applied (some (.beginGeneration generation)) =>
    let _ ← transition (.phase generation .acquiringListener)
  | _ => unexpected "start"

/-- `ListenerRuntime::stop`. -/
def stop : Method Unit := do
  match ← transition .stop with
  | .applied (some (.cancelAndJoin _)) =>
    modify fun runtime => { runtime with listener := none }
    let _ ← transition (.shutdownComplete (← get).machine.state.generation)
  | .noChange => return ()
  | _ => unexpected "stop"

/-- `ListenerRuntime::local_addr`, `.ok().flatten()`: the address the
owned listener reports when it is asked again. -/
def localAddr (runtime : ListenerRuntime) (bind : BindOutcome) : Option SocketAddr :=
  match runtime.listener, bind with
  | some _, .bound _ _ later => later.toOption
  | _, _ => none

/-- A call the owner of a runtime makes. -/
inductive Call where
  | startListener (address : SocketAddr) (bind : BindOutcome) (now : Instant)
  | startDropped
  | stop

/-- What a call answers, and what it leaves. -/
def call (runtime : ListenerRuntime) : Call → Except ListenerRuntimeError Unit × ListenerRuntime
  | .startListener address bind now =>
    let (answer, runtime) := (startListener address bind now).run runtime
    (answer.map fun _ => (), runtime)
  | .startDropped => startDropped.run runtime
  | .stop => stop.run runtime

end ListenerRuntime

end Lifecycle

end TunnelWarden

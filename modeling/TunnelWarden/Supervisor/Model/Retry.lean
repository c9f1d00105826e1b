import TunnelWarden.Supervisor.Model.Local
import TunnelWarden.Supervisor.Model.Remote

/-!
# A supervisor and the manager that may hurry it

The manager and a supervisor are tasks on two threads. They share the
state the supervisor publishes and the retry hint. For `RetryTunnel` and
`NetworkRecovered` the manager looks at the state, and then signals the
hint if the state is one to be hurried; between the two the supervisor
may run, so they are two inputs here.
-/

namespace TunnelWarden

/-- The commands that may signal the hint. -/
inductive Signal where
  | retryTunnel
  | networkRecovered
  deriving DecidableEq, Repr

/-- Does the command signal a supervisor that shows this state? -/
def Signal.notifies : Signal → SupervisorState → Bool
  | .retryTunnel, .blocked _ => true
  | .retryTunnel, .reconnecting .. => true
  | .networkRecovered, .reconnecting .. => true
  | _, _ => false

/-- The supervisor of a tunnel. -/
inductive Supervisor where
  | «local» (s : LocalForwardSupervisor)
  | remote (s : RemoteForwardSupervisor)

namespace Supervisor

def state : Supervisor → SupervisorState
  | .local s => s.state
  | .remote s => s.state

def retryHint : Supervisor → Notify
  | .local s => s.retryHint
  | .remote s => s.retryHint

def cancelled : Supervisor → Bool
  | .local s => s.cancelled
  | .remote s => s.cancelled

/-- One event. -/
def step : Supervisor → SupervisorEvent → List Effect × Supervisor
  | .local s, event => ((s.step event).1, .local (s.step event).2)
  | .remote s, event => ((s.step event).1, .remote (s.step event).2)

/-- A supervisor as it is spawned. -/
def Fresh : Supervisor → Prop
  | .local s => ∃ listener mode retry, LocalForwardSupervisor.new listener mode retry = .ok s
  | .remote s => ∃ target retry, s = RemoteForwardSupervisor.new target retry

end Supervisor

/-- A supervisor, and the command the manager is about to signal the
hint for. -/
structure RetrySystem where
  supervisor : Supervisor
  pending : Option Signal := none

inductive RetryInput where
  /-- The supervisor runs. -/
  | task (event : SupervisorEvent)
  /-- The manager takes a command and looks at the state. -/
  | check (signal : Signal)
  /-- The signal it decided on. -/
  | notify

/-- One input. The manager is done with one command before it takes the
next, and nobody else has the hint. -/
def RetrySystem.step (s : RetrySystem) : RetryInput → List Effect × RetrySystem
  | .task .notify => ([], s)
  | .task event => ((s.supervisor.step event).1, { s with supervisor := (s.supervisor.step event).2 })
  | .check signal =>
    match s.pending with
    | some _ => ([], s)
    | none =>
      ([], { s with pending := if signal.notifies s.supervisor.state then some signal else none })
  | .notify =>
    match s.pending with
    | some _ => ([], { supervisor := (s.supervisor.step .notify).2, pending := none })
    | none => ([], s)

end TunnelWarden

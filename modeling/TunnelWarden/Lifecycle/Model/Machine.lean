import Mathlib.Algebra.Group.Nat.Defs
import TunnelWarden.Common.Run
import TunnelWarden.Domain.Model

/-!
# The lifecycle reducer

`StateMachine::transition`, through which every lifecycle mutation
passes. An event that carries a generation other than the current one is
stale and is ignored; any other event is checked against the phase and
either refused, found to change nothing, or applied. Only an applied
event reaches the journal, and only user commands and a completed
shutdown have an effect for the owner of the resources to execute.

The transition returns the machine beside its answer, as the source's
`&mut self` does, so what a refused event leaves behind is part of the
model. The wall-clock time of a journal entry is left out: nothing here
reads it.
-/

namespace TunnelWarden

namespace Lifecycle

/-- The most entries the journal holds. -/
def journalLimit : ℕ := 200

/-- `u64::MAX`, the last generation there is. -/
def generationMax : ℕ := 2 ^ 64 - 1

inductive RuntimePhase where
  | stopped
  | starting
  | connecting
  | authenticating
  | establishingForward
  | healthy
  | degraded
  | reconnecting
  | blocked
  | stopping
  | failed
  deriving DecidableEq, Repr

/-- `From<&RuntimeState> for RuntimePhase`. -/
@[simp] def RuntimePhase.of : RuntimeState → RuntimePhase
  | .stopped => .stopped
  | .starting _ => .starting
  | .connecting .. => .connecting
  | .authenticating .. => .authenticating
  | .establishingForward => .establishingForward
  | .healthy _ => .healthy
  | .degraded .. => .degraded
  | .reconnecting .. => .reconnecting
  | .blocked _ => .blocked
  | .stopping => .stopping
  | .failed _ => .failed

/-- `struct Lifecycle`: the coupled fields a transition updates. -/
structure LifecycleState where
  desired : DesiredState
  runtime : RuntimeState
  listener : ListenerState
  health : HealthState
  generation : ℕ
  deriving DecidableEq, Repr

inductive Event where
  | start
  | stop
  | restart
  | configChanged
  | shutdownComplete (generation : ℕ)
  | phase (generation : ℕ) (phase : StartPhase)
  | listenerBound (generation : ℕ) (address : SocketAddr)
  | listenerConflict (generation : ℕ) (address : SocketAddr)
  | connecting (generation hop totalHops attempt : ℕ)
  | authenticating (generation hop totalHops : ℕ)
  | authenticated (generation : ℕ)
  | hopAuthenticated (generation : ℕ)
  | forwardReady (generation : ℕ)
  | pingSucceeded (generation : ℕ) (at' : Instant) (rtt : Duration)
  | pingFailed (generation : ℕ) (at' : Instant) (attempt : ℕ) (nextRetryAt : Instant)
  | disconnected (generation : ℕ) (error : TunnelError) (attempt : ℕ) (nextRetryAt : Instant)
  deriving DecidableEq, Repr

/-- `Event::generation`: the generation an asynchronous result was
produced under. A user command has none. -/
def Event.generation : Event → Option ℕ
  | .start | .stop | .restart | .configChanged => none
  | .shutdownComplete g | .phase g _ | .listenerBound g _ | .listenerConflict g _
  | .connecting g .. | .authenticating g .. | .authenticated g | .hopAuthenticated g
  | .forwardReady g | .pingSucceeded g .. | .pingFailed g .. | .disconnected g .. => some g

/-- `Event::cause`. -/
def Event.cause : Event → String
  | .start => "start"
  | .stop => "stop"
  | .restart => "restart"
  | .configChanged => "config_changed"
  | .shutdownComplete _ => "shutdown_complete"
  | .phase .. => "start_phase"
  | .listenerBound .. => "listener_bound"
  | .listenerConflict .. => "listener_conflict"
  | .connecting .. => "connecting"
  | .authenticating .. => "authenticating"
  | .authenticated _ => "authenticated"
  | .hopAuthenticated _ => "hop_authenticated"
  | .forwardReady _ => "forward_ready"
  | .pingSucceeded .. => "ping_succeeded"
  | .pingFailed .. => "ping_failed"
  | .disconnected .. => "disconnected"

inductive TransitionEffect where
  /-- The manager may begin work for this generation. -/
  | beginGeneration (generation : ℕ)
  /-- Cancel and join all work of this generation, then report
  `shutdownComplete`. -/
  | cancelAndJoin (generation : ℕ)
  deriving DecidableEq, Repr

structure StateTransition where
  fromPhase : RuntimePhase
  toPhase : RuntimePhase
  cause : String
  generation : ℕ
  deriving DecidableEq, Repr

inductive EventOutcome where
  | applied (effect : Option TransitionEffect)
  | ignoredStale
  | noChange
  deriving DecidableEq, Repr

inductive MachineError where
  | invalidTransition (event : String) (phase : RuntimePhase)
  | generationExhausted
  | invalidHop
  deriving DecidableEq, Repr

/-- What a transition answers. -/
abbrev Answer := Except MachineError EventOutcome

structure StateMachine where
  state : LifecycleState
  journal : List StateTransition
  restartAfterShutdown : Bool
  listenerRequired : Bool
  deriving DecidableEq, Repr

namespace StateMachine

/-- The listener state of a tunnel that holds no port. -/
def idleListener (listenerRequired : Bool) : ListenerState :=
  if listenerRequired then .unbound else .notRequired

/-- `StateMachine::new`. -/
def new (listenerRequired : Bool) : StateMachine where
  state :=
    { desired := .stopped
      runtime := .stopped
      listener := idleListener listenerRequired
      health := {}
      generation := 0 }
  journal := []
  restartAfterShutdown := false
  listenerRequired := listenerRequired

/-- The phase the machine is in. -/
def phase (m : StateMachine) : RuntimePhase := RuntimePhase.of m.state.runtime

/-- `StateMachine::invalid`. -/
def invalid (event : String) (phase : RuntimePhase) : MachineError :=
  .invalidTransition event phase

/-- `StateMachine::next_generation`: `checked_add`, which leaves the
counter alone when it is exhausted. -/
def nextGeneration (m : StateMachine) : Except MachineError Unit × StateMachine :=
  if m.state.generation + 1 ≤ generationMax then
    (.ok (), { m with state := { m.state with generation := m.state.generation + 1 } })
  else (.error .generationExhausted, m)

/-- `StateMachine::begin`. -/
def begin (m : StateMachine) : StateMachine :=
  { m with
    state :=
      { m.state with
        desired := .running
        runtime := .starting .validating
        health := {}
        listener := idleListener m.listenerRequired } }

/-- `StateMachine::require_running`. -/
def requireRunning (m : StateMachine) (cause : String) (phase : RuntimePhase) :
    Except MachineError Unit :=
  if m.state.desired = .running ∧ phase ∉ [.stopping, .stopped, .blocked, .failed] then .ok ()
  else .error (invalid cause phase)

/-- `StateMachine::require_phase`. -/
def requirePhase (m : StateMachine) (cause : String) (phase : RuntimePhase)
    (valid : List RuntimePhase) : Except MachineError Unit :=
  match m.requireRunning cause phase with
  | .error e => .error e
  | .ok () => if phase ∈ valid then .ok () else .error (invalid cause phase)

/-- `StateMachine::require_start_phase`. -/
def requireStartPhase (m : StateMachine) (cause : String) (expected : StartPhase) :
    Except MachineError Unit :=
  match m.requireRunning cause m.phase with
  | .error e => .error e
  | .ok () =>
    if m.state.runtime = .starting expected then .ok () else .error (invalid cause m.phase)

/-- `StateMachine::check_hop`. -/
def checkHop (hop totalHops : ℕ) : Except MachineError Unit :=
  if 0 < totalHops ∧ 1 ≤ hop ∧ hop ≤ totalHops then .ok () else .error .invalidHop

/-- `StateMachine::record`. -/
def record (m : StateMachine) (fromPhase : RuntimePhase) (cause : String) : StateMachine :=
  let kept := if m.journal.length = journalLimit then m.journal.tail else m.journal
  { m with
    journal := kept ++ [⟨fromPhase, m.phase, cause, m.state.generation⟩] }

/-- A check the source writes with `?`: an error returns at once, with
the machine as it is then. -/
def guard (m : StateMachine) (check : Except MachineError Unit)
    (next : Answer × StateMachine) : Answer × StateMachine :=
  match check with
  | .error e => (.error e, m)
  | .ok () => next

/-- `self.next_generation()?`, then the rest on the machine it leaves. -/
def withNextGeneration (m : StateMachine) (next : StateMachine → Answer × StateMachine) :
    Answer × StateMachine :=
  match m.nextGeneration with
  | (.error e, m) => (.error e, m)
  | (.ok (), m) => next m

/-- The common end of every applied event: journal it and hand out its
effect. -/
def applied (m : StateMachine) (old : RuntimePhase) (cause : String)
    (effect : Option TransitionEffect) : Answer × StateMachine :=
  (.ok (.applied effect), m.record old cause)

/-- Enter the shutdown of the current work: the state and health a
`Stop`, a `Restart` and a configuration change all leave. -/
def enterStopping (m : StateMachine) (desired : DesiredState) (restart : Bool) : StateMachine :=
  { m with
    state := { m.state with desired := desired, runtime := .stopping, health := {} }
    restartAfterShutdown := restart }

/-- The error a refused port is reported with. -/
def portConflict (address : SocketAddr) : TunnelError where
  kind := .portConflict
  stage := .bindLocalPort
  message := "Port " ++ address.display ++ " is already in use"
  retryability := .blocked

/-- The error three missed pings are reported with. -/
def pingTimedOut : TunnelError where
  kind := .timeout
  stage := .healthCheck
  message := "SSH session ping timed out"
  retryability := .transient

/-- `rtt.as_millis().min(u32::MAX)`. -/
def rttMillis (rtt : Duration) : ℕ := min rtt.asMillis (2 ^ 32 - 1)

/-- `StateMachine::transition`. -/
def transition (m : StateMachine) (event : Event) : Answer × StateMachine :=
  if event.generation.any (· ≠ m.state.generation) then (.ok .ignoredStale, m)
  else
    let old := m.phase
    let cause := event.cause
    match event with
    | .start =>
      if old ≠ .stopped then (.error (invalid cause old), m)
      else m.withNextGeneration fun m =>
        let m := m.begin
        m.applied old cause (some (.beginGeneration m.state.generation))
    | .stop =>
      if old = .stopped ∨ old = .stopping then (.ok .noChange, m)
      else
        let oldGeneration := m.state.generation
        m.withNextGeneration fun m =>
          (m.enterStopping .stopped false).applied old cause (some (.cancelAndJoin oldGeneration))
    | .restart =>
      -- cleanup is already owned by the shutdown in flight, whose
      -- completion must keep the current generation
      if old = .stopping then (.ok .noChange, m)
      else
        let oldGeneration := m.state.generation
        m.withNextGeneration fun m =>
          if old = .stopped then
            let m := m.begin
            m.applied old cause (some (.beginGeneration m.state.generation))
          else
            (m.enterStopping m.state.desired true).applied old cause
              (some (.cancelAndJoin oldGeneration))
    | .configChanged =>
      if old = .stopping then (.ok .noChange, m)
      else
        let oldGeneration := m.state.generation
        m.withNextGeneration fun m =>
          if old = .stopped then m.applied old cause none
          else
            (m.enterStopping m.state.desired (m.state.desired = .running)).applied old cause
              (some (.cancelAndJoin oldGeneration))
    | .shutdownComplete _ =>
      if old ≠ .stopping then (.error (invalid cause old), m)
      else
        let m := { m with
          state := { m.state with listener := idleListener m.listenerRequired, health := {} } }
        if m.restartAfterShutdown then
          let m := { m with restartAfterShutdown := false }.begin
          m.applied old cause (some (.beginGeneration m.state.generation))
        else
          { m with state := { m.state with runtime := .stopped } }.applied old cause none
    | .phase _ phase =>
      m.guard (m.requirePhase cause old [.starting])
        ({ m with state := { m.state with runtime := .starting phase } }.applied old cause none)
    | .listenerBound _ address =>
      m.guard (m.requireStartPhase cause .acquiringListener) <|
        if ¬ m.listenerRequired ∨ m.state.listener ≠ .unbound then (.error (invalid cause old), m)
        else
          { m with state := { m.state with listener := .bound address } }.applied old cause none
    | .listenerConflict _ address =>
      m.guard (m.requireStartPhase cause .acquiringListener) <|
        if ¬ m.listenerRequired ∨ m.state.listener ≠ .unbound then (.error (invalid cause old), m)
        else
          { m with
            state :=
              { m.state with
                listener := .conflict address none
                runtime := .blocked (portConflict address) } }.applied old cause none
    | .connecting _ hop totalHops attempt =>
      m.guard (m.requirePhase cause old [.starting, .reconnecting]) <|
        m.guard (if old = .starting then m.requireStartPhase cause .buildingJumpChain else .ok ()) <|
          m.guard (checkHop hop totalHops)
            ({ m with
              state :=
                { m.state with
                  health := {}
                  runtime := .connecting hop totalHops attempt } }.applied old cause none)
    | .authenticating _ hop totalHops =>
      m.guard (m.requirePhase cause old [.connecting]) <|
        m.guard (checkHop hop totalHops) <|
          match m.state.runtime with
          | .connecting currentHop currentTotal _ =>
            if hop = currentHop ∧ totalHops = currentTotal then
              { m with
                state := { m.state with runtime := .authenticating hop totalHops } }.applied
                old cause none
            else (.error (invalid cause old), m)
          | _ => (.error (invalid cause old), m)
    | .authenticated _ =>
      m.guard (m.requirePhase cause old [.authenticating]) <|
        match m.state.runtime with
        | .authenticating hop totalHops =>
          if hop = totalHops then
            { m with
              state :=
                { m.state with
                  health := { m.state.health with authenticated := true }
                  runtime := .establishingForward } }.applied old cause none
          else (.error (invalid cause old), m)
        | _ => (.error (invalid cause old), m)
    | .hopAuthenticated _ =>
      m.guard (m.requirePhase cause old [.authenticating]) <|
        match m.state.runtime with
        | .authenticating hop totalHops =>
          if totalHops ≤ hop then (.error (invalid cause old), m)
          else
            { m with
              state := { m.state with runtime := .connecting (hop + 1) totalHops 0 } }.applied
              old cause none
        | _ => (.error (invalid cause old), m)
    | .forwardReady _ =>
      m.guard (m.requirePhase cause old [.establishingForward])
        ({ m with
          state :=
            { m.state with
              health := { m.state.health with forwardReady := true }
              runtime := .starting .startingHealthMonitor } }.applied old cause none)
    | .pingSucceeded _ at' rtt =>
      m.guard (m.requirePhase cause old [.starting, .healthy, .degraded]) <|
        if ¬ m.state.health.authenticated ∨ ¬ m.state.health.forwardReady then
          (.error (invalid cause old), m)
        else
          { m with
            state :=
              { m.state with
                health :=
                  { m.state.health with
                    lastRttMs := some (rttMillis rtt)
                    consecutivePingFailures := 0 }
                -- a machine that is healthy keeps the time it became so
                runtime := if old = RuntimePhase.healthy then m.state.runtime else .healthy at' } }.applied
            old cause none
    | .pingFailed _ at' attempt nextRetryAt =>
      m.guard (m.requirePhase cause old [.starting, .healthy, .degraded]) <|
        if ¬ m.state.health.authenticated ∨ ¬ m.state.health.forwardReady then
          (.error (invalid cause old), m)
        else
          let failures := min (m.state.health.consecutivePingFailures + 1) 255
          if 3 ≤ failures then
            { m with
              state :=
                { m.state with
                  health :=
                    { m.state.health with
                      consecutivePingFailures := failures
                      authenticated := false
                      forwardReady := false }
                  runtime := .reconnecting attempt nextRetryAt pingTimedOut } }.applied
              old cause none
          else
            { m with
              state :=
                { m.state with
                  health := { m.state.health with consecutivePingFailures := failures }
                  runtime :=
                    if old = RuntimePhase.degraded then m.state.runtime
                    else .degraded at' .pingTimeout } }.applied
              old cause none
    | .disconnected _ error attempt nextRetryAt =>
      m.guard (m.requireRunning cause old)
        ({ m with
          state :=
            { m.state with
              health := {}
              runtime :=
                match error.retryability with
                | .transient => .reconnecting attempt nextRetryAt error
                | .blocked => .blocked error } }.applied old cause none)

/-- The effect an answer hands out. -/
def effectOf : Answer → Option TransitionEffect
  | .ok (.applied effect) => effect
  | _ => none

/-- Was the event applied? -/
def IsApplied (a : Answer) : Prop := ∃ effect, a = .ok (.applied effect)

/-- The effects a run of the reducer hands out, in order. -/
def effects (m : StateMachine) (events : List Event) : List TransitionEffect :=
  (trace transition m events).filterMap fun x => effectOf x.output

end StateMachine

end Lifecycle

end TunnelWarden

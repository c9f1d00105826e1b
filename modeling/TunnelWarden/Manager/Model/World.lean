import TunnelWarden.Common.Map
import TunnelWarden.Lifecycle.Model.ListenerRuntime
import TunnelWarden.Store.Model.Persist
import TunnelWarden.Supervisor.Model.State

/-!
# The manager and what is around it

The fields of `TunnelManager` under their names, the values it publishes
on its watch channels, and the rest of the process as far as it goes
through the manager: the supervisor tasks it spawned, the order in which
tasks were spawned and awaited, the stores, and the handshakes that wait
for an answer. A task is known by its number in the order of spawning.
The time stamp of a log entry is left out: the window only shows it.
-/

namespace TunnelWarden

namespace Manager

open Lifecycle

def maxTunnels : ℕ := 1024
def maxHostKeyPrompts : ℕ := 16
def maxLogEvents : ℕ := 500

structure TunnelView where
  state : SupervisorState
  localAddr : Option SocketAddr
  deriving DecidableEq, Repr

/-- What is published of the tunnels. -/
abbrev ManagerSnapshot := Map TunnelId TunnelView

inductive LogLevel where
  | debug
  | info
  | warning
  | error
  deriving DecidableEq, Repr

inductive LogSource where
  | tunnel
  | host
  deriving DecidableEq, Repr

structure LogEvent where
  level : LogLevel
  source : LogSource
  subject : String
  stage : String
  message : String
  deriving DecidableEq, Repr

inductive HostKeyDecision where
  | trustOnce
  | trustAndSave
  | cancel
  deriving DecidableEq, Repr

/-- A handshake asking about a host key. `reply` names the handshake
that waits. -/
structure HostKeyPrompt where
  host : String
  port : ℕ
  algorithm : String
  fingerprint : String
  reply : ℕ
  deriving DecidableEq, Repr

structure HostKeyPromptView where
  id : ℕ
  host : String
  port : ℕ
  algorithm : String
  fingerprint : String
  deriving DecidableEq, Repr

structure PendingHostKey where
  view : HostKeyPromptView
  reply : ℕ
  deriving DecidableEq, Repr

/-- How a task ended: with what its future returned, or with the text of
a join error. -/
inductive TaskExit where
  | returned (reason : Option String)
  | failed (error : String)
  deriving DecidableEq, Repr

/-- A supervisor task: what it was started from, the state it published
last and whether the manager has yet to see it, how often its retry hint
was notified, and how it ended. -/
structure Task where
  id : TunnelId
  tunnel : TunnelConfig
  hosts : List SshHost
  state : SupervisorState := .connecting 1
  changed : Bool := false
  hints : ℕ := 0
  exit : Option TaskExit := none

/-- The task still runs. -/
def Task.Live (t : Task) : Prop := t.exit = none

/-- What the manager did with its tasks: a task is over for it once its
handle was awaited, after it was aborted or not. -/
inductive TaskEvent where
  | spawned (task : ℕ) (id : TunnelId)
  | joined (task : ℕ)
  | aborted (task : ℕ)
  deriving DecidableEq, Repr

inductive CoreCommand where
  | startAll
  | stopAll
  | startGroup (group : GroupId)
  | stopGroup (group : GroupId)
  | startTunnel (id : TunnelId)
  | stopTunnel (id : TunnelId)
  | restartTunnel (id : TunnelId)
  | retryTunnel (id : TunnelId)
  | networkRecovered
  | saveConfig (directory : PathBuf) (config : DomainConfig) (secret : Option SecretUpdate)
  | importConfig (path : PathBuf)
  | previewSshConfig (path : PathBuf)
  | exportConfig (path : PathBuf) (config : DomainConfig)
  | resolveHostKey (id : ℕ) (decision : HostKeyDecision)

/-- What the surroundings decide while one input is processed: the order
of each iteration over a map, the outcomes of binding a port, whether a
cancelled task ends in time, whether the poll finds a channel open, and
the verdicts on the operations of the stores. -/
structure Env where
  order : ℕ → ℕ
  bind : TunnelId → BindOutcome
  now : Instant
  inTime : TunnelId → Bool
  sees : TunnelId → Bool
  verdicts : Verdicts StoreOp IoError

/-- What reaches the manager, or happens beside it. -/
inductive Input where
  /-- A command from the channel. -/
  | command (command : CoreCommand) (env : Env)
  /-- A handshake asks about a host key. -/
  | prompt (prompt : HostKeyPrompt)
  /-- The poll timer. -/
  | tick (env : Env)
  /-- A supervisor publishes a state. -/
  | report (task : ℕ) (state : SupervisorState)
  /-- A supervisor task ends. -/
  | exit (task : ℕ) (result : TaskExit)
  /-- A handshake no longer waits for its answer. -/
  | giveUp (reply : ℕ)
  /-- The shutdown token is cancelled, or the command channel closes. -/
  | shutdown (env : Env)

/-- What the sender of a command is told. -/
inductive Reply where
  | saved (result : Exit String Unit)
  | imported (result : Exit ConfigStoreError DomainConfig)
  | exported (result : Exit ConfigStoreError Unit)
  deriving DecidableEq

structure World where
  -- the fields of the manager
  hosts : List SshHost
  groups : List TunnelGroup
  tunnels : Map TunnelId TunnelConfig
  current : ManagerSnapshot
  logs : List LogEvent := []
  /-- The task that runs for a tunnel. -/
  active : Map TunnelId ℕ := ∅
  autoStart : List TunnelId := []
  pendingHostKeys : List PendingHostKey := []
  nextHostKeyId : ℕ := 1
  -- what it publishes
  snapshots : ManagerSnapshot
  logViews : List LogEvent := []
  hostKeyViews : List HostKeyPromptView := []
  configViews : DomainConfig
  -- what is around it
  tasks : List Task := []
  history : List TaskEvent := []
  stores : Stores := {}
  /-- The handshakes that no longer wait. -/
  closedReplies : List ℕ := []
  /-- The answers given to handshakes. -/
  decisions : List (ℕ × HostKeyDecision) := []
  /-- The loop of `run` has not ended. -/
  running : Bool := true

end Manager

end TunnelWarden

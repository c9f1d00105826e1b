import TunnelWarden.Common.Net
import TunnelWarden.Common.Path

/-!
# The domain: configuration and observed state

The data of the `tunnel-domain` crate: what the user configures (hosts,
groups, tunnels) and what the runtime reports (the lifecycle states). A
`Duration` is its number of nanoseconds and an `Instant` a reading of
the monotonic clock.
-/

namespace TunnelWarden

/-- `std::time::Duration`, in nanoseconds. -/
abbrev Duration := ℕ

/-- A reading of the monotonic clock. -/
abbrev Instant := ℕ

namespace Duration

/-- `Duration::as_millis`. -/
def asMillis (d : Duration) : ℕ := d / 1000000

/-- `Duration::from_millis`. -/
def fromMillis (ms : ℕ) : Duration := ms * 1000000

/-- `Duration::from_secs`. -/
def fromSecs (s : ℕ) : Duration := s * 1000000000

end Duration

/-! ## Configuration -/

/-- The name other records refer to a host by. -/
structure HostId where
  val : String
  deriving DecidableEq, Repr

/-- The name of an entry of the keyring. -/
structure SecretRef where
  val : String
  deriving DecidableEq, Repr

structure GroupId where
  val : String
  deriving DecidableEq, Repr

structure TunnelId where
  val : String
  deriving DecidableEq, Repr

/-- How a host is logged in to. No secret is part of it. -/
inductive AuthConfig where
  | password (credentialRef : SecretRef)
  | privateKey (keyPath : PathBuf) (passphraseRef : Option SecretRef)
  | agent (socket : Option String)
  | keyboardInteractive
  deriving DecidableEq, Repr

/-- Is a host key looked up, or taken as it is? -/
inductive HostKeyPolicy where
  | strict
  | bypass
  deriving DecidableEq, Repr

/-- An SSH server, and the account on it. -/
structure SshHost where
  id : HostId
  name : String
  hostname : String
  port : ℕ
  username : String
  auth : AuthConfig
  hostKeyPolicy : HostKeyPolicy
  connectTimeout : Duration
  keepaliveInterval : Duration
  keepaliveMax : ℕ
  notes : String
  deriving DecidableEq, Repr

/-- A group of tunnels, and its place in the list. -/
structure TunnelGroup where
  id : GroupId
  name : String
  sortOrder : ℕ
  deriving DecidableEq, Repr

/-- What a tunnel forwards, and in which direction. -/
inductive TunnelMode where
  | «local»
  | remote
  | dynamic
  deriving DecidableEq, Repr

/-- The local listener of Local and Dynamic; the local target of Remote. -/
structure LocalEndpoint where
  host : String
  port : ℕ
  deriving DecidableEq, Repr

/-- The target of Local; the remote listener of Remote. -/
structure RemoteEndpoint where
  host : String
  port : ℕ
  deriving DecidableEq, Repr

/-- How long a supervisor waits before it connects again. -/
structure RetryPolicy where
  baseDelay : Duration := Duration.fromSecs 1
  maxDelay : Duration := Duration.fromSecs 30
  resetAfterHealthy : Duration := Duration.fromSecs 60
  jitterPercent : ℕ := 20
  deriving DecidableEq, Repr

/-- A tunnel, as the user sets it up. -/
structure TunnelConfig where
  id : TunnelId
  name : String
  groupId : Option GroupId
  mode : TunnelMode
  /-- The hops in order, the final SSH host included. -/
  jumpChain : List HostId
  localEnd : LocalEndpoint
  remote : Option RemoteEndpoint
  autoStart : Bool
  reconnect : RetryPolicy
  description : String
  deriving DecidableEq, Repr

/-! ## Errors -/

inductive TunnelErrorKind where
  | network | dns | timeout | authentication | hostKeyUnknown | hostKeyMismatch | portConflict
  | permissionDenied | remoteForwardRejected | invalidConfig | cancelled | internal
  deriving DecidableEq, Repr

inductive FailureStage where
  | configValidation | bindLocalPort | resolveHost | connectTcp | sshHandshake
  | hostKeyVerification | authentication | buildJumpChain | registerForward | relay | healthCheck
  | shutdown
  deriving DecidableEq, Repr

/-- Is it worth another try without the user? -/
inductive Retryability where
  | transient
  | blocked
  deriving DecidableEq, Repr

/-- What went wrong, and where. -/
structure TunnelError where
  kind : TunnelErrorKind
  stage : FailureStage
  message : String
  retryability : Retryability
  sourceChain : List String := []
  deriving DecidableEq, Repr

/-! ## Observed state -/

/-- What the user wants of a tunnel. -/
inductive DesiredState where
  | stopped
  | running
  deriving DecidableEq, Repr

/-- The steps of a start, in their order. -/
inductive StartPhase where
  | validating
  | acquiringListener
  | buildingJumpChain
  | registeringRemoteForward
  | startingHealthMonitor
  deriving DecidableEq, Repr

inductive HealthIssue where
  | pingTimeout
  | sessionLost
  deriving DecidableEq, Repr

/-- What a tunnel is doing. -/
inductive RuntimeState where
  | stopped
  | starting (phase : StartPhase)
  | connecting (hop totalHops attempt : ℕ)
  | authenticating (hop totalHops : ℕ)
  | establishingForward
  | healthy (since : Instant)
  | degraded (since : Instant) (reason : HealthIssue)
  | reconnecting (attempt : ℕ) (nextRetryAt : Instant) (reason : TunnelError)
  | blocked (reason : TunnelError)
  | stopping
  | failed (reason : TunnelError)
  deriving DecidableEq, Repr

/-- The local socket, where the mode has one. -/
inductive ListenerState where
  | notRequired
  | unbound
  | bound (address : SocketAddr)
  | conflict (address : SocketAddr) (ownerHint : Option String)
  deriving DecidableEq, Repr

/-- What a session has shown of itself. -/
structure HealthState where
  authenticated : Bool := false
  forwardReady : Bool := false
  lastRttMs : Option ℕ := none
  consecutivePingFailures : ℕ := 0
  deriving DecidableEq, Repr

end TunnelWarden

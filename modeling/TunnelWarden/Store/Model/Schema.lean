import Mathlib.Algebra.Group.Nat.Defs
import TunnelWarden.Domain.Validation

/-!
# The file model of the configuration

The `schema` module of the `config-store` crate. A `ConfigDocument` is
what the TOML file holds: texts, numbers and milliseconds. `intoDomain`
checks it and builds the `DomainConfig` the program runs on, with `~`
in a key path replaced by the home directory; `tryFrom` goes the other
way. The TOML text itself is the business of a codec outside the crate.
-/

namespace TunnelWarden

def schemaVersion : ℕ := 1
def maxHosts : ℕ := 512
def maxGroups : ℕ := 128
def maxTunnels : ℕ := 1024
def maxJumpHops : ℕ := 16

inductive ThemePreference where
  | system
  | light
  | dark
  deriving DecidableEq, Repr

structure AppSettings where
  theme : ThemePreference := .system
  runAtStartup : Bool := false
  minimizeToTray : Bool := true
  trafficMonitor : Bool := false
  deriving DecidableEq, Repr

inductive AuthType where
  | password
  | privateKey
  | agent
  | keyboardInteractive
  deriving DecidableEq, Repr

structure HostRecord where
  id : String
  name : String
  hostname : String
  port : ℕ
  username : String
  authType : AuthType
  credentialRef : Option String
  identityFile : Option PathBuf
  passphraseRef : Option String
  agentSocket : Option String
  hostKeyPolicy : HostKeyPolicy
  connectTimeoutMs : ℕ
  keepaliveIntervalMs : ℕ
  keepaliveMax : ℕ
  notes : String
  deriving DecidableEq, Repr

structure GroupRecord where
  id : String
  name : String
  sortOrder : ℕ
  deriving DecidableEq, Repr

structure TunnelRecord where
  id : String
  name : String
  groupId : Option String
  mode : TunnelMode
  jumpChain : List String
  localHost : String
  localPort : ℕ
  remoteHost : Option String
  remotePort : Option ℕ
  autoStart : Bool
  reconnectBaseMs : ℕ
  reconnectMaxMs : ℕ
  reconnectResetMs : ℕ
  reconnectJitterPercent : ℕ
  description : String
  deriving DecidableEq, Repr

structure ConfigDocument where
  version : ℕ := schemaVersion
  app : AppSettings := {}
  hosts : List HostRecord := []
  groups : List GroupRecord := []
  tunnels : List TunnelRecord := []
  deriving DecidableEq, Repr

/-- The configuration the program runs on. -/
structure DomainConfig where
  app : AppSettings := {}
  hosts : List SshHost := []
  groups : List TunnelGroup := []
  tunnels : List TunnelConfig := []
  deriving DecidableEq, Repr

inductive ConfigValidationError where
  | unsupportedVersion (version : ℕ)
  | tooManyEntries (kind : String)
  | duplicateId (kind id : String)
  | host (id reason : String)
  | tunnel (id reason : String)
  | durationTooLarge
  deriving DecidableEq, Repr

/-- The text of a validation error. -/
def ConfigValidationError.display : ConfigValidationError → String
  | unsupportedVersion version => "unsupported config schema version " ++ digits 10 version
  | tooManyEntries kind => "too many " ++ kind ++ " entries"
  | duplicateId kind id => "duplicate " ++ kind ++ " ID " ++ id
  | host id reason => "invalid host " ++ id ++ ": " ++ reason
  | tunnel id reason => "invalid tunnel " ++ id ++ ": " ++ reason
  | durationTooLarge => "duration in configuration exceeds supported millisecond range"

/-! ## From the file to the domain -/

/-- `expand_home`, in a process whose home variable is `home`. -/
def expandHome (home : Option PathBuf) (path : PathBuf) : Option PathBuf :=
  match path.stripPrefix (.ofName "~") with
  | none => some path
  | some remainder => home.map fun home => home.join remainder

/-- The authentication of a host record. A missing reference, key file
or home directory is an error of the host. -/
def HostRecord.auth (home : Option PathBuf) (r : HostRecord) :
    Except ConfigValidationError AuthConfig :=
  match r.authType with
  | .password =>
    match r.credentialRef.filter (fun s => s ≠ "") with
    | none => .error (.host r.id "password credential_ref is missing")
    | some reference => .ok (.password ⟨reference⟩)
  | .privateKey =>
    match r.identityFile with
    | none => .error (.host r.id "identity_file is missing")
    | some path =>
      match expandHome home path with
      | none => .error (.host r.id "home directory is unavailable")
      | some path => .ok (.privateKey path (r.passphraseRef.map SecretRef.mk))
  | .agent => .ok (.agent r.agentSocket)
  | .keyboardInteractive => .ok .keyboardInteractive

/-- `HostRecord::into_domain`. -/
def HostRecord.intoDomain (home : Option PathBuf) (r : HostRecord) :
    Except ConfigValidationError SshHost := do
  if TunnelConfig.blank r.id ∨ TunnelConfig.blank r.name ∨ TunnelConfig.blank r.hostname ∨
      TunnelConfig.blank r.username ∨ r.port = 0 ∨ r.connectTimeoutMs = 0 ∨
      r.keepaliveMax = 0 then
    throw (.host r.id "required field is empty or zero")
  let auth ← r.auth home
  return {
    id := ⟨r.id⟩, name := r.name, hostname := r.hostname, port := r.port, username := r.username,
    auth := auth, hostKeyPolicy := r.hostKeyPolicy,
    connectTimeout := .fromMillis r.connectTimeoutMs,
    keepaliveInterval := .fromMillis r.keepaliveIntervalMs,
    keepaliveMax := r.keepaliveMax, notes := r.notes }

def GroupRecord.intoDomain (r : GroupRecord) : TunnelGroup := ⟨⟨r.id⟩, r.name, r.sortOrder⟩

/-- The far end of a tunnel record: host and port, or neither. -/
def TunnelRecord.remote (r : TunnelRecord) : Except ConfigValidationError (Option RemoteEndpoint) :=
  match r.remoteHost, r.remotePort with
  | some host, some port => .ok (some ⟨host, port⟩)
  | none, none => .ok none
  | _, _ => .error (.tunnel r.id "remote_host and remote_port must be set together")

/-- `TunnelRecord::into_domain`. -/
def TunnelRecord.intoDomain (r : TunnelRecord) : Except ConfigValidationError TunnelConfig := do
  if maxJumpHops < r.jumpChain.length then throw (.tunnel r.id "jump chain exceeds 16 hosts")
  let remote ← r.remote
  return {
    id := ⟨r.id⟩, name := r.name, groupId := r.groupId.map GroupId.mk, mode := r.mode,
    jumpChain := r.jumpChain.map HostId.mk, localEnd := ⟨r.localHost, r.localPort⟩,
    remote := remote, autoStart := r.autoStart,
    reconnect := {
      baseDelay := .fromMillis r.reconnectBaseMs, maxDelay := .fromMillis r.reconnectMaxMs,
      resetAfterHealthy := .fromMillis r.reconnectResetMs,
      jitterPercent := r.reconnectJitterPercent },
    description := r.description }

/-- The loop that converts one kind of record: an id met before is an
error, and so is a record that does not convert. -/
def convertRecords {ρ α : Type} (kind : String) (id : ρ → String)
    (convert : ρ → Except ConfigValidationError α) :
    List String → List ρ → Except ConfigValidationError (List α)
  | _, [] => .ok []
  | seen, r :: rest =>
    if id r ∈ seen then .error (.duplicateId kind (id r))
    else do
      let a ← convert r
      let as ← convertRecords kind id convert (id r :: seen) rest
      return a :: as

/-- One tunnel record, converted and validated. -/
def TunnelRecord.checked (hosts : List SshHost) (groups : List TunnelGroup) (r : TunnelRecord) :
    Except ConfigValidationError TunnelConfig := do
  let tunnel ← r.intoDomain
  match tunnel.validate hosts groups with
  | .error error => .error (.tunnel tunnel.id.val error.display)
  | .ok () => .ok tunnel

/-- `ConfigDocument::into_domain`. -/
def ConfigDocument.intoDomain (home : Option PathBuf) (doc : ConfigDocument) :
    Except ConfigValidationError DomainConfig := do
  if doc.version ≠ schemaVersion then throw (.unsupportedVersion doc.version)
  if maxHosts < doc.hosts.length then throw (.tooManyEntries "hosts")
  if maxGroups < doc.groups.length then throw (.tooManyEntries "groups")
  if maxTunnels < doc.tunnels.length then throw (.tooManyEntries "tunnels")
  let hosts ← convertRecords "host" HostRecord.id (HostRecord.intoDomain home) [] doc.hosts
  let groups ← convertRecords "group" GroupRecord.id (fun r => .ok r.intoDomain) [] doc.groups
  let tunnels ← convertRecords "tunnel" TunnelRecord.id (TunnelRecord.checked hosts groups) []
    doc.tunnels
  return { app := doc.app, hosts, groups, tunnels }

/-! ## From the domain to the file -/

/-- `milliseconds`: the whole milliseconds of a duration, as a `u64`. -/
def milliseconds (d : Duration) : Except ConfigValidationError ℕ :=
  if d.asMillis < 2 ^ 64 then .ok d.asMillis else .error .durationTooLarge

/-- `TryFrom<SshHost> for HostRecord`. -/
def HostRecord.tryFrom (host : SshHost) : Except ConfigValidationError HostRecord := do
  let (authType, credentialRef, identityFile, passphraseRef, agentSocket) :=
    match host.auth with
    | .password reference => (AuthType.password, some reference.val, none, none, none)
    | .privateKey path passphrase =>
      (.privateKey, none, some path, passphrase.map SecretRef.val, none)
    | .agent socket => (.agent, none, none, none, socket)
    | .keyboardInteractive => (.keyboardInteractive, none, none, none, none)
  let connectTimeoutMs ← milliseconds host.connectTimeout
  let keepaliveIntervalMs ← milliseconds host.keepaliveInterval
  return {
    id := host.id.val, name := host.name, hostname := host.hostname, port := host.port,
    username := host.username, authType, credentialRef, identityFile, passphraseRef, agentSocket,
    hostKeyPolicy := host.hostKeyPolicy, connectTimeoutMs, keepaliveIntervalMs,
    keepaliveMax := host.keepaliveMax, notes := host.notes }

/-- `TryFrom<TunnelConfig> for TunnelRecord`. -/
def TunnelRecord.tryFrom (tunnel : TunnelConfig) : Except ConfigValidationError TunnelRecord := do
  let reconnectBaseMs ← milliseconds tunnel.reconnect.baseDelay
  let reconnectMaxMs ← milliseconds tunnel.reconnect.maxDelay
  let reconnectResetMs ← milliseconds tunnel.reconnect.resetAfterHealthy
  return {
    id := tunnel.id.val, name := tunnel.name, groupId := tunnel.groupId.map GroupId.val,
    mode := tunnel.mode, jumpChain := tunnel.jumpChain.map HostId.val,
    localHost := tunnel.localEnd.host, localPort := tunnel.localEnd.port,
    remoteHost := tunnel.remote.map RemoteEndpoint.host,
    remotePort := tunnel.remote.map RemoteEndpoint.port,
    autoStart := tunnel.autoStart, reconnectBaseMs, reconnectMaxMs, reconnectResetMs,
    reconnectJitterPercent := tunnel.reconnect.jitterPercent, description := tunnel.description }

def GroupRecord.ofDomain (group : TunnelGroup) : GroupRecord :=
  ⟨group.id.val, group.name, group.sortOrder⟩

/-- `TryFrom<DomainConfig> for ConfigDocument`. -/
def ConfigDocument.tryFrom (config : DomainConfig) :
    Except ConfigValidationError ConfigDocument := do
  let hosts ← config.hosts.mapM HostRecord.tryFrom
  let tunnels ← config.tunnels.mapM TunnelRecord.tryFrom
  return {
    version := schemaVersion, app := config.app, hosts,
    groups := config.groups.map GroupRecord.ofDomain, tunnels }

end TunnelWarden

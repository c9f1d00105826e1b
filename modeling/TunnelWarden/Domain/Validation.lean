import TunnelWarden.Domain.Model

/-!
# The checks of one tunnel's configuration

`TunnelConfig::validate` of the `tunnel-domain` crate: everything that
must hold of a tunnel before it is started, short of the port being free
and the host keys being trusted. The checks run in a fixed order and the
first that fails names the error.
-/

namespace TunnelWarden

inductive TunnelValidationError where
  | emptyId
  | emptyName
  | emptyJumpChain
  | repeatedHop (id : String)
  | unknownHost (id : String)
  | ambiguousHost (id : String)
  | unknownGroup (id : String)
  | ambiguousGroup (id : String)
  | invalidBindAddress
  | invalidLocalEndpoint
  | invalidRemoteEndpoint
  | unexpectedRemoteEndpoint
  | invalidReconnectPolicy
  deriving DecidableEq, Repr

namespace TunnelValidationError

/-- The text of an error. -/
def display : TunnelValidationError → String
  | emptyId => "tunnel ID is empty"
  | emptyName => "tunnel name is empty"
  | emptyJumpChain => "jump chain must contain a final SSH host"
  | repeatedHop id => "jump chain repeats host " ++ id
  | unknownHost id => "jump chain refers to unknown host " ++ id
  | ambiguousHost id => "host ID " ++ id ++ " is ambiguous"
  | unknownGroup id => "tunnel refers to unknown group " ++ id
  | ambiguousGroup id => "group ID " ++ id ++ " is ambiguous"
  | invalidBindAddress => "local listener must use an IP address"
  | invalidLocalEndpoint => "local endpoint is invalid"
  | invalidRemoteEndpoint => "remote endpoint is missing or invalid"
  | unexpectedRemoteEndpoint => "Dynamic forwarding must not have a remote endpoint"
  | invalidReconnectPolicy => "reconnect policy is invalid"

end TunnelValidationError

namespace TunnelConfig

/-- Is the trimmed text empty? -/
def blank (s : String) : Bool := trim s == ""

/-- The hops are distinct and each names exactly one host. `seen` holds
the hops before. -/
def checkHops (hosts : List SshHost) :
    List HostId → List HostId → Except TunnelValidationError Unit
  | _, [] => .ok ()
  | seen, hop :: rest =>
    if hop ∈ seen then .error (.repeatedHop hop.val)
    else match (hosts.filter (fun host => host.id = hop)).length with
      | 0 => .error (.unknownHost hop.val)
      | 1 => checkHops hosts (seen ++ [hop]) rest
      | _ => .error (.ambiguousHost hop.val)

/-- The group, where there is one, is known and only once. -/
def checkGroup (groups : List TunnelGroup) : Option GroupId → Except TunnelValidationError Unit
  | none => .ok ()
  | some id =>
    match (groups.filter (fun group => group.id = id)).length with
    | 0 => .error (.unknownGroup id.val)
    | 1 => .ok ()
    | _ => .error (.ambiguousGroup id.val)

/-- The far end fits the mode: none for Dynamic, an address to listen at
for Remote, a host and a nonzero port for Local. -/
def checkRemote (mode : TunnelMode) (remote : Option RemoteEndpoint) :
    Except TunnelValidationError Unit :=
  match mode, remote with
  | .dynamic, none => .ok ()
  | .dynamic, some _ => .error .unexpectedRemoteEndpoint
  | _, none => .error .invalidRemoteEndpoint
  | mode, some remote =>
    if !blank remote.host && byteLen remote.host ≤ 255 && (remote.port != 0 || mode = .remote) then
      if mode = .remote ∧ IpAddr.parse remote.host = none then .error .invalidBindAddress
      else .ok ()
    else .error .invalidRemoteEndpoint

/-- `TunnelConfig::validate`. -/
def validate (t : TunnelConfig) (hosts : List SshHost) (groups : List TunnelGroup) :
    Except TunnelValidationError Unit := do
  if blank t.id.val then throw .emptyId
  if blank t.name then throw .emptyName
  if t.jumpChain = [] then throw .emptyJumpChain
  checkHops hosts [] t.jumpChain
  checkGroup groups t.groupId
  if t.reconnect.baseDelay = 0 ∨ t.reconnect.maxDelay < t.reconnect.baseDelay ∨
      t.reconnect.resetAfterHealthy = 0 ∨ 100 < t.reconnect.jitterPercent then
    throw .invalidReconnectPolicy
  if blank t.localEnd.host ∨ 255 < byteLen t.localEnd.host ∨ t.localEnd.port = 0 then
    throw .invalidLocalEndpoint
  if t.mode ≠ .remote ∧ IpAddr.parse t.localEnd.host = none then throw .invalidBindAddress
  checkRemote t.mode t.remote

end TunnelConfig

end TunnelWarden

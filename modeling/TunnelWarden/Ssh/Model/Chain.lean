import Mathlib.Algebra.Group.Nat.Defs
import TunnelWarden.Domain.Validation
import TunnelWarden.Supervisor.Model.Errors

/-!
# Sessions and chains of the SSH engine

What `ssh-engine` checks before it uses the network, and the order in
which a chain is built: each hop but the first is reached through a
channel of the session before it, and only the last session is set up
for a remote forward. What the network makes of a hop is given from
outside.
-/

namespace TunnelWarden

namespace Ssh

def maxKnownHostsPaths : ℕ := 2
def maxHops : ℕ := 16

/-- A credential, with the text of its secret. -/
inductive SshCredential where
  | password (secret : String)
  | privateKey (passphrase : Option String)
  | agent
  deriving DecidableEq, Repr

structure HopSpec where
  host : SshHost
  credential : SshCredential
  knownHostsPaths : List PathBuf
  deriving DecidableEq, Repr

/-! ## One session -/

/-- The credential is of the kind the host asks for. -/
def checkMethod : AuthConfig → SshCredential → Except SshConnectError Unit
  | .password _, .password _ => .ok ()
  | .privateKey .., .privateKey _ => .ok ()
  | .agent _, .agent => .ok ()
  | _, _ => .error (.invalidConfig "SSH auth method mismatch")

/-- `validate` of the client. -/
def validate (host : SshHost) (credentials : SshCredential) (knownHostsPaths : List PathBuf) :
    Except SshConnectError Unit := do
  checkMethod host.auth credentials
  if TunnelConfig.blank host.hostname then throw (.invalidConfig "hostname is empty")
  if TunnelConfig.blank host.username then throw (.invalidConfig "username is empty")
  if host.port = 0 then throw (.invalidConfig "SSH port is zero")
  if host.connectTimeout = 0 then throw (.invalidConfig "connect timeout is zero")
  if maxKnownHostsPaths < knownHostsPaths.length then
    throw (.invalidConfig "too many known_hosts files")

/-- The check `open_direct_tcpip` makes of its destination. -/
def checkDestination (host : String) (port : ℕ) : Except SshConnectError Unit :=
  if host = "" ∨ 255 < byteLen host ∨ port = 0 then
    .error (.invalidConfig "invalid forwarding destination")
  else .ok ()

/-- A session: the remote forward it was set up for, until that is
registered, and the one it has registered. -/
structure Session where
  forwarded : Option RemoteEndpoint
  remoteActive : Option (String × ℕ) := none
  deriving DecidableEq, Repr

namespace Session

/-- What `request_remote_forward` checks before it asks the server. -/
def checkForwarded (s : Session) : Except SshConnectError RemoteEndpoint :=
  match s.forwarded with
  | none => .error (.invalidConfig "session has no remote forward")
  | some binding =>
    if binding.host = "" ∨ 255 < byteLen binding.host then
      .error (.invalidConfig "invalid remote bind address")
    else .ok binding

/-- `request_remote_forward`, with the answer of the server: the port it
assigned, which counts where none was asked for. -/
def requestRemoteForward (s : Session) (answer : Except SshConnectError ℕ) :
    Except SshConnectError (ℕ × Session) := do
  let binding ← s.checkForwarded
  let assigned ← answer
  if binding.port = 0 ∧ ¬ (0 < assigned ∧ assigned < 2 ^ 16) then
    throw (.invalidConfig "server returned invalid remote port")
  let port := if binding.port = 0 then assigned else binding.port
  return (port, { forwarded := none, remoteActive := some (binding.host, port) })

end Session

/-! ## A chain -/

/-- What the network makes of a hop, by its number from 1 on: of the
channel to it, and of the connection once its configuration is checked. -/
structure Net where
  channel : ℕ → Except SshConnectError Unit
  connection : ℕ → Except SshConnectError Unit

namespace SshChain

/-- `connect_authenticated` and `connect_via_channel`. -/
def connectHop (net : Net) (number : ℕ) (hop : HopSpec) (remote : Option RemoteEndpoint) :
    Except SshChainError Session :=
  (do
    validate hop.host hop.credential hop.knownHostsPaths
    net.connection number
    return Session.mk remote none).mapError (.hop number)

/-- The loop over the hops behind the first. `number` is that of the
next one, and `total` that of the last. -/
def connectRest (net : Net) (total : ℕ) (remote : Option RemoteEndpoint) :
    ℕ → List HopSpec → Except SshChainError (List Session)
  | _, [] => .ok []
  | number, hop :: rest => do
    (do
      checkDestination hop.host.hostname hop.host.port
      net.channel number).mapError (.hop number)
    let session ← connectHop net number hop (if number = total then remote else none)
    let sessions ← connectRest net total remote (number + 1) rest
    return session :: sessions

/-- `SshChain::connect_with_approval`, up to the sessions in order. The
sessions before a hop that fails are closed again. -/
def connectWithApproval (net : Net) (hops : List HopSpec) (remote : Option RemoteEndpoint) :
    Except SshChainError (List Session) :=
  match hops with
  | [] => .error .empty
  | first :: rest =>
    if maxHops < hops.length then .error .tooManyHops
    else do
      let session ← connectHop net 1 first (if rest = [] then remote else none)
      let sessions ← connectRest net hops.length remote 2 rest
      return session :: sessions

end SshChain

end Ssh

end TunnelWarden

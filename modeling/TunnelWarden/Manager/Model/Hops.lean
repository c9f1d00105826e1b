import TunnelWarden.Ssh.Model.Chain

/-!
# From hosts to hops

`build_hops` of the manager: the credential of each host, in the order
of the chain, and the files its key is looked up in.
-/

namespace TunnelWarden

namespace Manager

open Ssh

/-- The files a host key is looked up in: the user's, where a home
directory is known, and the application's. -/
def knownHosts (home appKnownHosts : Option PathBuf) : List PathBuf :=
  (home.map fun dir => (dir.join (.ofName ".ssh")).join (.ofName "known_hosts")).toList ++
    appKnownHosts.toList

/-- `load_secret`. -/
def loadSecret (load : SecretRef → Except String String) (reference : SecretRef) (hop : ℕ) :
    Except SshChainError String :=
  (load reference).mapError fun reason => .credential hop (takeChars 256 reason)

/-- The credential of one host. -/
def hopCredential (load : SecretRef → Except String String) (hop : ℕ) :
    AuthConfig → Except SshChainError SshCredential
  | .agent _ => .ok .agent
  | .keyboardInteractive =>
    .error (.credential hop "Keyboard-interactive authentication is not available yet")
  | .password credentialRef => do
    let secret ← loadSecret load credentialRef hop
    return .password secret
  | .privateKey _ none => .ok (.privateKey none)
  | .privateKey _ (some reference) => do
    let secret ← loadSecret load reference hop
    return .privateKey (some secret)

/-- `build_hops`, from the host with number `hop` on. -/
def buildHops (load : SecretRef → Except String String) (paths : List PathBuf) :
    ℕ → List SshHost → Except SshChainError (List HopSpec)
  | _, [] => .ok []
  | hop, host :: rest => do
    let credential ← hopCredential load hop host.auth
    let hops ← buildHops load paths (hop + 1) rest
    return ⟨host, credential, paths⟩ :: hops

end Manager

end TunnelWarden

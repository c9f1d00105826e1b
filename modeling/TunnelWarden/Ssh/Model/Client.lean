import TunnelWarden.Common.Dialogue
import TunnelWarden.Manager.Model.Hops
import TunnelWarden.Manager.Model.World
import TunnelWarden.Ssh.Model.HostKey

/-!
# From hosts to sessions

What the connector of a tunnel does: it loads the secrets of the hosts,
and builds the chain hop by hop. Everything it asks of the keyring, the
file system, the network, the user, the agent or the server is a
`Question`, with the number of the hop it is asked for. The parts of
`russh` that only compute are given from outside. Within a `select!` an
answer may be that the token was cancelled or the deadline has passed;
when that is, the surroundings decide.
-/

namespace TunnelWarden

namespace Ssh

open Manager (HostKeyDecision)

def maxPrivateKeyBytes : ℕ := 1024 * 1024
def maxAgentIdentities : ℕ := 32

structure PrivateKey where
  encoded : String
  deriving DecidableEq, Repr

/-- A key or a certificate the agent can sign for. -/
inductive AgentIdentity where
  | publicKey (key : PublicKey)
  | certificate (certificate : String)
  deriving DecidableEq, Repr

/-- `client::Config`, as far as it is set. -/
structure ClientConfig where
  nodelay : Bool
  keepaliveInterval : Option Duration
  keepaliveMax : ℕ
  deriving DecidableEq, Repr

/-- Why an await in a `select!` ends without its answer. -/
inductive Interruption where
  | cancelled
  | elapsed
  deriving DecidableEq, Repr

/-- What becomes of a prompt. A reply that is dropped is a `Cancel`. -/
inductive PromptAnswer where
  | unavailable
  | decided (decision : HostKeyDecision)
  deriving DecidableEq, Repr

/-- How russh's session task ends. -/
inductive SessionEnd where
  | finished
  | disconnected
  | failed (error : HostKeyError)
  deriving DecidableEq

/-- What becomes of a session that is told to end. -/
inductive Shutdown where
  | elapsed
  | ended (sent : Except RusshError Unit) (joined : SessionEnd)

/-- What the connector asks, for the hop of a number. -/
inductive Question where
  /-- `CredentialSource::load`. -/
  | secret (hop : ℕ) (reference : SecretRef)
  /-- The private key file, up to one byte more than it may have. -/
  | readKey (hop : ℕ) (path : PathBuf)
  | tcpConnect (hop : ℕ) (host : String) (port : ℕ)
  /-- A channel of the session before. -/
  | openChannel (hop : ℕ) (host : String) (port : ℕ)
  /-- `connect_stream`, up to the key the server shows. -/
  | serverKey (hop : ℕ) (config : ClientConfig) (verifier : HostKeyVerifier)
  /-- A look at a `known_hosts` file. -/
  | lookAt (hop : ℕ) (path : PathBuf)
  | prompt (hop : ℕ) (host : String) (port : ℕ) (algorithm fingerprint : String)
  | saveLock (hop : ℕ)
  | learn (hop : ℕ) (path : PathBuf) (line : String)
  /-- The task that saves a key. -/
  | joined (hop : ℕ)
  /-- The rest of `connect_stream`. -/
  | newKeys (hop : ℕ)
  | password (hop : ℕ) (username secret : String)
  | rsaHash (hop : ℕ)
  | publicKey (hop : ℕ) (username : String) (key : PrivateKey) (hash : Option String)
  | namedPipe (hop : ℕ) (path : String)
  | pageant (hop : ℕ)
  | identities (hop : ℕ)
  /-- `authenticate_publickey_with` and `authenticate_certificate_with`. -/
  | sign (hop : ℕ) (username : String) (identity : AgentIdentity) (hash : Option String)
  | disconnect (hop : ℕ)
  | cancelToken (hop : ℕ)
  deriving DecidableEq

/-- What answers a question. -/
abbrev Question.Answer : Question → Type
  | .secret .. => Except String String
  | .readKey .. => Except IoError String
  | .tcpConnect .. => Except Interruption (Except IoError Unit)
  | .openChannel .. => Except Interruption (Except RusshError Unit)
  | .serverKey .. => Except Interruption (Except RusshError PublicKeyOrCertificate)
  | .lookAt .. => Option (List String) × Look
  | .prompt .. => Except Interruption PromptAnswer
  | .saveLock _ => Except Interruption Unit
  | .learn .. => Option String
  | .joined _ => Except Interruption (Except IoError Unit)
  | .newKeys _ => Except Interruption (Except RusshError Unit)
  | .password .. => Except Interruption (Except RusshError Bool)
  | .rsaHash _ => Except Interruption (Except RusshError (Option String))
  | .publicKey .. => Except Interruption (Except RusshError Bool)
  | .namedPipe .. => Except Interruption (Except String Unit)
  | .pageant _ => Except Interruption (Except String Unit)
  | .identities _ => Except Interruption (Except String (List AgentIdentity))
  | .sign .. => Except Interruption (Except String Bool)
  | .disconnect _ => Shutdown
  | .cancelToken _ => Unit

/-- What is said while a chain is built. -/
abbrev Said := Exchange Question Question.Answer

/-- A part of the client that ends with a `SshConnectError`. -/
abbrev Client := Dialogue Question Question.Answer SshConnectError

/-- The functions of `russh` that ask nobody. -/
structure Russh where
  knownHosts : KnownHosts
  decodeSecretKey : String → Option String → Except String PrivateKey

open Dialogue (inquire ofExcept)

/-- The `select!` around an await, up to the outcome of the await. -/
def settle {α : Type} (during : String) : Except Interruption α → Except SshConnectError α
  | .ok outcome => .ok outcome
  | .error .cancelled => .error .cancelled
  | .error .elapsed => .error (.timeout during)

/-- And with it, an error being named by `f`. -/
def outcome {α ε : Type} (during : String) (f : ε → SshConnectError)
    (answer : Except Interruption (Except ε α)) : Except SshConnectError α :=
  (settle during answer).bind fun result => result.mapError f

/-! ## The host key -/

variable (russh : Russh)

/-- A look at a `known_hosts` file. -/
def lookAt (hop : ℕ) (path : PathBuf) : Client (Option (List String) × Look) :=
  inquire (Question.lookAt hop path)

/-- `learn_known_hosts_path`. -/
def learn (hop : ℕ) (path : PathBuf) (line : String) : Client (Option String) :=
  inquire (Question.learn hop path line)

/-- The first loop of `check_server_key`. -/
def checkPaths (hop : ℕ) (v : HostKeyVerifier) (key : PublicKey) : Bool → List PathBuf → Client Bool
  | found, [] => pure found
  | found, path :: rest => do
    let (file, look) ← lookAt hop path
    let matched ← ofExcept
      ((v.checkPath russh.knownHosts key path file look).mapError .handshake)
    checkPaths hop v key (found || matched) rest

/-- The loop before a key is saved. A match ends it. -/
def recheckPaths (hop : ℕ) (v : HostKeyVerifier) (key : PublicKey) : List PathBuf → Client Bool
  | [] => pure false
  | path :: rest => do
    let (file, look) ← lookAt hop path
    let matched ← ofExcept
      ((v.recheckPath russh.knownHosts key path file look).mapError .handshake)
    if matched then pure true else recheckPaths hop v key rest

/-- The task that saves a key. -/
def saveKey (hop : ℕ) (v : HostKeyVerifier) (key : PublicKey) (savePath : PathBuf) :
    Client Unit := do
  let matched ← recheckPaths russh hop v key v.paths
  if matched then pure ()
  else
    match ← learn hop savePath (russh.knownHosts.entry v.host v.port key) with
    | none => pure ()
    | some source => .fail (.handshake (.invalidKnownHosts savePath source))

/-- What the user makes of a key that no file knows. -/
def Russh.askUser (hop : ℕ) (v : HostKeyVerifier) (key : PublicKey) (approval : HostKeyApproval) :
    Client Unit := do
  let answer ← ofExcept (settle "SSH handshake"
    (← inquire (.prompt hop v.host v.port key.algorithm key.fingerprint)))
  match answer with
  | .unavailable => .fail (.handshake (.approvalUnavailable v.host v.port))
  | .decided .trustOnce => pure ()
  | .decided .cancel => .fail (.handshake (.declined v.host v.port))
  | .decided .trustAndSave =>
    ofExcept (settle "SSH handshake" (← inquire (.saveLock hop)))
    saveKey russh hop v key approval.savePath
    ofExcept (outcome "SSH handshake"
      (fun source => .handshake (.knownHostsIo approval.savePath source)) (← inquire (.joined hop)))

/-- `check_server_key`. -/
def Russh.checkServerKey (hop : ℕ) (v : HostKeyVerifier) (serverKey : PublicKeyOrCertificate) :
    Client Unit :=
  if v.policy = .bypass then pure ()
  else match serverKey with
    | .certificate _ => .fail (.handshake (.unsupportedCertificate v.host v.port))
    | .publicKey key => do
      let found ← checkPaths russh hop v key false v.paths
      if found then pure ()
      else match v.approval with
        | none => .fail (.handshake (.unknown v.host v.port key.fingerprint))
        | some approval => russh.askUser hop v key approval

/-- `client::connect_stream`: it asks `check_server_key` about the key
the server shows, and goes on only where that has no error. -/
def connectStream (hop : ℕ) (config : ClientConfig) (v : HostKeyVerifier) : Client Unit := do
  let protocol (source : RusshError) : SshConnectError := .handshake (.protocol source)
  let serverKey ← ofExcept (outcome "SSH handshake" protocol (← inquire (.serverKey hop config v)))
  russh.checkServerKey hop v serverKey
  ofExcept (outcome "SSH handshake" protocol (← inquire (.newKeys hop)))

/-! ## The credentials -/

/-- `load_private_key`. -/
def loadPrivateKey (hop : ℕ) (path : PathBuf) (passphrase : Option String) : Client PrivateKey := do
  let pem ← ofExcept (Except.mapError .privateKeyIo (← inquire (Question.readKey hop path)))
  if maxPrivateKeyBytes < byteLen pem then .fail .privateKeyTooLarge
  else ofExcept ((russh.decodeSecretKey pem passphrase).mapError .privateKeyDecode)

/-- The key of a host that has one. -/
def privateKeyOf (hop : ℕ) (host : SshHost) (credentials : SshCredential) :
    Client (Option PrivateKey) :=
  match host.auth, credentials with
  | .privateKey keyPath _, .privateKey passphrase => do
    let key ← loadPrivateKey russh hop keyPath passphrase
    pure (some key)
  | _, _ => pure none

/-- `connect_agent_stream` of Windows. -/
def connectAgentStream (hop : ℕ) (socket : Option String) : Client Unit :=
  match socket with
  | some path => do
    ofExcept (outcome "authentication" .agent (← inquire (.namedPipe hop path)))
  | none => do
    match ← ofExcept (settle "authentication"
        (← inquire (.namedPipe hop "\\\\.\\pipe\\openssh-ssh-agent"))) with
    | .ok _ => pure ()
    | .error _ => ofExcept (outcome "authentication" .agent (← inquire (.pageant hop)))

/-- The loop of `authenticate_agent`. -/
def tryIdentities (hop : ℕ) (username : String) (hash : Option String) :
    Bool → List AgentIdentity → Client Unit
  | attempted, [] => .fail (if attempted then .authenticationRejected else .noAgentIdentities)
  | _, identity :: rest => do
    let success ← ofExcept (outcome "authentication" .agentAuthentication
      (← inquire (.sign hop username identity hash)))
    if success then pure () else tryIdentities hop username hash true rest

/-- `authenticate_agent`. -/
def authenticateAgent (hop : ℕ) (host : SshHost) : Client Unit :=
  match host.auth with
  | .agent socket => do
    connectAgentStream hop socket
    let identities ← ofExcept (outcome "authentication" .agent (← inquire (.identities hop)))
    let hash ← ofExcept (outcome "authentication" .authentication (← inquire (.rsaHash hop)))
    tryIdentities hop host.username hash false (identities.take maxAgentIdentities)
  | _ => .fail (.invalidConfig "host auth must be agent")

/-- `authenticate`. -/
def authenticate (hop : ℕ) (host : SshHost) (credentials : SshCredential)
    (privateKey : Option PrivateKey) : Client Unit :=
  match credentials with
  | .agent => authenticateAgent hop host
  | .password secret => do
    let success ← ofExcept (outcome "authentication" .authentication
      (← inquire (.password hop host.username secret)))
    if success then pure () else .fail .authenticationRejected
  | .privateKey _ =>
    match privateKey with
    | none => .fail (.invalidConfig "missing private key")
    | some key => do
      let hash ← ofExcept (outcome "authentication" .authentication (← inquire (.rsaHash hop)))
      let success ← ofExcept (outcome "authentication" .authentication
        (← inquire (.publicKey hop host.username key hash)))
      if success then pure () else .fail .authenticationRejected

/-! ## One session -/

/-- `cancellation.cancel()`. -/
def cancelToken (hop : ℕ) : Client Unit := inquire (Question.cancelToken hop)

/-- The configuration `finish_connection` makes of a host's. -/
def clientConfig (host : SshHost) : ClientConfig where
  nodelay := true
  keepaliveInterval := if host.keepaliveInterval = 0 then none else some host.keepaliveInterval
  keepaliveMax := host.keepaliveMax

/-- The verifier of a host's key. -/
def verifierOf (host : SshHost) (paths : List PathBuf) (approval : Option HostKeyApproval) :
    HostKeyVerifier where
  host := host.hostname
  port := host.port
  paths := paths
  policy := host.hostKeyPolicy
  approval := approval

/-- `finish_connection`, on a transport. Its token is cancelled where the
handshake or the authentication fails. -/
def finishConnection (hop : ℕ) (host : SshHost) (credentials : SshCredential)
    (paths : List PathBuf) (remote : Option RemoteEndpoint) (privateKey : Option PrivateKey)
    (approval : Option HostKeyApproval) : Client Session := do
  (connectStream russh hop (clientConfig host) (verifierOf host paths approval)).onError
    (cancelToken hop)
  (authenticate hop host credentials privateKey).onError (cancelToken hop)
  pure ⟨remote, none⟩

/-- `connect_authenticated`. -/
def connectAuthenticated (hop : ℕ) (spec : HopSpec) (remote : Option RemoteEndpoint)
    (approval : Option HostKeyApproval) : Client Session := do
  ofExcept (validate spec.host spec.credential spec.knownHostsPaths)
  let privateKey ← privateKeyOf russh hop spec.host spec.credential
  ofExcept (outcome "TCP connect" .tcp
    (← inquire (.tcpConnect hop spec.host.hostname spec.host.port)))
  finishConnection russh hop spec.host spec.credential spec.knownHostsPaths remote privateKey
    approval

/-- `connect_via_channel`. -/
def connectViaChannel (hop : ℕ) (spec : HopSpec) (remote : Option RemoteEndpoint)
    (approval : Option HostKeyApproval) : Client Session := do
  ofExcept (validate spec.host spec.credential spec.knownHostsPaths)
  let privateKey ← privateKeyOf russh hop spec.host spec.credential
  finishConnection russh hop spec.host spec.credential spec.knownHostsPaths remote privateKey
    approval

/-- `open_direct_tcpip` for the channel to a hop. -/
def openHopChannel (hop : ℕ) (host : SshHost) : Client Unit := do
  ofExcept (checkDestination host.hostname host.port)
  ofExcept (outcome "direct-tcpip channel" .channelOpen
    (← inquire (.openChannel hop host.hostname host.port)))

/-- `DirectSshSession::disconnect`. -/
def disconnect (hop : ℕ) : Client Unit := do
  let shutdown ← inquire (Question.disconnect hop)
  cancelToken hop
  match shutdown with
  | .elapsed => .fail (.timeout "SSH shutdown")
  | .ended (.error source) _ => .fail (.session source)
  | .ended (.ok _) .finished | .ended (.ok _) .disconnected => pure ()
  | .ended (.ok _) (.failed source) => .fail (.handshake source)

/-! ## The chain -/

/-- A part of the connector that ends with a `SshChainError`. -/
abbrev Connector := Dialogue Question Question.Answer SshChainError

/-- `disconnect_all`, of the sessions of the hops up to a number. What
comes of it is not looked at. -/
def disconnectAll : ℕ → Connector Unit
  | 0 => pure ()
  | hop + 1 => do
    (disconnect (hop + 1)).ignore
    disconnectAll hop

/-- The loop over the hops behind the first. `number` is that of the
next one, and `total` that of the last. -/
def connectHops (remote : Option RemoteEndpoint) (approval : Option HostKeyApproval) (total : ℕ) :
    ℕ → List HopSpec → List Session → Connector (List Session)
  | _, [], sessions => pure sessions
  | number, spec :: rest, sessions => do
    ((openHopChannel number spec.host).mapError (.hop number)).onError
      (disconnectAll sessions.length)
    let finalRemote := if number = total then remote else none
    let session ← ((connectViaChannel russh number spec finalRemote approval).mapError
      (.hop number)).onError (disconnectAll sessions.length)
    connectHops remote approval total (number + 1) rest (sessions ++ [session])

/-- `SshChain::connect_with_approval`. -/
def connectWithApproval (hops : List HopSpec) (remote : Option RemoteEndpoint)
    (approval : Option HostKeyApproval) : Connector (List Session) :=
  match hops with
  | [] => .fail .empty
  | first :: rest =>
    if maxHops < hops.length then .fail .tooManyHops
    else do
      let firstRemote := if rest = [] then remote else none
      let session ← (connectAuthenticated russh 1 first firstRemote approval).mapError (.hop 1)
      connectHops russh remote approval hops.length 2 rest [session]

/-! ## The connector -/

/-- `load_secret`. -/
def loadSecret (hop : ℕ) (reference : SecretRef) : Connector String := do
  ofExcept (Except.mapError (fun reason => .credential hop (takeChars 256 reason))
    (← inquire (Question.secret hop reference)))

/-- The credential of a host. -/
def credentialOf (hop : ℕ) : AuthConfig → Connector SshCredential
  | .agent _ => pure .agent
  | .keyboardInteractive =>
    .fail (.credential hop "Keyboard-interactive authentication is not available yet")
  | .password credentialRef => do
    let secret ← loadSecret hop credentialRef
    pure (.password secret)
  | .privateKey _ none => pure (.privateKey none)
  | .privateKey _ (some reference) => do
    let secret ← loadSecret hop reference
    pure (.privateKey (some secret))

/-- `build_hops`, from the host with number `hop` on. -/
def buildHops (paths : List PathBuf) : ℕ → List SshHost → Connector (List HopSpec)
  | _, [] => pure []
  | hop, host :: rest => do
    let credential ← credentialOf hop host.auth
    let hops ← buildHops paths (hop + 1) rest
    pure (⟨host, credential, paths⟩ :: hops)

/-- What a supervisor calls to connect: the hops are made, and then the
chain. -/
def connector (hosts : List SshHost) (paths : List PathBuf) (remote : Option RemoteEndpoint)
    (approval : Option HostKeyApproval) : Connector (List Session) := do
  let hops ← buildHops paths 1 hosts
  connectWithApproval russh hops remote approval

end Ssh

end TunnelWarden

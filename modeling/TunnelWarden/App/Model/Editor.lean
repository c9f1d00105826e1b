import TunnelWarden.App.Model.Workspace

/-!
# The forms of the window

`HostEditor` and `TunnelEditor` with the texts that their inputs hold,
what the buttons of the forms do, and `Workspace` with the form that is
open in it (`Bench`). Only forms make edits of hosts and tunnels.
-/

namespace TunnelWarden

/-- The references of an authentication. -/
def AuthConfig.references : AuthConfig → List SecretRef
  | .password reference => [reference]
  | .privateKey _ passphrase => passphrase.toList
  | .agent _ => []
  | .keyboardInteractive => []

/-- The references of a configuration. -/
def DomainConfig.references (config : DomainConfig) : List SecretRef :=
  config.hosts.flatMap fun host => host.auth.references

namespace App

/-- `Path::to_str` and `PathBuf::from`, up to the equality of paths. -/
structure PathText where
  toStr : PathBuf → Option String
  ofStr : String → PathBuf
  ofStr_toStr : ∀ (path : PathBuf) (text : String), toStr path = some text → ofStr text = path
  toStr_ofStr : ∀ text : String, ∃ text', toStr (ofStr text) = some text' ∧
    TunnelConfig.blank text' = TunnelConfig.blank text

/-- `new_secret_ref`, with the number that is drawn. -/
def newSecretRef (random : ℕ) : SecretRef :=
  let hex := Nat.toDigits 16 random
  ⟨"credential-" ++ String.ofList (List.replicate (32 - hex.length) '0' ++ hex)⟩

/-- A number from an input, or the error. -/
def number (bound : ℕ) (text error : String) : Except String ℕ :=
  match Import.parseUnsigned bound text with
  | some n => .ok n
  | none => .error error

/-! ## The form of a host -/

structure HostEditor where
  id : HostId
  name : String
  hostname : String
  port : String
  username : String
  identityFile : String
  agentSocket : String
  password : String := ""
  passphrase : String := ""
  notes : String
  connectTimeoutMs : String
  keepaliveIntervalMs : String
  keepaliveMax : String
  auth : AuthConfig
  originalAuth : AuthConfig
  policy : HostKeyPolicy
  deriving DecidableEq, Repr

inductive HostField where
  | name | hostname | port | username | identityFile | agentSocket | password | passphrase
  | notes | connectTimeoutMs | keepaliveIntervalMs | keepaliveMax
  deriving DecidableEq, Repr

/-- What the user can do in the form of a host. -/
inductive HostAction where
  | enter (field : HostField) (text : String)
  | auth (kind : AuthType)
  | policy (policy : HostKeyPolicy)
  deriving DecidableEq, Repr

namespace HostEditor

/-- `HostEditor::new`. -/
def new (paths : PathText) (id : HostId) (existing : Option SshHost) : HostEditor :=
  let text (f : SshHost → String) : String := (existing.map f).getD ""
  let numeral (f : SshHost → ℕ) (default : ℕ) : String := digits 10 ((existing.map f).getD default)
  let auth : AuthConfig := (existing.map SshHost.auth).getD (.agent none)
  { id
    name := text SshHost.name
    hostname := text SshHost.hostname
    port := numeral SshHost.port 22
    username := text SshHost.username
    identityFile := match auth with
      | .privateKey path _ => (paths.toStr path).getD ""
      | _ => ""
    agentSocket := match auth with
      | .agent socket => socket.getD ""
      | _ => ""
    notes := text SshHost.notes
    connectTimeoutMs := numeral (fun host => host.connectTimeout.asMillis) 8000
    keepaliveIntervalMs := numeral (fun host => host.keepaliveInterval.asMillis) 10000
    keepaliveMax := numeral SshHost.keepaliveMax 3
    auth
    originalAuth := auth
    policy := (existing.map SshHost.hostKeyPolicy).getD .strict }

/-- An input is written to. -/
def enter (e : HostEditor) (text : String) : HostField → HostEditor
  | .name => { e with name := text }
  | .hostname => { e with hostname := text }
  | .port => { e with port := text }
  | .username => { e with username := text }
  | .identityFile => { e with identityFile := text }
  | .agentSocket => { e with agentSocket := text }
  | .password => { e with password := text }
  | .passphrase => { e with passphrase := text }
  | .notes => { e with notes := text }
  | .connectTimeoutMs => { e with connectTimeoutMs := text }
  | .keepaliveIntervalMs => { e with keepaliveIntervalMs := text }
  | .keepaliveMax => { e with keepaliveMax := text }

/-- The authentication that a button chooses. -/
def choose (e : HostEditor) : AuthType → AuthConfig
  | .agent => .agent none
  | .privateKey =>
    match e.originalAuth with
    | .privateKey path passphrase => .privateKey path passphrase
    | _ => .privateKey ⟨[]⟩ none
  | .password =>
    match e.originalAuth with
    | .password reference => .password reference
    | _ => .password ⟨"pending"⟩
  | .keyboardInteractive => .keyboardInteractive

def act (e : HostEditor) : HostAction → HostEditor
  | .enter field text => e.enter text field
  | .auth kind => { e with auth := e.choose kind }
  | .policy policy => { e with policy }

/-- The authentication in the form, and a secret to store. -/
def collectAuth (paths : PathText) (fresh : SecretRef) (e : HostEditor) :
    Except String (AuthConfig × Option SecretUpdate) :=
  match e.auth with
  | .password reference =>
    if e.password = "" ∧ reference.val = "pending" then .error "Enter a password before saving"
    else if e.password = "" then .ok (.password reference, none)
    else .ok (.password fresh, some ⟨fresh, e.password⟩)
  | .privateKey _ passphrase =>
    if TunnelConfig.blank e.identityFile then .error "Choose a private key file"
    else if e.passphrase = "" then
      .ok (.privateKey (paths.ofStr e.identityFile) passphrase, none)
    else .ok (.privateKey (paths.ofStr e.identityFile) (some fresh), some ⟨fresh, e.passphrase⟩)
  | .agent _ =>
    let socket := trim e.agentSocket
    .ok (.agent (if socket = "" then none else some socket), none)
  | .keyboardInteractive => .ok (.keyboardInteractive, none)

/-- `HostEditor::collect`, with the number that is drawn for a new
reference. -/
def collect (paths : PathText) (random : ℕ) (e : HostEditor) :
    Except String (SshHost × Option SecretUpdate) := do
  let port ← number (2 ^ 16) e.port "SSH port must be between 1 and 65535"
  let (auth, secret) ← e.collectAuth paths (newSecretRef random)
  let connectTimeoutMs ← number (2 ^ 64) e.connectTimeoutMs
    "Connect timeout must be a number of milliseconds"
  let keepaliveIntervalMs ← number (2 ^ 64) e.keepaliveIntervalMs
    "Keepalive interval must be a number of milliseconds"
  let keepaliveMax ← number (2 ^ 32) e.keepaliveMax "Keepalive max must be a number"
  return ({
    id := e.id, name := trim e.name, hostname := trim e.hostname, port, username := trim e.username
    auth, hostKeyPolicy := e.policy, connectTimeout := .fromMillis connectTimeoutMs
    keepaliveInterval := .fromMillis keepaliveIntervalMs, keepaliveMax, notes := e.notes }, secret)

end HostEditor

/-! ## The form of a tunnel -/

structure TunnelEditor where
  id : TunnelId
  name : String
  localHost : String
  localPort : String
  remoteHost : String
  remotePort : String
  description : String
  mode : TunnelMode
  jumpChain : List HostId
  autoStart : Bool
  reconnect : RetryPolicy
  groupId : Option GroupId
  deriving DecidableEq, Repr

inductive TunnelField where
  | name | localHost | localPort | remoteHost | remotePort | description
  deriving DecidableEq, Repr

/-- What the user can do in the form of a tunnel. -/
inductive TunnelAction where
  | enter (field : TunnelField) (text : String)
  | mode (mode : TunnelMode)
  | group (id : Option GroupId)
  | hopUp (index : ℕ)
  | hopDown (index : ℕ)
  | hopRemove (index : ℕ)
  | hopAdd (id : HostId)
  | autoStart
  deriving DecidableEq, Repr

namespace TunnelEditor

/-- `TunnelEditor::new`. -/
def new (id : TunnelId) (existing : Option TunnelConfig) : TunnelEditor :=
  let text (f : TunnelConfig → String) (default : String) : String := (existing.map f).getD default
  let remote : Option RemoteEndpoint := existing.bind TunnelConfig.remote
  { id
    name := text TunnelConfig.name ""
    localHost := text (fun tunnel => tunnel.localEnd.host) "127.0.0.1"
    localPort := digits 10 ((existing.map fun tunnel => tunnel.localEnd.port).getD 1080)
    remoteHost := (remote.map RemoteEndpoint.host).getD ""
    remotePort := (remote.map fun remote => digits 10 remote.port).getD ""
    description := text TunnelConfig.description ""
    mode := (existing.map TunnelConfig.mode).getD .dynamic
    jumpChain := (existing.map TunnelConfig.jumpChain).getD []
    autoStart := (existing.map TunnelConfig.autoStart).getD false
    reconnect := (existing.map TunnelConfig.reconnect).getD {}
    groupId := existing.bind TunnelConfig.groupId }

/-- An input is written to. -/
def enter (e : TunnelEditor) (text : String) : TunnelField → TunnelEditor
  | .name => { e with name := text }
  | .localHost => { e with localHost := text }
  | .localPort => { e with localPort := text }
  | .remoteHost => { e with remoteHost := text }
  | .remotePort => { e with remotePort := text }
  | .description => { e with description := text }

/-- The hops that can be chosen are the hosts of the copy, and so are the
groups. -/
def act (config : DomainConfig) (e : TunnelEditor) : TunnelAction → TunnelEditor
  | .enter field text => e.enter text field
  | .mode mode => { e with mode }
  | .group none => { e with groupId := none }
  | .group (some id) =>
    if config.groups.any fun group => group.id = id then { e with groupId := some id } else e
  | .hopUp index =>
    if 0 < index ∧ index < e.jumpChain.length then
      { e with jumpChain := swap e.jumpChain index (index - 1) }
    else e
  | .hopDown index =>
    if index + 1 < e.jumpChain.length then
      { e with jumpChain := swap e.jumpChain index (index + 1) }
    else e
  | .hopRemove index => { e with jumpChain := e.jumpChain.eraseIdx index }
  | .hopAdd id =>
    if (config.hosts.any fun host => host.id = id) ∧ e.jumpChain.length < maxJumpHops ∧
        id ∉ e.jumpChain then
      { e with jumpChain := e.jumpChain ++ [id] }
    else e
  | .autoStart => { e with autoStart := !e.autoStart }

/-- The far end in the form. -/
def collectRemote (e : TunnelEditor) : Except String (Option RemoteEndpoint) :=
  if e.mode = .dynamic then .ok none
  else do
    let port ← number (2 ^ 16) e.remotePort "Destination port must be between 1 and 65535"
    return some ⟨trim e.remoteHost, port⟩

/-- `TunnelEditor::collect`. -/
def collect (e : TunnelEditor) : Except String TunnelConfig := do
  let localPort ← number (2 ^ 16) e.localPort "Local port must be between 0 and 65535"
  let remote ← e.collectRemote
  return {
    id := e.id, name := trim e.name, groupId := e.groupId, mode := e.mode
    jumpChain := e.jumpChain, localEnd := ⟨trim e.localHost, localPort⟩, remote
    autoStart := e.autoStart, reconnect := e.reconnect, description := e.description }

end TunnelEditor

/-! ## The window with a form -/

/-- The first id of a kind that is free, from a number on. -/
def freeId (kind : String) (taken : List String) : ℕ → ℕ → String
  | n, 0 => kind ++ digits 10 n
  | n, fuel + 1 =>
    if kind ++ digits 10 n ∈ taken then freeId kind taken (n + 1) fuel else kind ++ digits 10 n

/-- The loop of `new_host` and `new_tunnel`; it needs no more rounds than
there are ids. -/
def newId (kind : String) (taken : List String) : String :=
  freeId kind taken (taken.length + 1) taken.length

/-- The form that is open. -/
inductive Editor where
  | host (editor : HostEditor)
  | tunnel (editor : TunnelEditor)
  deriving DecidableEq, Repr

/-- The application with the form in its window. -/
structure Bench where
  desktop : Desktop
  editor : Option Editor := none

namespace Bench

inductive Input where
  | newHost
  | editHost (id : HostId)
  | newTunnel
  | editTunnel (id : TunnelId)
  | host (action : HostAction)
  | tunnel (action : TunnelAction)
  /-- The number that is drawn, and the error of `try_send`. -/
  | saveEditor (random : ℕ) (unsent : Option String)
  | cancel
  | selectPage
  | desktop (input : Desktop.Input)

/-- What a step adds to the credentials that are about. -/
inductive Event where
  /-- A form sends its secret, with the configuration. -/
  | entered (secret : SecretUpdate)
  /-- An import sends references from elsewhere. -/
  | brought (references : List SecretRef)

end Bench

/-- The references that come with an import. -/
def Edit.brings : Edit → List SecretRef
  | .importConfig config => config.references
  | .importSsh entries => entries.flatMap fun entry => entry.host.auth.references
  | _ => []

namespace Bench

/-- The copy of the configuration in the window. -/
def copy (b : Bench) : Option DomainConfig := b.desktop.window.map Workspace.startup

/-- A form is opened. -/
def openEditor (b : Bench) (editor : DomainConfig → Option Editor) : Bench :=
  match b.copy.bind editor with
  | none => b
  | some editor => { b with editor := some editor }

/-- An edit is sent. What it brings is told where it goes out. -/
def send (home : Option PathBuf) (edit : Edit) (unsent : Option String) (b : Bench) :
    List Event × Bench :=
  match b.desktop.editConfig home edit unsent with
  | (none, desktop) => ([], { b with desktop })
  | (some _, desktop) =>
    (edit.secret.toList.map .entered ++ [.brought edit.brings], { b with desktop })

/-- An error is shown in the window. -/
def refuse (b : Bench) (error : Option String) : Bench :=
  { b with desktop := { b.desktop with
      window := b.desktop.window.map fun w => { w with commandError := error } } }

/-- The edit of a form. -/
def collected (paths : PathText) (random : ℕ) : Editor → Except String Edit
  | .host editor => (editor.collect paths random).map fun (host, secret) => .host host secret
  | .tunnel editor => editor.collect.map .tunnel

/-- `Workspace::save_editor`. -/
def saveEditor (home : Option PathBuf) (paths : PathText) (random : ℕ) (unsent : Option String)
    (b : Bench) : List Event × Bench :=
  match b.desktop.window, b.editor with
  | some w, some editor =>
    if w.saving then ([], b)
    else match collected paths random editor with
      | .error error => ([], b.refuse (some error))
      | .ok edit => b.send home edit unsent
  | _, _ => ([], b)

/-- The next reply tells the window that its save worked. -/
def closesEditor (d : Desktop) : Bool :=
  match d.replies, d.window with
  | reply :: _, some w => w.number = reply.window && reply.result.isOk
  | _, _ => false

/-- What happens outside the form. A form is gone with its window, and
once the window has saved. -/
def outside (home : Option PathBuf) (codec : Codec) (input : Desktop.Input) (b : Bench) :
    List Event × Bench :=
  match input with
  | .edit (.host ..) _ | .edit (.tunnel _) _ => ([], b)
  | .edit edit unsent => b.send home edit unsent
  | input =>
    let desktop := (b.desktop.step home codec input).2
    let gone := desktop.window.isNone || (input matches .deliver && closesEditor b.desktop)
    ([], ⟨desktop, if gone then none else b.editor⟩)

def step (home : Option PathBuf) (codec : Codec) (paths : PathText) (b : Bench) (input : Input) :
    List Event × Bench :=
  match input with
  | .newHost => ([], b.openEditor fun config =>
      some (.host (.new paths ⟨newId "host-" (config.hosts.map fun host => host.id.val)⟩ none)))
  | .editHost id => ([], b.openEditor fun config =>
      (config.hosts.find? fun host => host.id = id).map fun host => .host (.new paths id (some host)))
  | .newTunnel => ([], b.openEditor fun config =>
      some (.tunnel (.new ⟨newId "tunnel-" (config.tunnels.map fun tunnel => tunnel.id.val)⟩ none)))
  | .editTunnel id => ([], b.openEditor fun config =>
      (config.tunnels.find? fun tunnel => tunnel.id = id).map fun tunnel =>
        .tunnel (.new id (some tunnel)))
  | .host action =>
    match b.editor with
    | some (.host editor) => ([], { b with editor := some (.host (editor.act action)) })
    | _ => ([], b)
  | .tunnel action =>
    match b.copy, b.editor with
    | some config, some (.tunnel editor) =>
      ([], { b with editor := some (.tunnel (editor.act config action)) })
    | _, _ => ([], b)
  | .saveEditor random unsent => b.saveEditor home paths random unsent
  | .cancel =>
    if b.desktop.window.any Workspace.saving then ([], b)
    else ([], { b.refuse none with editor := none })
  | .selectPage => ([], { b with editor := none })
  | .desktop input => b.outside home codec input

end Bench

end App

end TunnelWarden

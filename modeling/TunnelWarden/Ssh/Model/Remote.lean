import TunnelWarden.Ssh.Model.Chain

/-!
# The remote forward of a session

`request_remote_forward` and `cancel_remote_forward` of a session, its
`disconnect` and its drop, and the handler that is asked for every
channel the server opens. The two sides run in tasks of their own and
share the port the handler accepts at. The handler reads it before it
answers, and what the other side does in between is a step of its own.
-/

namespace TunnelWarden

namespace Ssh

def maxForwardedChannels : ℕ := 64

/-- What becomes of a request to the server within its deadline. -/
inductive Answer (α : Type) where
  | success (value : α)
  | refused (source : RusshError)
  | timeout
  deriving DecidableEq, Repr

def Answer.within {α : Type} (during : String) : Answer α → Except SshConnectError α
  | .success value => .ok value
  | .refused source => .error (.remoteForward source)
  | .timeout => .error (.timeout during)

/-- What the owner of a session does with it. A call borrows the session
until it returns or its future is dropped, and `disconnect` consumes it. -/
inductive Owner where
  | idle
  | requesting
  | cancelling
  | disconnecting
  | dropped
  deriving DecidableEq, Repr

/-- `forwarded` of the handler: the binding, the port it accepts at, and
the queue of the channels it hands on. The session stores to the port as
its `remote_enabled`. -/
structure Forwarded where
  binding : RemoteEndpoint
  enabled : ℕ := 0
  queued : ℕ := 0
  receiving : Bool := true
  deriving DecidableEq, Repr

/-- A channel the server asks to open, with what the handler makes of
it. -/
structure Opening where
  address : String
  port : ℕ
  verdict : Except ChannelOpenFailure Unit
  deriving DecidableEq

/-- A session that is connected, with its handler. -/
structure Remote where
  session : Session
  owner : Owner := .idle
  cancelled : Bool := false
  handler : Option Forwarded
  opening : Option Opening := none
  deriving DecidableEq

inductive RemoteEvent where
  | registered (port : ℕ)
  | requestFailed (error : SshConnectError)
  | cancelBegan
  | cancelReturned (result : Except SshConnectError Unit)
  | abandoned
  | dropBegan
  | decided (opening : Opening)
  | answered (opening : Opening)
  deriving DecidableEq

inductive RemoteInput where
  | request
  | requestAnswered (answer : Answer ℕ)
  | cancel
  | cancelAnswered (answer : Answer Unit)
  | abandon
  | disconnect
  | drop
  | cancelToken
  | channelOpen (address : String) (port : ℕ)
  | reply
  | receive
  | closeChannels
  deriving DecidableEq

/-- The handler of a session: `server_channel_open_forwarded_tcpip`, up
to its answer. -/
def serverChannelOpenForwardedTcpip (forwarded : Option Forwarded) (connectedAddress : String)
    (connectedPort : ℕ) : Except ChannelOpenFailure Unit :=
  match forwarded with
  | none => .error .administrativelyProhibited
  | some handler =>
    let activePort := handler.enabled
    if activePort = 0 ∨ handler.binding.host ≠ connectedAddress ∨ activePort ≠ connectedPort then
      .error .administrativelyProhibited
    else if handler.receiving ∧ handler.queued < maxForwardedChannels then .ok ()
    else .error .resourceShortage

namespace Remote

/-- What `finish_connection` sets up. -/
def connected (remote : Option RemoteEndpoint) : Remote where
  session := { forwarded := remote }
  handler := remote.map fun binding => { binding }

/-- `enabled.store`, where there is a forward. -/
def store (r : Remote) (port : ℕ) : Remote :=
  { r with handler := r.handler.map fun handler => { handler with enabled := port } }

/-- `request_remote_forward`, up to its request. -/
def request (r : Remote) : List RemoteEvent × Remote :=
  match r.session.checkForwarded with
  | .error error => ([.requestFailed error], r)
  | .ok _ =>
    if r.cancelled then ([.requestFailed .cancelled], r)
    else ([], { r with owner := .requesting })

/-- `request_remote_forward`, from the answer on. The token is looked at
first. -/
def requestAnswered (r : Remote) (answer : Answer ℕ) : List RemoteEvent × Remote :=
  let assigned :=
    if r.cancelled then .error .cancelled else answer.within "remote forward request"
  match r.session.requestRemoteForward assigned with
  | .error error => ([.requestFailed error], { r with owner := .idle })
  | .ok (port, session) => ([.registered port], { r.store port with session, owner := .idle })

/-- `cancel_remote_forward`, up to its request. -/
def cancel (r : Remote) : List RemoteEvent × Remote :=
  match r.session.remoteActive with
  | none => ([.cancelReturned (.ok ())], r)
  | some _ => ([.cancelBegan], { r.store 0 with owner := .cancelling })

/-- `cancel_remote_forward`, from the answer on. -/
def cancelAnswered (r : Remote) (answer : Answer Unit) : List RemoteEvent × Remote :=
  match answer.within "cancel remote forward" with
  | .error error => ([.cancelReturned (.error error)], { r with owner := .idle })
  | .ok _ =>
    ([.cancelReturned (.ok ())],
      { r with session := { r.session with remoteActive := none }, owner := .idle })

/-- The receiver of the channels is dropped. -/
def closeChannels (r : Remote) : Remote :=
  { r with handler := r.handler.map fun handler => { handler with receiving := false } }

/-- `Drop` of the session. Before a registration the receiver is dropped
with it. -/
def drop (r : Remote) : List RemoteEvent × Remote :=
  let stored := { r.store 0 with cancelled := true, owner := .dropped }
  ([.dropBegan], if r.session.forwarded = none then stored else stored.closeChannels)

/-- The handler answers as it decided, and hands on what it accepts. -/
def reply (r : Remote) (opening : Opening) : List RemoteEvent × Remote :=
  ([.answered opening],
    { r with
      opening := none
      handler :=
        if opening.verdict = .ok () then
          r.handler.map fun handler => { handler with queued := handler.queued + 1 }
        else r.handler })

/-- One step. What the owner of the session or the handler is not in the
position to do changes nothing. -/
def step (r : Remote) : RemoteInput → List RemoteEvent × Remote
  | .request => if r.owner = .idle then r.request else ([], r)
  | .requestAnswered answer =>
    if r.owner = .requesting then r.requestAnswered answer else ([], r)
  | .cancel => if r.owner = .idle then r.cancel else ([], r)
  | .cancelAnswered answer =>
    if r.owner = .cancelling then r.cancelAnswered answer else ([], r)
  | .abandon =>
    if r.owner = .requesting ∨ r.owner = .cancelling then
      ([.abandoned], { r with owner := .idle })
    else ([], r)
  | .disconnect => if r.owner = .idle then ([], { r with owner := .disconnecting }) else ([], r)
  | .drop => if r.owner = .idle ∨ r.owner = .disconnecting then r.drop else ([], r)
  | .cancelToken => ([], { r with cancelled := true })
  | .channelOpen address port =>
    match r.opening with
    | some _ => ([], r)
    | none =>
      let opening :=
        Opening.mk address port (serverChannelOpenForwardedTcpip r.handler address port)
      ([.decided opening], { r with opening := some opening })
  | .reply =>
    match r.opening with
    | none => ([], r)
    | some opening => r.reply opening
  | .receive =>
    ([], { r with
      handler := r.handler.map fun handler => { handler with queued := handler.queued - 1 } })
  | .closeChannels => if r.session.forwarded = none then ([], r.closeChannels) else ([], r)

end Remote

end Ssh

end TunnelWarden

import TunnelWarden.Common.Run
import TunnelWarden.Forwarding.Model.Socks5
import TunnelWarden.Supervisor.Model.Errors

/-!
# A forwarded connection

`handle_connection` of a Local or Dynamic worker, one event at a time.
Its `control` is the await it is at: the handshake, the queue to the
worker, the worker's answer, a reply to the client, or the relay; or the
point where a failed request looks at the cancellation once more. What a
write takes is the system's to choose, and the worker may answer at any
time, or drop the request. What an interrupted handshake has written is
left out, as are the bytes of the relay.
-/

namespace TunnelWarden

open Ssh Socks5

/-- `ForwardingFailure`. -/
inductive ForwardingFailure where
  | notAllowed
  | connectFailed
  | resourceShortage
  | timeout
  | sessionUnavailable
  | other
  deriving DecidableEq, Repr

/-- `SshConnectError::forwarding_failure`. -/
def Ssh.SshConnectError.forwardingFailure : SshConnectError → ForwardingFailure
  | .channelOpen source =>
    match source.kind with
    | .channelOpenFailure .administrativelyProhibited => .notAllowed
    | .channelOpenFailure .connectFailed => .connectFailed
    | .channelOpenFailure .resourceShortage => .resourceShortage
    | _ => .other
  | .timeout _ => .timeout
  | .cancelled | .session _ => .sessionUnavailable
  | _ => .other

/-- `map_socks_failure`. -/
def mapSocksFailure (error : SshConnectError) : SocksReply :=
  match error.forwardingFailure with
  | .notAllowed => .notAllowed
  | .connectFailed => .connectionRefused
  | .timeout => .ttlExpired
  | .sessionUnavailable => .hostUnreachable
  | .resourceShortage | .other => .generalFailure

inductive ForwardMode where
  | fixed (destination : RemoteEndpoint)
  | dynamic
  deriving DecidableEq, Repr

/-- How the worker fares with a request to open a channel. -/
inductive OpenOutcome where
  /-- The worker is cancelled. -/
  | workerCancelled
  /-- The session has no handle any more, or is cancelled. -/
  | sessionGone
  | opened
  | refused (source : RusshError)
  | timedOut

/-- `DirectSshSession::open_direct_tcpip`. -/
def openDirectTcpip (host : String) (port : ℕ) (outcome : OpenOutcome) :
    Except SshConnectError Unit :=
  if host = "" ∨ 255 < byteLen host ∨ port = 0 then
    .error (.invalidConfig "invalid forwarding destination")
  else match outcome with
    | .workerCancelled | .sessionGone => .error .cancelled
    | .opened => .ok ()
    | .refused source => .error (.channelOpen source)
    | .timedOut => .error (.timeout "direct-tcpip channel")

/-- What the worker answers a request. Its own cancellation goes first. -/
def answerOf (host : String) (port : ℕ) : OpenOutcome → Except SshConnectError Unit
  | .workerCancelled => .error .cancelled
  | outcome => openDirectTcpip host port outcome

/-- The await a connection is at. -/
inductive ConnectionControl where
  /-- `read_connect`, within its deadline. -/
  | reading
  /-- `requests.send(..)`. -/
  | sending (host : String) (port : ℕ)
  /-- The worker's answer. -/
  | awaiting (host : String) (port : ℕ)
  /-- No await: the cancellation may come before it is looked at. -/
  | failed (error : SshConnectError)
  /-- The reply to a client that gets no channel, within its deadline. -/
  | refusing (reply : SocksReply)
  /-- The reply to a client that has one. -/
  | confirming
  /-- `relay_bidirectional`. -/
  | relaying
  | returned (result : Except IoError Unit)
  deriving DecidableEq

/-- A call of `handle_connection`: the bytes the client has to send, what
`read_connect` wrote and what it returned, what `request_channel`
returned, the reply begun after that with the bytes written of it, and
whether the relay was begun. -/
structure Handler where
  mode : ForwardMode
  client : List UInt8
  cancelled : Bool := false
  greeting : List UInt8 := []
  request : Option SocksConnectRequest := none
  channel : Option (Except SshConnectError Unit) := none
  chosen : Option SocksReply := none
  written : List UInt8 := []
  relayed : Bool := false
  control : ConnectionControl
  deriving DecidableEq

inductive ConnectionEvent where
  /-- `read_connect` is through with the client's bytes. -/
  | handshake
  /-- The socket fails it. -/
  | broken
  /-- The deadline of the await has passed. -/
  | elapsed
  /-- The queue has room, or nobody takes from it any more. -/
  | queued (sent : Bool)
  | answer (outcome : OpenOutcome)
  /-- The worker drops the request. -/
  | hungUp
  /-- A write of the reply. -/
  | wrote (result : Except IoError ℕ)
  | relayed (result : Except IoError Unit)
  | cancel
  | poll

namespace Handler

/-- A connection that was just accepted. -/
def start (mode : ForwardMode) (client : List UInt8) : Handler :=
  match mode with
  | .fixed destination =>
    { mode, client, control := .sending destination.host destination.port }
  | .dynamic => { mode, client, control := .reading }

def finish (result : Except IoError Unit) (h : Handler) : Handler :=
  { h with control := .returned result }

/-- What follows `request_channel`. -/
def channelReturned (result : Except SshConnectError Unit) (h : Handler) : Handler :=
  match result with
  | .error error => { h with channel := some (.error error), control := .failed error }
  | .ok () =>
    match h.mode with
    | .dynamic =>
      { h with channel := some (.ok ()), chosen := some .succeeded, control := .confirming }
    | .fixed _ => { h with channel := some (.ok ()), relayed := true, control := .relaying }

/-- What follows an error of it. -/
def channelFailed (error : SshConnectError) (h : Handler) : Handler :=
  if h.mode = .dynamic ∧ ¬ h.cancelled then
    { h with chosen := some (mapSocksFailure error), control := .refusing (mapSocksFailure error) }
  else h.finish (.ok ())

/-- What follows `read_connect`. -/
def handshakeReturned (h : Handler) : Handler :=
  match readConnect ⟨h.client, []⟩ with
  | (.ok request, stream) =>
    { h with
      greeting := stream.output
      request := some request
      control := .sending request.destination.host request.destination.port }
  | (.error _, stream) => { h with greeting := stream.output }.finish (.ok ())

/-- The bytes a write takes of what is left of a reply. -/
def nextBytes (reply : SocksReply) (n : ℕ) (h : Handler) : List UInt8 :=
  (reply.bytes.drop h.written.length).take n

/-- `write_all`, one write at a time: `done` is what follows it. -/
def writeReply (reply : SocksReply) (result : Except IoError ℕ)
    (done : Except IoError Unit → Handler → Handler) (h : Handler) : Handler :=
  match result with
  | .error error => done (.error error) h
  | .ok n =>
    let bytes := h.nextBytes reply n
    if bytes = [] then done (.error ⟨.other, "write zero"⟩) h
    else
      let h := { h with written := h.written ++ bytes }
      if h.written.length < reply.bytes.length then h else done (.ok ()) h

/-- What follows the reply `Succeeded`: its error is the connection's. -/
def confirmed : Except IoError Unit → Handler → Handler
  | .error error, h => h.finish (.error ⟨.other, error.text⟩)
  | .ok (), h => { h with relayed := true, control := .relaying }

/-- One event of the connection's task. -/
def advance (h : Handler) (event : ConnectionEvent) : Handler :=
  match h.control with
  | .reading =>
    if h.cancelled then h.finish (.ok ())
    else match event with
      | .handshake => h.handshakeReturned
      | .broken | .elapsed => h.finish (.ok ())
      | _ => h
  | .sending host port =>
    if h.cancelled then h.channelReturned (.error .cancelled)
    else match event with
      | .queued true => { h with control := .awaiting host port }
      | .queued false => h.channelReturned (.error .cancelled)
      | _ => h
  | .awaiting host port =>
    if h.cancelled then h.channelReturned (.error .cancelled)
    else match event with
      | .answer outcome => h.channelReturned (answerOf host port outcome)
      | .hungUp => h.channelReturned (.error .cancelled)
      | _ => h
  | .failed error => h.channelFailed error
  | .refusing reply =>
    -- a cancellation is not looked at any more
    match event with
    | .wrote result => h.writeReply reply result fun _ h => h.finish (.ok ())
    | .elapsed => h.finish (.ok ())
    | _ => h
  | .confirming =>
    if h.cancelled then h.finish (.ok ())
    else match event with
      | .wrote result => h.writeReply .succeeded result confirmed
      | _ => h
  | .relaying =>
    match event with
    | .relayed result => h.finish result
    | _ => h
  | .returned _ => h

/-- One event. The cancellation comes from another task. -/
def step (h : Handler) (event : ConnectionEvent) : Unit × Handler :=
  match event with
  | .cancel => ((), { h with cancelled := true })
  | event => ((), h.advance event)

end Handler

end TunnelWarden

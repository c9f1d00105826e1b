import TunnelWarden.Ssh.Model.Chain

/-!
# Building a chain, step by step

`SshChain::connect_with_approval` with what it asks of the network and
in which order: the channels it opens, the connections it makes, and the
sessions it disconnects when a hop fails. The sessions it keeps are
marked with the number of their hop.
-/

namespace TunnelWarden

namespace Ssh

namespace SshChain

/-- What the builder does, in order. -/
inductive BuildStep where
  /-- `open_direct_tcpip`, to a hop, on the session of the hop `via`. -/
  | openChannel (via hop : ℕ)
  /-- `connect_authenticated` or `connect_via_channel`. -/
  | connect (hop : ℕ)
  /-- `DirectSshSession::disconnect`. -/
  | disconnect (hop : ℕ)
  deriving DecidableEq, Repr

/-- A session, and the hop it is to. -/
structure HopSession where
  hop : ℕ
  session : Session
  deriving DecidableEq, Repr

/-- The sessions so far, of which there is one, and the steps so far. -/
structure Building where
  sessions : List HopSession
  steps : List BuildStep
  nonempty : sessions ≠ []

/-- `open_direct_tcpip`, for the channel to a hop. -/
def openDirectTcpip (net : Net) (number : ℕ) (hop : HopSpec) : Except SshConnectError Unit := do
  checkDestination hop.host.hostname hop.host.port
  net.channel number

/-- `connect_authenticated` and `connect_via_channel`, up to the session
they leave. -/
def connectSession (net : Net) (number : ℕ) (hop : HopSpec) : Except SshConnectError Unit := do
  validate hop.host hop.credential hop.knownHostsPaths
  net.connection number

/-- `disconnect_all`: the last session is popped and disconnected until
none is left. -/
def disconnectAll (sessions : List HopSession) : List BuildStep :=
  sessions.reverse.map fun s => .disconnect s.hop

/-- The loop over the hops behind the first, with the index
`enumerate` gives. -/
def buildRest (net : Net) (total : ℕ) (remote : Option RemoteEndpoint) :
    ℕ → List HopSpec → Building → Except SshChainError (List HopSession) × List BuildStep
  | _, [], s => (.ok s.sessions, s.steps)
  | index, hop :: rest, s =>
    let number := index + 2
    let opened := s.steps ++ [.openChannel (s.sessions.getLast s.nonempty).hop number]
    match openDirectTcpip net number hop with
    | .error source => (.error (.hop number source), opened ++ disconnectAll s.sessions)
    | .ok () =>
      let finalRemote := if number = total then remote else none
      let connected := opened ++ [.connect number]
      match connectSession net number hop with
      | .error source => (.error (.hop number source), connected ++ disconnectAll s.sessions)
      | .ok () =>
        buildRest net total remote (index + 1) rest
          ⟨s.sessions ++ [⟨number, ⟨finalRemote, none⟩⟩], connected, by simp⟩

/-- `SshChain::connect_with_approval`: the sessions in order or the
error, and what was done. -/
def build (net : Net) (hops : List HopSpec) (remote : Option RemoteEndpoint) :
    Except SshChainError (List HopSession) × List BuildStep :=
  match hops with
  | [] => (.error .empty, [])
  | first :: rest =>
    if maxHops < hops.length then (.error .tooManyHops, [])
    else
      let firstRemote := if rest = [] then remote else none
      match connectSession net 1 first with
      | .error source => (.error (.hop 1 source), [.connect 1])
      | .ok () =>
        buildRest net hops.length remote 0 rest
          ⟨[⟨1, ⟨firstRemote, none⟩⟩], [.connect 1], by simp⟩

end SshChain

end Ssh

end TunnelWarden

import TunnelWarden.Forwarding.Model.Relay
import TunnelWarden.Ssh.Model.Remote
import TunnelWarden.Supervisor.Model.Worker

/-!
# The worker of a Remote tunnel

`RemoteForwardWorker` from `start_chain` to the end of `stop`, with the
session whose handler hands it the channels, the tasks that relay them,
and the counters of its tunnel. The `select!` of `run` polls one branch
at a time, in its order. A channel has the number it was handed on as,
and a task is the place it has among the others. The hops before the
last, and the logs, are left out.
-/

namespace TunnelWarden

open Ssh Relay

/-- Where the task of a channel is. -/
inductive RelayStage where
  /-- `TcpStream::connect`, to the local target. -/
  | connecting
  /-- `relay_bidirectional`: the number of its relay. -/
  | relaying (relay : ℕ)
  | returned (result : Except IoError Unit)
  deriving DecidableEq

/-- A task of the `JoinSet`. -/
structure RelayTask where
  channel : ℕ
  stage : RelayStage := .connecting
  deriving DecidableEq

/-- The branches of the loop. -/
inductive RemoteBranch where
  | cancelled
  | sessionTick
  | healthTick
  | join
  | receive
  deriving DecidableEq, Repr

/-- The branch that is polled after one that is not ready. -/
def RemoteBranch.next : RemoteBranch → RemoteBranch
  | .cancelled => .sessionTick
  | .sessionTick => .healthTick
  | .healthTick => .join
  | .join => .receive
  | .receive => .cancelled

/-- Where the owner of the worker is. -/
inductive RemoteWorkerControl where
  /-- Before `start_chain`. -/
  | starting
  /-- `request_remote_forward`. -/
  | registering
  /-- `start_chain` disconnects what it cannot use. -/
  | refusing (error : RemoteForwardError)
  | refused (error : RemoteForwardError)
  /-- `run`. -/
  | polling (branch : RemoteBranch)
  /-- `ping_all`. -/
  | pinging
  | returned (result : Except RemoteForwardError Unit)
  /-- `stop`: `cancel_remote_forward`. -/
  | unregistering
  /-- The tasks are joined, within the deadline. -/
  | draining (result : Except SshConnectError Unit)
  /-- They are joined after `abort_all`. -/
  | aborting (result : Except SshConnectError Unit)
  /-- `session.disconnect()`. -/
  | disconnecting (result : Except SshConnectError Unit)
  | stopped (result : Except RemoteForwardError Unit)
  deriving DecidableEq

/-- A worker: its session, with the channels it was handed and no task
has taken yet, how many it was handed, and its tasks. `ended` is that
russh has dropped the handler. -/
structure RemoteForwardWorker where
  localTarget : LocalEndpoint
  session : Remote
  ended : Bool := false
  queue : List ℕ := []
  handed : ℕ := 0
  cancelled : Bool := false
  connections : List RelayTask := []
  counters : Traffic := {}
  worker : Worker := {}
  control : RemoteWorkerControl := .starting

/-- What happens, as far as others could tell. -/
inductive RemoteWorkerEvent where
  /-- Of the session. -/
  | session (event : RemoteEvent)
  | handedOn (channel : ℕ)
  | spawned (channel : ℕ)
  | joined (channel : ℕ)
  /-- `stop` is called. -/
  | stopping
  /-- The token is cancelled by the one who gave it. -/
  | ownerCancelled
  /-- The token is cancelled by `stop`. -/
  | tokenCancelled
  | abortAll
  | disconnecting
  deriving DecidableEq

/-- What reaches a task. -/
inductive RelayTaskEvent where
  | poll
  /-- The connection to the local target, with the bytes either side will
  give, or an error. -/
  | connected (result : Except IoError (List UInt8 × List UInt8))
  | elapsed
  | copy (side : Side) (event : CopyEvent)

inductive RemoteWorkerInput where
  | start
  | registered (answer : Answer ℕ)
  | channelOpen (address : String) (port : ℕ)
  | reply
  /-- russh's task ends. -/
  | sessionEnds
  | cancel
  /-- The next poll; any branch but the first is not ready. -/
  | poll
  | sessionTick (closed : Bool)
  | healthTick
  | pinged (result : Except SshChainError (List Duration))
  | join (place : ℕ)
  | receive
  | task (place : ℕ) (event : RelayTaskEvent)
  | stop
  | unregistered (answer : Answer Unit)
  /-- The deadline of the drain. -/
  | elapsed
  | disconnected

namespace RemoteForwardWorker

/-- A worker that is about to be started, on a session that is set up for
a forward, or for none. -/
def before (localTarget : LocalEndpoint) (remote : Option RemoteEndpoint) : RemoteForwardWorker :=
  { localTarget, session := .connected remote }

/-- What the session makes of these. -/
def onSession (s : RemoteForwardWorker) (inputs : List RemoteInput) :
    List RemoteWorkerEvent × RemoteForwardWorker :=
  ((answers Remote.step s.session inputs).map .session,
    { s with session := runState Remote.step s.session inputs })

/-! ## `start_chain` -/

/-- `session.disconnect()`, before an error is returned. -/
def refuse (s : RemoteForwardWorker) (error : RemoteForwardError) :
    List RemoteWorkerEvent × RemoteForwardWorker :=
  let (events, s) := s.onSession [.disconnect]
  (.disconnecting :: events, { s with control := .refusing error })

/-- `request_remote_forward` goes on with this: it waits for the server,
or is through. -/
def request (s : RemoteForwardWorker) (input : RemoteInput) :
    List RemoteWorkerEvent × RemoteForwardWorker :=
  let (events, t) := s.onSession [input]
  match events with
  | [.session (.registered _)] => (events, { t with control := .polling .cancelled })
  | [.session (.requestFailed error)] =>
    let (more, t) := t.refuse (.registration error)
    (events ++ more, t)
  | _ => (events, { t with control := .registering })

/-- `start_chain`, up to the answer of the server. -/
def start (s : RemoteForwardWorker) : List RemoteWorkerEvent × RemoteForwardWorker :=
  if validTarget s.localTarget then s.request .request else s.refuse .invalidTarget

/-! ## The session -/

/-- The handler answers, and hands on what it accepts. -/
def reply (s : RemoteForwardWorker) : List RemoteWorkerEvent × RemoteForwardWorker :=
  let (events, t) := s.onSession [.reply]
  match s.session.opening with
  | some ⟨_, _, .ok ()⟩ =>
    (events ++ [.handedOn s.handed],
      { t with queue := s.queue ++ [s.handed], handed := s.handed + 1 })
  | _ => (events, t)

/-! ## The tasks -/

/-- One event of a task, and what the counters are then. -/
def advance (s : RemoteForwardWorker) (task : RelayTask) (event : RelayTaskEvent) :
    RelayTask × Traffic :=
  match task.stage with
  | .connecting =>
    if s.cancelled then ({ task with stage := .returned (.ok ()) }, s.counters)
    else match event with
      | .connected (.error error) => ({ task with stage := .returned (.error error) }, s.counters)
      | .connected (.ok (localInput, remoteInput)) =>
        ({ task with stage := .relaying s.counters.connections.length },
          (s.counters.step (.start localInput remoteInput)).2)
      | .elapsed =>
        ({ task with stage := .returned (.error ⟨.other, "deadline has elapsed"⟩) }, s.counters)
      | _ => (task, s.counters)
  | .relaying relay =>
    match event with
    | .copy side event =>
      let counters := (s.counters.step (.copy relay side event)).2
      match counters.connections[relay]?.map Connection.control with
      | some (.returned result) => ({ task with stage := .returned result }, counters)
      | _ => (task, counters)
    | _ => (task, s.counters)
  | .returned _ => (task, s.counters)

def task (s : RemoteForwardWorker) (place : ℕ) (event : RelayTaskEvent) : RemoteForwardWorker :=
  match s.connections[place]? with
  | none => s
  | some task =>
    let (task, counters) := s.advance task event
    { s with connections := s.connections.set place task, counters }

/-- A task leaves the `JoinSet`. -/
def remove (s : RemoteForwardWorker) (place : ℕ) (task : RelayTask) :
    List RemoteWorkerEvent × RemoteForwardWorker :=
  ([.joined task.channel], { s with connections := s.connections.eraseIdx place })

/-- `join_next`, of a task that has returned. -/
def joinReturned (s : RemoteForwardWorker) (place : ℕ) :
    List RemoteWorkerEvent × RemoteForwardWorker :=
  match s.connections[place]? with
  | some ⟨channel, .returned result⟩ => s.remove place ⟨channel, .returned result⟩
  | _ => ([], s)

/-- `join_next` after `abort_all`: what a task was at is dropped. -/
def joinAborted (s : RemoteForwardWorker) (place : ℕ) :
    List RemoteWorkerEvent × RemoteForwardWorker :=
  match s.connections[place]? with
  | none => ([], s)
  | some ⟨channel, .relaying relay⟩ =>
    { s with counters := (s.counters.step (.drop relay)).2 }.remove place
      ⟨channel, .relaying relay⟩
  | some task => s.remove place task

/-- The token is cancelled, and with it those of the relays. -/
def cancel (s : RemoteForwardWorker) : RemoteForwardWorker :=
  { s with
    cancelled := true
    counters := runState Traffic.step s.counters
      ((List.range s.counters.connections.length).map .cancel) }

/-! ## `run` -/

/-- From the first branch on. -/
def again (s : RemoteForwardWorker) : RemoteForwardWorker :=
  { s with control := .polling .cancelled }

/-- A poll. The token is looked at in the first. -/
def poll (s : RemoteForwardWorker) (branch : RemoteBranch) : RemoteForwardWorker :=
  if branch = .cancelled ∧ s.cancelled then { s with control := .returned (.ok ()) }
  else { s with control := .polling branch.next }

def sessionTick (s : RemoteForwardWorker) (closed : Bool) : RemoteForwardWorker :=
  if closed then { s with control := .returned (.error .sessionClosed) } else s.again

/-- What follows `ping_all`. -/
def pinged (s : RemoteForwardWorker) (result : Except SshChainError (List Duration)) :
    RemoteForwardWorker :=
  match s.worker.healthTick result with
  | .ok worker => { s.again with worker }
  | .error error => { s with control := .returned (.error (.health error)) }

/-- `join_next`. -/
def join (s : RemoteForwardWorker) (place : ℕ) : List RemoteWorkerEvent × RemoteForwardWorker :=
  match s.joinReturned place with
  | ([], _) => ([], s)
  | (events, t) => (events, { t.again with worker := s.worker.connectionDone })

/-- `channels.recv`. -/
def receive (s : RemoteForwardWorker) : List RemoteWorkerEvent × RemoteForwardWorker :=
  match s.queue with
  | [] =>
    if s.ended then ([], { s with control := .returned (.error .sessionClosed) }) else ([], s)
  | channel :: queue =>
    let (events, t) := s.onSession [.receive]
    (events ++ [.spawned channel],
      { t.again with
        queue
        connections := s.connections ++ [{ channel }]
        worker := s.worker.connectionOpened })

/-! ## `stop` -/

/-- `cancel_remote_forward` goes on with this: it waits for the server, or
is through. After it, the token is cancelled. -/
def unregister (s : RemoteForwardWorker) (input : RemoteInput) :
    List RemoteWorkerEvent × RemoteForwardWorker :=
  let (events, t) := s.onSession [input]
  match events with
  | [.session (.cancelReturned result)] =>
    (events ++ [.tokenCancelled], { t.cancel with control := .draining result })
  | _ => (events, { t with control := .unregistering })

/-- `stop`, up to the answer of the server. -/
def stop (s : RemoteForwardWorker) : List RemoteWorkerEvent × RemoteForwardWorker :=
  let (events, t) := s.unregister .cancel
  (.stopping :: events, t)

/-- The `while` loop goes on until no task is left. -/
def drained (s : RemoteForwardWorker) (result : Except SshConnectError Unit) :
    List RemoteWorkerEvent × RemoteForwardWorker :=
  if s.connections = [] then
    let (events, t) := s.onSession [.disconnect]
    (.disconnecting :: events, { t with control := .disconnecting result })
  else ([], s)

/-- The session is dropped, and the receiver of the channels with the
worker. -/
def dropSession (s : RemoteForwardWorker) (control : RemoteWorkerControl) :
    List RemoteWorkerEvent × RemoteForwardWorker :=
  let (events, t) := s.onSession [.drop, .closeChannels]
  (events, { t with control })

/-! ## All of it -/

/-- `run` may be called off here, and `stop` follows. -/
def stoppable : RemoteWorkerControl → Bool
  | .polling _ | .pinging | .returned _ => true
  | _ => false

/-- One step. What the worker does not wait for passes it by. -/
def step (s : RemoteForwardWorker) (input : RemoteWorkerInput) :
    List RemoteWorkerEvent × RemoteForwardWorker :=
  match s.control, input with
  | _, .channelOpen address port =>
    if s.ended then ([], s) else s.onSession [.channelOpen address port]
  | _, .reply => if s.ended then ([], s) else s.reply
  | _, .sessionEnds => ([], { s with ended := true })
  | _, .cancel => ([.ownerCancelled], s.cancel)
  | _, .task place event => ([], s.task place event)
  | .starting, .start => s.start
  | .registering, .registered answer => s.request (.requestAnswered answer)
  | .refusing error, .disconnected => s.dropSession (.refused error)
  | .polling branch, .poll => ([], s.poll branch)
  | .polling .sessionTick, .sessionTick closed => ([], s.sessionTick closed)
  | .polling .healthTick, .healthTick => ([], { s with control := .pinging })
  | .pinging, .pinged result => ([], s.pinged result)
  | .polling .join, .join place => s.join place
  | .polling .receive, .receive =>
    if s.connections.length < maxActiveConnections then s.receive else ([], s)
  | control, .stop => if stoppable control then s.stop else ([], s)
  | .unregistering, .unregistered answer => s.unregister (.cancelAnswered answer)
  | .draining _, .join place => s.joinReturned place
  | .draining result, .elapsed =>
    if s.connections = [] then ([], s) else ([.abortAll], { s with control := .aborting result })
  | .aborting _, .join place => s.joinAborted place
  | .draining result, .poll | .aborting result, .poll => s.drained result
  | .disconnecting result, .disconnected =>
    s.dropSession (.stopped (result.mapError .cancellation))
  | _, _ => ([], s)

end RemoteForwardWorker

end TunnelWarden

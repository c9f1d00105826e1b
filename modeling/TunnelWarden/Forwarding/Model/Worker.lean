import TunnelWarden.Common.Net
import TunnelWarden.Forwarding.Model.Connection
import TunnelWarden.Supervisor.Model.Worker

/-!
# The worker of a Local or Dynamic tunnel

`LocalForwardWorker::run` beside the tasks of its connections, from the
first look at its token until it returns. The `select!` of the loop polls
one branch at a time, in its order, and the tasks and the token move on
in between: what one poll has seen may have changed by the next. Any
branch but the first may be found not ready. A connection has a number,
and a request that of the connection that holds the other half of its
`reply`. The logs are left out.
-/

namespace TunnelWarden

open Ssh

/-- `OpenRequest`. -/
structure OpenRequest where
  destinationHost : String
  destinationPort : ℕ
  originator : SocketAddr
  reply : ℕ
  deriving DecidableEq, Repr

/-- What the connection's half of a `reply` holds. -/
inductive Reply where
  | pending
  | sent (outcome : OpenOutcome)
  /-- The request is gone without an answer. -/
  | dropped

/-- A task of the `JoinSet`. -/
structure ConnectionTask where
  number : ℕ
  originator : SocketAddr
  handler : Handler
  reply : Reply := .pending

/-- The branches of the loop. -/
inductive Branch where
  | cancelled
  | sessionTick
  | healthTick
  | join
  | receive
  | accept
  deriving DecidableEq, Repr

/-- The branch that is polled after one that is not ready. The first
comes after the last when something wakes the task. -/
def Branch.next : Branch → Branch
  | .cancelled => .sessionTick
  | .sessionTick => .healthTick
  | .healthTick => .join
  | .join => .receive
  | .receive => .accept
  | .accept => .cancelled

/-- Where `run` is. -/
inductive LocalForwardControl where
  | polling (branch : Branch)
  /-- `ping_all`. -/
  | pinging
  /-- The answer to a request. -/
  | serving (request : OpenRequest)
  | returned (result : Except LocalForwardError Unit)
  deriving DecidableEq

/-- A worker with its connections, the queue of their requests, and the
number of those it has accepted. -/
structure LocalForwardWorker where
  mode : ForwardMode
  cancelled : Bool := false
  connections : List ConnectionTask := []
  queue : List OpenRequest := []
  accepted : ℕ := 0
  worker : Worker := {}
  control : LocalForwardControl := .polling .cancelled

/-- What passes between the worker and its connections. -/
inductive LocalForwardEvent where
  /-- A connection queues a request. -/
  | requested (number : ℕ) (request : OpenRequest)
  /-- The worker answers it. -/
  | answered (request : OpenRequest) (result : Except SshConnectError Unit)
  /-- A connection has an answer. -/
  | received (number : ℕ) (result : Except SshConnectError Unit)
  deriving DecidableEq

inductive LocalForwardInput where
  | cancel
  /-- The next poll; any branch but the first is not ready. -/
  | poll
  | sessionTick (closed : Bool)
  | healthTick
  | pinged (result : Except SshChainError (List Duration))
  | join (number : ℕ)
  | receive
  | answer (outcome : OpenOutcome)
  /-- A client, with the bytes it will send, or an error. -/
  | accept (result : Except IoError (SocketAddr × List UInt8))
  | task (number : ℕ) (event : ConnectionEvent)

/-- The destination a connection asks for with this event. -/
def Handler.requests (h : Handler) (event : ConnectionEvent) : Option (String × ℕ) :=
  match h.control, event with
  | .sending host port, .queued true => if h.cancelled then none else some (host, port)
  | _, _ => none

/-- What it is answered with this event. -/
def Handler.receives (h : Handler) (event : ConnectionEvent) :
    Option (Except SshConnectError Unit) :=
  match h.control, event with
  | .awaiting host port, .answer outcome =>
    if h.cancelled then none else some (answerOf host port outcome)
  | _, _ => none

namespace LocalForwardWorker

/-- A worker that was just made. -/
def start (mode : ForwardMode) : LocalForwardWorker := { mode }

/-- Somebody takes from the queue. -/
def running (s : LocalForwardWorker) : Bool :=
  match s.control with
  | .returned _ => false
  | _ => true

/-- The request that is being served. -/
def served (s : LocalForwardWorker) : List OpenRequest :=
  match s.control with
  | .serving request => [request]
  | _ => []

/-- The requests that are being served or queued. -/
def pending (s : LocalForwardWorker) : List OpenRequest := s.served ++ s.queue

/-- Every task whose number is among these has this in its half of the
`reply`. -/
def setReply (s : LocalForwardWorker) (numbers : List ℕ) (reply : Reply) : LocalForwardWorker :=
  { s with
    connections := s.connections.map fun task =>
      if task.number ∈ numbers then { task with reply } else task }

/-- `run` returns, and drops the queue. -/
def finish (s : LocalForwardWorker) (result : Except LocalForwardError Unit) :
    LocalForwardWorker :=
  { s.setReply (s.queue.map OpenRequest.reply) .dropped with
    queue := [], control := .returned result }

/-- From the first branch on. -/
def again (s : LocalForwardWorker) : LocalForwardWorker :=
  { s with control := .polling .cancelled }

/-- A poll. The token is looked at in the first. -/
def poll (s : LocalForwardWorker) (branch : Branch) : LocalForwardWorker :=
  if branch = .cancelled ∧ s.cancelled then s.finish (.ok ())
  else { s with control := .polling branch.next }

def sessionTick (s : LocalForwardWorker) (closed : Bool) : LocalForwardWorker :=
  if closed then s.finish (.error .sessionClosed) else s.again

/-- What follows `ping_all`. -/
def pinged (s : LocalForwardWorker) (result : Except SshChainError (List Duration)) :
    LocalForwardWorker :=
  match s.worker.healthTick result with
  | .ok worker => { s.again with worker }
  | .error error => s.finish (.error (.health error))

/-- `join_next`, of a task that has returned. -/
def join (s : LocalForwardWorker) (number : ℕ) : LocalForwardWorker :=
  match s.connections.find? (·.number = number) with
  | none => s
  | some task =>
    match task.handler.control with
    | .returned _ =>
      { s.again with
        connections := s.connections.eraseP (·.number = number)
        worker := s.worker.connectionDone }
    | _ => s

/-- `open_rx.recv`. -/
def receive (s : LocalForwardWorker) : LocalForwardWorker :=
  match s.queue with
  | [] => s
  | request :: queue => { s with queue, control := .serving request }

/-- The token ends the wait for a channel only where it is cancelled. -/
def permits (s : LocalForwardWorker) : OpenOutcome → Bool
  | .workerCancelled => s.cancelled
  | _ => true

/-- `request.reply.send`. -/
def answer (s : LocalForwardWorker) (request : OpenRequest) (outcome : OpenOutcome) :
    List LocalForwardEvent × LocalForwardWorker :=
  ([.answered request (answerOf request.destinationHost request.destinationPort outcome)],
    (s.setReply [request.reply] (.sent outcome)).again)

/-- What follows `listener.accept`. -/
def accept (s : LocalForwardWorker) :
    Except IoError (SocketAddr × List UInt8) → LocalForwardWorker
  | .error error => s.finish (.error (.accept error))
  | .ok (originator, client) =>
    let task : ConnectionTask :=
      { number := s.accepted, originator, handler := Handler.start s.mode client }
    { s.again with
      connections := s.connections ++ [task]
      accepted := s.accepted + 1
      worker := s.worker.connectionOpened }

/-- What a connection sees of an event. There is room in the queue for as
many requests as there may be connections. -/
def delivered (s : LocalForwardWorker) (task : ConnectionTask) :
    ConnectionEvent → Option ConnectionEvent
  | .queued true =>
    if s.running ∧ s.queue.length < maxActiveConnections then some (.queued true) else none
  | .queued false => if s.running then none else some (.queued false)
  | .answer _ =>
    match task.reply with
    | .sent outcome => some (.answer outcome)
    | _ => none
  | .hungUp =>
    match task.reply with
    | .dropped => some .hungUp
    | _ => none
  -- its token is the worker's, or that of the release that follows `run`
  | .cancel => if s.cancelled ∨ ¬ s.running then some .cancel else none
  | event => some event

/-- The task of its number is as it is now. -/
def replace (s : LocalForwardWorker) (task : ConnectionTask) : LocalForwardWorker :=
  { s with
    connections := s.connections.map fun other =>
      if other.number = task.number then task else other }

/-- One event of a connection, in its task. -/
def advance (s : LocalForwardWorker) (task : ConnectionTask) (event : ConnectionEvent) :
    List LocalForwardEvent × LocalForwardWorker :=
  let s' := s.replace { task with handler := (task.handler.step event).2 }
  match task.handler.requests event with
  | some (host, port) =>
    let request := OpenRequest.mk host port task.originator task.number
    ([.requested task.number request], { s' with queue := s'.queue ++ [request] })
  | none =>
    match task.handler.receives event with
    | some result => ([.received task.number result], s')
    | none => ([], s')

/-- One event of the connection of a number. -/
def task (s : LocalForwardWorker) (number : ℕ) (event : ConnectionEvent) :
    List LocalForwardEvent × LocalForwardWorker :=
  match s.connections.find? (·.number = number) with
  | none => ([], s)
  | some task =>
    match s.delivered task event with
    | none => ([], s)
    | some event => s.advance task event

/-- One step. What the worker does not wait for passes it by. -/
def step (s : LocalForwardWorker) (input : LocalForwardInput) :
    List LocalForwardEvent × LocalForwardWorker :=
  match s.control, input with
  | _, .cancel => ([], { s with cancelled := true })
  | _, .task number event => s.task number event
  | .polling branch, .poll => ([], s.poll branch)
  | .polling .sessionTick, .sessionTick closed => ([], s.sessionTick closed)
  | .polling .healthTick, .healthTick => ([], { s with control := .pinging })
  | .pinging, .pinged result => ([], s.pinged result)
  | .polling .join, .join number => ([], s.join number)
  | .polling .receive, .receive => ([], s.receive)
  | .serving request, .answer outcome =>
    if s.permits outcome then s.answer request outcome else ([], s)
  | .polling .accept, .accept result =>
    if s.connections.length < maxActiveConnections then ([], s.accept result) else ([], s)
  | _, _ => ([], s)

end LocalForwardWorker

end TunnelWarden

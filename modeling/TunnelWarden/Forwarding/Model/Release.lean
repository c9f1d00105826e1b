import TunnelWarden.Forwarding.Model.Worker

/-!
# The end of a Local or Dynamic worker

`release_listener` and `stop` of `LocalForwardWorker`, after `run` has
returned or its future was dropped: the tokens of the connections are
cancelled, their tasks joined within a deadline or aborted, the chain is
disconnected, and the listener goes back to the owner, who stops it
where the tunnel is to end. The tasks go on until they are joined.
-/

namespace TunnelWarden

open Lifecycle

/-- Where the owner of the worker is. -/
inductive LocalOwnerControl where
  /-- `run` is called, or has returned. -/
  | running
  /-- The tasks are joined, within the deadline. -/
  | draining
  /-- They are joined after `abort_all`. -/
  | aborting
  /-- `session.disconnect()`. -/
  | disconnecting
  | released (result : Except LocalForwardError Unit)
  deriving DecidableEq

/-- What happens, as far as others could tell. -/
inductive LocalOwnerEvent where
  | worker (event : LocalForwardEvent)
  | spawned (number : ℕ)
  | joined (number : ℕ)
  | releasing
  | abortAll
  | disconnecting
  | released
  deriving DecidableEq

inductive LocalOwnerInput where
  | worker (input : LocalForwardInput)
  /-- `release_listener`, or `stop`. -/
  | release (stop : Bool)
  | join (number : ℕ)
  /-- The deadline of the drain. -/
  | elapsed
  | poll
  | disconnected

/-- A worker, the listener it owns, and whether it is told to `stop`. -/
structure LocalForwardOwner where
  worker : LocalForwardWorker
  listener : ListenerRuntime
  stopping : Bool := false
  control : LocalOwnerControl := .running

/-- The future of `run` is dropped where it has not returned, with the
queue and the request it serves. Nobody asks for its result. -/
def LocalForwardWorker.callOff (s : LocalForwardWorker) : LocalForwardWorker :=
  if s.running then
    { s.setReply (s.pending.map OpenRequest.reply) .dropped with
      queue := [], control := .returned (.ok ()) }
  else s

/-- What a step of `run` does to the tasks. -/
def LocalForwardWorker.census (s s' : LocalForwardWorker) : LocalForwardInput → List LocalOwnerEvent
  | .accept _ => if s'.accepted = s.accepted then [] else [.spawned s.accepted]
  | .join number => if s'.connections.length = s.connections.length then [] else [.joined number]
  | _ => []

namespace LocalForwardOwner

/-- A worker that was just made. -/
def start (mode : ForwardMode) (listener : ListenerRuntime) : LocalForwardOwner :=
  { worker := .start mode, listener }

/-- The worker runs. -/
def serve (s : LocalForwardOwner) (input : LocalForwardInput) :
    List LocalOwnerEvent × LocalForwardOwner :=
  let (events, worker) := s.worker.step input
  (events.map .worker ++ s.worker.census worker input, { s with worker })

/-- `stop` cancels the token of the tunnel, and both that of the
connections. -/
def release (s : LocalForwardOwner) (stop : Bool) : List LocalOwnerEvent × LocalForwardOwner :=
  ([.releasing], { s with
    worker := { s.worker.callOff with cancelled := s.worker.cancelled || stop }
    stopping := stop
    control := .draining })

/-- One event of the connection of a number. -/
def task (s : LocalForwardOwner) (number : ℕ) (event : ConnectionEvent) :
    List LocalOwnerEvent × LocalForwardOwner :=
  let (events, worker) := s.worker.task number event
  (events.map .worker, { s with worker })

/-- A task leaves the `JoinSet`. -/
def remove (s : LocalForwardOwner) (number : ℕ) : List LocalOwnerEvent × LocalForwardOwner :=
  ([.joined number], { s with
    worker := { s.worker with connections := s.worker.connections.eraseP (·.number = number) } })

/-- `join_next`, of a task that has returned. -/
def joinReturned (s : LocalForwardOwner) (number : ℕ) : List LocalOwnerEvent × LocalForwardOwner :=
  match s.worker.connections.find? (·.number = number) with
  | none => ([], s)
  | some task =>
    match task.handler.control with
    | .returned _ => s.remove number
    | _ => ([], s)

/-- `join_next` after `abort_all`. -/
def joinAborted (s : LocalForwardOwner) (number : ℕ) : List LocalOwnerEvent × LocalForwardOwner :=
  match s.worker.connections.find? (·.number = number) with
  | none => ([], s)
  | some _ => s.remove number

/-- The `while` loop goes on until no task is left. -/
def drained (s : LocalForwardOwner) : List LocalOwnerEvent × LocalForwardOwner :=
  if s.worker.connections.isEmpty then ([.disconnecting], { s with control := .disconnecting })
  else ([], s)

/-- The listener is handed back, and `stop` stops it. -/
def finish (s : LocalForwardOwner) : List LocalOwnerEvent × LocalForwardOwner :=
  if s.stopping then
    let (result, listener) := ListenerRuntime.stop.run s.listener
    ([.released], { s with listener, control := .released (result.mapError .shutdown) })
  else ([.released], { s with control := .released (.ok ()) })

/-- One step. What the owner does not wait for passes it by. -/
def step (s : LocalForwardOwner) (input : LocalOwnerInput) :
    List LocalOwnerEvent × LocalForwardOwner :=
  match s.control, input with
  | .running, .worker input => s.serve input
  | .running, .release stop => s.release stop
  | _, .worker .cancel => ([], { s with worker := { s.worker with cancelled := true } })
  | _, .worker (.task number event) => s.task number event
  | .draining, .join number => s.joinReturned number
  | .draining, .elapsed =>
    if s.worker.connections.isEmpty then ([], s) else ([.abortAll], { s with control := .aborting })
  | .aborting, .join number => s.joinAborted number
  | .draining, .poll | .aborting, .poll => s.drained
  | .disconnecting, .disconnected => s.finish
  | _, _ => ([], s)

end LocalForwardOwner

end TunnelWarden

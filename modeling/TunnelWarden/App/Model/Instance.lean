import Mathlib.Data.List.Basic
import TunnelWarden.Common.Run

/-!
# One instance of the application

`InstanceGuard`, for any number of processes of one user that start, quit
or die at any time. They share a named mutex and a named event, which
live as long as a process has a handle to them; a step is one call to the
system. A process that finds the mutex signals the event and is done, and
the thread of the one that made it waits for the event and asks the
application to open its window.
-/

namespace TunnelWarden

namespace Instance

/-- The capacity of the channel `main` gives to `acquire`. -/
def maxOpens : ℕ := 8

/-- What becomes of a process. -/
inductive Ending where
  /-- `InstanceStart::Existing`. -/
  | existing
  | failed
  /-- The guard of a primary is dropped. -/
  | dropped
  | killed
  deriving DecidableEq, Repr

/-- How far a process is in `acquire` and in the drop of its guard. -/
inductive Control where
  | starting
  /-- It has the mutex; was it there before? -/
  | named (there : Bool)
  /-- It has the mutex and the wake event. -/
  | opened (there : Bool)
  /-- And the shutdown event. -/
  | armed
  /-- `InstanceStart::Primary`. -/
  | primary
  /-- The shutdown event is set, and the thread is joined. -/
  | leaving
  | closingWake (ending : Ending)
  | closingMutex (ending : Ending)
  | ended (ending : Ending)
  deriving DecidableEq, Repr

/-- The thread that waits for the events. -/
inductive Watcher where
  | absent
  | waiting
  /-- `WaitForMultipleObjects` returned the wake event. -/
  | woken
  | exited
  deriving DecidableEq, Repr

structure Process where
  control : Control := .starting
  watcher : Watcher := .absent
  /-- The shutdown event is set. -/
  shutdown : Bool := false
  /-- The channel of the application, while it is received from. -/
  opens : Option ℕ := some 0
  deriving DecidableEq, Repr

/-- The process has a handle to the mutex. -/
def Control.hasMutex : Control → Bool
  | .starting | .ended _ => false
  | _ => true

/-- The process has a handle to the wake event. -/
def Control.hasWake : Control → Bool
  | .opened _ | .armed | .primary | .leaving | .closingWake _ => true
  | _ => false

/-- The processes, and whether the wake event is signalled. -/
structure System where
  processes : List Process
  signalled : Bool := false
  deriving DecidableEq, Repr

/-- One call of the process with this number, and what comes of it. -/
inductive Input where
  | createMutex (p : ℕ) (fails : Bool)
  | createWake (p : ℕ) (fails : Bool)
  /-- `SetEvent(wake)`. -/
  | signal (p : ℕ)
  | createShutdown (p : ℕ) (fails : Bool)
  | spawnThread (p : ℕ) (fails : Bool)
  /-- `WaitForMultipleObjects` returns, if it can. -/
  | wait (p : ℕ) (fails : Bool)
  /-- `open.try_send`. -/
  | send (p : ℕ)
  /-- The application receives from the channel. -/
  | receive (p : ℕ)
  /-- The receiver is dropped. -/
  | hangUp (p : ℕ)
  /-- The guard is dropped, when the application is over and receives no
  more. -/
  | quit (p : ℕ)
  | join (p : ℕ)
  | close (p : ℕ)
  /-- The process dies, and the system closes its handles. -/
  | kill (p : ℕ)
  deriving DecidableEq, Repr

inductive Event where
  | signalled (p : ℕ)
  | waitFailed (p : ℕ)
  | received (p : ℕ)
  | hungUp (p : ℕ)
  | quit (p : ℕ)
  | killed (p : ℕ)
  deriving DecidableEq, Repr

namespace System

/-- Some process has a handle to the mutex. -/
def mutexExists (s : System) : Bool := s.processes.any fun process => process.control.hasMutex

/-- Some process has a handle to the wake event. -/
def wakeExists (s : System) : Bool := s.processes.any fun process => process.control.hasWake

/-- An event to which nobody has a handle is gone, and its signal with
it. -/
def settle (s : System) : System := { s with signalled := s.signalled && s.wakeExists }

/-- The process becomes another one. -/
def put (s : System) (p : ℕ) (process : Process) : System :=
  { s with processes := s.processes.set p process }.settle

/-- `acquire`, and the drop of the guard. -/
def call (s : System) (p : ℕ) (process : Process) (input : Input) : List Event × System :=
  let goTo (control : Control) : List Event × System := ([], s.put p { process with control })
  match process.control, input with
  | .starting, .createMutex _ fails =>
    if fails then goTo (.ended .failed) else goTo (.named s.mutexExists)
  | .named there, .createWake _ fails =>
    if fails then goTo (.closingMutex .failed) else goTo (.opened there)
  | .opened true, .signal _ =>
    ([.signalled p], { s with signalled := true }.put p { process with
      control := .closingWake .existing })
  | .opened false, .createShutdown _ fails =>
    if fails then goTo (.closingWake .failed) else goTo .armed
  | .armed, .spawnThread _ fails =>
    if fails then goTo (.closingWake .failed)
    else ([], s.put p { process with control := .primary, watcher := .waiting })
  | .primary, .quit _ =>
    ([.quit p], s.put p { process with control := .leaving, shutdown := true, opens := none })
  | .leaving, .join _ =>
    if process.watcher = .exited then goTo (.closingWake .dropped) else ([], s)
  | .closingWake ending, .close _ => goTo (.closingMutex ending)
  | .closingMutex ending, .close _ => goTo (.ended ending)
  | _, _ => ([], s)

/-- The thread: of two events that are signalled the first one is
returned, and the wake event resets itself. -/
def watch (s : System) (p : ℕ) (process : Process) (input : Input) : List Event × System :=
  match process.watcher, input with
  | .waiting, .wait _ fails =>
    if fails then ([.waitFailed p], s.put p { process with watcher := .exited })
    else if s.signalled then
      ([], { s with signalled := false }.put p { process with watcher := .woken })
    else if process.shutdown then ([], s.put p { process with watcher := .exited })
    else ([], s)
  | .woken, .send _ =>
    ([], s.put p { process with
      watcher := .waiting
      opens := process.opens.map fun count => if count < maxOpens then count + 1 else count })
  | _, _ => ([], s)

/-- The application, and the end of a process. -/
def outside (s : System) (p : ℕ) (process : Process) (input : Input) : List Event × System :=
  match process.control, process.opens, input with
  | .ended _, _, _ => ([], s)
  | _, some (count + 1), .receive _ => ([.received p], s.put p { process with opens := some count })
  | _, some _, .hangUp _ => ([.hungUp p], s.put p { process with opens := none })
  | _, _, .kill _ =>
    ([.killed p], s.put p { process with
      control := .ended .killed
      watcher := .absent
      opens := none })
  | _, _, _ => ([], s)

end System

/-- The process that makes the call. -/
def Input.process : Input → ℕ
  | .createMutex p _ | .createWake p _ | .signal p | .createShutdown p _ | .spawnThread p _
  | .wait p _ | .send p | .receive p | .hangUp p | .quit p | .join p | .close p | .kill p => p

namespace System

def step (s : System) (input : Input) : List Event × System :=
  match s.processes[input.process]? with
  | none => ([], s)
  | some process =>
    match input with
    | .wait p _ | .send p => s.watch p process input
    | .receive p | .hangUp p | .kill p => s.outside p process input
    | input => s.call input.process process input

/-- So many processes that are about to start. -/
def fresh (count : ℕ) : System := { processes := List.replicate count {} }

end System

end Instance

end TunnelWarden

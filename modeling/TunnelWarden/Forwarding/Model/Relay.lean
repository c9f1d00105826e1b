import Mathlib.Algebra.Group.Nat.Defs
import TunnelWarden.Common.Io
import TunnelWarden.Common.Run

/-!
# The relay

`relay_bidirectional` and `copy_direction` of the `forwarding` crate. A
direction copies one stream to one writer and is at one of its awaits:
the read, a write of what is left of the buffer, or the shutdown. What
the awaited call comes to is an event; how much a read finds and how
much a write takes is the system's to choose, within the contracts of
`AsyncRead` and `AsyncWrite`. Any number of relays share the counters of
their tunnel.
-/

namespace TunnelWarden

namespace Relay

/-- `RELAY_BUFFER_BYTES`. -/
def relayBufferBytes : ℕ := 16 * 1024

/-- `io::Error::from(ErrorKind::WriteZero)`. -/
def writeZero : IoError := ⟨.other, "write zero"⟩

/-- The await a direction is at. -/
inductive CopyControl where
  /-- `reader.read(&mut buffer)`. -/
  | reading
  /-- `writer.write(&buffer[written..count])`. -/
  | writing (buffer : List UInt8) (written : ℕ)
  /-- `writer.shutdown()`. -/
  | closing
  | returned (result : Except IoError Unit)
  deriving DecidableEq

/-- One direction: the bytes its reader has to give up to the end of its
input, those it has given, and what the writer was handed. -/
structure Direction where
  input : List UInt8
  taken : List UInt8 := []
  sink : List UInt8 := []
  shutdowns : ℕ := 0
  closed : Bool := false
  control : CopyControl := .reading
  deriving DecidableEq

/-- What an await comes to. An event for another await passes it by. -/
inductive CopyEvent where
  | read (result : Except IoError ℕ)
  | write (result : Except IoError ℕ)
  | shutdown (result : Except IoError Unit)
  | poll

/-- What a read finds: at least one byte where there is one left, at most
a buffer, and nothing at the end of the input alone. -/
def Direction.chunk (d : Direction) (n : ℕ) : List UInt8 :=
  (d.input.drop d.taken.length).take (min (max n 1) relayBufferBytes)

/-- The bytes of a buffer that a write takes: at most those it is given. -/
def accepted (buffer : List UInt8) (written n : ℕ) : List UInt8 := (buffer.drop written).take n

/-- `copy_direction`, one event at a time. The number is what the counter
is raised by. -/
def copyStep (cancelled : Bool) (d : Direction) (event : CopyEvent) : ℕ × Direction :=
  match d.control with
  | .returned _ => (0, d)
  | control =>
    -- every `select!` looks at the token first
    if cancelled then (0, { d with control := .returned (.ok ()) })
    else match control, event with
      | .reading, .read (.error error) => (0, { d with control := .returned (.error error) })
      | .reading, .read (.ok n) =>
        if d.chunk n = [] then (0, { d with shutdowns := d.shutdowns + 1, control := .closing })
        else (0, { d with taken := d.taken ++ d.chunk n, control := .writing (d.chunk n) 0 })
      | .writing .., .write (.error error) =>
        (0, { d with control := .returned (.error error) })
      | .writing buffer written, .write (.ok n) =>
        let bytes := accepted buffer written n
        if bytes.length = 0 then (0, { d with control := .returned (.error writeZero) })
        else
          let written := written + bytes.length
          (bytes.length, { d with
            sink := d.sink ++ bytes
            control := if written < buffer.length then .writing buffer written else .reading })
      | .closing, .shutdown (.error error) => (0, { d with control := .returned (.error error) })
      | .closing, .shutdown (.ok ()) =>
        (0, { d with closed := true, control := .returned (.ok ()) })
      | _, _ => (0, d)

/-! ## Both directions -/

inductive RelayControl where
  | running
  | returned (result : Except IoError Unit)
  /-- The future was dropped. -/
  | dropped
  deriving DecidableEq

/-- A call of `relay_bidirectional`: `up` copies from the local side to
the remote one, and `cancelled` is the token of both. -/
structure Connection where
  up : Direction
  down : Direction
  cancelled : Bool := false
  control : RelayControl := .running
  deriving DecidableEq

inductive Side where
  | up
  | down
  deriving DecidableEq

/-- `try_join!`: the first error ends both directions, and only the ends
of both are the end of the relay. -/
def tryJoin : CopyControl → CopyControl → RelayControl
  | .returned (.error error), _ => .returned (.error error)
  | _, .returned (.error error) => .returned (.error error)
  | .returned (.ok ()), .returned (.ok ()) => .returned (.ok ())
  | _, _ => .running

/-- An event of one of the two directions. -/
def Connection.step (c : Connection) (side : Side) (event : CopyEvent) : ℕ × Connection :=
  if c.control ≠ .running then (0, c)
  else match side with
    | .up =>
      let (n, up) := copyStep c.cancelled c.up event
      (n, { c with up, control := tryJoin up.control c.down.control })
    | .down =>
      let (n, down) := copyStep c.cancelled c.down event
      (n, { c with down, control := tryJoin c.up.control down.control })

/-- `TrafficCounters`, with the relays that use them. -/
structure Traffic where
  uploaded : ℕ := 0
  downloaded : ℕ := 0
  activeConnections : ℕ := 0
  connections : List Connection := []
  deriving DecidableEq

inductive TrafficEvent where
  /-- A relay begins, of these two streams. -/
  | start (localInput remoteInput : List UInt8)
  | copy (k : ℕ) (side : Side) (event : CopyEvent)
  /-- The token of a relay is cancelled. -/
  | cancel (k : ℕ)
  /-- The future of a relay is dropped. -/
  | drop (k : ℕ)

namespace Traffic

/-- `fetch_add` of an `AtomicU64`. -/
def fetchAdd (counter n : ℕ) : ℕ := (counter + n) % 2 ^ 64

/-- `ActiveConnection::new`. -/
def activeNew (active : ℕ) : ℕ := (active + 1) % 2 ^ 32

/-- `ActiveConnection::drop`. -/
def activeDrop (active : ℕ) : ℕ := (active + (2 ^ 32 - 1)) % 2 ^ 32

/-- A relay moves on. Where it is over, its `ActiveConnection` is dropped
with it. -/
def replace (k : ℕ) (before after : Connection) (t : Traffic) : Traffic :=
  { t with
    connections := t.connections.set k after
    activeConnections :=
      if before.control = .running ∧ after.control ≠ .running then activeDrop t.activeConnections
      else t.activeConnections }

/-- One event of a tunnel's traffic. -/
def step (t : Traffic) (event : TrafficEvent) : Unit × Traffic :=
  match event with
  | .start localInput remoteInput =>
    ((), { t with
      activeConnections := activeNew t.activeConnections
      connections := t.connections ++ [{ up := { input := localInput }
                                         down := { input := remoteInput } }] })
  | .copy k side event =>
    match t.connections[k]? with
    | none => ((), t)
    | some c =>
      let (n, c') := c.step side event
      let t := t.replace k c c'
      match side with
      | .up => ((), { t with uploaded := fetchAdd t.uploaded n })
      | .down => ((), { t with downloaded := fetchAdd t.downloaded n })
  | .cancel k =>
    match t.connections[k]? with
    | none => ((), t)
    | some c => ((), t.replace k c { c with cancelled := true })
  | .drop k =>
    match t.connections[k]? with
    | none => ((), t)
    | some c =>
      if c.control = .running then ((), t.replace k c { c with control := .dropped }) else ((), t)

end Traffic

end Relay

end TunnelWarden

import TunnelWarden.Common.Tally
import TunnelWarden.Forwarding.Model.Relay

/-!
# What the relay carries

`CopyMove` lists what an event can do to a direction, and everything is
read off it: what was written is the beginning of what was read, and that
the beginning of the input; the counter is raised by what is written; the
writer is shut down once, when all there was has been written. Over all
relays of a tunnel the counters are the totals of what was written, and
the count of active connections is that of the relays still running.
-/

namespace TunnelWarden

namespace Relay

variable {cancelled : Bool} {d d' : Direction} {event : CopyEvent} {n : ℕ}

/-- The direction is still at work. -/
def Direction.Open (d : Direction) : Prop := ∀ result, d.control ≠ .returned result

/-- **What an event does to a direction.** -/
inductive CopyMove (cancelled : Bool) (d : Direction) : ℕ → Direction → Prop where
  | stay : CopyMove cancelled d 0 d
  | cancel : cancelled = true → d.Open → CopyMove cancelled d 0 { d with control := .returned (.ok ()) }
  | fail (error : IoError) : d.Open →
      CopyMove cancelled d 0 { d with control := .returned (.error error) }
  /-- The end of the input. -/
  | close : d.control = .reading → d.input.drop d.taken.length = [] →
      CopyMove cancelled d 0 { d with shutdowns := d.shutdowns + 1, control := .closing }
  | take (chunk : List UInt8) : d.control = .reading → chunk ≠ [] →
      chunk <+: d.input.drop d.taken.length →
      CopyMove cancelled d 0 { d with taken := d.taken ++ chunk, control := .writing chunk 0 }
  /-- A write that leaves some of the buffer. -/
  | put (buffer bytes : List UInt8) (written : ℕ) : d.control = .writing buffer written →
      bytes <+: buffer.drop written → written + bytes.length < buffer.length →
      CopyMove cancelled d bytes.length { d with
        sink := d.sink ++ bytes, control := .writing buffer (written + bytes.length) }
  /-- A write that empties it. -/
  | empty (buffer bytes : List UInt8) (written : ℕ) : d.control = .writing buffer written →
      bytes <+: buffer.drop written → buffer.length ≤ written + bytes.length →
      CopyMove cancelled d bytes.length { d with sink := d.sink ++ bytes, control := .reading }
  | closed : cancelled = false → d.control = .closing →
      CopyMove cancelled d 0 { d with closed := true, control := .returned (.ok ()) }

theorem chunk_eq_nil (h : d.chunk n = []) : d.input.drop d.taken.length = [] := by
  unfold Direction.chunk at h
  have hpos : min (max n 1) relayBufferBytes ≠ 0 := by
    unfold relayBufferBytes
    omega
  exact (List.take_eq_nil_iff.1 h).resolve_left hpos

/-- **There is nothing else an event can do.** -/
theorem copyStep_move (cancelled : Bool) (d : Direction) (event : CopyEvent) :
    CopyMove cancelled d (copyStep cancelled d event).1 (copyStep cancelled d event).2 := by
  unfold copyStep
  split
  · exact .stay
  · rename_i control hopen
    have hd : d.Open := hopen
    by_cases hc : cancelled = true
    · rw [if_pos hc]
      exact .cancel hc hd
    · rw [if_neg hc]
      have hlive : cancelled = false := by simpa using hc
      split
      · exact .fail _ hd
      · rename_i k hctrl
        split
        · rename_i hnil
          exact .close hctrl (chunk_eq_nil hnil)
        · rename_i hne
          exact .take _ hctrl hne (List.take_prefix _ _)
      · exact .fail _ hd
      · rename_i buffer written k hctrl
        dsimp only
        split
        · exact .fail _ hd
        · split
          · rename_i hlt
            exact .put buffer _ written hctrl (List.take_prefix _ _) hlt
          · rename_i hle
            exact .empty buffer _ written hctrl (List.take_prefix _ _) (Nat.not_lt.1 hle)
      · exact .fail _ hd
      · rename_i hctrl
        exact .closed hlive hctrl
      · exact .stay

/-! ## One direction -/

/-- The direction of a stream is the stream's. -/
theorem CopyMove.input (h : CopyMove cancelled d n d') : d'.input = d.input := by
  cases h <;> rfl

/-- **The counter is raised by what is written.** -/
theorem CopyMove.count (h : CopyMove cancelled d n d') :
    d'.sink.length = d.sink.length + n := by
  cases h with
  | put buffer bytes written hc hb hlt => simp
  | empty buffer bytes written hc hb hle => simp
  | stay | cancel | fail | close | take | closed => rfl

/-- What is in the buffer has been read and not yet written. -/
def Buffered (d : Direction) : Prop :=
  match d.control with
  | .reading => d.taken = d.sink ∧ d.shutdowns = 0
  | .writing buffer written =>
      d.taken = d.sink ++ buffer.drop written ∧ written < buffer.length ∧ d.shutdowns = 0
  | .closing | .returned _ => True

/-- **A direction is transparent**: what is written is the beginning of
what is read, and that of the input; the writer is shut down at most
once, and only with all of the input written; and an end that is neither
an error nor a cancellation has written all and shut the writer down. -/
structure Transparent (cancelled : Bool) (d : Direction) : Prop where
  read : d.taken <+: d.input
  written : d.sink <+: d.taken
  once : d.shutdowns ≤ 1
  shutdown : 0 < d.shutdowns → d.taken = d.input ∧ d.sink = d.input
  closing : d.control = .closing → d.shutdowns = 1
  ended : cancelled = false → d.control = .returned (.ok ()) →
    d.sink = d.input ∧ d.shutdowns = 1 ∧ d.closed = true

/-- The whole of a list has been taken where nothing is left behind a
prefix. -/
theorem eq_of_prefix_of_drop {l₁ l₂ : List UInt8} (h : l₁ <+: l₂) (hd : l₂.drop l₁.length = []) :
    l₁ = l₂ := by
  obtain ⟨t, rfl⟩ := h
  rw [List.drop_left] at hd
  rw [hd, List.append_nil]

/-- A part of what is left behind a prefix can be added to it. -/
theorem append_prefix_of_drop {l₁ l₂ t : List UInt8} (h : l₁ <+: l₂)
    (ht : t <+: l₂.drop l₁.length) : l₁ ++ t <+: l₂ := by
  obtain ⟨r, rfl⟩ := h
  rw [List.drop_left] at ht
  exact (List.prefix_append_right_inj l₁).2 ht

/-- **An event keeps a direction transparent.** -/
theorem Transparent.move (h : Transparent cancelled d) (hb : Buffered d)
    (hm : CopyMove cancelled d n d') : Transparent cancelled d' ∧ Buffered d' := by
  unfold Buffered at hb
  cases hm with
  | stay => exact ⟨h, hb⟩
  | cancel hc hopen =>
      exact ⟨⟨h.read, h.written, h.once, h.shutdown, nofun, fun hlive => by simp [hc] at hlive⟩, trivial⟩
  | fail error hopen =>
      exact ⟨⟨h.read, h.written, h.once, h.shutdown, nofun, fun _ hr => by simp at hr⟩, trivial⟩
  | close hctrl hnil =>
      rw [hctrl] at hb
      obtain ⟨hsink, hzero⟩ := hb
      have hall : d.taken = d.input := eq_of_prefix_of_drop h.read hnil
      refine ⟨⟨h.read, h.written, ?_, fun _ => ⟨hall, hsink ▸ hall⟩, fun _ => ?_, nofun⟩, trivial⟩
      · simp [hzero]
      · simp [hzero]
  | take chunk hctrl hne hchunk =>
      rw [hctrl] at hb
      obtain ⟨hsink, hzero⟩ := hb
      have hlen : 0 < chunk.length := List.length_pos_iff.2 hne
      refine ⟨⟨append_prefix_of_drop h.read hchunk, ?_, h.once, ?_, nofun, nofun⟩, ?_, hlen, hzero⟩
      · exact h.written.trans (List.prefix_append _ _)
      · simp [hzero]
      · simp [hsink]
  | put buffer bytes written hctrl hbytes hlt =>
      rw [hctrl] at hb
      obtain ⟨htaken, -, hzero⟩ := hb
      obtain ⟨rest, hrest⟩ := hbytes
      have hdrop : buffer.drop (written + bytes.length) = rest := by
        rw [← List.drop_drop, ← hrest, List.drop_left]
      have htaken' : d.taken = (d.sink ++ bytes) ++ buffer.drop (written + bytes.length) := by
        rw [htaken, hdrop, List.append_assoc, hrest]
      refine ⟨⟨h.read, ⟨_, htaken'.symm⟩, h.once, ?_, nofun, nofun⟩, htaken', hlt, hzero⟩
      simp [hzero]
  | empty buffer bytes written hctrl hbytes hle =>
      rw [hctrl] at hb
      obtain ⟨htaken, -, hzero⟩ := hb
      have hall : bytes = buffer.drop written := by
        refine hbytes.eq_of_length_le ?_
        rw [List.length_drop]
        omega
      have htaken' : d.taken = d.sink ++ bytes := by rw [htaken, hall]
      refine ⟨⟨h.read, ⟨[], by rw [htaken', List.append_nil]⟩, h.once, ?_, nofun, nofun⟩, htaken', hzero⟩
      simp [hzero]
  | closed hlive hctrl =>
      have hone := h.closing hctrl
      have hall := h.shutdown (by omega)
      exact ⟨⟨h.read, h.written, h.once, h.shutdown, nofun, fun _ _ => ⟨hall.2, hone, rfl⟩⟩, trivial⟩

/-- What holds of a direction that may be cancelled holds of one that
is. -/
theorem Transparent.cancel (h : Transparent cancelled d) : Transparent true d :=
  ⟨h.read, h.written, h.once, h.shutdown, h.closing, nofun⟩

theorem transparent_new (input : List UInt8) :
    Transparent false { input } ∧ Buffered { input } :=
  ⟨⟨List.nil_prefix, List.nil_prefix, Nat.zero_le _, nofun, nofun, nofun⟩, rfl, rfl⟩

theorem Transparent.copyStep (h : Transparent cancelled d) (hb : Buffered d) (event : CopyEvent) :
    Transparent cancelled (copyStep cancelled d event).2 ∧
      Buffered (copyStep cancelled d event).2 :=
  h.move hb (copyStep_move cancelled d event)

/-! ## Both directions -/

/-- Has the direction ended well? -/
def Direction.Ended (d : Direction) : Prop := d.control = .returned (.ok ())

/-- Has it ended with this error? -/
def Direction.Failed (d : Direction) (error : IoError) : Prop :=
  d.control = .returned (.error error)

/-- **What the end of a relay says of its directions**: it runs until
both have ended or one has failed. -/
def Joined (c : Connection) : Prop :=
  match c.control with
  | .running => (∀ error, ¬ c.up.Failed error ∧ ¬ c.down.Failed error) ∧
      ¬ (c.up.Ended ∧ c.down.Ended)
  | .returned (.ok ()) => c.up.Ended ∧ c.down.Ended
  | .returned (.error error) => c.up.Failed error ∨ c.down.Failed error
  | .dropped => True

theorem joined_tryJoin (up down : Direction) (cancelled : Bool) :
    Joined ⟨up, down, cancelled, tryJoin up.control down.control⟩ := by
  unfold Joined Direction.Ended Direction.Failed
  dsimp only
  cases hu : up.control with
  | returned result =>
      cases result with
      | error error => exact .inl rfl
      | ok _ =>
          cases hd : down.control with
          | returned result =>
              cases result with
              | error error => exact .inr rfl
              | ok _ => exact ⟨rfl, rfl⟩
          | _ => exact ⟨fun _ => ⟨nofun, nofun⟩, nofun⟩
  | _ =>
      cases hd : down.control with
      | returned result =>
          cases result with
          | error error => exact .inr rfl
          | ok _ => exact ⟨fun _ => ⟨nofun, nofun⟩, nofun⟩
      | _ => exact ⟨fun _ => ⟨nofun, nofun⟩, nofun⟩

/-- **A relay in order.** -/
structure InOrder (c : Connection) : Prop where
  up : Transparent c.cancelled c.up ∧ Buffered c.up
  down : Transparent c.cancelled c.down ∧ Buffered c.down
  joined : Joined c

theorem InOrder.step {c : Connection} (h : InOrder c) (side : Side) (event : CopyEvent) :
    InOrder (c.step side event).2 := by
  unfold Connection.step
  split
  · exact h
  · cases side with
    | up => exact ⟨h.up.1.copyStep h.up.2 event, h.down, joined_tryJoin _ _ _⟩
    | down => exact ⟨h.up, h.down.1.copyStep h.down.2 event, joined_tryJoin _ _ _⟩

/-- A relay that is over stays so. -/
theorem step_over {c : Connection} (h : c.control ≠ .running) (side : Side) (event : CopyEvent) :
    c.step side event = (0, c) := if_pos h

/-- **A relay that runs serves both directions**, whatever has become of
the other one: its step is the step of the direction, and what it counts
is what that direction writes. -/
structure Serves (c : Connection) : Prop where
  up : ∀ event, (c.step .up event).2.up = (copyStep c.cancelled c.up event).2 ∧
    (c.step .up event).2.down = c.down
  down : ∀ event, (c.step .down event).2.down = (copyStep c.cancelled c.down event).2 ∧
    (c.step .down event).2.up = c.up

theorem serves_of_running {c : Connection} (h : c.control = .running) : Serves c := by
  constructor
  · intro event
    simp [Connection.step, h]
  · intro event
    simp [Connection.step, h]

/-- What a step counts, each side for itself. -/
theorem step_count (c : Connection) (event : CopyEvent) :
    (c.step .up event).2.up.sink.length = c.up.sink.length + (c.step .up event).1 ∧
      (c.step .up event).2.down = c.down ∧
      (c.step .down event).2.down.sink.length = c.down.sink.length + (c.step .down event).1 ∧
      (c.step .down event).2.up = c.up := by
  by_cases h : c.control = .running
  · have hup := (copyStep_move c.cancelled c.up event).count
    have hdown := (copyStep_move c.cancelled c.down event).count
    simp [Connection.step, h, hup, hdown]
  · simp [step_over h]

/-- The streams of a relay are those it began with. -/
theorem step_input (c : Connection) (side : Side) (event : CopyEvent) :
    (c.step side event).2.up.input = c.up.input ∧
      (c.step side event).2.down.input = c.down.input := by
  by_cases h : c.control = .running
  · have hup := (copyStep_move c.cancelled c.up event).input
    have hdown := (copyStep_move c.cancelled c.down event).input
    cases side with
    | up => simp [Connection.step, h, hup]
    | down => simp [Connection.step, h, hdown]
  · simp [step_over h]

/-! ## All relays of a tunnel -/

namespace Traffic

variable {t : Traffic} {k : ℕ} {c c' : Connection}

/-- The bytes written towards the remote sides. -/
def sent (t : Traffic) : ℕ := tally (fun c => c.up.sink.length) t.connections

/-- The bytes written towards the local sides. -/
def received (t : Traffic) : ℕ := tally (fun c => c.down.sink.length) t.connections

/-- The relays in progress. -/
def inProgress (t : Traffic) : ℕ :=
  tally (fun c => if c.control = .running then 1 else 0) t.connections

/-- The streams the relays began with. -/
def streams (t : Traffic) : List (List UInt8 × List UInt8) :=
  t.connections.map fun c => (c.up.input, c.down.input)

/-- **The counters are right.** -/
structure Counted (t : Traffic) : Prop where
  order : ∀ c ∈ t.connections, InOrder c
  uploaded : t.uploaded = t.sent % 2 ^ 64
  downloaded : t.downloaded = t.received % 2 ^ 64
  active : t.activeConnections = t.inProgress % 2 ^ 32

theorem fetchAdd_mod (total n : ℕ) : fetchAdd (total % 2 ^ 64) n = (total + n) % 2 ^ 64 := by
  unfold fetchAdd
  omega

/-- **The end of a relay is counted once.** -/
theorem active_replace (h : t.connections[k]? = some c)
    (hstay : c.control ≠ .running → c'.control ≠ .running)
    (hactive : t.activeConnections = t.inProgress % 2 ^ 32) :
    (t.replace k c c').activeConnections = (t.replace k c c').inProgress % 2 ^ 32 := by
  have hset := tally_set (fun c => if c.control = RelayControl.running then 1 else 0) h c'
  have htally : (t.replace k c c').inProgress =
      tally (fun c => if c.control = RelayControl.running then 1 else 0) (t.connections.set k c') :=
    rfl
  rw [htally]
  unfold inProgress at hactive
  unfold replace activeDrop
  dsimp only
  by_cases hc : c.control = .running
  · by_cases hc' : c'.control = .running
    · rw [if_neg (by simp [hc'])]
      simp only [hc, hc', if_true] at hset
      omega
    · rw [if_pos ⟨hc, hc'⟩]
      simp only [hc, hc', if_true, if_false] at hset
      omega
  · have hc' := hstay hc
    rw [if_neg (by simp [hc])]
    simp only [hc, hc', if_false] at hset
    omega

/-- A relay is replaced by one that has written as much. -/
theorem Counted.replace (ht : Counted t) (h : t.connections[k]? = some c) (ho : InOrder c')
    (hup : c'.up.sink = c.up.sink) (hdown : c'.down.sink = c.down.sink)
    (hstay : c.control ≠ .running → c'.control ≠ .running) : Counted (t.replace k c c') := by
  have hsent := tally_set (fun c => c.up.sink.length) h c'
  have hreceived := tally_set (fun c => c.down.sink.length) h c'
  have hu : (t.replace k c c').sent = t.sent := by
    simp only [hup] at hsent
    exact Nat.add_right_cancel hsent
  have hd : (t.replace k c c').received = t.received := by
    simp only [hdown] at hreceived
    exact Nat.add_right_cancel hreceived
  exact ⟨forall_mem_set ht.order ho, by rw [hu]; exact ht.uploaded,
    by rw [hd]; exact ht.downloaded, active_replace h hstay ht.active⟩

theorem Counted.copy (ht : Counted t) (side : Side) (event : CopyEvent) :
    Counted (t.step (.copy k side event)).2 := by
  simp only [step]
  cases h : t.connections[k]? with
  | none => exact ht
  | some c =>
      have horder := (ht.order c (List.mem_of_getElem? h)).step side event
      have hstay : c.control ≠ .running → (c.step side event).2.control ≠ .running := by
        intro hc
        rw [step_over hc]
        exact hc
      have hactive := active_replace h hstay ht.active
      have hforall := forall_mem_set (k := k) ht.order horder
      have hsent := tally_set (fun c => c.up.sink.length) h (c.step side event).2
      have hreceived := tally_set (fun c => c.down.sink.length) h (c.step side event).2
      have hcount := step_count c event
      cases side with
      | up =>
          simp only [hcount.1] at hsent
          simp only [hcount.2.1] at hreceived
          refine ⟨hforall, ?_, ?_, hactive⟩
          · dsimp only [Traffic.replace]
            rw [ht.uploaded, fetchAdd_mod]
            unfold sent
            dsimp only
            congr 1
            omega
          · change t.downloaded = _
            rw [ht.downloaded]
            unfold received
            dsimp only [Traffic.replace]
            congr 1
            omega
      | down =>
          simp only [hcount.2.2.1] at hreceived
          simp only [hcount.2.2.2] at hsent
          refine ⟨hforall, ?_, ?_, hactive⟩
          · change t.uploaded = _
            rw [ht.uploaded]
            unfold sent
            dsimp only [Traffic.replace]
            congr 1
            omega
          · dsimp only [Traffic.replace]
            rw [ht.downloaded, fetchAdd_mod]
            unfold received
            dsimp only
            congr 1
            omega

theorem Counted.start (ht : Counted t) (localInput remoteInput : List UInt8) :
    Counted (t.step (.start localInput remoteInput)).2 := by
  have horder : InOrder { up := { input := localInput }, down := { input := remoteInput } } :=
    ⟨transparent_new localInput, transparent_new remoteInput, fun _ => ⟨nofun, nofun⟩, nofun⟩
  refine ⟨?_, ?_, ?_, ?_⟩
  · intro c hc
    rcases List.mem_append.1 hc with hc | hc
    · exact ht.order c hc
    · rw [List.mem_singleton.1 hc]
      exact horder
  · simp only [step, sent, tally_concat, List.length_nil, Nat.add_zero]
    exact ht.uploaded
  · simp only [step, received, tally_concat, List.length_nil, Nat.add_zero]
    exact ht.downloaded
  · have hactive := ht.active
    unfold inProgress at hactive
    simp only [step, inProgress, tally_concat, if_true, activeNew, hactive]
    omega

/-- **Every event keeps the counters right.** -/
theorem counted_step (t : Traffic) (event : TrafficEvent) (ht : Counted t) :
    Counted (t.step event).2 := by
  cases event with
  | start localInput remoteInput => exact ht.start localInput remoteInput
  | copy k side event => exact ht.copy side event
  | cancel k =>
      simp only [step]
      cases h : t.connections[k]? with
      | none => exact ht
      | some c =>
          have ho := ht.order c (List.mem_of_getElem? h)
          refine ht.replace h ⟨⟨ho.up.1.cancel, ho.up.2⟩, ⟨ho.down.1.cancel, ho.down.2⟩, ho.joined⟩
            rfl rfl id
  | drop k =>
      simp only [step]
      cases h : t.connections[k]? with
      | none => exact ht
      | some c =>
          have ho := ht.order c (List.mem_of_getElem? h)
          dsimp only
          split
          · exact ht.replace h ⟨ho.up, ho.down, trivial⟩ rfl rfl fun _ => nofun
          · exact ht

/-- The streams of a relay that begins. -/
def startOf : TrafficEvent → Option (List UInt8 × List UInt8)
  | .start localInput remoteInput => some (localInput, remoteInput)
  | _ => none

/-- A relay is replaced by one of the same streams. -/
theorem streams_replace (h : t.connections[k]? = some c) (hup : c'.up.input = c.up.input)
    (hdown : c'.down.input = c.down.input) : (t.replace k c c').streams = t.streams := by
  unfold streams
  dsimp only [Traffic.replace]
  obtain ⟨hk, hget⟩ := List.getElem?_eq_some_iff.1 h
  rw [List.map_set, hup, hdown, ← hget]
  have hk' : k < (t.connections.map fun c => (c.up.input, c.down.input)).length := by
    simpa using hk
  have hentry : (t.connections.map fun c => (c.up.input, c.down.input))[k] =
      (t.connections[k].up.input, t.connections[k].down.input) := List.getElem_map ..
  rw [← hentry, List.set_getElem_self]

theorem streams_step (t : Traffic) (event : TrafficEvent) :
    (t.step event).2.streams = t.streams ++ (startOf event).toList := by
  cases event with
  | start localInput remoteInput => simp [step, streams, startOf]
  | copy k side event =>
      simp only [step, startOf, Option.toList_none, List.append_nil]
      cases h : t.connections[k]? with
      | none => rfl
      | some c =>
          have hinput := step_input c side event
          have hstreams := streams_replace h hinput.1 hinput.2
          cases side with
          | up => exact hstreams
          | down => exact hstreams
  | cancel k =>
      simp only [step, startOf, Option.toList_none, List.append_nil]
      cases h : t.connections[k]? with
      | none => rfl
      | some c => exact streams_replace h rfl rfl
  | drop k =>
      simp only [step, startOf, Option.toList_none, List.append_nil]
      cases h : t.connections[k]? with
      | none => rfl
      | some c =>
          dsimp only
          split
          · exact streams_replace h rfl rfl
          · rfl

theorem streams_run (t : Traffic) (events : List TrafficEvent) :
    (runState step t events).streams = t.streams ++ events.filterMap startOf := by
  induction events generalizing t with
  | nil => exact (List.append_nil _).symm
  | cons event events ih =>
      rw [runState_cons, ih, streams_step, List.append_assoc, List.filterMap_cons]
      cases startOf event <;> rfl

theorem counted_new : Counted {} :=
  ⟨fun _ hc => absurd hc List.not_mem_nil, rfl, rfl, rfl⟩

/-- **What the relays of a tunnel promise.** -/
structure Faithful (started : List (List UInt8 × List UInt8)) (t : Traffic) : Prop where
  streams : t.streams = started
  transparent : ∀ c ∈ t.connections,
    Transparent c.cancelled c.up ∧ Transparent c.cancelled c.down
  uploaded : t.uploaded = t.sent % 2 ^ 64
  downloaded : t.downloaded = t.received % 2 ^ 64
  joined : ∀ c ∈ t.connections, Joined c
  serves : ∀ c ∈ t.connections, c.control = .running → Serves c
  active : t.activeConnections = t.inProgress % 2 ^ 32
  active_eq : t.inProgress < 2 ^ 32 → t.activeConnections = t.inProgress

/-- **The relay is transparent and counted exactly**, over any relays of
a tunnel, any division of their streams into reads and writes, and
cancellations, errors and drops at any point. -/
theorem faithful_run (events : List TrafficEvent) :
    Faithful (events.filterMap startOf) (runState step {} events) := by
  have h : Counted (runState step {} events) := runState_invariant counted_step counted_new events
  refine
    { streams := streams_run {} events
      transparent := fun c hc => ⟨(h.order c hc).up.1, (h.order c hc).down.1⟩
      uploaded := h.uploaded
      downloaded := h.downloaded
      joined := fun c hc => (h.order c hc).joined
      serves := fun c _ hrun => serves_of_running hrun
      active := h.active
      active_eq := fun hlt => ?_ }
  rw [h.active]
  exact Nat.mod_eq_of_lt hlt

/-- Two relays, one of them over: five bytes up in two writes, and the
other side's error. -/
example :
    (runState step {} [.start [1, 2, 3, 4, 5] [9], .start [] [], .copy 0 .up (.read (.ok 9)),
      .copy 0 .up (.write (.ok 2)), .copy 0 .up (.write (.ok 9)),
      .copy 0 .down (.read (.error writeZero))]).activeConnections = 1 := by
  decide +kernel

end Traffic

end Relay

end TunnelWarden

import TunnelWarden.Forwarding.Model.RemoteWorker
import TunnelWarden.Ssh.Queue

/-!
# The channels of a Remote tunnel

`Change` lists what a step does to the session, the queue, the tasks and
the counters, and everything is read off it: no channel is lost or taken
twice on its way from the handler to a task, and the counter of active
connections is the number of the tasks that relay.
-/

namespace TunnelWarden

open Ssh Relay

/-- The relay a task is at. -/
def RelayTask.relay (task : RelayTask) : Option ℕ :=
  match task.stage with
  | .relaying relay => some relay
  | _ => none

namespace RemoteForwardWorker

/-! ## The record -/

/-- What the session made known. -/
def sessionEvents (record : List RemoteWorkerEvent) : List RemoteEvent :=
  record.filterMap fun
    | .session event => some event
    | _ => none

/-- The channels the handler has handed on. -/
def handedOn (record : List RemoteWorkerEvent) : List ℕ :=
  record.filterMap fun
    | .handedOn channel => some channel
    | _ => none

/-- The channels that have got a task. -/
def spawned (record : List RemoteWorkerEvent) : List ℕ :=
  record.filterMap fun
    | .spawned channel => some channel
    | _ => none

/-- The channels whose tasks were joined. -/
def joined (record : List RemoteWorkerEvent) : List ℕ :=
  record.filterMap fun
    | .joined channel => some channel
    | _ => none

/-- The openings the handler has accepted. -/
def acceptedOpenings (record : List RemoteWorkerEvent) : List Opening :=
  (sessionEvents record).filterMap fun
    | .answered opening => if opening.verdict = .ok () then some opening else none
    | _ => none

/-- No channel is mentioned. -/
structure Unheard (events : List RemoteWorkerEvent) : Prop where
  handedOn : handedOn events = []
  spawned : spawned events = []
  joined : joined events = []

/-! ## What a step does -/

/-- The session went on with these. -/
structure Follows (s : RemoteForwardWorker) (inputs : List RemoteInput)
    (events : List RemoteWorkerEvent) (s' : RemoteForwardWorker) : Prop where
  session : s'.session = runState Remote.step s.session inputs
  events : sessionEvents events = answers Remote.step s.session inputs

/-- The channels and the tasks are as they were. -/
structure Kept (s s' : RemoteForwardWorker) : Prop where
  queue : s'.queue = s.queue
  handed : s'.handed = s.handed
  connections : s'.connections = s.connections

/-- The session neither answers an opening nor has a channel taken. -/
def Quiet (inputs : List RemoteInput) : Prop := ∀ i ∈ inputs, i ≠ .reply ∧ i ≠ .receive

/-- The handler is about to accept a channel. -/
def Accepting (s : RemoteForwardWorker) : Prop :=
  ∃ opening, s.session.opening = some opening ∧ opening.verdict = .ok ()

/-- **What a step can do.** -/
inductive Change (s : RemoteForwardWorker) :
    List RemoteInput → List RemoteWorkerEvent → RemoteForwardWorker → Prop where
  | aside : Quiet inputs → Kept s s' → s'.counters = s.counters → Unheard events →
      Change s inputs events s'
  /-- The token is cancelled. -/
  | cancelled : Quiet inputs → Kept s s' → s'.counters = s.cancel.counters → Unheard events →
      Change s inputs events s'
  /-- The handler turns a channel away. -/
  | declined : ¬ s.Accepting → Kept s s' → s'.counters = s.counters → Unheard events →
      Change s [.reply] events s'
  | handedOn : s.Accepting → s'.queue = s.queue ++ [s.handed] → s'.handed = s.handed + 1 →
      s'.connections = s.connections → s'.counters = s.counters →
      handedOn events = [s.handed] → spawned events = [] → joined events = [] →
      Change s [.reply] events s'
  | spawned (channel : ℕ) (queue : List ℕ) : s.queue = channel :: queue → s'.queue = queue →
      s'.handed = s.handed → s.connections.length < maxActiveConnections →
      s'.connections = s.connections ++ [⟨channel, .connecting⟩] → s'.counters = s.counters →
      RemoteForwardWorker.handedOn events = [] → spawned events = [channel] → joined events = [] →
      Change s [.receive] events s'
  | advanced (place : ℕ) (task : RelayTask) (event : RelayTaskEvent) :
      s.connections[place]? = some task → s'.queue = s.queue → s'.handed = s.handed →
      s'.connections = s.connections.set place (s.advance task event).1 →
      s'.counters = (s.advance task event).2 → Change s [] [] s'
  | joined (place : ℕ) (task : RelayTask) : s.connections[place]? = some task →
      task.relay = none → s'.queue = s.queue → s'.handed = s.handed →
      s'.connections = s.connections.eraseIdx place → s'.counters = s.counters →
      Change s [] [.joined task.channel] s'
  | aborted (place : ℕ) (task : RelayTask) (relay : ℕ) : s.connections[place]? = some task →
      task.relay = some relay → s'.queue = s.queue → s'.handed = s.handed →
      s'.connections = s.connections.eraseIdx place →
      s'.counters = (s.counters.step (.drop relay)).2 →
      Change s [] [.joined task.channel] s'

/-- A step with its part of the session. -/
def Changes (s : RemoteForwardWorker) (r : List RemoteWorkerEvent × RemoteForwardWorker) : Prop :=
  ∃ inputs, Follows s inputs r.1 r.2 ∧ Change s inputs r.1 r.2

variable {s s' : RemoteForwardWorker} {events more record : List RemoteWorkerEvent}
variable {inputs : List RemoteInput}

theorem handedOn_append : handedOn (events ++ more) = handedOn events ++ handedOn more :=
  List.filterMap_append

theorem spawned_append : spawned (events ++ more) = spawned events ++ spawned more :=
  List.filterMap_append

theorem joined_append : joined (events ++ more) = joined events ++ joined more :=
  List.filterMap_append

theorem Unheard.append (h : Unheard events) (h' : Unheard more) : Unheard (events ++ more) where
  handedOn := by rw [handedOn_append, h.handedOn, h'.handedOn, List.append_nil]
  spawned := by rw [spawned_append, h.spawned, h'.spawned, List.append_nil]
  joined := by rw [joined_append, h.joined, h'.joined, List.append_nil]

theorem unheard_session (events : List RemoteEvent) :
    Unheard (events.map RemoteWorkerEvent.session) where
  handedOn := by simp [handedOn, List.filterMap_map]
  spawned := by simp [spawned, List.filterMap_map]
  joined := by simp [joined, List.filterMap_map]

@[simp]
theorem sessionEvents_map (events : List RemoteEvent) :
    sessionEvents (events.map .session) = events := by
  simp [sessionEvents, List.filterMap_map]

@[simp]
theorem sessionEvents_append :
    sessionEvents (events ++ more) = sessionEvents events ++ sessionEvents more :=
  List.filterMap_append

/-- A step that only moves the worker on. -/
theorem changes_aside (hsession : s'.session = s.session) (hkept : Kept s s')
    (hcounters : s'.counters = s.counters) : Changes s ([], s') :=
  ⟨[], ⟨hsession, rfl⟩, .aside (fun _ hi => by cases hi) hkept hcounters ⟨rfl, rfl, rfl⟩⟩

theorem changes_same : Changes s ([], s) := changes_aside rfl ⟨rfl, rfl, rfl⟩ rfl

theorem quiet_singleton {input : RemoteInput} (hreply : input ≠ .reply)
    (hreceive : input ≠ .receive) : Quiet [input] := by
  intro i hi
  rw [List.mem_singleton.1 hi]
  exact ⟨hreply, hreceive⟩

theorem Quiet.append {others : List RemoteInput} (h : Quiet inputs) (h' : Quiet others) :
    Quiet (inputs ++ others) := by
  intro i hi
  rcases List.mem_append.1 hi with hi | hi
  · exact h i hi
  · exact h' i hi

/-- A session that goes on quietly changes nothing else. -/
theorem changes_onSession (hquiet : Quiet inputs) (control : RemoteWorkerControl) :
    Changes s ((s.onSession inputs).1, { (s.onSession inputs).2 with control }) :=
  ⟨inputs, ⟨rfl, sessionEvents_map _⟩, .aside hquiet ⟨rfl, rfl, rfl⟩ rfl (unheard_session _)⟩

/-- A disconnect begins. -/
theorem changes_disconnect (control : RemoteWorkerControl) :
    Changes s (.disconnecting :: (s.onSession [.disconnect]).1,
      { (s.onSession [.disconnect]).2 with control }) := by
  refine ⟨[.disconnect], ⟨rfl, sessionEvents_map _⟩, .aside ?_ ⟨rfl, rfl, rfl⟩ rfl ?_⟩
  · exact quiet_singleton (by decide) (by decide)
  · have hunheard := unheard_session (answers Remote.step s.session [.disconnect])
    exact ⟨hunheard.handedOn, hunheard.spawned, hunheard.joined⟩

/-- Registration. -/
theorem changes_request {input : RemoteInput} (hquiet : Quiet [input]) :
    Changes s (s.request input) := by
  unfold request
  dsimp only
  split
  · exact changes_onSession hquiet _
  · rename_i error heq
    refine ⟨[input] ++ [.disconnect], ⟨rfl, ?_⟩, .aside ?_ ⟨rfl, rfl, rfl⟩ rfl ?_⟩
    · rw [sessionEvents_append, answers_append]
      exact congrArg₂ (· ++ ·) (sessionEvents_map _) (sessionEvents_map _)
    · exact hquiet.append (quiet_singleton (by decide) (by decide))
    · have hunheard := unheard_session (answers Remote.step
        (s.onSession [input]).2.session [.disconnect])
      exact (unheard_session _).append ⟨hunheard.handedOn, hunheard.spawned, hunheard.joined⟩
  · exact changes_onSession hquiet _

theorem changes_start : Changes s s.start := by
  unfold start
  split
  · exact changes_request (quiet_singleton (by decide) (by decide))
  · exact changes_disconnect _

theorem changes_reply : Changes s s.reply := by
  unfold reply
  dsimp only
  split
  · rename_i address port hopening
    have hunheard := unheard_session (answers Remote.step s.session [.reply])
    refine ⟨[.reply], ⟨rfl, ?_⟩, .handedOn ⟨_, hopening, rfl⟩ rfl rfl rfl rfl ?_ ?_ ?_⟩
    · rw [sessionEvents_append]
      exact (List.append_nil _).trans (sessionEvents_map _)
    · rw [handedOn_append]
      exact congrArg (· ++ [s.handed]) hunheard.handedOn
    · rw [spawned_append]
      exact congrArg (· ++ []) hunheard.spawned
    · rw [joined_append]
      exact congrArg (· ++ []) hunheard.joined
  · rename_i hnone
    refine ⟨[.reply], ⟨rfl, sessionEvents_map _⟩, .declined ?_ ⟨rfl, rfl, rfl⟩ rfl (unheard_session _)⟩
    rintro ⟨⟨address, port, verdict⟩, hopening, hverdict⟩
    dsimp only at hverdict
    subst hverdict
    exact hnone address port hopening

theorem changes_task (place : ℕ) (event : RelayTaskEvent) : Changes s ([], s.task place event) := by
  unfold task
  split
  · exact changes_same
  · rename_i task hplace
    exact ⟨[], ⟨rfl, rfl⟩, .advanced place task event hplace rfl rfl rfl rfl⟩

theorem changes_joinReturned (place : ℕ) : Changes s (s.joinReturned place) := by
  unfold joinReturned
  split
  · rename_i channel result hplace
    exact ⟨[], ⟨rfl, rfl⟩, .joined place _ hplace rfl rfl rfl rfl rfl⟩
  · exact changes_same

theorem changes_joinAborted (place : ℕ) : Changes s (s.joinAborted place) := by
  unfold joinAborted
  split
  · exact changes_same
  · rename_i channel relay hplace
    exact ⟨[], ⟨rfl, rfl⟩, .aborted place _ relay hplace rfl rfl rfl rfl rfl⟩
  · rename_i task hrelaying hplace
    refine ⟨[], ⟨rfl, rfl⟩, .joined place task hplace ?_ rfl rfl rfl rfl⟩
    obtain ⟨channel, stage⟩ := task
    cases stage with
    | connecting => rfl
    | returned result => rfl
    | relaying relay => exact (hrelaying channel relay rfl).elim

theorem changes_join (place : ℕ) : Changes s (s.join place) := by
  unfold join
  split
  · exact changes_same
  · rename_i events t hsome heq
    unfold joinReturned at heq
    split at heq
    · rename_i channel result hplace
      obtain ⟨rfl, rfl⟩ := Prod.mk.inj heq
      exact ⟨[], ⟨rfl, rfl⟩, .joined place _ hplace rfl rfl rfl rfl rfl⟩
    · obtain ⟨rfl, rfl⟩ := Prod.mk.inj heq
      exact (hsome rfl).elim

theorem changes_receive (hroom : s.connections.length < maxActiveConnections) :
    Changes s s.receive := by
  unfold receive
  split
  · split
    · exact changes_aside rfl ⟨rfl, rfl, rfl⟩ rfl
    · exact changes_same
  · rename_i channel queue hqueue
    dsimp only
    have hunheard := unheard_session (answers Remote.step s.session [.receive])
    refine ⟨[.receive], ⟨rfl, ?_⟩, .spawned channel queue hqueue rfl rfl hroom rfl rfl ?_ ?_ ?_⟩
    · rw [sessionEvents_append]
      exact (List.append_nil _).trans (sessionEvents_map _)
    · rw [handedOn_append]
      exact congrArg (· ++ []) hunheard.handedOn
    · rw [spawned_append]
      exact congrArg (· ++ [channel]) hunheard.spawned
    · rw [joined_append]
      exact congrArg (· ++ []) hunheard.joined

theorem changes_unregister {input : RemoteInput} (hquiet : Quiet [input])
    {lead : List RemoteWorkerEvent} (hlead : Unheard lead) (hnone : sessionEvents lead = []) :
    Changes s (lead ++ (s.unregister input).1, (s.unregister input).2) := by
  unfold unregister
  dsimp only
  have hunheard := hlead.append (unheard_session (answers Remote.step s.session [input]))
  split
  · refine ⟨[input], ⟨rfl, ?_⟩, .cancelled hquiet ⟨rfl, rfl, rfl⟩ rfl ?_⟩
    · rw [sessionEvents_append, sessionEvents_append, hnone]
      exact (List.append_nil _).trans (sessionEvents_map _)
    · rw [← List.append_assoc]
      exact hunheard.append ⟨rfl, rfl, rfl⟩
  · refine ⟨[input], ⟨rfl, ?_⟩, .aside hquiet ⟨rfl, rfl, rfl⟩ rfl hunheard⟩
    rw [sessionEvents_append, hnone]
    exact sessionEvents_map _

theorem changes_stop : Changes s s.stop := by
  have hquiet : Quiet [.cancel] := quiet_singleton (by decide) (by decide)
  have hlead : Unheard [.stopping] := ⟨rfl, rfl, rfl⟩
  exact changes_unregister hquiet hlead rfl

theorem changes_drained (result : Except SshConnectError Unit) : Changes s (s.drained result) := by
  unfold drained
  split
  · exact changes_disconnect _
  · exact changes_same

theorem changes_dropSession (control : RemoteWorkerControl) :
    Changes s (s.dropSession control) := by
  refine changes_onSession (fun i hi => ?_) control
  rcases List.mem_pair.1 hi with rfl | rfl
  · exact ⟨by decide, by decide⟩
  · exact ⟨by decide, by decide⟩

/-- **There is nothing else a step does.** -/
theorem changes_step (input : RemoteWorkerInput) : Changes s (s.step input) := by
  unfold step
  split
  · rename_i address port
    split
    · exact changes_same
    · have hquiet : Quiet [.channelOpen address port] := quiet_singleton nofun nofun
      exact changes_onSession hquiet s.control
  · split
    · exact changes_same
    · exact changes_reply
  · exact changes_aside rfl ⟨rfl, rfl, rfl⟩ rfl
  · exact ⟨[], ⟨rfl, rfl⟩, .cancelled (fun _ hi => by cases hi) ⟨rfl, rfl, rfl⟩ rfl ⟨rfl, rfl, rfl⟩⟩
  · exact changes_task _ _
  · exact changes_start
  · exact changes_request (quiet_singleton nofun nofun)
  · exact changes_dropSession _
  · unfold poll
    split
    · exact changes_aside rfl ⟨rfl, rfl, rfl⟩ rfl
    · exact changes_aside rfl ⟨rfl, rfl, rfl⟩ rfl
  · unfold sessionTick
    split
    · exact changes_aside rfl ⟨rfl, rfl, rfl⟩ rfl
    · exact changes_aside rfl ⟨rfl, rfl, rfl⟩ rfl
  · exact changes_aside rfl ⟨rfl, rfl, rfl⟩ rfl
  · unfold pinged
    split
    · exact changes_aside rfl ⟨rfl, rfl, rfl⟩ rfl
    · exact changes_aside rfl ⟨rfl, rfl, rfl⟩ rfl
  · exact changes_join _
  · split
    · rename_i hroom
      exact changes_receive hroom
    · exact changes_same
  · split
    · exact changes_stop
    · exact changes_same
  · rename_i answer hcontrol
    have hquiet : Quiet [.cancelAnswered answer] := quiet_singleton nofun nofun
    have hlead : Unheard [] := ⟨rfl, rfl, rfl⟩
    exact changes_unregister hquiet hlead rfl
  · exact changes_joinReturned _
  · split
    · exact changes_same
    · exact ⟨[], ⟨rfl, rfl⟩, .aside (fun _ hi => by cases hi) ⟨rfl, rfl, rfl⟩ rfl ⟨rfl, rfl, rfl⟩⟩
  · exact changes_joinAborted _
  · exact changes_drained _
  · exact changes_drained _
  · exact changes_dropSession _
  · exact changes_same

/-! ## What every run keeps -/

open Remote (Room)

theorem acceptedOpenings_append :
    acceptedOpenings (events ++ more) = acceptedOpenings events ++ acceptedOpenings more := by
  unfold acceptedOpenings
  rw [sessionEvents_append, List.filterMap_append]

/-- A session that goes on quietly accepts nothing. -/
theorem room_of_quiet {r : Remote} {count : ℕ} (hroom : Room r count) (hquiet : Quiet inputs) :
    Room (runState Remote.step r inputs) count ∧
      ∀ opening, .answered opening ∉ answers Remote.step r inputs := by
  induction inputs generalizing r with
  | nil => exact ⟨hroom, fun _ => List.not_mem_nil⟩
  | cons input inputs ih =>
      obtain ⟨hreply, hreceive⟩ := hquiet input List.mem_cons_self
      obtain ⟨hnext, hnone⟩ := hroom.step hreply hreceive
      obtain ⟨hend, hrest⟩ := ih hnext fun i hi => hquiet i (List.mem_cons_of_mem _ hi)
      refine ⟨hend, fun opening hmem => ?_⟩
      rw [answers_cons] at hmem
      rcases List.mem_append.1 hmem with hmem | hmem
      · exact hnone opening hmem
      · exact hrest opening hmem

theorem acceptedOpenings_of_quiet {r : Remote}
    (hevents : sessionEvents events = answers Remote.step r inputs)
    (hnone : ∀ opening, .answered opening ∉ answers Remote.step r inputs) :
    acceptedOpenings events = [] := by
  unfold acceptedOpenings
  rw [hevents]
  refine List.filterMap_eq_nil_iff.2 fun event hmem => ?_
  cases event with
  | answered opening => exact absurd hmem (hnone opening)
  | _ => rfl

/-- **The way of the channels.** Those that were accepted were handed on,
and they get their tasks in this order; the others are in the queue. A
task is at work or was joined. -/
structure Recorded (remote : Option RemoteEndpoint) (s : RemoteForwardWorker)
    (record : List RemoteWorkerEvent) : Prop where
  window : Remote.Recorded remote s.session (sessionEvents record)
  room : Room s.session s.queue.length
  accepted : (acceptedOpenings record).length = s.handed
  handed : handedOn record = List.range s.handed
  order : spawned record ++ s.queue = handedOn record
  tasks : (joined record ++ s.connections.map RelayTask.channel).Perm (spawned record)
  few : s.connections.length ≤ maxActiveConnections

variable {remote : Option RemoteEndpoint}

/-- The record of a session that goes on. -/
theorem recorded_run {r : Remote} {past : List RemoteEvent} (h : Remote.Recorded remote r past)
    (inputs : List RemoteInput) :
    Remote.Recorded remote (runState Remote.step r inputs)
      (past ++ answers Remote.step r inputs) := by
  induction inputs generalizing r past with
  | nil =>
      rw [answers, trace_nil, List.flatMap_nil, List.append_nil]
      exact h
  | cons input inputs ih =>
      rw [answers_cons, ← List.append_assoc]
      exact ih (h.step input)

theorem Recorded.windowed (h : Recorded remote s record) (hf : Follows s inputs events s') :
    Remote.Recorded remote s'.session (sessionEvents (record ++ events)) := by
  rw [sessionEvents_append, hf.session, hf.events]
  exact recorded_run h.window inputs

/-- Steps that leave the channels where they are. -/
theorem Recorded.kept (h : Recorded remote s record) (hf : Follows s inputs events s')
    (hkept : Kept s s') (hunheard : Unheard events) (hroom : Room s'.session s.queue.length)
    (hnone : acceptedOpenings events = []) : Recorded remote s' (record ++ events) where
  window := h.windowed hf
  room := by rw [hkept.queue]; exact hroom
  accepted := by rw [acceptedOpenings_append, hnone, List.append_nil, h.accepted, hkept.handed]
  handed := by rw [handedOn_append, hunheard.handedOn, List.append_nil, h.handed, hkept.handed]
  order := by
    rw [spawned_append, handedOn_append, hunheard.spawned, hunheard.handedOn, List.append_nil,
      List.append_nil, hkept.queue, h.order]
  tasks := by
    rw [joined_append, spawned_append, hunheard.joined, hunheard.spawned, List.append_nil,
      List.append_nil, hkept.connections]
    exact h.tasks
  few := by rw [hkept.connections]; exact h.few

theorem Recorded.quiet (h : Recorded remote s record) (hf : Follows s inputs events s')
    (hquiet : Quiet inputs) (hkept : Kept s s') (hunheard : Unheard events) :
    Recorded remote s' (record ++ events) := by
  obtain ⟨hroom, hnone⟩ := room_of_quiet h.room hquiet
  rw [← hf.session] at hroom
  exact h.kept hf hkept hunheard hroom (acceptedOpenings_of_quiet hf.events hnone)

/-- A channel is handed on where the handler has accepted one. -/
theorem acceptedOpenings_reply (haccepting : s.Accepting)
    (hevents : sessionEvents events = answers Remote.step s.session [.reply]) :
    (acceptedOpenings events).length = 1 := by
  obtain ⟨opening, hopening, hok⟩ := haccepting
  unfold acceptedOpenings
  rw [hevents]
  simp [answers, trace, Remote.step, hopening, Remote.reply, hok]

theorem acceptedOpenings_declined (hdeclined : ¬ s.Accepting)
    (hevents : sessionEvents events = answers Remote.step s.session [.reply]) :
    acceptedOpenings events = [] := by
  unfold acceptedOpenings
  rw [hevents]
  cases hopening : s.session.opening with
  | none => simp [answers, trace, Remote.step, hopening]
  | some opening =>
      have hverdict : opening.verdict ≠ .ok () := fun hok => hdeclined ⟨opening, hopening, hok⟩
      simp [answers, trace, Remote.step, hopening, Remote.reply, hverdict]

/-- A task that is joined leaves the others. -/
theorem perm_eraseIdx {place : ℕ} {task : RelayTask} (hplace : s.connections[place]? = some task)
    (htasks : (joined record ++ s.connections.map RelayTask.channel).Perm (spawned record)) :
    (joined record ++ [task.channel] ++
      (s.connections.eraseIdx place).map RelayTask.channel).Perm (spawned record) := by
  obtain ⟨hlt, hget⟩ := List.getElem?_eq_some_iff.1 hplace
  have hsplit : s.connections.Perm (task :: s.connections.eraseIdx place) := by
    rw [← hget]
    exact (List.getElem_cons_eraseIdx_perm hlt).symm
  have hchannels := (hsplit.map RelayTask.channel).append_left (joined record)
  rw [List.append_assoc]
  exact hchannels.symm.trans htasks

/-- A task keeps its channel. -/
theorem channel_advance (task : RelayTask) (event : RelayTaskEvent) :
    (s.advance task event).1.channel = task.channel := by
  unfold advance
  split
  · split
    · rfl
    · split <;> rfl
  · split
    · dsimp only
      split <;> rfl
    · rfl
  · rfl

/-- A task leaves. -/
theorem Recorded.left (h : Recorded remote s record) {place : ℕ} {task : RelayTask}
    (hf : Follows s [] [.joined task.channel] s') (hplace : s.connections[place]? = some task)
    (hqueue : s'.queue = s.queue) (hhanded : s'.handed = s.handed)
    (hconnections : s'.connections = s.connections.eraseIdx place) :
    Recorded remote s' (record ++ [.joined task.channel]) where
  window := h.windowed hf
  room := by rw [hf.session, hqueue]; exact h.room
  accepted := by
    rw [acceptedOpenings_append, List.length_append, h.accepted, hhanded]
    rfl
  handed := by
    rw [handedOn_append, h.handed, hhanded]
    exact List.append_nil _
  order := by
    rw [spawned_append, handedOn_append, hqueue]
    exact (congrArg₂ (· ++ ·) (List.append_nil _) rfl).trans
      (h.order.trans (List.append_nil _).symm)
  tasks := by
    rw [joined_append, spawned_append, hconnections]
    exact (perm_eraseIdx hplace h.tasks).trans (List.Perm.of_eq (List.append_nil _).symm)
  few := by
    rw [hconnections]
    exact (List.length_eraseIdx_le _ _).trans h.few

/-- **Every step keeps the channels on their way.** -/
theorem Recorded.step (h : Recorded remote s record) (input : RemoteWorkerInput) :
    Recorded remote (s.step input).2 (record ++ (s.step input).1) := by
  obtain ⟨inputs, hf, hchange⟩ := changes_step (s := s) input
  generalize (s.step input).1 = events at hf hchange ⊢
  generalize (s.step input).2 = s' at hf hchange ⊢
  cases hchange with
  | aside hquiet hkept hcounters hunheard => exact h.quiet hf hquiet hkept hunheard
  | cancelled hquiet hkept hcounters hunheard => exact h.quiet hf hquiet hkept hunheard
  | declined hdeclined hkept hcounters hunheard =>
      refine h.kept hf hkept hunheard ?_ (acceptedOpenings_declined hdeclined hf.events)
      rw [hf.session]
      exact h.room.declined hdeclined
  | handedOn haccepting hqueue hhanded hconnections hcounters hnew hspawned hjoined =>
      obtain ⟨opening, hopening, hok⟩ := haccepting
      have hone := acceptedOpenings_reply ⟨opening, hopening, hok⟩ hf.events
      exact {
        window := h.windowed hf
        room := by
          rw [hf.session, hqueue, List.length_append]
          exact h.room.reply hopening hok
        accepted := by rw [acceptedOpenings_append, List.length_append, h.accepted, hone, hhanded]
        handed := by rw [handedOn_append, hnew, h.handed, hhanded, List.range_succ]
        order := by
          rw [spawned_append, hspawned, List.append_nil, handedOn_append, hnew, hqueue,
            ← List.append_assoc, h.order]
        tasks := by
          rw [joined_append, spawned_append, hjoined, hspawned, List.append_nil, List.append_nil,
            hconnections]
          exact h.tasks
        few := by rw [hconnections]; exact h.few }
  | spawned channel queue hqueue hqueue' hhanded hroom hconnections hcounters hnew hspawned hjoined =>
      have hnone : ∀ opening, RemoteEvent.answered opening ∉
          answers Remote.step s.session [.receive] := fun _ => List.not_mem_nil
      have hlength : s.queue.length = queue.length + 1 := by rw [hqueue, List.length_cons]
      exact {
        window := h.windowed hf
        room := by
          rw [hf.session, hqueue']
          have hbefore := h.room
          rw [hlength] at hbefore
          exact hbefore.receive
        accepted := by
          rw [acceptedOpenings_append, acceptedOpenings_of_quiet hf.events hnone, List.append_nil,
            h.accepted, hhanded]
        handed := by rw [handedOn_append, hnew, List.append_nil, h.handed, hhanded]
        order := by
          rw [spawned_append, hspawned, handedOn_append, hnew, List.append_nil, hqueue',
            List.append_assoc, List.singleton_append, ← hqueue, h.order]
        tasks := by
          rw [joined_append, spawned_append, hjoined, hspawned, List.append_nil, hconnections,
            List.map_append, ← List.append_assoc]
          exact h.tasks.append_right _
        few := by
          rw [hconnections, List.length_append, List.length_singleton]
          exact hroom }
  | advanced place task event hplace hqueue hhanded hconnections hcounters =>
      have hchannel : (s.advance task event).1.channel = task.channel := channel_advance task event
      have hplaces : s'.connections.map RelayTask.channel =
          s.connections.map RelayTask.channel := by
        have hentry : (s.connections.map RelayTask.channel)[place]? = some task.channel := by
          rw [List.getElem?_map, hplace, Option.map_some]
        obtain ⟨hlt, hget⟩ := List.getElem?_eq_some_iff.1 hentry
        rw [hconnections, List.map_set, hchannel, ← hget, List.set_getElem_self]
      exact {
        window := h.windowed hf
        room := by
          rw [hf.session, hqueue]
          exact h.room
        accepted := by rw [List.append_nil, h.accepted, hhanded]
        handed := by rw [List.append_nil, h.handed, hhanded]
        order := by rw [List.append_nil, hqueue, h.order]
        tasks := by rw [List.append_nil, hplaces]; exact h.tasks
        few := by rw [hconnections, List.length_set]; exact h.few }
  | joined place task hplace hrelay hqueue hhanded hconnections hcounters =>
      exact h.left hf hplace hqueue hhanded hconnections
  | aborted place task relay hplace hrelay hqueue hhanded hconnections hcounters =>
      exact h.left hf hplace hqueue hhanded hconnections

end RemoteForwardWorker

end TunnelWarden

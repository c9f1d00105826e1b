import TunnelWarden.Forwarding.Stage

/-!
# The answers to a worker's connections

What the worker and its connections say to each other, in order: a
connection makes one request, the requests are answered first come first
served, and a connection gets the answer to its own (`AnsweredOnce`).
The state of a run fits what was said before it (`Recorded`).
-/

namespace TunnelWarden

open Ssh Socks5

variable {record : List LocalForwardEvent} {e : LocalForwardEvent}
variable {s s' : LocalForwardWorker} {task : ConnectionTask} {request : OpenRequest}

namespace LocalForwardWorker

/-! ## The properties -/

/-- The requests made so far. -/
def requested (record : List LocalForwardEvent) : List OpenRequest :=
  record.filterMap fun
    | .requested _ request => some request
    | _ => none

/-- The requests answered so far. -/
def answered (record : List LocalForwardEvent) : List OpenRequest :=
  record.filterMap fun
    | .answered request _ => some request
    | _ => none

/-- The connections that have got an answer. -/
def receivers (record : List LocalForwardEvent) : List ℕ :=
  record.filterMap fun
    | .received number _ => some number
    | _ => none

/-- The connections whose tasks are not joined. -/
def numbers (s : LocalForwardWorker) : List ℕ := s.connections.map ConnectionTask.number

/-- **The answers.** A connection makes one request at most. They are
answered in the order they were made in, each at most once, and what a
connection gets is the answer to its own request, and that once. -/
structure AnsweredOnce (record : List LocalForwardEvent) : Prop where
  requester : ∀ number request, .requested number request ∈ record → request.reply = number
  requests : ((requested record).map OpenRequest.reply).Nodup
  order : answered record <+: requested record
  answers : ((answered record).map OpenRequest.reply).Nodup
  received : ∀ number result, .received number result ∈ record →
    ∃ request, request.reply = number ∧ .answered request result ∈ record
  receives : (receivers record).Nodup

/-! ## The record -/

theorem mem_answered : request ∈ answered record ↔ ∃ result, .answered request result ∈ record := by
  unfold answered
  rw [List.mem_filterMap]
  constructor
  · rintro ⟨e, he, heq⟩
    cases e with
    | requested number request' => cases heq
    | answered request' result =>
        obtain rfl := Option.some.inj heq
        exact ⟨result, he⟩
    | received number result => cases heq
  · rintro ⟨result, he⟩
    exact ⟨_, he, rfl⟩

theorem mem_receivers {number : ℕ} :
    number ∈ receivers record ↔ ∃ result, .received number result ∈ record := by
  unfold receivers
  rw [List.mem_filterMap]
  constructor
  · rintro ⟨e, he, heq⟩
    cases e with
    | requested number' request => cases heq
    | answered request result => cases heq
    | received number' result =>
        obtain rfl := Option.some.inj heq
        exact ⟨result, he⟩
  · rintro ⟨result, he⟩
    exact ⟨_, he, rfl⟩

theorem requested_concat : requested (record ++ [e]) = requested record ++ requested [e] :=
  List.filterMap_append

theorem answered_concat : answered (record ++ [e]) = answered record ++ answered [e] :=
  List.filterMap_append

theorem receivers_concat : receivers (record ++ [e]) = receivers record ++ receivers [e] :=
  List.filterMap_append

theorem requested_concat_of (h : requested [e] = []) :
    requested (record ++ [e]) = requested record := by
  rw [requested_concat, h, List.append_nil]

theorem answered_concat_of (h : answered [e] = []) :
    answered (record ++ [e]) = answered record := by
  rw [answered_concat, h, List.append_nil]

theorem receivers_concat_of (h : receivers [e] = []) :
    receivers (record ++ [e]) = receivers record := by
  rw [receivers_concat, h, List.append_nil]

end LocalForwardWorker

open LocalForwardWorker

/-- What the record says of a task that is not joined. -/
structure ConnectionTask.Recorded (task : ConnectionTask) (record : List LocalForwardEvent) :
    Prop where
  early : task.handler.stage = .early → ∀ request ∈ requested record, request.reply ≠ task.number
  waiting : ∀ host port, task.handler.stage = .waiting host port →
    ⟨host, port, task.originator, task.number⟩ ∈ requested record
  sent : ∀ outcome, task.reply = .sent outcome → ∃ request, request.reply = task.number ∧
    .answered request (answerOf request.destinationHost request.destinationPort outcome) ∈ record
  late : task.number ∈ receivers record → task.handler.stage = .late

/-- An event that is not the task's own changes nothing for it. -/
theorem ConnectionTask.Recorded.concat (h : task.Recorded record)
    (hrequested : ∀ request ∈ requested [e], request.reply ≠ task.number)
    (hreceived : task.number ∉ receivers [e]) : task.Recorded (record ++ [e]) where
  early hearly request hmem := by
    rw [requested_concat] at hmem
    rcases List.mem_append.1 hmem with hmem | hmem
    · exact h.early hearly request hmem
    · exact hrequested request hmem
  waiting host port hwaiting := by
    rw [requested_concat]
    exact List.mem_append_left _ (h.waiting host port hwaiting)
  sent outcome hsent := by
    obtain ⟨request, hreply, hmem⟩ := h.sent outcome hsent
    exact ⟨request, hreply, List.mem_append_left _ hmem⟩
  late hmem := by
    rw [receivers_concat] at hmem
    rcases List.mem_append.1 hmem with hmem | hmem
    · exact h.late hmem
    · exact (hreceived hmem).elim

/-- A reply that comes to a task. -/
theorem ConnectionTask.Recorded.withReply (h : task.Recorded record) {reply : Reply}
    (hsent : ∀ outcome, reply = .sent outcome → ∃ request, request.reply = task.number ∧
      .answered request (answerOf request.destinationHost request.destinationPort outcome)
        ∈ record) : ConnectionTask.Recorded { task with reply } record :=
  ⟨h.early, h.waiting, hsent, h.late⟩

/-- A connection that goes on without a request. -/
theorem ConnectionTask.Recorded.step (h : task.Recorded record) {event : ConnectionEvent}
    (hnone : task.handler.requests event = none) :
    ConnectionTask.Recorded { task with handler := (task.handler.step event).2 } record where
  early hearly := h.early (Handler.early_of_step hearly)
  waiting host port hwaiting := by
    rcases Handler.waiting_of_step hwaiting with hbefore | hsome
    · exact h.waiting host port hbefore
    · rw [hnone] at hsome
      cases hsome
  sent := h.sent
  late hmem := Handler.late_step (h.late hmem)

namespace LocalForwardWorker

/-- The state and the record of a run. The requests that were made are
those answered, those pending and, after the return, those dropped. -/
structure Recorded (s : LocalForwardWorker) (record : List LocalForwardEvent) : Prop where
  requester : ∀ number request, .requested number request ∈ record → request.reply = number
  fifo : ∃ dropped, requested record = answered record ++ (s.pending ++ dropped) ∧
    (s.running = true → dropped = [])
  once : ((requested record).map OpenRequest.reply).Nodup
  made : ∀ request ∈ requested record, request.reply < s.accepted
  tasks : ∀ task ∈ s.connections, task.Recorded record
  received : ∀ number result, .received number result ∈ record →
    ∃ request, request.reply = number ∧ .answered request result ∈ record
  receives : (receivers record).Nodup

/-! ## The steps of the model -/

theorem pending_of_served (hserved : s.served = []) : s.pending = s.queue := by
  rw [pending, hserved, List.nil_append]

theorem served_of_polling {branch : Branch} (hcontrol : s.control = .polling branch) :
    s.served = [] := by
  rw [served, hcontrol]

theorem running_of_polling {branch : Branch} (hcontrol : s.control = .polling branch) :
    s.running = true := by
  rw [running, hcontrol]

/-- A task of these connections is as it was, or has its reply. -/
theorem mem_setReply {numbers : List ℕ} {reply : Reply}
    (hmem : task ∈ (s.setReply numbers reply).connections) :
    ∃ old ∈ s.connections, task = old ∨ old.number ∈ numbers ∧ task = { old with reply } := by
  obtain ⟨old, hold, rfl⟩ := List.mem_map.1 hmem
  refine ⟨old, hold, ?_⟩
  split
  · rename_i hnumber
    exact .inr ⟨hnumber, rfl⟩
  · exact .inl rfl

theorem mem_replace {next : ConnectionTask} (hmem : task ∈ (s.replace next).connections) :
    task ∈ s.connections ∧ task.number ≠ next.number ∨ task = next := by
  obtain ⟨old, hold, rfl⟩ := List.mem_map.1 hmem
  split
  · exact .inr rfl
  · rename_i hnumber
    exact .inl ⟨hold, hnumber⟩

@[simp] theorem numbers_setReply {numbers : List ℕ} {reply : Reply} :
    (s.setReply numbers reply).numbers = s.numbers := by
  unfold LocalForwardWorker.numbers setReply
  rw [List.map_map]
  refine List.map_congr_left fun task _ => ?_
  dsimp only [Function.comp_apply]
  split
  · rfl
  · rfl

@[simp] theorem numbers_replace {next : ConnectionTask} :
    (s.replace next).numbers = s.numbers := by
  unfold LocalForwardWorker.numbers replace
  rw [List.map_map]
  refine List.map_congr_left fun task _ => ?_
  dsimp only [Function.comp_apply]
  split
  · rename_i hnumber
    exact hnumber.symm
  · rfl

theorem length_setReply {numbers : List ℕ} {reply : Reply} :
    (s.setReply numbers reply).connections.length = s.connections.length :=
  List.length_map _

theorem length_replace {next : ConnectionTask} :
    (s.replace next).connections.length = s.connections.length :=
  List.length_map _

/-- **What a step of a connection does** beyond its task: it queues a
request, or has an answer, or neither. -/
theorem advance_cases (s : LocalForwardWorker) (task : ConnectionTask) (event : ConnectionEvent) :
    let s' := s.replace { task with handler := (task.handler.step event).2 }
    (∃ host port, task.handler.requests event = some (host, port) ∧
      s.advance task event =
        ([.requested task.number ⟨host, port, task.originator, task.number⟩],
          { s' with queue := s.queue ++ [⟨host, port, task.originator, task.number⟩] })) ∨
    task.handler.requests event = none ∧
      ((∃ result, task.handler.receives event = some result ∧
        s.advance task event = ([.received task.number result], s')) ∨
      task.handler.receives event = none ∧ s.advance task event = ([], s')) := by
  intro s'
  unfold advance
  split
  · rename_i host port hrequests
    exact .inl ⟨host, port, hrequests, rfl⟩
  · rename_i hrequests
    refine .inr ⟨hrequests, ?_⟩
    split
    · rename_i result hreceives
      exact .inl ⟨result, hreceives, rfl⟩
    · rename_i hreceives
      exact .inr ⟨hreceives, rfl⟩

/-! ## The record is kept -/

/-- The requests answered so far were made. -/
theorem Recorded.order (h : Recorded s record) : answered record <+: requested record := by
  obtain ⟨dropped, hfifo, -⟩ := h.fifo
  exact ⟨_, hfifo.symm⟩

theorem Recorded.pending_sublist (h : Recorded s record) :
    s.pending.Sublist (requested record) := by
  obtain ⟨dropped, hfifo, -⟩ := h.fifo
  rw [hfifo]
  exact (List.sublist_append_left _ _).trans (List.sublist_append_right _ _)

theorem Recorded.nodup_pending (h : Recorded s record) :
    (s.pending.map OpenRequest.reply).Nodup :=
  h.once.sublist (h.pending_sublist.map _)

/-- A step that makes no request and answers none. -/
theorem Recorded.moved (h : Recorded s record)
    (htasks : ∀ task ∈ s'.connections, task.Recorded record) (hpending : s'.pending = s.pending)
    (haccepted : s.accepted ≤ s'.accepted) (hrunning : s'.running = true → s.running = true) :
    Recorded s' record where
  requester := h.requester
  fifo := by
    obtain ⟨dropped, hfifo, hdropped⟩ := h.fifo
    exact ⟨dropped, by rw [hpending, hfifo], fun hs' => hdropped (hrunning hs')⟩
  once := h.once
  made request hmem := (h.made request hmem).trans_le haccepted
  tasks := htasks
  received := h.received
  receives := h.receives

theorem Recorded.requester_concat (h : Recorded s record)
    (he : ∀ number request, e = .requested number request → request.reply = number) :
    ∀ number request, .requested number request ∈ record ++ [e] → request.reply = number := by
  intro number request hmem
  rcases List.mem_append.1 hmem with hmem | hmem
  · exact h.requester number request hmem
  · exact he number request (List.mem_singleton.1 hmem).symm

theorem Recorded.received_concat (h : Recorded s record)
    (he : ∀ number result, e = .received number result →
      ∃ request, request.reply = number ∧ .answered request result ∈ record) :
    ∀ number result, .received number result ∈ record ++ [e] →
      ∃ request, request.reply = number ∧ .answered request result ∈ record ++ [e] := by
  intro number result hmem
  have hanswer : ∃ request, request.reply = number ∧ .answered request result ∈ record := by
    rcases List.mem_append.1 hmem with hmem | hmem
    · exact h.received number result hmem
    · exact he number result (List.mem_singleton.1 hmem).symm
  obtain ⟨request, hreply, hanswered⟩ := hanswer
  exact ⟨request, hreply, List.mem_append_left _ hanswered⟩

theorem Recorded.finish (h : Recorded s record) (result : Except LocalForwardError Unit) :
    Recorded (s.finish result) record where
  requester := h.requester
  fifo := by
    obtain ⟨dropped, hfifo, -⟩ := h.fifo
    exact ⟨s.pending ++ dropped, hfifo, nofun⟩
  once := h.once
  made := h.made
  tasks task hmem := by
    obtain ⟨old, hold, rfl | ⟨-, rfl⟩⟩ := mem_setReply hmem
    · exact h.tasks task hold
    · exact (h.tasks old hold).withReply nofun
  received := h.received
  receives := h.receives

/-- A new connection has not asked, and nobody was answered for it. -/
theorem Recorded.new (h : Recorded s record) (originator : SocketAddr) (client : List UInt8) :
    ConnectionTask.Recorded
      { number := s.accepted, originator, handler := Handler.start s.mode client } record where
  early _ request hmem := (h.made request hmem).ne
  waiting host port hwaiting := by
    rw [(Handler.stage_start s.mode client).1] at hwaiting
    cases hwaiting
  sent := nofun
  late hmem := by
    obtain ⟨result, hmem⟩ := mem_receivers.1 hmem
    obtain ⟨request, hreply, hanswered⟩ := h.received _ _ hmem
    have hrequest : request ∈ answered record := mem_answered.2 ⟨result, hanswered⟩
    have hlt := h.made request (h.order.subset hrequest)
    exact absurd hreply hlt.ne

theorem Recorded.accept (h : Recorded s record) (hcontrol : s.control = .polling .accept)
    (result : Except IoError (SocketAddr × List UInt8)) : Recorded (s.accept result) record := by
  unfold LocalForwardWorker.accept
  split
  · exact h.finish _
  · rename_i originator client
    refine h.moved ?_ (pending_of_served (served_of_polling hcontrol)).symm (Nat.le_succ _)
      fun _ => running_of_polling hcontrol
    intro task hmem
    rcases List.mem_append.1 hmem with hmem | hmem
    · exact h.tasks task hmem
    · rw [List.mem_singleton.1 hmem]
      exact h.new originator client

theorem Recorded.poll (h : Recorded s record) {branch : Branch}
    (hcontrol : s.control = .polling branch) : Recorded (s.poll branch) record := by
  unfold LocalForwardWorker.poll
  split
  · exact h.finish _
  · exact h.moved h.tasks (pending_of_served (served_of_polling hcontrol)).symm (Nat.le_refl _)
      fun _ => running_of_polling hcontrol

theorem Recorded.sessionTick (h : Recorded s record) (hcontrol : s.control = .polling .sessionTick)
    (closed : Bool) : Recorded (s.sessionTick closed) record := by
  unfold LocalForwardWorker.sessionTick
  split
  · exact h.finish _
  · exact h.moved h.tasks (pending_of_served (served_of_polling hcontrol)).symm (Nat.le_refl _)
      fun _ => running_of_polling hcontrol

theorem Recorded.pinged (h : Recorded s record) (hcontrol : s.control = .pinging)
    (result : Except SshChainError (List Duration)) : Recorded (s.pinged result) record := by
  have hserved : s.served = [] := by rw [served, hcontrol]
  have hrunning : s.running = true := by rw [running, hcontrol]
  unfold LocalForwardWorker.pinged
  split
  · exact h.moved h.tasks (pending_of_served hserved).symm (Nat.le_refl _) fun _ => hrunning
  · exact h.finish _

theorem Recorded.join (h : Recorded s record) (hcontrol : s.control = .polling .join)
    (number : ℕ) : Recorded (s.join number) record := by
  unfold LocalForwardWorker.join
  split
  · exact h
  · split
    · exact h.moved (fun task hmem => h.tasks task (List.mem_of_mem_eraseP hmem))
        (pending_of_served (served_of_polling hcontrol)).symm (Nat.le_refl _)
        fun _ => running_of_polling hcontrol
    · exact h

/-- A request that is taken from the queue is still pending. -/
theorem pending_receive (hcontrol : s.control = .polling .receive) :
    s.receive.pending = s.pending := by
  rw [pending_of_served (served_of_polling hcontrol)]
  unfold receive
  split
  · exact pending_of_served (served_of_polling hcontrol)
  · rename_i request queue hqueue
    exact hqueue.symm

theorem Recorded.receive (h : Recorded s record) (hcontrol : s.control = .polling .receive) :
    Recorded s.receive record := by
  have htasks : s.receive.connections = s.connections ∧ s.receive.accepted = s.accepted := by
    unfold LocalForwardWorker.receive
    split
    · exact ⟨rfl, rfl⟩
    · exact ⟨rfl, rfl⟩
  refine h.moved (fun task hmem => h.tasks task (htasks.1 ▸ hmem)) (pending_receive hcontrol)
    htasks.2.ge fun _ => running_of_polling hcontrol

/-- **An answer** is to the request that was made first of those
pending. -/
theorem Recorded.answer (h : Recorded s record) (hcontrol : s.control = .serving request)
    (outcome : OpenOutcome) :
    Recorded (s.answer request outcome).2 (record ++ (s.answer request outcome).1) := by
  have hpending : s.pending = request :: s.queue := by
    rw [pending, served, hcontrol]
    rfl
  have hrunning : s.running = true := by rw [running, hcontrol]
  obtain ⟨dropped, hfifo, hdropped⟩ := h.fifo
  unfold LocalForwardWorker.answer
  exact {
    requester := h.requester_concat fun _ _ heq => by cases heq
    fifo := by
      refine ⟨dropped, ?_, fun _ => hdropped hrunning⟩
      rw [requested_concat_of rfl, hfifo, hpending, answered_concat]
      simp [answered, again, setReply, pending, served]
    once := by
      rw [requested_concat_of rfl]
      exact h.once
    made := by
      rw [requested_concat_of rfl]
      exact h.made
    tasks := by
      intro task hmem
      obtain ⟨old, hold, hcases⟩ := mem_setReply hmem
      have hrecorded := (h.tasks old hold).concat (e := .answered request
        (answerOf request.destinationHost request.destinationPort outcome))
        (fun _ hmem => (List.not_mem_nil hmem).elim) List.not_mem_nil
      rcases hcases with rfl | ⟨hnumber, rfl⟩
      · exact hrecorded
      · refine hrecorded.withReply fun outcome' hsent => ?_
        obtain rfl := Reply.sent.inj hsent
        exact ⟨request, (List.mem_singleton.1 hnumber).symm,
          List.mem_append_right _ List.mem_cons_self⟩
    received := h.received_concat fun _ _ heq => by cases heq
    receives := by
      rw [receivers_concat_of rfl]
      exact h.receives }

/-- What reaches a connection was there for it. -/
structure Delivered (s : LocalForwardWorker) (task : ConnectionTask) (event : ConnectionEvent) :
    Prop where
  taken : event = .queued true → s.running = true
  sent : ∀ outcome, event = .answer outcome → task.reply = .sent outcome
  dropped : event = .hungUp → task.reply = .dropped
  token : event = .cancel → s.cancelled = true ∨ s.running = false

theorem delivered_of_eq_some {event event' : ConnectionEvent}
    (h : s.delivered task event = some event') : Delivered s task event' := by
  unfold delivered at h
  split at h
  · split at h
    · rename_i hrunning
      obtain rfl := Option.some.inj h
      exact ⟨fun _ => hrunning.1, nofun, nofun, nofun⟩
    · cases h
  · split at h
    · cases h
    · obtain rfl := Option.some.inj h
      exact ⟨nofun, nofun, nofun, nofun⟩
  · split at h
    · rename_i hreply
      obtain rfl := Option.some.inj h
      refine ⟨nofun, fun outcome heq => ?_, nofun, nofun⟩
      obtain rfl := ConnectionEvent.answer.inj heq
      exact hreply
    · cases h
  · split at h
    · rename_i hreply
      obtain rfl := Option.some.inj h
      exact ⟨nofun, nofun, fun _ => hreply, nofun⟩
    · cases h
  · split at h
    · rename_i htoken
      obtain rfl := Option.some.inj h
      rw [Bool.not_eq_true] at htoken
      exact ⟨nofun, nofun, nofun, fun _ => htoken⟩
    · cases h
  · rename_i hqueued hclosed hanswer hhungUp hcancel
    obtain rfl := Option.some.inj h
    exact ⟨fun heq => (hqueued heq).elim, fun outcome heq => (hanswer outcome heq).elim,
      fun heq => (hhungUp heq).elim, fun heq => (hcancel heq).elim⟩

/-- **An answer that comes to a connection** is to its own request. -/
theorem Recorded.receiveAnswer (h : Recorded s record) (htask : task ∈ s.connections)
    {event : ConnectionEvent} {result : Except SshConnectError Unit}
    (hdelivered : Delivered s task event) (hreceives : task.handler.receives event = some result) :
    ∃ request, request.reply = task.number ∧ .answered request result ∈ record := by
  obtain ⟨host, port, outcome, hcontrol, rfl, -, rfl⟩ := Handler.receives_cases hreceives
  have hstage : task.handler.stage = .waiting host port := by rw [Handler.stage, hcontrol]
  have hown := (h.tasks task htask).waiting host port hstage
  obtain ⟨request, hreply, hanswered⟩ :=
    (h.tasks task htask).sent outcome (hdelivered.sent outcome rfl)
  have hrequest : request ∈ requested record :=
    h.order.subset (mem_answered.2 ⟨_, hanswered⟩)
  -- nobody else has made a request with this reply
  obtain rfl := List.inj_on_of_nodup_map h.once hrequest hown hreply
  exact ⟨_, rfl, hanswered⟩

/-- **A request is new**: its connection has made none before. -/
theorem Recorded.asked (h : Recorded s record) (htask : task ∈ s.connections)
    (hlt : task.number < s.accepted) (hrunning : s.running = true) {event : ConnectionEvent}
    {host : String} {port : ℕ} (hrequests : task.handler.requests event = some (host, port)) :
    let next : ConnectionTask := { task with handler := (task.handler.step event).2 }
    let request := OpenRequest.mk host port task.originator task.number
    Recorded { s.replace next with queue := s.queue ++ [request] }
      (record ++ [.requested task.number request]) := by
  intro next request
  obtain ⟨hbefore, hafter⟩ := Handler.stage_step_of_requests hrequests
  obtain ⟨dropped, hfifo, hdropped⟩ := h.fifo
  obtain rfl := hdropped hrunning
  have hrequested : requested (record ++ [.requested task.number request]) =
      requested record ++ [request] := requested_concat
  have hnew : ∀ other ∈ requested record, other.reply ≠ task.number :=
    (h.tasks task htask).early hbefore
  exact {
    requester := h.requester_concat fun number request' heq => by
      obtain ⟨rfl, rfl⟩ := LocalForwardEvent.requested.inj heq
      rfl
    fifo := by
      refine ⟨[], ?_, fun _ => rfl⟩
      rw [hrequested, hfifo, answered_concat_of rfl]
      simp [pending, served, replace]
    once := by
      rw [hrequested, List.map_append, List.nodup_append]
      refine ⟨h.once, List.nodup_singleton _, ?_⟩
      intro number hnumber number' hnumber'
      obtain ⟨other, hother, rfl⟩ := List.mem_map.1 hnumber
      rw [List.mem_singleton.1 hnumber']
      exact hnew other hother
    made := by
      intro other hmem
      rw [hrequested] at hmem
      rcases List.mem_append.1 hmem with hmem | hmem
      · exact h.made other hmem
      · rw [List.mem_singleton.1 hmem]
        exact hlt
    tasks := by
      intro other hmem
      rcases mem_replace hmem with ⟨hother, hne⟩ | rfl
      · refine (h.tasks other hother).concat (fun request' hrequest' => ?_) List.not_mem_nil
        rw [List.mem_singleton.1 hrequest']
        exact hne.symm
      · refine ⟨fun hearly => ?_, fun host' port' hwaiting => ?_, fun outcome hsent => ?_,
          fun hmem => ?_⟩
        · rw [hafter] at hearly
          cases hearly
        · rw [hafter] at hwaiting
          obtain ⟨rfl, rfl⟩ := Handler.Stage.waiting.inj hwaiting
          rw [hrequested]
          exact List.mem_append_right _ List.mem_cons_self
        · obtain ⟨request', hreply, hanswered⟩ := (h.tasks task htask).sent outcome hsent
          exact ⟨request', hreply, List.mem_append_left _ hanswered⟩
        · rw [receivers_concat_of rfl] at hmem
          have hlate := (h.tasks task htask).late hmem
          rw [hbefore] at hlate
          cases hlate
    received := h.received_concat fun _ _ heq => by cases heq
    receives := by
      rw [receivers_concat_of rfl]
      exact h.receives }

theorem Recorded.replace (h : Recorded s record) {next : ConnectionTask}
    (hnext : next.Recorded record) : Recorded (s.replace next) record := by
  refine h.moved (fun other hmem => ?_) rfl (Nat.le_refl _) id
  rcases mem_replace hmem with ⟨hother, -⟩ | rfl
  · exact h.tasks other hother
  · exact hnext

/-- **An answer is received once**: its connection is past the wait
then. -/
theorem Recorded.got (h : Recorded s record) (htask : task ∈ s.connections)
    {event : ConnectionEvent} {result : Except SshConnectError Unit}
    (hdelivered : Delivered s task event) (hnone : task.handler.requests event = none)
    (hreceives : task.handler.receives event = some result) :
    Recorded (s.replace { task with handler := (task.handler.step event).2 })
      (record ++ [.received task.number result]) := by
  obtain ⟨⟨host, port, hbefore⟩, hafter⟩ := Handler.stage_step_of_receives hreceives
  have hnext := (h.tasks task htask).step hnone
  have hkept := h.replace hnext
  have hnew : task.number ∉ receivers record := by
    intro hmem
    have hlate := (h.tasks task htask).late hmem
    rw [hbefore] at hlate
    cases hlate
  exact {
    requester := h.requester_concat fun _ _ heq => by cases heq
    fifo := by
      rw [requested_concat_of rfl, answered_concat_of rfl]
      exact hkept.fifo
    once := by
      rw [requested_concat_of rfl]
      exact h.once
    made := by
      rw [requested_concat_of rfl]
      exact h.made
    tasks := by
      intro other hmem
      rcases mem_replace hmem with ⟨hother, hne⟩ | rfl
      · exact (h.tasks other hother).concat (fun _ hmem => (List.not_mem_nil hmem).elim)
          fun hmem => hne (List.mem_singleton.1 hmem)
      · refine ⟨fun hearly => ?_, fun host' port' hwaiting => ?_, fun outcome hsent => ?_,
          fun _ => hafter⟩
        · rw [hafter] at hearly
          cases hearly
        · rw [hafter] at hwaiting
          cases hwaiting
        · obtain ⟨request', hreply, hanswered⟩ := hnext.sent outcome hsent
          exact ⟨request', hreply, List.mem_append_left _ hanswered⟩
    received := h.received_concat fun number result' heq => by
      obtain ⟨rfl, rfl⟩ := LocalForwardEvent.received.inj heq
      exact h.receiveAnswer htask hdelivered hreceives
    receives := by
      rw [receivers_concat, show receivers [.received task.number result] = [task.number] from rfl]
      rw [List.nodup_append]
      refine ⟨h.receives, List.nodup_singleton _, fun number hnumber number' hnumber' heq => ?_⟩
      rw [heq, List.mem_singleton.1 hnumber'] at hnumber
      exact hnew hnumber }

/-- **A step of a connection.** -/
theorem Recorded.advance (h : Recorded s record) (htask : task ∈ s.connections)
    (hlt : task.number < s.accepted) {event : ConnectionEvent}
    (hdelivered : Delivered s task event) :
    Recorded (s.advance task event).2 (record ++ (s.advance task event).1) := by
  rcases advance_cases s task event with
    ⟨host, port, hrequests, heq⟩ | ⟨hnone, ⟨result, hreceives, heq⟩ | ⟨-, heq⟩⟩
  · rw [heq]
    have hevent := (Handler.control_of_requests hrequests).2.1
    exact h.asked htask hlt (hdelivered.taken hevent) hrequests
  · rw [heq]
    exact h.got htask hdelivered hnone hreceives
  · rw [heq, List.append_nil]
    exact h.replace ((h.tasks task htask).step hnone)

end LocalForwardWorker

end TunnelWarden

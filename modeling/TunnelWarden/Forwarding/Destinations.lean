import TunnelWarden.Forwarding.Requests

/-!
# Every client gets to where it asked for

A Local tunnel has one destination; a client of a Dynamic one names its
own in its SOCKS5 request. The channels are opened by the worker, one for
all its connections, and handed to them over queues. A connection gets
the channel to the destination of its own client all the same
(`no_crosstalk`).
-/

namespace TunnelWarden

open Ssh Socks5

/-- What a client asks for, by the mode and the bytes it sends. -/
def Asks (mode : ForwardMode) (client : List UInt8) (host : String) (port : ℕ) : Prop :=
  match mode with
  | .fixed destination => host = destination.host ∧ port = destination.port
  | .dynamic => ∃ request stream, readConnect ⟨client, []⟩ = (.ok request, stream) ∧
      host = request.destination.host ∧ port = request.destination.port

namespace Handler

variable {h : Handler} {event : ConnectionEvent}

/-- A connection is about to send what its client asks for. -/
structure Aims (h : Handler) : Prop where
  reading : h.control = .reading → h.mode = .dynamic
  sending : ∀ host port, h.control = .sending host port → Asks h.mode h.client host port

theorem aims_start (mode : ForwardMode) (client : List UInt8) : (start mode client).Aims := by
  unfold start
  split
  · refine ⟨nofun, fun host port hcontrol => ?_⟩
    obtain ⟨rfl, rfl⟩ := ConnectionControl.sending.inj hcontrol
    exact ⟨rfl, rfl⟩
  · exact ⟨fun _ => rfl, nofun⟩

theorem start_mode (mode : ForwardMode) (client : List UInt8) :
    (start mode client).mode = mode ∧ (start mode client).client = client := by
  unfold start
  split
  · exact ⟨rfl, rfl⟩
  · exact ⟨rfl, rfl⟩

/-- One that is past its request has nothing to send. -/
theorem aims_of_stage (hstage : h.stage ≠ .early) : h.Aims := by
  constructor
  · intro hcontrol
    exact absurd (by rw [stage, hcontrol]) hstage
  · intro host port hcontrol
    exact absurd (by rw [stage, hcontrol]) hstage

theorem aims_handshakeReturned (hmode : h.mode = .dynamic) : h.handshakeReturned.Aims := by
  unfold handshakeReturned
  split
  · rename_i request stream hparsed
    refine ⟨nofun, fun host port hcontrol => ?_⟩
    obtain ⟨rfl, rfl⟩ := ConnectionControl.sending.inj hcontrol
    show Asks h.mode h.client _ _
    rw [hmode]
    exact ⟨request, stream, hparsed, rfl, rfl⟩
  · exact ⟨nofun, nofun⟩

theorem Aims.advance (ha : h.Aims) (event : ConnectionEvent) : (h.advance event).Aims := by
  cases hcontrol : h.control with
  | reading =>
      unfold Handler.advance
      simp only [hcontrol]
      split
      · exact ⟨nofun, nofun⟩
      · split
        · exact aims_handshakeReturned (ha.reading hcontrol)
        · exact ⟨nofun, nofun⟩
        · exact ⟨nofun, nofun⟩
        · exact ha
  | sending host port =>
      unfold Handler.advance
      simp only [hcontrol]
      have hreturned : ∀ result, (h.channelReturned result).Aims := fun result =>
        aims_of_stage (by rw [stage_channelReturned]; nofun)
      split
      · exact hreturned _
      · split
        · exact ⟨nofun, nofun⟩
        · exact hreturned _
        · exact ha
  | awaiting host port =>
      have hnext : (h.advance event).stage ≠ .early := by
        rcases stage_advance_awaiting hcontrol with hstage | ⟨hstage, -⟩
        · rw [hstage]
          nofun
        · rw [hstage]
          nofun
      exact aims_of_stage hnext
  | _ =>
      have hlate : h.stage = .late := by rw [stage, hcontrol]
      exact aims_of_stage (by rw [stage_advance_late hlate]; nofun)

/-- **What a connection asks for never changes.** -/
theorem Aims.step (ha : h.Aims) (event : ConnectionEvent) : (h.step event).2.Aims := by
  unfold Handler.step
  split
  · exact ⟨ha.reading, ha.sending⟩
  · exact ha.advance _

end Handler

namespace LocalForwardWorker

/-- A step of a run. -/
abbrev WorkerStep := Step LocalForwardWorker LocalForwardInput (List LocalForwardEvent)

/-- The client a step accepts. -/
def newClient (x : WorkerStep) : Option (SocketAddr × List UInt8) :=
  match x.before.control, x.input with
  | .polling .accept, .accept (.ok client) =>
    if x.before.connections.length < maxActiveConnections then some client else none
  | _, _ => none

/-- The clients that were accepted, in order. -/
def clients (steps : List WorkerStep) : List (SocketAddr × List UInt8) := steps.filterMap newClient

variable {s s' : LocalForwardWorker} {task : ConnectionTask} {input : LocalForwardInput}

/-- The task has come about from one of these. -/
def Descends (s : LocalForwardWorker) (task : ConnectionTask) : Prop :=
  ∃ old ∈ s.connections, task.number = old.number ∧ task.originator = old.originator ∧
    (task.handler = old.handler ∨ ∃ event, task.handler = (old.handler.step event).2)

/-- The request is one of these tasks'. -/
def AskedBy (s : LocalForwardWorker) (request : OpenRequest) : Prop :=
  ∃ task ∈ s.connections, request.reply = task.number ∧ request.originator = task.originator ∧
    ∃ event, task.handler.requests event =
      some (request.destinationHost, request.destinationPort)

/-- A step that accepts nobody. -/
structure Follows (s : LocalForwardWorker) (record : List LocalForwardEvent)
    (s' : LocalForwardWorker) : Prop where
  mode : s'.mode = s.mode
  accepted : s'.accepted = s.accepted
  tasks : ∀ task ∈ s'.connections, s.Descends task
  requests : ∀ request ∈ requested record, s.AskedBy request

theorem descends_of_mem (hmem : task ∈ s.connections) : s.Descends task :=
  ⟨task, hmem, rfl, rfl, .inl rfl⟩

theorem descends_of_setReply {numbers : List ℕ} {reply : Reply}
    (hmem : task ∈ (s.setReply numbers reply).connections) : s.Descends task := by
  obtain ⟨old, hold, rfl | ⟨-, rfl⟩⟩ := mem_setReply hmem
  · exact descends_of_mem hold
  · exact ⟨old, hold, rfl, rfl, .inl rfl⟩

theorem follows_same (hmode : s'.mode = s.mode) (haccepted : s'.accepted = s.accepted)
    (hconnections : s'.connections = s.connections) : Follows s [] s' :=
  ⟨hmode, haccepted, fun _ hmem => descends_of_mem (hconnections ▸ hmem),
    fun _ hmem => by cases hmem⟩

theorem follows_finish (result : Except LocalForwardError Unit) : Follows s [] (s.finish result) :=
  ⟨rfl, rfl, fun _ hmem => descends_of_setReply hmem, fun _ hmem => by cases hmem⟩

theorem follows_join (number : ℕ) : Follows s [] (s.join number) := by
  unfold join
  split
  · exact follows_same rfl rfl rfl
  · split
    · exact ⟨rfl, rfl, fun _ hmem => descends_of_mem (List.mem_of_mem_eraseP hmem),
        fun _ hmem => by cases hmem⟩
    · exact follows_same rfl rfl rfl

theorem follows_task (number : ℕ) (event : ConnectionEvent) :
    Follows s (s.task number event).1 (s.task number event).2 := by
  unfold LocalForwardWorker.task
  split
  · exact follows_same rfl rfl rfl
  · rename_i task hfound
    have htask := List.mem_of_find?_eq_some hfound
    split
    · exact follows_same rfl rfl rfl
    · rename_i event' hdelivered
      have hnext : ∀ next ∈ (s.replace
          { task with handler := (task.handler.step event').2 }).connections, s.Descends next := by
        intro next hmem
        rcases mem_replace hmem with ⟨hold, -⟩ | rfl
        · exact descends_of_mem hold
        · exact ⟨task, htask, rfl, rfl, .inr ⟨event', rfl⟩⟩
      rcases advance_cases s task event' with
        ⟨host, port, hrequests, heq⟩ | ⟨-, ⟨result, -, heq⟩ | ⟨-, heq⟩⟩
      · rw [heq]
        refine ⟨rfl, rfl, hnext, fun request hmem => ?_⟩
        obtain rfl := List.mem_singleton.1 hmem
        exact ⟨task, htask, rfl, rfl, event', hrequests⟩
      · rw [heq]
        exact ⟨rfl, rfl, hnext, fun _ hmem => by cases hmem⟩
      · rw [heq]
        exact ⟨rfl, rfl, hnext, fun _ hmem => by cases hmem⟩

theorem follows_accept_error (error : IoError) : Follows s [] (s.accept (.error error)) :=
  follows_finish _

theorem follows_answer {request : OpenRequest} (outcome : OpenOutcome) :
    Follows s (s.answer request outcome).1 (s.answer request outcome).2 :=
  ⟨rfl, rfl, fun _ hmem => descends_of_setReply hmem, fun _ hmem => by cases hmem⟩

/-- **A step accepts a client, or follows.** -/
theorem follows_step (input : LocalForwardInput) :
    (∃ client, newClient ⟨s, input, (s.step input).1, (s.step input).2⟩ = some client ∧
      s.step input = ([], s.accept (.ok client))) ∨
    newClient ⟨s, input, (s.step input).1, (s.step input).2⟩ = none ∧
      Follows s (s.step input).1 (s.step input).2 := by
  by_cases haccepts : s.control = .polling .accept ∧ s.connections.length < maxActiveConnections ∧
      ∃ client, input = .accept (.ok client)
  · obtain ⟨hcontrol, hroom, client, rfl⟩ := haccepts
    refine .inl ⟨client, ?_, ?_⟩
    · simp only [newClient, hcontrol, hroom, if_true]
    · simp only [step, hcontrol, hroom, if_true]
  · refine .inr ⟨?_, ?_⟩
    · unfold newClient
      split
      · rename_i client hcontrol hinput
        dsimp only at hcontrol hinput ⊢
        refine if_neg fun hroom => haccepts ⟨hcontrol, hroom, client, hinput⟩
      · rfl
    · unfold step
      split
      · exact follows_same rfl rfl rfl
      · exact follows_task _ _
      · unfold poll
        split
        · exact follows_finish _
        · exact follows_same rfl rfl rfl
      · unfold sessionTick
        split
        · exact follows_finish _
        · exact follows_same rfl rfl rfl
      · exact follows_same rfl rfl rfl
      · unfold pinged
        split
        · exact follows_same rfl rfl rfl
        · exact follows_finish _
      · exact follows_join _
      · unfold receive
        split
        · exact follows_same rfl rfl rfl
        · exact follows_same rfl rfl rfl
      · split
        · exact follows_answer _
        · exact follows_same rfl rfl rfl
      · rename_i result hcontrol
        split
        · rename_i hroom
          cases result with
          | error error => exact follows_accept_error error
          | ok client => exact absurd ⟨hcontrol, hroom, client, rfl⟩ haccepts
        · exact follows_same rfl rfl rfl
      · exact follows_same rfl rfl rfl

/-! ## Every run -/

/-- **Where everybody is going.** The tasks go by the number of their
client, and what they have asked for is what the client did. -/
structure Guided (mode : ForwardMode) (s : LocalForwardWorker) (steps : List WorkerStep) :
    Prop where
  forwards : s.mode = mode
  accepted : s.accepted = (clients steps).length
  tasks : ∀ task ∈ s.connections, task.handler.mode = mode ∧ task.handler.Aims ∧
    (clients steps)[task.number]? = some (task.originator, task.handler.client)
  requests : ∀ request ∈ requested (steps.flatMap Step.output), ∃ client,
    (clients steps)[request.reply]? = some (request.originator, client) ∧
      Asks mode client request.destinationHost request.destinationPort

variable {mode : ForwardMode} {steps : List WorkerStep} {x : WorkerStep}

theorem clients_concat : clients (steps ++ [x]) = clients steps ++ (newClient x).toList := by
  unfold clients
  rw [List.filterMap_append, List.filterMap_cons]
  cases newClient x <;> rfl

theorem requested_append {record more : List LocalForwardEvent} :
    requested (record ++ more) = requested record ++ requested more :=
  List.filterMap_append

theorem requested_output_concat :
    requested ((steps ++ [x]).flatMap Step.output) =
      requested (steps.flatMap Step.output) ++ requested x.output := by
  rw [List.flatMap_append, requested_append]
  exact congrArg (fun l => _ ++ requested l) (List.append_nil _)

/-- What the worker has accepted stays where it is. -/
theorem getElem?_clients_concat {number : ℕ} {client : SocketAddr × List UInt8}
    (h : (clients steps)[number]? = some client) :
    (clients (steps ++ [x]))[number]? = some client := by
  rw [clients_concat, List.getElem?_append_left (List.getElem?_eq_some_iff.1 h).1, h]

theorem Guided.step (h : Guided mode s steps) (input : LocalForwardInput) :
    Guided mode (s.step input).2
      (steps ++ [⟨s, input, (s.step input).1, (s.step input).2⟩]) := by
  rcases follows_step (s := s) input with ⟨client, hnew, hstep⟩ | ⟨hnone, hfollows⟩
  · obtain ⟨originator, bytes⟩ := client
    refine ⟨?_, ?_, fun task hmem => ?_, fun request hmem => ?_⟩
    · rw [hstep]
      exact h.forwards
    · rw [clients_concat, hnew, hstep, List.length_append]
      exact congrArg (· + 1) h.accepted
    · rw [hstep] at hmem
      rcases List.mem_append.1 hmem with hmem | hmem
      · obtain ⟨hmode, haims, hclient⟩ := h.tasks task hmem
        exact ⟨hmode, haims, getElem?_clients_concat hclient⟩
      · obtain rfl := List.mem_singleton.1 hmem
        refine ⟨?_, Handler.aims_start _ _, ?_⟩
        · show (Handler.start s.mode bytes).mode = mode
          rw [h.forwards]
          exact (Handler.start_mode _ _).1
        · rw [clients_concat, hnew]
          show (clients steps ++ [(originator, bytes)])[s.accepted]? = _
          rw [h.accepted, List.getElem?_concat_length]
          exact congrArg (fun c => some (originator, c)) (Handler.start_mode _ _).2.symm
    · rw [requested_output_concat, hstep] at hmem
      obtain ⟨client, hclient, hasks⟩ := h.requests request (by simpa [requested] using hmem)
      exact ⟨client, getElem?_clients_concat hclient, hasks⟩
  · refine ⟨hfollows.mode.trans h.forwards, ?_, fun task hmem => ?_, fun request hmem => ?_⟩
    · rw [clients_concat, hnone, hfollows.accepted, h.accepted]
      exact (congrArg List.length (List.append_nil _)).symm
    · obtain ⟨old, hold, hnumber, horiginator, hhandler⟩ := hfollows.tasks task hmem
      obtain ⟨hmode, haims, hclient⟩ := h.tasks old hold
      rw [hnumber, horiginator]
      rcases hhandler with hsame | ⟨event, hevent⟩
      · rw [hsame]
        exact ⟨hmode, haims, getElem?_clients_concat hclient⟩
      · obtain ⟨hmode', hclient'⟩ := Handler.step_mode old.handler event
        rw [hevent, hclient']
        exact ⟨hmode'.trans hmode, haims.step event, getElem?_clients_concat hclient⟩
    · rw [requested_output_concat] at hmem
      rcases List.mem_append.1 hmem with hmem | hmem
      · obtain ⟨client, hclient, hasks⟩ := h.requests request hmem
        exact ⟨client, getElem?_clients_concat hclient, hasks⟩
      · obtain ⟨task, htask, hreply, horiginator, event, hrequests⟩ := hfollows.requests request hmem
        obtain ⟨hmode, haims, hclient⟩ := h.tasks task htask
        refine ⟨task.handler.client, ?_, ?_⟩
        · rw [hreply, horiginator]
          exact getElem?_clients_concat hclient
        · rw [← hmode]
          exact haims.sending _ _ (Handler.control_of_requests hrequests).1

theorem guided_run (mode : ForwardMode) (inputs : List LocalForwardInput) :
    Guided mode (runState step (start mode) inputs) (trace step (start mode) inputs) := by
  have hstart : Guided mode (start mode) [] := by
    refine ⟨rfl, rfl, fun _ hmem => ?_, fun _ hmem => ?_⟩
    · cases hmem
    · cases hmem
  exact trace_invariant hstart (fun is i h => h.step i) inputs

/-- **No crosstalk.** Whatever the interleaving of the connections and the
worker, a connection that gets a channel gets the one that was opened for
its client, to the destination that this client asked for, and on behalf
of its address. -/
theorem no_crosstalk (mode : ForwardMode) (inputs : List LocalForwardInput) (number : ℕ)
    (hreceived : .received number (.ok ()) ∈ answers step (start mode) inputs) :
    ∃ originator client host port,
      (clients (trace step (start mode) inputs))[number]? = some (originator, client) ∧
      Asks mode client host port ∧
      .answered ⟨host, port, originator, number⟩ (.ok ()) ∈ answers step (start mode) inputs := by
  have hguided := guided_run mode inputs
  have hanswered := (inv_run mode inputs).answered
  obtain ⟨request, rfl, hanswer⟩ := hanswered.received number (.ok ()) hreceived
  have hrequest : request ∈ requested (answers step (start mode) inputs) :=
    hanswered.order.subset (mem_answered.2 ⟨_, hanswer⟩)
  obtain ⟨client, hclient, hasks⟩ := hguided.requests request hrequest
  exact ⟨request.originator, client, request.destinationHost, request.destinationPort, hclient,
    hasks, hanswer⟩

/-- A client that asks for `db:5432`, and gets its channel. -/
def dbRun : List LocalForwardInput :=
  List.replicate 5 .poll ++
    [.accept (.ok (⟨.v4 127 0 0 1, 40000, 0⟩, [5, 1, 0, 5, 1, 0, 3, 2, 100, 98, 21, 56])),
      .task 0 .handshake, .task 0 (.queued true)] ++
    List.replicate 4 .poll ++ [.receive, .answer .opened, .task 0 (.answer .opened)]

theorem no_crosstalk_db :
    LocalForwardEvent.received 0 (.ok ()) ∈ answers step (start .dynamic) dbRun ∧
      ∃ originator client host port,
        (clients (trace step (start .dynamic) dbRun))[0]? = some (originator, client) ∧
        Asks .dynamic client host port ∧
        .answered ⟨host, port, originator, 0⟩ (.ok ()) ∈ answers step (start .dynamic) dbRun := by
  have hreceived : LocalForwardEvent.received 0 (.ok ()) ∈ answers step (start .dynamic) dbRun := by
    decide +kernel
  exact ⟨hreceived, no_crosstalk .dynamic dbRun 0 hreceived⟩

end LocalForwardWorker

end TunnelWarden

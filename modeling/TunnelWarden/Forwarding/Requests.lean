import Mathlib.Data.List.Perm.Subperm
import TunnelWarden.Forwarding.Answers

/-!
# The requests of a worker's connections

A connection asks for a channel once, and while its request is pending it
waits, unless it is cancelled. So nobody joins it before the worker is
cancelled, and there are no more requests than tasks (`Owned`); the queue
has room for whoever sends to it. A worker that is cancelled in the middle
of its polls may still join one connection whose request is queued. That
is its last step but one (`bounded_requests_answered_once`).
-/

namespace TunnelWarden

namespace LocalForwardWorker

open Ssh Socks5

variable {record : List LocalForwardEvent} {s s' : LocalForwardWorker} {gone : List ℕ}
variable {task : ConnectionTask} {request : OpenRequest}

/-! ## The properties -/

/-- The next poll is the last: it finds the token cancelled. -/
def Leaving (s : LocalForwardWorker) : Prop :=
  s.cancelled = true ∧ s.control = .polling .cancelled

/-- **The bounds.** No more requests than tasks, but for one where the
worker is leaving, and then the next poll drops what is queued; no more
tasks than may be accepted; and whoever is about to send finds room. -/
structure BoundedRequests (s : LocalForwardWorker) : Prop where
  pending : s.pending.length ≤ s.connections.length ∨
    s.Leaving ∧ s.pending.length = s.connections.length + 1
  leaving : s.Leaving →
    (s.step .poll).2.control = .returned (.ok ()) ∧ (s.step .poll).2.pending = []
  tasks : s.connections.length ≤ maxActiveConnections
  room : ∀ task ∈ s.connections, ∀ host port, task.handler.control = .sending host port →
    s.queue.length < maxActiveConnections

/-! ## The invariant -/

/-- **Every pending request has its connection**: a task that is not
joined, or the one of `gone`, joined in the last poll of a worker that is
cancelled. It waits for the answer, or is cancelled. -/
structure Owned (s : LocalForwardWorker) (gone : List ℕ) : Prop where
  nodup : s.numbers.Nodup
  lt : ∀ number ∈ s.numbers, number < s.accepted
  owner : ∀ request ∈ s.pending, request.reply ∈ s.numbers ++ gone
  few : gone.length ≤ 1
  tasks : s.connections.length + gone.length ≤ maxActiveConnections
  leaving : gone ≠ [] → s.Leaving
  fresh : ∀ task ∈ s.connections, task.handler.stage = .early → task.reply = .pending
  waits : ∀ task ∈ s.connections, ∀ request ∈ s.pending, request.reply = task.number →
    task.reply = .pending ∧ (task.handler.stage = .late → s.cancelled = true)
  token : ∀ task ∈ s.connections, task.handler.cancelled = true →
    s.cancelled = true ∨ s.running = false
  closed : s.running = false → s.pending = []

/-- Only at the first poll of a cancelled worker somebody is gone. -/
theorem Owned.gone_eq_nil (h : Owned s gone) (hstays : ¬ s.Leaving) : gone = [] := by
  by_contra hne
  exact hstays (h.leaving hne)

theorem number_mem (hmem : task ∈ s.connections) : task.number ∈ s.numbers :=
  List.mem_map.2 ⟨task, hmem, rfl⟩

/-- A connection that has not asked has nothing pending. -/
theorem reply_ne_of_early (hr : Recorded s record) (htask : task ∈ s.connections)
    (hearly : task.handler.stage = .early) : ∀ request ∈ s.pending, request.reply ≠ task.number :=
  fun request hmem =>
    (hr.tasks task htask).early hearly request (hr.pending_sublist.subset hmem)

theorem Owned.cancelled_of_token (h : Owned s gone) (hrunning : s.running = true)
    (htask : task ∈ s.connections) (htoken : task.handler.cancelled = true) :
    s.cancelled = true := by
  rcases h.token task htask htoken with hcancelled | hstopped
  · exact hcancelled
  · rw [hrunning] at hstopped
    cases hstopped

/-- The worker goes on with the same connections and requests. -/
theorem Owned.moved (h : Owned s []) (hconnections : s'.connections = s.connections)
    (hpending : s'.pending = s.pending) (haccepted : s'.accepted = s.accepted)
    (hcancelled : s'.cancelled = s.cancelled) (hrunning : s.running = true)
    (hrunning' : s'.running = true) : Owned s' [] := by
  have hnumbers : s'.numbers = s.numbers := by
    unfold LocalForwardWorker.numbers
    rw [hconnections]
  refine ⟨hnumbers ▸ h.nodup, ?_, ?_, h.few, hconnections ▸ h.tasks, fun hne => (hne rfl).elim,
    hconnections ▸ h.fresh, ?_, ?_, ?_⟩
  · rw [hnumbers, haccepted]
    exact h.lt
  · rw [hpending, hnumbers]
    exact h.owner
  · rw [hconnections, hpending, hcancelled]
    exact h.waits
  · intro task hmem htoken
    rw [hcancelled]
    exact .inl (h.cancelled_of_token hrunning (hconnections ▸ hmem) htoken)
  · intro hstopped
    rw [hrunning'] at hstopped
    cases hstopped

/-- **The return** leaves nothing pending. -/
theorem Owned.finish (h : Owned s gone) (hr : Recorded s record)
    (result : Except LocalForwardError Unit) : Owned (s.finish result) [] := by
  have hnumbers : (s.finish result).numbers = s.numbers := numbers_setReply
  have hnone : ∀ request, request ∉ (s.finish result).pending := fun _ => List.not_mem_nil
  refine ⟨hnumbers ▸ h.nodup, ?_, fun _ hmem => (hnone _ hmem).elim, Nat.zero_le _, ?_,
    fun hne => (hne rfl).elim, ?_, fun _ _ _ hmem => (hnone _ hmem).elim, fun _ _ _ => .inr rfl,
    fun _ => rfl⟩
  · rw [hnumbers]
    exact h.lt
  · have htasks := h.tasks
    have hlength : (s.finish result).connections.length = s.connections.length := length_setReply
    rw [hlength, List.length_nil]
    omega
  · intro task hmem hearly
    obtain ⟨old, hold, rfl | ⟨hnumber, rfl⟩⟩ := mem_setReply hmem
    · exact h.fresh task hold hearly
    · -- a request of the queue is not one of a connection that has not asked
      obtain ⟨request, hrequest, heq⟩ := List.mem_map.1 hnumber
      exact (reply_ne_of_early hr hold hearly request (List.mem_append_right _ hrequest) heq).elim

theorem Owned.poll (h : Owned s gone) (hr : Recorded s record) {branch : Branch}
    (hcontrol : s.control = .polling branch) : ∃ gone, Owned (s.poll branch) gone := by
  unfold LocalForwardWorker.poll
  split
  · exact ⟨[], h.finish hr _⟩
  · rename_i hgoes
    have hstays : ¬ s.Leaving := by
      rintro ⟨hcancelled, hfirst⟩
      rw [hcontrol] at hfirst
      exact hgoes ⟨LocalForwardControl.polling.inj hfirst, hcancelled⟩
    obtain rfl := h.gone_eq_nil hstays
    exact ⟨[], h.moved rfl (pending_of_served (served_of_polling hcontrol)).symm rfl rfl
      (running_of_polling hcontrol) rfl⟩

theorem Owned.sessionTick (h : Owned s []) (hr : Recorded s record)
    (hcontrol : s.control = .polling .sessionTick) (closed : Bool) :
    Owned (s.sessionTick closed) [] := by
  unfold LocalForwardWorker.sessionTick
  split
  · exact h.finish hr _
  · exact h.moved rfl (pending_of_served (served_of_polling hcontrol)).symm rfl rfl
      (running_of_polling hcontrol) rfl

theorem Owned.pinged (h : Owned s []) (hr : Recorded s record) (hcontrol : s.control = .pinging)
    (result : Except SshChainError (List Duration)) : Owned (s.pinged result) [] := by
  have hserved : s.served = [] := by rw [served, hcontrol]
  have hrunning : s.running = true := by rw [running, hcontrol]
  unfold LocalForwardWorker.pinged
  split
  · exact h.moved rfl (pending_of_served hserved).symm rfl rfl hrunning rfl
  · exact h.finish hr _

theorem Owned.receive (h : Owned s []) (hcontrol : s.control = .polling .receive) :
    Owned s.receive [] := by
  have hpending := pending_receive hcontrol
  unfold LocalForwardWorker.receive at hpending ⊢
  split at hpending
  · exact h
  · exact h.moved rfl hpending rfl rfl (running_of_polling hcontrol) rfl

/-- The tasks that are left when one is joined. -/
theorem length_joined (htask : task ∈ s.connections) :
    (s.connections.eraseP (·.number = task.number)).length + 1 = s.connections.length := by
  have hpos := List.length_pos_of_mem htask
  rw [List.length_eraseP_of_mem htask (by simp)]
  omega

theorem mem_joined {other : ConnectionTask} (hother : other ∈ s.connections)
    (hne : other.number ≠ task.number) :
    other ∈ s.connections.eraseP (·.number = task.number) :=
  (List.mem_eraseP_of_neg (by simpa using hne)).2 hother

/-- **A join** is of a connection that has returned. If its request is
pending, the worker is cancelled and leaves. -/
theorem Owned.joined (h : Owned s []) (hrunning : s.running = true) (htask : task ∈ s.connections)
    (hlate : task.handler.stage = .late)
    (hconnections : s'.connections = s.connections.eraseP (·.number = task.number))
    (hpending : s'.pending = s.pending) (haccepted : s'.accepted = s.accepted)
    (hcancelled : s'.cancelled = s.cancelled) (hcontrol : s'.control = .polling .cancelled) :
    ∃ gone, Owned s' gone := by
  have hsub : s'.connections.Sublist s.connections := hconnections ▸ List.eraseP_sublist
  have hnumbers : s'.numbers.Sublist s.numbers := hsub.map _
  have hlength := length_joined htask
  have htasks := h.tasks
  -- what holds of the tasks and the requests whoever is gone
  have hrest : ∀ gone : List ℕ, gone.length ≤ 1 → (gone ≠ [] → s.cancelled = true) →
      (∀ request ∈ s.pending, request.reply = task.number → task.number ∈ gone) →
      Owned s' gone := by
    intro gone hfew hleaving hgone
    refine ⟨h.nodup.sublist hnumbers, ?_, ?_, hfew, ?_, fun hne => ⟨?_, hcontrol⟩,
      fun other hother => h.fresh other (hsub.subset hother), ?_, ?_, ?_⟩
    · rw [haccepted]
      exact fun number hnumber => h.lt number (hnumbers.subset hnumber)
    · intro request hmem
      rw [hpending] at hmem
      have howner := h.owner request hmem
      rw [List.append_nil] at howner
      obtain ⟨other, hother, heq⟩ := List.mem_map.1 howner
      by_cases hsame : other.number = task.number
      · rw [← heq, hsame]
        exact List.mem_append_right _ (hgone request hmem (heq.symm.trans hsame))
      · rw [← heq]
        exact List.mem_append_left _ (number_mem (hconnections ▸ mem_joined hother hsame))
    · rw [hconnections]
      rw [List.length_nil] at htasks
      omega
    · rw [hcancelled]
      exact hleaving hne
    · rw [hpending, hcancelled]
      exact fun other hother => h.waits other (hsub.subset hother)
    · intro other hother htoken
      rw [hcancelled]
      exact .inl (h.cancelled_of_token hrunning (hsub.subset hother) htoken)
    · intro hstopped
      rw [running_of_polling hcontrol] at hstopped
      cases hstopped
  by_cases hgone : ∃ request ∈ s.pending, request.reply = task.number
  · obtain ⟨request, hrequest, heq⟩ := hgone
    refine ⟨[task.number], hrest _ (Nat.le_refl 1) (fun _ => ?_) fun _ _ _ => List.mem_cons_self⟩
    exact (h.waits task htask request hrequest heq).2 hlate
  · refine ⟨[], hrest _ (Nat.zero_le 1) (fun hne => (hne rfl).elim) ?_⟩
    exact fun request hrequest heq => (hgone ⟨request, hrequest, heq⟩).elim

theorem Owned.join (h : Owned s []) (hcontrol : s.control = .polling .join) (number : ℕ) :
    ∃ gone, Owned (s.join number) gone := by
  unfold LocalForwardWorker.join
  split
  · exact ⟨[], h⟩
  · rename_i task hfound
    obtain rfl : task.number = number := by simpa using List.find?_some hfound
    split
    · rename_i result hreturned
      have hlate : task.handler.stage = .late := by rw [Handler.stage, hreturned]
      exact h.joined (running_of_polling hcontrol) (List.mem_of_find?_eq_some hfound) hlate rfl
        (pending_of_served (served_of_polling hcontrol)).symm rfl rfl rfl
    · exact ⟨[], h⟩

/-- **A new connection** has a new number. -/
theorem Owned.accepted (h : Owned s []) (hr : Recorded s record)
    (hcontrol : s.control = .polling .accept) (hroom : s.connections.length < maxActiveConnections)
    (originator : SocketAddr) (client : List UInt8) :
    Owned (s.accept (.ok (originator, client))) [] := by
  have hpending : s.queue = s.pending := (pending_of_served (served_of_polling hcontrol)).symm
  have huncancelled := (Handler.stage_start s.mode client).2
  have hnumbers : (s.accept (.ok (originator, client))).numbers = s.numbers ++ [s.accepted] :=
    List.map_append
  have hnew : ∀ request ∈ s.pending, request.reply ≠ s.accepted := fun request hrequest =>
    (hr.made request (hr.pending_sublist.subset hrequest)).ne
  have htasks := h.tasks
  refine ⟨?_, ?_, ?_, Nat.zero_le 1, ?_, fun hne => (hne rfl).elim, ?_, ?_, ?_,
    fun hstopped => by cases hstopped⟩
  · rw [hnumbers, List.nodup_append]
    refine ⟨h.nodup, List.nodup_singleton _, fun number hnumber number' hnumber' heq => ?_⟩
    rw [heq, List.mem_singleton.1 hnumber'] at hnumber
    exact absurd (h.lt _ hnumber) (Nat.lt_irrefl _)
  · intro number hnumber
    rw [hnumbers] at hnumber
    rcases List.mem_append.1 hnumber with hnumber | hnumber
    · exact Nat.lt_succ_of_lt (h.lt number hnumber)
    · rw [List.mem_singleton.1 hnumber]
      exact Nat.lt_succ_self _
  · intro request hrequest
    have howner := h.owner request (hpending ▸ hrequest)
    rw [hnumbers, List.append_nil]
    rw [List.append_nil] at howner
    exact List.mem_append_left _ howner
  · show (s.connections ++ [_]).length + 0 ≤ maxActiveConnections
    rw [List.length_append, List.length_singleton]
    omega
  · intro other hother hearly
    rcases List.mem_append.1 hother with hother | hother
    · exact h.fresh other hother hearly
    · rw [List.mem_singleton.1 hother]
  · intro other hother request hrequest heq
    rcases List.mem_append.1 hother with hother | hother
    · exact h.waits other hother request (hpending ▸ hrequest) heq
    · rw [List.mem_singleton.1 hother] at heq
      exact (hnew request (hpending ▸ hrequest) heq).elim
  · intro other hother htoken
    rcases List.mem_append.1 hother with hother | hother
    · exact .inl (h.cancelled_of_token (running_of_polling hcontrol) hother htoken)
    · rw [List.mem_singleton.1 hother, huncancelled] at htoken
      cases htoken

theorem Owned.accept (h : Owned s []) (hr : Recorded s record)
    (hcontrol : s.control = .polling .accept) (hroom : s.connections.length < maxActiveConnections)
    (result : Except IoError (SocketAddr × List UInt8)) : Owned (s.accept result) [] := by
  cases result with
  | error error => exact h.finish hr _
  | ok client => exact h.accepted hr hcontrol hroom client.1 client.2

/-- **An answer**: the request is not pending any more. -/
theorem Owned.answer (h : Owned s gone) (hr : Recorded s record)
    (hcontrol : s.control = .serving request) (outcome : OpenOutcome) :
    Owned (s.answer request outcome).2 [] := by
  have hpending : s.pending = request :: s.queue := by
    rw [pending, served, hcontrol]
    rfl
  have hrunning : s.running = true := by rw [running, hcontrol]
  have hstays : ¬ s.Leaving := by
    rintro ⟨-, hfirst⟩
    rw [hcontrol] at hfirst
    cases hfirst
  obtain rfl := h.gone_eq_nil hstays
  have hqueue : ∀ other ∈ s.queue, other ∈ s.pending := by
    intro other hother
    rw [hpending]
    exact List.mem_cons_of_mem _ hother
  have hrequest : request ∈ s.pending := hpending ▸ List.mem_cons_self
  -- the other requests are of other connections
  have honce : ∀ other ∈ s.queue, other.reply ≠ request.reply := by
    have hnodup := hr.nodup_pending
    rw [hpending, List.map_cons, List.nodup_cons] at hnodup
    intro other hother heq
    exact hnodup.1 (List.mem_map.2 ⟨other, hother, heq⟩)
  have hnumbers : (s.answer request outcome).2.numbers = s.numbers := numbers_setReply
  unfold LocalForwardWorker.answer at hnumbers ⊢
  refine ⟨hnumbers ▸ h.nodup, ?_, ?_, Nat.zero_le 1, ?_, fun hne => (hne rfl).elim, ?_, ?_, ?_,
    fun hstopped => by cases hstopped⟩
  · rw [hnumbers]
    exact h.lt
  · intro other hother
    rw [hnumbers]
    exact h.owner other (hqueue other hother)
  · have htasks := h.tasks
    rw [← length_setReply] at htasks
    exact htasks
  · intro task hmem hearly
    obtain ⟨old, hold, rfl | ⟨hnumber, rfl⟩⟩ := mem_setReply hmem
    · exact h.fresh task hold hearly
    · have heq : request.reply = old.number := (List.mem_singleton.1 hnumber).symm
      exact (reply_ne_of_early hr hold hearly request hrequest heq).elim
  · intro task hmem other hother heq
    obtain ⟨old, hold, rfl | ⟨hnumber, rfl⟩⟩ := mem_setReply hmem
    · exact h.waits task hold other (hqueue other hother) heq
    · exact (honce other hother (heq.trans (List.mem_singleton.1 hnumber))).elim
  · intro task hmem htoken
    obtain ⟨old, hold, rfl | ⟨-, rfl⟩⟩ := mem_setReply hmem
    · exact .inl (h.cancelled_of_token hrunning hold htoken)
    · exact .inl (h.cancelled_of_token hrunning hold htoken)

/-- **A connection goes on** without a request. With its request pending
it ends its wait only where it is cancelled. -/
theorem Owned.replace (h : Owned s gone) (hr : Recorded s record) (htask : task ∈ s.connections)
    {event : ConnectionEvent} (hdelivered : Delivered s task event)
    (hnone : task.handler.requests event = none) :
    Owned (s.replace { task with handler := (task.handler.step event).2 }) gone := by
  have hnumbers : (s.replace { task with handler := (task.handler.step event).2 }).numbers =
      s.numbers := numbers_replace
  have hrunning : ∀ other ∈ s.pending, s.running = true := by
    intro other hother
    by_contra hstopped
    rw [h.closed (Bool.eq_false_iff.2 hstopped)] at hother
    exact List.not_mem_nil hother
  refine ⟨hnumbers ▸ h.nodup, ?_, ?_, h.few, ?_, h.leaving, ?_, ?_, ?_, h.closed⟩
  · rw [hnumbers]
    exact h.lt
  · rw [hnumbers]
    exact h.owner
  · have htasks := h.tasks
    rw [← length_replace] at htasks
    exact htasks
  · intro other hmem hearly
    rcases mem_replace hmem with ⟨hother, -⟩ | rfl
    · exact h.fresh other hother hearly
    · exact h.fresh task htask (Handler.early_of_step hearly)
  · intro other hmem request hrequest heq
    rcases mem_replace hmem with ⟨hother, -⟩ | rfl
    · exact h.waits other hother request hrequest heq
    · obtain ⟨hreply, hcancelled⟩ := h.waits task htask request hrequest heq
      refine ⟨hreply, fun hlate => ?_⟩
      rcases Handler.stage_step hnone with hsame | ⟨-, hwhy⟩
      · exact hcancelled (hsame.symm.trans hlate)
      · cases hstage : task.handler.stage with
        | early => exact (reply_ne_of_early hr htask hstage request hrequest heq).elim
        | late => exact hcancelled hstage
        | waiting host port =>
            rcases hwhy host port hstage with htoken | ⟨outcome, hanswer⟩ | hhungUp
            · exact h.cancelled_of_token (hrunning request hrequest) htask htoken
            · -- there is no answer yet
              have hsent := hdelivered.sent outcome hanswer
              rw [hreply] at hsent
              cases hsent
            · have hdropped := hdelivered.dropped hhungUp
              rw [hreply] at hdropped
              cases hdropped
  · intro other hmem htoken
    rcases mem_replace hmem with ⟨hother, -⟩ | rfl
    · exact h.token other hother htoken
    · rcases Handler.cancelled_of_step htoken with hbefore | hevent
      · exact h.token task htask hbefore
      · exact hdelivered.token hevent

/-- **A request** is one more that is pending, and its connection
waits. -/
theorem Owned.asked (h : Owned s gone) (htask : task ∈ s.connections)
    (hrunning : s.running = true) {event : ConnectionEvent} {host : String} {port : ℕ}
    (hrequests : task.handler.requests event = some (host, port)) :
    let next : ConnectionTask := { task with handler := (task.handler.step event).2 }
    let request := OpenRequest.mk host port task.originator task.number
    Owned { s.replace next with queue := s.queue ++ [request] } gone := by
  intro next request
  obtain ⟨hbefore, hafter⟩ := Handler.stage_step_of_requests hrequests
  obtain ⟨-, hevent, huncancelled⟩ := Handler.control_of_requests hrequests
  have hnumbers : (s.replace next).numbers = s.numbers := numbers_replace
  have hpending : ∀ other,
      other ∈ LocalForwardWorker.pending { s.replace next with queue := s.queue ++ [request] } ↔
        other ∈ s.pending ∨ other = request := by
    intro other
    simp [pending, served, LocalForwardWorker.replace, or_assoc]
  refine ⟨hnumbers ▸ h.nodup, ?_, ?_, h.few, ?_, h.leaving, ?_, ?_, ?_, fun hstopped => ?_⟩
  · exact hnumbers ▸ h.lt
  · intro other hother
    show other.reply ∈ (s.replace next).numbers ++ gone
    rw [hnumbers]
    rcases (hpending other).1 hother with hother | rfl
    · exact h.owner other hother
    · exact List.mem_append_left _ (number_mem htask)
  · have htasks := h.tasks
    rw [← length_replace] at htasks
    exact htasks
  · intro other hmem hearly
    rcases mem_replace hmem with ⟨hother, -⟩ | rfl
    · exact h.fresh other hother hearly
    · rw [hafter] at hearly
      cases hearly
  · intro other hmem other' hother' heq
    rcases mem_replace hmem with ⟨hother, hne⟩ | rfl
    · rcases (hpending other').1 hother' with hother' | rfl
      · exact h.waits other hother other' hother' heq
      · exact (hne heq.symm).elim
    · refine ⟨h.fresh task htask hbefore, fun hlate => ?_⟩
      rw [hafter] at hlate
      cases hlate
  · intro other hmem htoken
    rcases mem_replace hmem with ⟨hother, -⟩ | rfl
    · exact h.token other hother htoken
    · rcases Handler.cancelled_of_step htoken with hcancelled | hcancel
      · rw [huncancelled] at hcancelled
        cases hcancelled
      · rw [hevent] at hcancel
        cases hcancel
  · have hstopped' : s.running = false := hstopped
    rw [hrunning] at hstopped'
    cases hstopped'

/-- **A step of a connection.** -/
theorem Owned.advance (h : Owned s gone) (hr : Recorded s record) (htask : task ∈ s.connections)
    {event : ConnectionEvent} (hdelivered : Delivered s task event) :
    Owned (s.advance task event).2 gone := by
  rcases advance_cases s task event with
    ⟨host, port, hrequests, heq⟩ | ⟨hnone, ⟨result, -, heq⟩ | ⟨-, heq⟩⟩
  · rw [heq]
    have hevent := (Handler.control_of_requests hrequests).2.1
    exact h.asked htask (hdelivered.taken hevent) hrequests
  · rw [heq]
    exact h.replace hr htask hdelivered hnone
  · rw [heq]
    exact h.replace hr htask hdelivered hnone

theorem Owned.cancel (h : Owned s gone) : Owned { s with cancelled := true } gone :=
  ⟨h.nodup, h.lt, h.owner, h.few, h.tasks, fun hne => ⟨rfl, (h.leaving hne).2⟩, h.fresh,
    fun task htask request hrequest heq => ⟨(h.waits task htask request hrequest heq).1,
      fun _ => rfl⟩, fun _ _ _ => .inl rfl, h.closed⟩

/-! ## The run -/

/-- The state of a run, and what was said to it. -/
def Inv (s : LocalForwardWorker) (record : List LocalForwardEvent) : Prop :=
  Recorded s record ∧ ∃ gone, Owned s gone

theorem inv_start (mode : ForwardMode) : Inv (start mode) [] := by
  refine ⟨⟨fun _ _ hmem => (List.not_mem_nil hmem).elim, ⟨[], rfl, fun _ => rfl⟩, List.nodup_nil,
    fun _ hmem => (List.not_mem_nil hmem).elim, fun _ hmem => (List.not_mem_nil hmem).elim,
    fun _ _ hmem => (List.not_mem_nil hmem).elim, List.nodup_nil⟩, [], ?_⟩
  exact ⟨List.nodup_nil, fun _ hmem => (List.not_mem_nil hmem).elim,
    fun _ hmem => (List.not_mem_nil hmem).elim, Nat.zero_le 1, Nat.zero_le _,
    fun hne => (hne rfl).elim, fun _ hmem => (List.not_mem_nil hmem).elim,
    fun _ hmem => (List.not_mem_nil hmem).elim, fun _ hmem => (List.not_mem_nil hmem).elim,
    fun _ => rfl⟩

/-- A step of a connection, where it finds one and the event reaches
it. -/
theorem Inv.ofTask (h : Inv s record) (number : ℕ) (event : ConnectionEvent) :
    Inv (s.task number event).2 (record ++ (s.task number event).1) := by
  have hsame : Inv s (record ++ []) := by rwa [List.append_nil]
  obtain ⟨hr, gone, ho⟩ := h
  unfold LocalForwardWorker.task
  split
  · exact hsame
  · rename_i task hfound
    have htask : task ∈ s.connections := List.mem_of_find?_eq_some hfound
    split
    · exact hsame
    · rename_i event' hdelivered
      have hlt := ho.lt task.number (number_mem htask)
      exact ⟨hr.advance htask hlt (delivered_of_eq_some hdelivered), gone,
        ho.advance hr htask (delivered_of_eq_some hdelivered)⟩

/-- **Every step keeps the invariant.** -/
theorem Inv.step (h : Inv s record) (input : LocalForwardInput) :
    Inv (s.step input).2 (record ++ (s.step input).1) := by
  have hsame : Inv s (record ++ []) := by rwa [List.append_nil]
  obtain ⟨hr, gone, ho⟩ := h
  -- away from the first poll nobody is gone
  have hall : s.control ≠ .polling .cancelled → Owned s [] := by
    intro hcontrol
    have hnil := ho.gone_eq_nil fun hleaving => hcontrol hleaving.2
    rwa [hnil] at ho
  unfold LocalForwardWorker.step
  split
  · rw [List.append_nil]
    exact ⟨hr.moved hr.tasks rfl (Nat.le_refl _) id, gone, ho.cancel⟩
  · exact Inv.ofTask ⟨hr, gone, ho⟩ _ _
  · rename_i branch hcontrol
    rw [List.append_nil]
    exact ⟨hr.poll hcontrol, ho.poll hr hcontrol⟩
  · rename_i closed hcontrol
    rw [List.append_nil]
    exact ⟨hr.sessionTick hcontrol closed, [],
      (hall (by simp [hcontrol])).sessionTick hr hcontrol closed⟩
  · rename_i hcontrol
    rw [List.append_nil]
    have hpending := pending_of_served (served_of_polling hcontrol)
    have hrunning := running_of_polling hcontrol
    exact ⟨hr.moved hr.tasks hpending.symm (Nat.le_refl _) fun _ => hrunning, [],
      (hall (by simp [hcontrol])).moved rfl hpending.symm rfl rfl hrunning rfl⟩
  · rename_i result hcontrol
    rw [List.append_nil]
    exact ⟨hr.pinged hcontrol result, [], (hall (by simp [hcontrol])).pinged hr hcontrol result⟩
  · rename_i number hcontrol
    rw [List.append_nil]
    exact ⟨hr.join hcontrol number, (hall (by simp [hcontrol])).join hcontrol number⟩
  · rename_i hcontrol
    rw [List.append_nil]
    exact ⟨hr.receive hcontrol, [], (hall (by simp [hcontrol])).receive hcontrol⟩
  · rename_i request outcome hcontrol
    split
    · exact ⟨hr.answer hcontrol outcome, [], ho.answer hr hcontrol outcome⟩
    · exact hsame
  · rename_i result hcontrol
    split
    · rename_i hroom
      rw [List.append_nil]
      exact ⟨hr.accept hcontrol result, [],
        (hall (by simp [hcontrol])).accept hr hcontrol hroom result⟩
    · exact hsame
  · exact hsame

theorem inv_run (mode : ForwardMode) (inputs : List LocalForwardInput) :
    Inv (runState step (start mode) inputs) (answers step (start mode) inputs) :=
  answers_invariant (inv_start mode) (fun _ _ input h => h.step input) inputs

/-! ## What it is for -/

/-- Requests of different connections are no more than these. -/
theorem length_pending_le (hr : Recorded s record) {numbers : List ℕ}
    (hsub : ∀ request ∈ s.pending, request.reply ∈ numbers) :
    s.pending.length ≤ numbers.length := by
  have hsubset : s.pending.map OpenRequest.reply ⊆ numbers := by
    intro number hnumber
    obtain ⟨request, hrequest, rfl⟩ := List.mem_map.1 hnumber
    exact hsub request hrequest
  have hle := (hr.nodup_pending.subperm hsubset).length_le
  rwa [List.length_map] at hle

/-- A worker that leaves returns in its next poll, and drops what is
queued. -/
theorem poll_of_leaving (hleaving : s.Leaving) :
    (s.step .poll).2.control = .returned (.ok ()) ∧ (s.step .poll).2.pending = [] := by
  obtain ⟨hcancelled, hcontrol⟩ := hleaving
  unfold LocalForwardWorker.step LocalForwardWorker.poll
  rw [hcontrol]
  dsimp only
  rw [if_pos ⟨rfl, hcancelled⟩]
  exact ⟨rfl, rfl⟩

/-- **The bounds hold** where every request has its connection. -/
theorem Inv.bounded (h : Inv s record) : BoundedRequests s := by
  obtain ⟨hr, gone, ho⟩ := h
  have hlength : s.numbers.length = s.connections.length := List.length_map _
  have hfew := ho.few
  have htasks := ho.tasks
  refine ⟨?_, poll_of_leaving, by omega, fun task htask host port hcontrol => ?_⟩
  · have hle := length_pending_le hr ho.owner
    rw [List.length_append, hlength] at hle
    rcases Nat.lt_or_ge s.connections.length s.pending.length with hlt | hge
    · have hne : gone ≠ [] := by
        rintro rfl
        rw [List.length_nil] at hle
        omega
      exact .inr ⟨ho.leaving hne, by omega⟩
    · exact .inl hge
  · -- its own request is not among them
    have hearly : task.handler.stage = .early := by rw [Handler.stage, hcontrol]
    have hmem := number_mem htask
    have hsub : ∀ request ∈ s.pending, request.reply ∈ s.numbers.erase task.number ++ gone := by
      intro request hrequest
      have hne := reply_ne_of_early hr htask hearly request hrequest
      rcases List.mem_append.1 (ho.owner request hrequest) with hnumber | hgone
      · exact List.mem_append_left _ ((List.mem_erase_of_ne hne).2 hnumber)
      · exact List.mem_append_right _ hgone
    have hle := length_pending_le hr hsub
    have hpos := List.length_pos_of_mem hmem
    rw [List.length_append, List.length_erase_of_mem hmem, hlength] at hle
    rw [hlength] at hpos
    have hqueue : s.queue.length ≤ s.pending.length := by
      rw [pending, List.length_append]
      omega
    omega

theorem Inv.answered (h : Inv s record) : AnsweredOnce record where
  requester := h.1.requester
  requests := h.1.once
  order := h.1.order
  answers := h.1.once.sublist (h.1.order.sublist.map _)
  received := h.1.received
  receives := h.1.receives

/-- **Pending requests are bounded by the connections, and each is
answered once.** However the polls, the tasks and the cancellation
follow each other, the requests that are queued or being served are no
more than the tasks that are not joined, and these no more than 64, so
that a connection that sends its request finds room for it. A worker
that leaves may have one request more than tasks. A request is answered
at most once, and the connection that made it gets the answer. -/
theorem bounded_requests_answered_once (mode : ForwardMode) (inputs : List LocalForwardInput) :
    BoundedRequests (runState step (start mode) inputs) ∧
      AnsweredOnce (answers step (start mode) inputs) :=
  ⟨(inv_run mode inputs).bounded, (inv_run mode inputs).answered⟩

/-- **One request may be left over.** The worker has looked at its token
when it is cancelled; the connection whose request is queued sees that,
returns, and is joined in the same round of polls. -/
theorem pending_exceeds_connections :
    ¬ ∀ mode inputs, (runState step (start mode) inputs).pending.length ≤
      (runState step (start mode) inputs).connections.length := by
  intro hbounded
  have hrun := hbounded (.fixed ⟨"db", 5432⟩)
    [.poll, .sessionTick false, .poll, .poll, .healthTick, .pinged (.ok []),
      .poll, .poll, .poll, .poll, .poll, .accept (.ok (⟨.v4 127 0 0 1, 40000, 0⟩, [])),
      .task 0 (.queued true), .poll, .cancel, .task 0 .cancel, .task 0 .poll, .task 0 .poll,
      .poll, .poll, .join 0]
  revert hrun
  decide +kernel

end LocalForwardWorker

end TunnelWarden

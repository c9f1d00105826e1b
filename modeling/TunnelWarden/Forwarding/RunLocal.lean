import TunnelWarden.Forwarding.Requests

/-!
# The worker as its supervisor sees it

The supervisor knows the worker by its connections' number and its health
(`Worker.runLocal`). A step of the worker with its connections is a step
of that one, or none of its concern; it may have looked at the token
before it was cancelled (`refines_run`).
-/

namespace TunnelWarden

namespace LocalForwardWorker

open Ssh

variable {s s' : LocalForwardWorker}

/-- The worker of the supervisor counts the tasks. -/
def Counted (s : LocalForwardWorker) : Prop := s.worker.connections = s.connections.length

/-- **What the supervisor sees of a step.** -/
inductive Refines (s s' : LocalForwardWorker) : Prop where
  /-- Nothing. -/
  | stays (hworker : s'.worker = s.worker) (hrunning : s'.running = s.running)
  | runs (event : SupervisorEvent) (hrun : s.worker.runLocal false event = .inl s'.worker)
      (hrunning : s'.running = s.running)
  | returns (cancelled : Bool) (event : SupervisorEvent) (result : Except LocalForwardError Unit)
      (htoken : cancelled = true → s.cancelled = true)
      (hrun : s.worker.runLocal cancelled event = .inr result)
      (hreturned : s'.control = .returned result)

theorem counted_setReply (h : Counted s) (numbers : List ℕ) (reply : Reply) :
    Counted (s.setReply numbers reply) := by
  rw [Counted, length_setReply]
  exact h

theorem counted_replace (h : Counted s) (task : ConnectionTask) : Counted (s.replace task) := by
  rw [Counted, length_replace]
  exact h

theorem counted_finish (h : Counted s) (result : Except LocalForwardError Unit) :
    Counted (s.finish result) := counted_setReply h _ _

theorem refines_poll (h : Counted s) {branch : Branch} (hcontrol : s.control = .polling branch) :
    Counted (s.poll branch) ∧ Refines s (s.poll branch) := by
  unfold poll
  split
  · rename_i hcancelled
    exact ⟨counted_finish h _, .returns true .poll (.ok ()) (fun _ => hcancelled.2) rfl rfl⟩
  · exact ⟨h, .stays rfl (running_of_polling hcontrol).symm⟩

theorem refines_sessionTick (h : Counted s) (hrunning : s.running = true) (closed : Bool) :
    Counted (s.sessionTick closed) ∧ Refines s (s.sessionTick closed) := by
  unfold sessionTick
  cases closed with
  | true =>
      exact ⟨counted_finish h _, .returns false (.sessionTick true) _ nofun rfl rfl⟩
  | false => exact ⟨h, .stays rfl hrunning.symm⟩

/-- The pings are not about the connections. -/
theorem connections_of_healthTick {w w' : Worker} {result : Except SshChainError (List Duration)}
    (h : w.healthTick result = .ok w') : w'.connections = w.connections := by
  unfold Worker.healthTick at h
  split at h
  · obtain rfl := Except.ok.inj h
    rfl
  · dsimp only at h
    split at h
    · cases h
    · obtain rfl := Except.ok.inj h
      rfl

theorem refines_pinged (h : Counted s) (hrunning : s.running = true)
    (result : Except SshChainError (List Duration)) :
    Counted (s.pinged result) ∧ Refines s (s.pinged result) := by
  unfold pinged
  split
  · rename_i worker hping
    refine ⟨(connections_of_healthTick hping).trans h, .runs (.healthTick result) ?_ hrunning.symm⟩
    simp [Worker.runLocal, hping]
  · rename_i error hping
    refine ⟨counted_finish h _, .returns false (.healthTick result) _ nofun ?_ rfl⟩
    simp [Worker.runLocal, hping]

theorem refines_join (h : Counted s) (hrunning : s.running = true) (number : ℕ) :
    Counted (s.join number) ∧ Refines s (s.join number) := by
  unfold join
  split
  · exact ⟨h, .stays rfl rfl⟩
  · rename_i task hfound
    obtain rfl : task.number = number := by simpa using List.find?_some hfound
    split
    · have hlength := length_joined (List.mem_of_find?_eq_some hfound)
      refine ⟨?_, .runs .connectionDone rfl hrunning.symm⟩
      show s.worker.connections - 1 = (s.connections.eraseP _).length
      rw [h]
      omega
    · exact ⟨h, .stays rfl rfl⟩

theorem refines_receive (h : Counted s) (hrunning : s.running = true) :
    Counted s.receive ∧ Refines s s.receive := by
  unfold receive
  split
  · exact ⟨h, .stays rfl rfl⟩
  · exact ⟨h, .stays rfl hrunning.symm⟩

theorem refines_accept (h : Counted s) (hrunning : s.running = true)
    (hroom : s.connections.length < maxActiveConnections)
    (result : Except IoError (SocketAddr × List UInt8)) :
    Counted (s.accept result) ∧ Refines s (s.accept result) := by
  have hcount : s.worker.connections < maxActiveConnections := by
    rw [h]
    exact hroom
  cases result with
  | error error =>
      refine ⟨counted_finish h _, .returns false (.accepted (.error error)) _ nofun ?_ rfl⟩
      show (if s.worker.connections < maxActiveConnections then _ else _) = _
      rw [if_pos hcount]
  | ok client =>
      refine ⟨?_, .runs (.accepted (.ok ())) ?_ hrunning.symm⟩
      · show s.worker.connections + 1 = (s.connections ++ [_]).length
        rw [List.length_append, List.length_singleton, h]
      · show (if s.worker.connections < maxActiveConnections then _ else _) = _
        rw [if_pos hcount]
        rfl

theorem refines_task (h : Counted s) (number : ℕ) (event : ConnectionEvent) :
    Counted (s.task number event).2 ∧ Refines s (s.task number event).2 := by
  unfold LocalForwardWorker.task
  split
  · exact ⟨h, .stays rfl rfl⟩
  · rename_i task hfound
    split
    · exact ⟨h, .stays rfl rfl⟩
    · rename_i event' hdelivered
      have hnext := counted_replace h { task with handler := (task.handler.step event').2 }
      rcases advance_cases s task event' with
        ⟨host, port, hrequests, heq⟩ | ⟨-, ⟨result, -, heq⟩ | ⟨-, heq⟩⟩
      · rw [heq]
        exact ⟨hnext, .stays rfl rfl⟩
      · rw [heq]
        exact ⟨hnext, .stays rfl rfl⟩
      · rw [heq]
        exact ⟨hnext, .stays rfl rfl⟩

/-- **Every step** is one of the worker of the supervisor, or none. -/
theorem refines_step (h : Counted s) (input : LocalForwardInput) :
    Counted (s.step input).2 ∧ Refines s (s.step input).2 := by
  unfold step
  split
  · exact ⟨h, .stays rfl rfl⟩
  · exact refines_task h _ _
  · rename_i branch hcontrol
    exact refines_poll h hcontrol
  · rename_i closed hcontrol
    exact refines_sessionTick h (running_of_polling hcontrol) closed
  · rename_i hcontrol
    exact ⟨h, .stays rfl (running_of_polling hcontrol).symm⟩
  · rename_i result hcontrol
    exact refines_pinged h (by rw [running, hcontrol]) result
  · rename_i number hcontrol
    exact refines_join h (running_of_polling hcontrol) number
  · rename_i hcontrol
    exact refines_receive h (running_of_polling hcontrol)
  · rename_i request outcome hcontrol
    split
    · have hrunning : s.running = true := by rw [running, hcontrol]
      exact ⟨counted_setReply h _ _, .stays rfl hrunning.symm⟩
    · exact ⟨h, .stays rfl rfl⟩
  · rename_i result hcontrol
    split
    · rename_i hroom
      exact refines_accept h (running_of_polling hcontrol) hroom result
    · exact ⟨h, .stays rfl rfl⟩
  · exact ⟨h, .stays rfl rfl⟩

/-- **The supervisor's worker** takes part in every step of a run. -/
theorem refines_run (mode : ForwardMode) (inputs : List LocalForwardInput) :
    ∀ x ∈ trace step (start mode) inputs, Refines x.before x.after := by
  have hstep : ∀ s input, True → Counted s →
      Counted (s.step input).2 ∧ Refines s (s.step input).2 :=
    fun _ input _ h => refines_step h input
  exact trace_forall hstep rfl fun _ _ => trivial

end LocalForwardWorker

end TunnelWarden

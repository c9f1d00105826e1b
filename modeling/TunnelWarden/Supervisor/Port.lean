import TunnelWarden.Lifecycle.Runtime
import TunnelWarden.Supervisor.Local

/-!
# The local port from start to stop

The supervisor of a Local or Dynamic tunnel owns one bound listener and
lends it to the worker of each connection. `Owned` says at every await
who has it: the worker while it serves and while it is being released,
the supervisor at every other. It is the listener that was given, with
its socket and its record untouched, until the end of `run` stops it.
-/

namespace TunnelWarden

open Lifecycle

namespace LocalForwardSupervisor

variable {s t : LocalForwardSupervisor} {event : SupervisorEvent} {given : ListenerRuntime}

/-- The listener the current worker owns. -/
def workerListener (s : LocalForwardSupervisor) : Option ListenerRuntime :=
  match s.control with
  | .serving _ _ _ listener | .releasing _ _ _ listener => some listener
  | _ => none

/-- What `LocalForwardWorker::run` checks of its listener before its
loop. -/
def checkListener (listener : ListenerRuntime) : Except LocalForwardError Unit :=
  if listener.listener = none then .error .noListener else .ok ()

/-- What `run_until_stopped` can end with: it was told to, or `accept`
failed. -/
def Ends (result : Except SupervisorError Unit) : Prop :=
  result = .ok () ∨ ∃ error, result = .error (.accept error)

/-- **Who owns the listener**, at each await, and that it is dropped at
the end only, stopped before. -/
def Owned (given : ListenerRuntime) (s : LocalForwardSupervisor) : Prop :=
  match s.control with
  | .serving _ _ _ listener => listener = given ∧ s.listener = none ∧ s.dropped = none
  | .releasing _ _ outcome listener =>
      (listener = given ∧ s.listener = none ∧ s.dropped = none) ∧ outcome ≠ .error .noListener
  | .finished result => s.listener = none ∧ s.dropped = some (ListenerRuntime.stop.run given).2 ∧
      ((∃ error, result = .error (.accept error)) ∨
        result = (ListenerRuntime.stop.run given).1.mapError .shutdown)
  | _ => s.listener = some given ∧ s.dropped = none

theorem owned_new {mode : SupervisorMode} {retry : RetryPolicy}
    (h : new given mode retry = .ok s) : Owned given s ∧ given.listener ≠ none := by
  unfold new at h
  split at h
  · cases h
  · rename_i hbound
    obtain rfl := Except.ok.inj h
    exact ⟨⟨rfl, rfl⟩, hbound⟩

/-- What the owned listener comes to. -/
theorem stopListener_owned (h : s.listener = some given) :
    s.stopListener = ((ListenerRuntime.stop.run given).1.mapError .shutdown,
      some (ListenerRuntime.stop.run given).2) := by
  unfold stopListener
  rw [h]
  dsimp only
  split
  · rename_i stopped hstop
    rw [hstop]
    rfl
  · rename_i error stopped hstop
    rw [hstop]
    rfl

/-- **The end of `run`** stops the listener, and drops it. -/
theorem owned_finish (h : s.listener = some given ∧ s.dropped = none)
    {result : Except SupervisorError Unit} (hr : Ends result) :
    Owned given (s.finish result).2 := by
  unfold finish
  rw [stopListener_owned h.1]
  rcases hr with rfl | ⟨error, rfl⟩
  · exact ⟨rfl, rfl, .inr rfl⟩
  · exact ⟨rfl, rfl, .inl ⟨error, rfl⟩⟩

theorem owned_attempt (h : s.listener = some given ∧ s.dropped = none) (n : ℕ) :
    Owned given (s.attempt n).2 := by
  unfold attempt
  split
  · exact owned_finish h (.inl rfl)
  · exact h

theorem owned_afterFailure (h : s.listener = some given ∧ s.dropped = none) (n : ℕ)
    (reason : String) (blocked : Bool) (jitter : ℤ) (resume : ℕ) :
    Owned given (s.afterFailure n reason blocked jitter resume).2 := by
  cases blocked <;> exact h

/-- A wait keeps the listener, with what it waited for or without. -/
theorem owned_whileUnhealthy (hbound : given.listener ≠ none)
    (h : s.listener = some given ∧ s.dropped = none) (ho : Owned given s)
    {ready : Option (List Effect × LocalForwardSupervisor)}
    (hready : ∀ next, ready = some next → Owned given next.2) :
    Owned given (s.whileUnhealthy ready event).2 := by
  have hsocket : s.socket ≠ none := by simpa [socket, h.1] using hbound
  rcases whileUnhealthy_cases s ready event with ⟨-, result, hok, heq⟩ | ⟨-, next, hnext, heq⟩ |
    ⟨-, -, error, heq⟩ | ⟨-, -, clients, heq⟩
  · rw [heq]
    exact owned_finish h (.inl (hok hsocket))
  · rw [heq]
    exact hready next hnext
  · rw [heq]
    exact owned_finish h (.inr ⟨error, rfl⟩)
  · rw [heq]
    exact ho

theorem owned_awaitHint (hbound : given.listener ≠ none)
    (h : s.listener = some given ∧ s.dropped = none) (ho : Owned given s) (resume : ℕ) :
    Owned given (s.awaitHint resume event).2 := by
  rcases hp : s.retryHint.poll with ⟨_ | _, hint⟩
  · rw [awaitHint_pending hp]
    exact owned_whileUnhealthy (s := { s with retryHint := hint }) hbound h ho fun _ hnext => by
      cases hnext
  · rw [awaitHint_ready hp]
    refine owned_whileUnhealthy (s := { s with retryHint := hint }) hbound h ho fun next hnext => ?_
    rw [← Option.some.inj hnext]
    exact owned_attempt (s := { s with retryHint := hint }) h resume

/-- No end of a worker's loop is about its listener. -/
theorem runLocal_ne_noListener {w : Worker} {cancelled : Bool}
    {outcome : Except LocalForwardError Unit} (h : w.runLocal cancelled event = .inr outcome) :
    outcome ≠ .error .noListener := by
  unfold Worker.runLocal at h
  rintro rfl
  split at h
  · cases h
  · split at h
    · split at h <;> cases h
    · split at h <;> cases h
    · cases h
    · split at h
      · split at h <;> cases h
      · cases h
    · cases h

/-- **One event of the task.** -/
theorem owned_advance (hbound : given.listener ≠ none) (ho : Owned given s) :
    Owned given (s.advance event).2 := by
  have h := ho
  unfold Owned at h
  unfold advance
  cases hc : s.control with
  | spawned =>
      rw [hc] at h
      exact owned_attempt h 1
  | connecting n =>
      rw [hc] at h
      refine owned_whileUnhealthy hbound h ho fun next hnext => ?_
      split at hnext
      · rw [← Option.some.inj hnext]
        exact h
      · rw [← Option.some.inj hnext]
        exact owned_afterFailure h ..
      · cases hnext
  | pinging n =>
      rw [hc] at h
      dsimp only
      split
      · -- the worker takes the listener
        unfold serve
        rw [h.1]
        dsimp only
        rw [if_neg hbound]
        exact ⟨rfl, rfl, h.2⟩
      · exact owned_afterFailure h ..
      · exact ho
  | serving n since worker listener =>
      rw [hc] at h
      dsimp only
      split
      · rcases worker.observe none with ⟨worker', _ | state⟩
        · exact h
        · exact h
      · split
        · exact h
        · rename_i outcome hrun
          exact ⟨h, runLocal_ne_noListener hrun⟩
  | releasing n since outcome listener =>
      rw [hc] at h
      obtain ⟨⟨rfl, -, hdropped⟩, -⟩ := h
      dsimp only
      split
      · -- the listener comes back
        split
        · exact owned_finish (s := { s with listener := some listener }) ⟨rfl, hdropped⟩ (.inl rfl)
        · exact owned_afterFailure (s := { s with listener := some listener }) ⟨rfl, hdropped⟩ ..
      · exact ho
  | blocked resume =>
      rw [hc] at h
      exact owned_awaitHint hbound h ho resume
  | backoff resume =>
      rw [hc] at h
      dsimp only
      split
      · have hdropped : Owned given { s with
            retryHint := s.retryHint.drop, control := .backoff resume } := h
        refine owned_whileUnhealthy (s := { s with
          retryHint := s.retryHint.drop, control := .backoff resume }) hbound h hdropped
          fun next hnext => ?_
        rw [← Option.some.inj hnext]
        exact owned_attempt (s := { s with
          retryHint := s.retryHint.drop, control := .backoff resume }) h resume
      · exact owned_awaitHint hbound h ho resume
  | finished result => exact ho

/-- **One event.** -/
theorem owned_step (hbound : given.listener ≠ none) (s : LocalForwardSupervisor)
    (event : SupervisorEvent) (ho : Owned given s) : Owned given (s.step event).2 := by
  unfold LocalForwardSupervisor.step
  split
  · exact ho
  · exact ho
  · exact owned_advance hbound ho

/-- **The port is held.** Until `run` is over the supervisor or its
worker owns the listener that was given, and never both, and none was
dropped; no error about a missing listener is raised, neither by the
supervisor nor by a worker; and what is dropped at the end of `run` is
that listener, stopped. -/
structure PortHeld (given : ListenerRuntime) (s : LocalForwardSupervisor) : Prop where
  held : (∀ result, s.control ≠ .finished result) → s.dropped = none ∧
    ((s.listener = some given ∧ s.workerListener = none) ∨
      (s.listener = none ∧ s.workerListener = some given))
  supervisor_error : s.control ≠ .finished (.error .noListener)
  build_error : s.control ≠ .finished (.error (.worker .noListener))
  worker_error : ∀ n since listener,
    s.control ≠ .releasing n since (.error .noListener) listener
  run_error : ∀ listener, s.workerListener = some listener → checkListener listener = .ok ()
  stopped : ∀ result, s.control = .finished result →
    s.listener = none ∧ s.workerListener = none ∧
      s.dropped = some (ListenerRuntime.stop.run given).2 ∧
      ((∃ error, result = .error (.accept error)) ∨
        result = (ListenerRuntime.stop.run given).1.mapError .shutdown) ∧
      (given.machine.state.generation < generationMax →
        (ListenerRuntime.stop.run given).1 = .ok () ∧
          ∃ g, s.dropped = some g ∧ ListenerRuntime.Released g)

/-- A bound listener with a generation left is stopped, and is no longer
bound then. -/
theorem exists_released (hs : ListenerRuntime.Synced given) (hbound : given.listener ≠ none)
    (hg : given.machine.state.generation < generationMax) :
    ∃ g, ListenerRuntime.stop.run given = (.ok (), g) ∧ ListenerRuntime.Released g := by
  have hp : given.machine.phase ≠ .stopped := fun hp => hbound (hs.listener_none hp)
  obtain ⟨m, heq, hsync, hphase⟩ := ListenerRuntime.exists_stop hs hp hg
  exact ⟨_, heq, hsync.released hphase⟩

theorem Owned.portHeld (hs : ListenerRuntime.Synced given) (hbound : given.listener ≠ none)
    (ho : Owned given s) : PortHeld given s := by
  have hlisten : checkListener given = .ok () := if_neg hbound
  unfold Owned at ho
  cases hc : s.control with
  | serving n since worker listener =>
      rw [hc] at ho
      obtain ⟨rfl, hnone, hdropped⟩ := ho
      have hw : s.workerListener = some listener := by rw [workerListener, hc]
      refine ⟨fun _ => ⟨hdropped, .inr ⟨hnone, hw⟩⟩, by simp [hc], by simp [hc], by simp [hc], ?_,
        by simp [hc]⟩
      rw [hw]
      rintro l ⟨⟩
      exact hlisten
  | releasing n since outcome listener =>
      rw [hc] at ho
      obtain ⟨⟨rfl, hnone, hdropped⟩, hout⟩ := ho
      have hw : s.workerListener = some listener := by rw [workerListener, hc]
      refine ⟨fun _ => ⟨hdropped, .inr ⟨hnone, hw⟩⟩, by simp [hc], by simp [hc], ?_, ?_,
        by simp [hc]⟩
      · rintro n' since' listener' h
        rw [hc] at h
        exact hout (LocalControl.releasing.inj h).2.2.1
      · rw [hw]
        rintro l ⟨⟩
        exact hlisten
  | finished result =>
      rw [hc] at ho
      obtain ⟨hnone, hdropped, hresult⟩ := ho
      have hw : s.workerListener = none := by rw [workerListener, hc]
      have hne : ∀ error, (∀ source, error ≠ .accept source) →
          (∀ source, error ≠ .shutdown source) → result ≠ .error error := by
        rintro error haccept hshutdown rfl
        rcases hresult with ⟨source, heq⟩ | heq
        · exact haccept source (Except.error.inj heq)
        · cases hstop : (ListenerRuntime.stop.run given).1 with
          | error source =>
              rw [hstop] at heq
              exact hshutdown source (Except.error.inj heq)
          | ok _ =>
              rw [hstop] at heq
              cases heq
      refine ⟨fun h => absurd hc (h result), ?_, ?_, by simp [hc], by simp [hw], ?_⟩
      · rw [hc]
        exact fun h => hne .noListener nofun nofun (LocalControl.finished.inj h)
      · rw [hc]
        exact fun h => hne (.worker .noListener) nofun nofun (LocalControl.finished.inj h)
      · intro result' hc'
        obtain rfl := LocalControl.finished.inj (hc.symm.trans hc')
        refine ⟨hnone, hw, hdropped, hresult, fun hg => ?_⟩
        obtain ⟨g, hstop, hrel⟩ := exists_released hs hbound hg
        rw [hstop] at hdropped
        exact ⟨by rw [hstop], g, hdropped, hrel⟩
  | spawned | connecting n | pinging n | blocked resume | backoff resume =>
      rw [hc] at ho
      have hw : s.workerListener = none := by rw [workerListener, hc]
      exact ⟨fun _ => ⟨ho.2, .inl ⟨ho.1, hw⟩⟩, by simp [hc], by simp [hc], by simp [hc],
        by simp [hw], by simp [hc]⟩

/-- **The local port is held from start to stop.** Over every run of a
supervisor that was given a bound listener, whatever becomes of its
connections, pings, workers and clients and wherever it is cancelled. -/
theorem portHeld_run (calls : List ListenerRuntime.Call) (mode : SupervisorMode)
    (retry : RetryPolicy) {s : LocalForwardSupervisor}
    (hnew : new (runState ListenerRuntime.call .new calls) mode retry = .ok s)
    (events : List SupervisorEvent) :
    ∀ t ∈ visited step s events, PortHeld (runState ListenerRuntime.call .new calls) t := by
  have hs := runState_invariant ListenerRuntime.synced_call ListenerRuntime.synced_new calls
  obtain ⟨ho, hbound⟩ := owned_new hnew
  have hrun : ∀ t ∈ visited step s events, Owned (runState ListenerRuntime.call .new calls) t :=
    visited_invariant_of_trace (A := fun _ _ => True)
      (fun t event _ ht => owned_step hbound t event ht) ho fun _ _ => trivial
  exact fun t ht => (hrun t ht).portHeld hs hbound

/-- A listener that is started once, as the owner of a tunnel starts
it. -/
def startedOnce : List ListenerRuntime.Call :=
  [.startListener ⟨.v4 127 0 0 1, 1080, 0⟩
    (.bound ⟨⟨.v4 127 0 0 1, 1080, 0⟩⟩ (.ok ⟨.v4 127 0 0 1, 1080, 0⟩)
      (.ok ⟨.v4 127 0 0 1, 1080, 0⟩)) 0]

/-- A session that fails, a second attempt, and a stop during it. -/
theorem portHeld_run_startedOnce :
    ∃ s, new (runState ListenerRuntime.call .new startedOnce) .dynamic {} = .ok s ∧
      ∀ t ∈ visited step s [.poll, .connected (.ok ()) 0, .pinged (.ok [1]) 0 0,
          .sessionTick true, .released 5 0, .elapsed, .cancel, .poll],
        PortHeld (runState ListenerRuntime.call .new startedOnce) t :=
  ⟨_, rfl, portHeld_run startedOnce .dynamic {} rfl _⟩

end LocalForwardSupervisor

end TunnelWarden

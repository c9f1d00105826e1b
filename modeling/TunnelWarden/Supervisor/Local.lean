import TunnelWarden.Common.Run
import TunnelWarden.Supervisor.Model.Local

/-!
# What ends the supervisor of a Local or Dynamic tunnel

A supervisor that is not cancelled goes on through failed connections,
failed pings and every end of its worker. Its listener comes back from
the worker, so the errors about a missing one do not happen. The one
thing that ends it is an error of `accept` while the tunnel is not
healthy: the `?` in `while_unhealthy` makes it an error of `run`, where
the same error in a worker is a reason to reconnect.
-/

namespace TunnelWarden

open Lifecycle

/-- A worker's report is healthy or degraded. -/
theorem Worker.observe_some {w w' : Worker} {port : Option ℕ} {state : SupervisorState}
    (h : w.observe port = (w', some state)) :
    (∃ rtts, state = .healthy rtts port) ∨ ∃ failures reason, state = .degraded failures reason := by
  unfold Worker.observe at h
  split at h
  · obtain ⟨health, -, rfl⟩ := Option.map_eq_some_iff.1 (Prod.mk.inj h).2
    cases health with
    | healthy rtts => exact .inl ⟨rtts, rfl⟩
    | degraded failures reason => exact .inr ⟨failures, reason, rfl⟩
  · simp at h

theorem Worker.observe_ne_stopped {w w' : Worker} {port : Option ℕ} {state : SupervisorState}
    (h : w.observe port = (w', some state)) : state ≠ .stopped := by
  rcases Worker.observe_some h with ⟨rtts, rfl⟩ | ⟨failures, reason, rfl⟩ <;> simp

theorem Worker.observe_ne_blocked {w w' : Worker} {port : Option ℕ} {state : SupervisorState}
    (h : w.observe port = (w', some state)) (reason : String) : state ≠ .blocked reason := by
  rcases Worker.observe_some h with ⟨rtts, rfl⟩ | ⟨failures, reason', rfl⟩ <;> simp

namespace LocalForwardSupervisor

variable {s : LocalForwardSupervisor} {event : SupervisorEvent}

/-- The socket the supervisor waits at, where it waits at one. -/
def socket (s : LocalForwardSupervisor) : Option TcpListener :=
  s.listener.bind ListenerRuntime.listener

/-- The event is an error of `accept`, and there is room for a client. -/
def AcceptError (s : LocalForwardSupervisor) (event : SupervisorEvent) : Prop :=
  s.unhealthyClients < maxUnhealthyClients ∧ ∃ error, event = .accepted (.error error)

/-- **One round of `while_unhealthy`** ends `run`, goes on with what was
awaited, or sees to its clients. -/
theorem whileUnhealthy_cases (s : LocalForwardSupervisor)
    (ready : Option (List Effect × LocalForwardSupervisor)) (event : SupervisorEvent) :
    ((s.socket = none ∨ s.cancelled = true) ∧
      ∃ result, (s.socket ≠ none → result = .ok ()) ∧
        s.whileUnhealthy ready event = s.finish result) ∨
    (s.cancelled = false ∧ ∃ next, ready = some next ∧ s.whileUnhealthy ready event = next) ∨
    (ready = none ∧ s.AcceptError event ∧
      ∃ error, s.whileUnhealthy ready event = s.finish (.error (.accept error))) ∨
    (ready = none ∧ ¬ s.AcceptError event ∧
      ∃ clients, s.whileUnhealthy ready event = ([], { s with unhealthyClients := clients })) := by
  unfold whileUnhealthy AcceptError
  cases hs : s.listener.bind ListenerRuntime.listener with
  | none => exact .inl ⟨.inl hs, _, fun h => absurd hs h, rfl⟩
  | some socket =>
      dsimp only
      by_cases hcancel : s.cancelled = true
      · rw [if_pos hcancel]
        exact .inl ⟨.inr hcancel, _, fun _ => rfl, rfl⟩
      · rw [if_neg hcancel]
        refine .inr ?_
        cases ready with
        | some next => exact .inl ⟨by simpa using hcancel, next, rfl, rfl⟩
        | none =>
            refine .inr ?_
            cases event with
            | accepted result =>
                dsimp only
                by_cases hroom : s.unhealthyClients < maxUnhealthyClients
                · rw [if_pos hroom]
                  cases result with
                  | error error => exact .inl ⟨rfl, ⟨hroom, error, rfl⟩, error, rfl⟩
                  | ok _ =>
                      refine .inr ⟨rfl, by simp, ?_⟩
                      dsimp only [rejectUnhealthy]
                      split
                      · exact ⟨s.unhealthyClients + 1, rfl⟩
                      · exact ⟨s.unhealthyClients, rfl⟩
                · rw [if_neg hroom]
                  exact .inr ⟨rfl, fun h => hroom h.1, s.unhealthyClients, rfl⟩
            | clientDone => exact .inr ⟨rfl, by simp, s.unhealthyClients - 1, rfl⟩
            | _ => exact .inr ⟨rfl, by simp, s.unhealthyClients, rfl⟩

/-- A wait that is over before it begins. -/
theorem whileUnhealthy_over (h : s.cancelled = true ∨ s.socket = none)
    (ready : Option (List Effect × LocalForwardSupervisor)) (event : SupervisorEvent) :
    ∃ result, s.whileUnhealthy ready event = s.finish result := by
  unfold whileUnhealthy
  cases hs : s.listener.bind ListenerRuntime.listener with
  | none => exact ⟨_, rfl⟩
  | some bound =>
      have hcancel : s.cancelled = true := h.resolve_right (by rw [socket, hs]; simp)
      dsimp only
      rw [if_pos hcancel]
      exact ⟨_, rfl⟩

/-- A wait for what is ready. -/
theorem whileUnhealthy_ready (hlive : s.cancelled = false) (hsocket : s.socket ≠ none)
    (next : List Effect × LocalForwardSupervisor) (event : SupervisorEvent) :
    s.whileUnhealthy (some next) event = next := by
  rw [socket] at hsocket
  unfold whileUnhealthy
  cases hs : s.listener.bind ListenerRuntime.listener with
  | none => exact absurd hs hsocket
  | some bound =>
      dsimp only
      rw [if_neg (by simp [hlive])]

theorem awaitHint_ready {hint : Notify} (h : s.retryHint.poll = (true, hint)) {resume : ℕ} :
    s.awaitHint resume event = ({ s with retryHint := hint }).whileUnhealthy
      (some (({ s with retryHint := hint }).attempt resume)) event := by
  simp only [awaitHint, h]
  rfl

theorem awaitHint_pending {hint : Notify} (h : s.retryHint.poll = (false, hint)) {resume : ℕ} :
    s.awaitHint resume event = ({ s with retryHint := hint }).whileUnhealthy none event := by
  simp only [awaitHint, h]
  rfl

/-! ## Going on -/

/-- The supervisor holds a bound listener: its own, or the one its
worker has for the time being. -/
def Held (s : LocalForwardSupervisor) : Prop :=
  match s.control with
  | .serving _ _ _ listener | .releasing _ _ _ listener => listener.listener ≠ none
  | .finished _ => False
  | _ => s.socket ≠ none

/-- **The supervisor goes on**: it is not told to stop, shows no end and
holds its listener. -/
structure Going (s : LocalForwardSupervisor) : Prop where
  live : s.cancelled = false
  state : s.state ≠ .stopped
  held : s.Held

/-- The error of `accept` reaches a wait of the supervisor: the tunnel is
not healthy, what the wait is for is not there yet, and there is room
for a client. -/
def AcceptFails (s : LocalForwardSupervisor) (event : SupervisorEvent) : Prop :=
  s.AcceptError event ∧
    match s.control with
    | .connecting _ => True
    | .blocked _ | .backoff _ => ¬ s.retryHint.Ready
    | _ => False

theorem going_attempt (hlive : s.cancelled = false) (hsocket : s.socket ≠ none) (n : ℕ) :
    Going (s.attempt n).2 := by
  unfold attempt
  rw [if_neg (by simp [hlive])]
  exact ⟨hlive, nofun, hsocket⟩

theorem going_afterFailure (hlive : s.cancelled = false) (hsocket : s.socket ≠ none) (n : ℕ)
    (reason : String) (blocked : Bool) (jitter : ℤ) (resume : ℕ) :
    Going (s.afterFailure n reason blocked jitter resume).2 := by
  refine ⟨hlive, ?_, ?_⟩
  · dsimp only [afterFailure, failureState]
    split <;> exact nofun
  · cases blocked <;> exact hsocket

/-- A wait goes on, with what it waited for or without. -/
theorem Going.whileUnhealthy (h : s.Going) (hsocket : s.socket ≠ none)
    {ready : Option (List Effect × LocalForwardSupervisor)}
    (hready : ∀ next, ready = some next → Going next.2)
    (hclient : ready = none → ¬ s.AcceptError event) :
    Going (s.whileUnhealthy ready event).2 := by
  rcases whileUnhealthy_cases s ready event with ⟨hend, -⟩ | ⟨-, next, hnext, heq⟩ |
    ⟨hnone, haccept, -⟩ | ⟨-, -, clients, heq⟩
  · rw [h.live] at hend
    simp [hsocket] at hend
  · rw [heq]; exact hready next hnext
  · exact absurd haccept (hclient hnone)
  · rw [heq]; exact ⟨h.live, h.state, h.held⟩

/-- The wait for the hint goes on. -/
theorem Going.awaitHint (h : s.Going) (hsocket : s.socket ≠ none) (resume : ℕ)
    (hclient : ¬ s.retryHint.Ready → ¬ s.AcceptError event) : Going (s.awaitHint resume event).2 := by
  rcases hp : s.retryHint.poll with ⟨_ | _, hint⟩
  all_goals have hpolled : Going { s with retryHint := hint } := ⟨h.live, h.state, h.held⟩
  · rw [awaitHint_pending hp]
    refine hpolled.whileUnhealthy hsocket (fun _ hnext => by simp at hnext) fun _ => hclient ?_
    simp [Notify.Ready, hp]
  · rw [awaitHint_ready hp]
    refine hpolled.whileUnhealthy hsocket (fun next hnext => ?_) fun hnone => by simp at hnone
    rw [← Option.some.inj hnext]
    exact going_attempt hpolled.live hsocket resume

theorem Going.serve (h : s.Going) (hsocket : s.socket ≠ none) (n : ℕ) (rtts : List Duration)
    (now : Instant) : Going (s.serve n rtts now).2 := by
  unfold LocalForwardSupervisor.serve
  unfold socket at hsocket
  cases hl : s.listener with
  | none => simp [hl] at hsocket
  | some listener =>
      have hbound : listener.listener ≠ none := by simpa [hl] using hsocket
      dsimp only
      rw [if_neg hbound]
      exact ⟨h.live, nofun, hbound⟩

/-- **One event of the task that is no error of `accept` in a wait.** -/
theorem Going.advance (h : s.Going) (haccept : ¬ AcceptFails s event) :
    Going (s.advance event).2 := by
  have hheld := h.held
  unfold Held at hheld
  unfold AcceptFails at haccept
  unfold LocalForwardSupervisor.advance
  cases hc : s.control with
  | spawned =>
      rw [hc] at hheld
      exact going_attempt h.live hheld 1
  | connecting n =>
      rw [hc] at hheld haccept
      refine h.whileUnhealthy hheld (fun next hnext => ?_) fun _ hclient => ?_
      · split at hnext
        · rw [← Option.some.inj hnext]
          exact ⟨h.live, h.state, hheld⟩
        · rw [← Option.some.inj hnext]
          exact going_afterFailure h.live hheld ..
        · simp at hnext
      · exact haccept ⟨hclient, trivial⟩
  | pinging n =>
      rw [hc] at hheld
      dsimp only
      split
      · exact h.serve hheld ..
      · exact going_afterFailure h.live hheld ..
      · exact h
  | serving n since worker listener =>
      rw [hc] at hheld
      dsimp only
      split
      · -- What is published is never the end.
        rcases hobs : worker.observe none with ⟨worker', _ | state⟩
        · exact ⟨h.live, h.state, hheld⟩
        · exact ⟨h.live, Worker.observe_ne_stopped hobs, hheld⟩
      · split
        · exact ⟨h.live, h.state, hheld⟩
        · exact ⟨h.live, h.state, hheld⟩
  | releasing n since outcome listener =>
      rw [hc] at hheld
      dsimp only
      split
      · rw [if_neg (by simp [h.live])]
        exact going_afterFailure (s := { s with listener := some listener }) h.live hheld ..
      · exact h
  | blocked resume =>
      rw [hc] at hheld haccept
      exact h.awaitHint hheld resume fun hready hclient => haccept ⟨hclient, hready⟩
  | backoff resume =>
      rw [hc] at hheld haccept
      dsimp only
      split
      · have hdropped : Going { s with retryHint := s.retryHint.drop, control := .backoff resume } :=
          ⟨h.live, h.state, hheld⟩
        refine hdropped.whileUnhealthy hheld (fun next hnext => ?_) fun hnone => by simp at hnone
        rw [← Option.some.inj hnext]
        exact going_attempt hdropped.live hheld resume
      · exact h.awaitHint hheld resume fun hready hclient => haccept ⟨hclient, hready⟩
  | finished result =>
      rw [hc] at hheld
      exact hheld.elim

theorem Going.step (h : s.Going) (hcancel : event ≠ .cancel) (haccept : ¬ AcceptFails s event) :
    Going (s.step event).2 := by
  unfold LocalForwardSupervisor.step
  split
  · exact absurd rfl hcancel
  · exact ⟨h.live, h.state, h.held⟩
  · exact h.advance haccept

/-! ## The one way to end -/

/-- `run` has returned, or shows that it has. -/
def Ended (s : LocalForwardSupervisor) : Prop :=
  (∃ result, s.control = .finished result) ∨ s.state = .stopped

theorem Going.not_ended (h : s.Going) : ¬ s.Ended := by
  rintro (⟨result, hresult⟩ | hstopped)
  · have hheld := h.held
    rw [Held, hresult] at hheld
    exact hheld
  · exact h.state hstopped

/-- An error of `accept` in a wait that is not ready. -/
theorem finished_whileUnhealthy (haccept : s.AcceptError event) :
    ∃ result, (s.whileUnhealthy none event).2.control = .finished result := by
  rcases whileUnhealthy_cases s none event with ⟨-, result, -, heq⟩ | ⟨-, next, hnext, -⟩ |
    ⟨-, -, error, heq⟩ | ⟨-, hno, -⟩
  · rw [heq]; exact ⟨_, rfl⟩
  · simp at hnext
  · rw [heq]; exact ⟨_, rfl⟩
  · exact absurd haccept hno

theorem finished_awaitHint (haccept : s.AcceptError event) (hhint : ¬ s.retryHint.Ready)
    (resume : ℕ) : ∃ result, (s.awaitHint resume event).2.control = .finished result := by
  rcases hp : s.retryHint.poll with ⟨_ | _, hint⟩
  · rw [awaitHint_pending hp]
    exact finished_whileUnhealthy (s := { s with retryHint := hint }) haccept
  · exact absurd (by rw [Notify.Ready, hp]) hhint

/-- **An error of `accept` in a wait ends the supervisor.** -/
theorem AcceptFails.finished (h : AcceptFails s event) :
    ∃ result, (s.step event).2.control = .finished result := by
  obtain ⟨haccept, hwait⟩ := h
  obtain ⟨error, rfl⟩ := haccept.2
  unfold step advance
  split at hwait
  · rename_i n hc
    rw [hc]
    exact finished_whileUnhealthy haccept
  · rename_i resume hc
    rw [hc]
    exact finished_awaitHint haccept hwait resume
  · rename_i resume hc
    rw [hc]
    exact finished_awaitHint haccept hwait resume
  · exact hwait.elim

theorem going_new {listener : ListenerRuntime} {mode : SupervisorMode} {retry : RetryPolicy}
    (h : new listener mode retry = .ok s) : s.Going := by
  unfold new at h
  split at h
  · simp at h
  · obtain rfl := Except.ok.inj h
    rename_i hbound
    exact ⟨rfl, by simp, hbound⟩

/-- **When the supervisor only ends as it is told to.** Over every script
of connections, pings, worker events, hints and clients without a
cancellation, `run` does not return and `Stopped` is not published
exactly where no error of `accept` reaches a wait of an unhealthy
tunnel. -/
theorem not_ended_iff (listener : ListenerRuntime) (mode : SupervisorMode) (retry : RetryPolicy)
    {s : LocalForwardSupervisor} (hnew : new listener mode retry = .ok s)
    (events : List SupervisorEvent) (hcancel : .cancel ∉ events) :
    (∀ t ∈ visited step s events, ¬ t.Ended) ↔
      ∀ x ∈ trace step s events, ¬ AcceptFails x.before x.input := by
  refine visited_forall_iff (I := Going) (A := fun _ event => event ≠ .cancel)
    (fun _ h => h.not_ended) (fun _ _ hlive haccept h => h.step hlive haccept)
    (fun _ _ _ haccept _ hgo => hgo (.inl haccept.finished)) (going_new hnew) fun x hx hinput => ?_
  exact hcancel (hinput ▸ mem_inputs_of_mem_trace hx)

/-! ## A client that is gone before it is accepted -/

/-- A bound listener. -/
def boundListener : ListenerRuntime :=
  ((ListenerRuntime.startListener ⟨.v4 127 0 0 1, 1080, 0⟩
    (.bound ⟨⟨.v4 127 0 0 1, 1080, 0⟩⟩ (.ok ⟨.v4 127 0 0 1, 1080, 0⟩)
      (.ok ⟨.v4 127 0 0 1, 1080, 0⟩)) 0).run ListenerRuntime.new).2

/-- The supervisor of a SOCKS tunnel. -/
def socksSupervisor : LocalForwardSupervisor where
  listener := some boundListener
  mode := .dynamic
  retries := {}

/-- A failed connection, a client during the wait, and then the error
`accept` has for a client that is gone. -/
def goneClient : List SupervisorEvent :=
  [.poll, .connected (.error (.hop 1 (.timeout "TCP connect"))) 0, .accepted (.ok ()),
    .accepted (.error ⟨.other, "Software caused connection abort (os error 10053)"⟩)]

theorem not_ended_iff_goneClient :
    (∀ t ∈ visited step socksSupervisor goneClient, ¬ t.Ended) ↔
      ∀ x ∈ trace step socksSupervisor goneClient, ¬ AcceptFails x.before x.input :=
  not_ended_iff boundListener .dynamic {} (by rfl) goneClient (by simp [goneClient])

/-- **The tunnel ends without being told to**: the error reaches the
wait before the next attempt. -/
theorem goneClient_ends :
    .cancel ∉ goneClient ∧ ¬ ∀ t ∈ visited step socksSupervisor goneClient, ¬ t.Ended := by
  refine ⟨by simp [goneClient], fun h => ?_⟩
  have hlast : (runState step socksSupervisor goneClient).state = .stopped := by decide +kernel
  refine h _ ?_ (.inr hlast)
  simp [goneClient, visited]

end LocalForwardSupervisor

end TunnelWarden

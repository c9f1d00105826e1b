import TunnelWarden.Supervisor.Port
import TunnelWarden.Supervisor.Model.Remote

/-!
# One retry policy, written twice

A script says what happens to a tunnel, and `Happening.local` and
`Happening.remote` what that is to either supervisor. `Alike` relates
the awaits of the two loops: played the same script, they stay at the
same await, with the same number, hint and worker report, and so publish
the same states but for the port at the far side (`same_policy`).
-/

namespace TunnelWarden

open Lifecycle

/-- What happens to a tunnel. -/
inductive Happening where
  /-- The task runs. -/
  | poll
  /-- The connector has a chain or an error. -/
  | connected (result : Except Ssh.SshChainError Unit) (jitter : ℤ)
  | pingFailed (error : Ssh.SshChainError) (now : Instant) (jitter : ℤ)
  /-- The first ping is answered; the far side listens at `remotePort`. -/
  | pinged (rtts : List Duration) (now : Instant) (jitter : ℤ) (remotePort : ℕ)
  /-- The pings of a tick, and the supervisor sees what is reported. -/
  | report (result : Except Ssh.SshChainError (List Duration))
  | sessionTick (closed : Bool)
  /-- The session is over, which a Remote worker may learn from its
  channels. -/
  | sessionEnded
  /-- A client comes, to either side. -/
  | client
  | connectionDone
  | clientDone
  | released (now : Instant) (jitter : ℤ)
  /-- The delay is over before a hint. -/
  | elapsed
  | hint
  | cancel

namespace Happening

/-- To a Local or Dynamic supervisor. Its task runs as often as the
Remote one. -/
def «local» : Happening → List SupervisorEvent
  | poll => [.poll]
  | connected result jitter => [.connected result jitter]
  | pingFailed error now jitter => [.pinged (.error error) now jitter]
  | pinged rtts now jitter _ => [.poll, .pinged (.ok rtts) now jitter]
  | report result => [.healthTick result, .healthChanged]
  | sessionTick closed => [.sessionTick closed]
  | sessionEnded => [.poll, .sessionTick true]
  | client => [.accepted (.ok ())]
  | connectionDone => [.connectionDone]
  | clientDone => [.clientDone]
  | released now jitter => [.released now jitter]
  | elapsed => [.elapsed]
  | hint => [.notify]
  | cancel => [.cancel]

/-- To a Remote supervisor, whose registration succeeds. -/
def remote : Happening → List SupervisorEvent
  | poll => [.poll]
  | connected result jitter => [.connected result jitter]
  | pingFailed error now jitter => [.pinged (.error error) now jitter]
  | pinged rtts now jitter remotePort =>
    [.pinged (.ok rtts) now jitter, .registered (.ok remotePort) now jitter]
  | report result => [.healthTick result, .healthChanged]
  | sessionTick closed => [.sessionTick closed]
  | sessionEnded => [.channel false, .sessionTick true]
  | client => [.channel true]
  | connectionDone => [.connectionDone]
  | clientDone => [.poll]
  | released now jitter => [.released now jitter]
  | elapsed => [.elapsed]
  | hint => [.notify]
  | cancel => [.cancel]

end Happening

/-- A state, whatever its port at the far side. -/
def SupervisorState.anyPort : SupervisorState → SupervisorState
  | .healthy rtts _ => .healthy rtts none
  | state => state

/-- An effect, likewise. -/
def Effect.anyPort : Effect → Effect
  | .publish state => .publish state.anyPort
  | .connect => .connect

/-! ## Alike -/

section Alike

variable {given : ListenerRuntime} {l : LocalForwardSupervisor} {r : RemoteForwardSupervisor}

/-- What the two supervisors share wherever they are. -/
structure Shared (l : LocalForwardSupervisor) (r : RemoteForwardSupervisor) : Prop where
  retries : l.retries = r.retries
  cancelled : l.cancelled = r.cancelled
  hint : l.retryHint = r.retryHint
  target : validTarget r.localTarget = true

/-- Two workers that have found the same of their sessions. -/
structure SameHealth (w w' : Worker) : Prop where
  failures : w.pingFailures = w'.pingFailures
  health : w.health = w'.health
  unseen : w.unseen = w'.unseen

theorem SameHealth.trans {w₁ w₂ w₃ : Worker} (h : SameHealth w₁ w₂) (h' : SameHealth w₂ w₃) :
    SameHealth w₁ w₃ :=
  ⟨h.failures.trans h'.failures, h.health.trans h'.health, h.unseen.trans h'.unseen⟩

/-- **The awaits that correspond.** Outside its worker's time the Local
supervisor has its listener. What a worker ended with is the same in
words, or a cancellation. -/
def SamePlace (given : ListenerRuntime) (l : LocalForwardSupervisor)
    (r : RemoteForwardSupervisor) : Prop :=
  match l.control with
  | .spawned => l.listener = some given ∧ r.control = .spawned
  | .connecting n => l.listener = some given ∧ r.control = .connecting n
  | .pinging n => l.listener = some given ∧ r.control = .pinging n
  | .serving n since worker listener =>
      listener = given ∧ ∃ port worker', r.control = .serving n since port worker' ∧
        SameHealth worker worker'
  | .releasing n since outcome listener =>
      listener = given ∧ ∃ outcome', r.control = .stopping n since outcome' ∧
        (l.cancelled = true ∨ LocalForwardSupervisor.outcomeReason outcome =
          RemoteForwardSupervisor.outcomeReason outcome')
  | .blocked resume => l.listener = some given ∧ r.control = .blocked resume
  | .backoff resume => l.listener = some given ∧ r.control = .backoff resume
  | .finished _ => False

/-- **The two supervisors are alike**: both have returned, or are at the
same place. -/
def Alike (given : ListenerRuntime) (l : LocalForwardSupervisor)
    (r : RemoteForwardSupervisor) : Prop :=
  ((∃ result, l.control = .finished result) ∧ r.control = .finished) ∨
    Shared l r ∧ SamePlace given l r

/-- Two steps that look alike and leave the supervisors so. -/
def Agree (given : ListenerRuntime) (x : List Effect × LocalForwardSupervisor)
    (y : List Effect × RemoteForwardSupervisor) : Prop :=
  x.1.map Effect.anyPort = y.1.map Effect.anyPort ∧ Alike given x.2 y.2

theorem agree_finish (result : Except SupervisorError Unit) :
    Agree given (l.finish result) r.finish :=
  ⟨rfl, .inl ⟨⟨_, rfl⟩, rfl⟩⟩

/-- Both go to another place, and say nothing. -/
theorem agree_move (h : Shared l r) {c : LocalControl} {c' : RemoteControl}
    (hplace : SamePlace given { l with control := c } { r with control := c' }) :
    Agree given ([], { l with control := c }) ([], { r with control := c' }) :=
  ⟨rfl, .inr ⟨⟨h.retries, h.cancelled, h.hint, h.target⟩, hplace⟩⟩

/-- The next attempt. -/
theorem agree_attempt (h : Shared l r) (hl : l.listener = some given) (n : ℕ) :
    Agree given (l.attempt n) (r.attempt n) := by
  unfold LocalForwardSupervisor.attempt RemoteForwardSupervisor.attempt
  rw [h.cancelled]
  split
  · exact agree_finish _
  · exact ⟨rfl, .inr ⟨⟨h.retries, rfl, h.hint, h.target⟩, hl, rfl⟩⟩

/-- A failure, up to its wait. -/
theorem agree_afterFailure (h : Shared l r) (hl : l.listener = some given) (n : ℕ)
    (reason : String) (blocked : Bool) (jitter : ℤ) (resume : ℕ) :
    Agree given (l.afterFailure n reason blocked jitter resume)
      (r.afterFailure n reason blocked jitter resume) := by
  refine ⟨?_, .inr ⟨⟨h.retries, h.cancelled, h.hint, h.target⟩, ?_⟩⟩
  · unfold LocalForwardSupervisor.afterFailure RemoteForwardSupervisor.afterFailure
    rw [h.retries]
  · cases blocked with
    | true => exact ⟨hl, rfl⟩
    | false => exact ⟨hl, rfl⟩

/-- A wait that is ready. The Local loop looks at its listener and at
the cancellation, the Remote one at the cancellation. -/
theorem agree_ready (hbound : given.listener ≠ none) (h : Shared l r) (hl : l.listener = some given)
    {next : List Effect × LocalForwardSupervisor} {next' : List Effect × RemoteForwardSupervisor}
    (hnext : Agree given next next') (event : SupervisorEvent) :
    Agree given (l.whileUnhealthy (some next) event) (if r.cancelled then r.finish else next') := by
  have hsocket : l.socket ≠ none := by simpa [LocalForwardSupervisor.socket, hl] using hbound
  split
  · rename_i hcancel
    obtain ⟨result, heq⟩ := LocalForwardSupervisor.whileUnhealthy_over
      (.inl (h.cancelled.trans hcancel)) (some next) event
    rw [heq]
    exact agree_finish _
  · rename_i hcancel
    have hlive : l.cancelled = false := h.cancelled.trans (by simpa using hcancel)
    rw [LocalForwardSupervisor.whileUnhealthy_ready hlive hsocket]
    exact hnext

/-- A wait that is not. Its clients change nothing others see. -/
theorem agree_pending (hbound : given.listener ≠ none) (h : Shared l r)
    (hl : l.listener = some given) (hplace : SamePlace given l r) {event : SupervisorEvent}
    (haccept : ∀ error, event ≠ .accepted (.error error)) :
    Agree given (l.whileUnhealthy none event) (if r.cancelled then r.finish else ([], r)) := by
  have hsocket : l.socket ≠ none := by simpa [LocalForwardSupervisor.socket, hl] using hbound
  split
  · rename_i hcancel
    obtain ⟨result, heq⟩ := LocalForwardSupervisor.whileUnhealthy_over
      (.inl (h.cancelled.trans hcancel)) none event
    rw [heq]
    exact agree_finish _
  · rename_i hcancel
    have hlive : l.cancelled = false := h.cancelled.trans (by simpa using hcancel)
    rcases l.whileUnhealthy_cases none event with ⟨hover | hover, -⟩ | ⟨-, next, hnext, -⟩ |
      ⟨-, ⟨-, error, herror⟩, -⟩ | ⟨-, -, clients, heq⟩
    · exact absurd hover hsocket
    · exact absurd (hover.symm.trans hlive) (by decide)
    · cases hnext
    · exact absurd herror (haccept error)
    · rw [heq]
      exact ⟨rfl, .inr ⟨⟨h.retries, h.cancelled, h.hint, h.target⟩, hplace⟩⟩

/-- A wait for the hint, which both poll. -/
theorem agree_awaitHint (hbound : given.listener ≠ none) (h : Shared l r)
    (hl : l.listener = some given) (hplace : SamePlace given l r) {event : SupervisorEvent}
    (haccept : ∀ error, event ≠ .accepted (.error error)) (resume : ℕ) :
    Agree given (l.awaitHint resume event) (r.awaitHint resume) := by
  have hshared : ∀ hint, Shared { l with retryHint := hint } { r with retryHint := hint } :=
    fun _ => ⟨h.retries, h.cancelled, rfl, h.target⟩
  unfold RemoteForwardSupervisor.awaitHint
  split
  · rename_i hcancel
    have hover : l.cancelled = true := h.cancelled.trans hcancel
    rcases hp : l.retryHint.poll with ⟨_ | _, hint⟩
    · rw [LocalForwardSupervisor.awaitHint_pending hp]
      obtain ⟨result, heq⟩ := LocalForwardSupervisor.whileUnhealthy_over
        (s := { l with retryHint := hint }) (.inl hover) none event
      rw [heq]
      exact agree_finish _
    · rw [LocalForwardSupervisor.awaitHint_ready hp]
      obtain ⟨result, heq⟩ := LocalForwardSupervisor.whileUnhealthy_over
        (s := { l with retryHint := hint }) (.inl hover) (some _) event
      rw [heq]
      exact agree_finish _
  · rename_i hcancel
    rcases hp : l.retryHint.poll with ⟨_ | _, hint⟩
    · have hwait := agree_pending hbound (hshared hint) hl hplace haccept
      rw [if_neg hcancel] at hwait
      rw [LocalForwardSupervisor.awaitHint_pending hp, ← h.hint, hp]
      exact hwait
    · have hwait := agree_ready hbound (hshared hint) hl (agree_attempt (hshared hint) hl resume) event
      rw [if_neg hcancel] at hwait
      rw [LocalForwardSupervisor.awaitHint_ready hp, ← h.hint, hp]
      exact hwait

/-! ## One event -/

/-- **The events that go together.** The last four do only where they
are not what the supervisor waits for. -/
inductive Paired : SupervisorEvent → SupervisorEvent → Prop
  | poll : Paired .poll .poll
  | connected (result jitter) : Paired (.connected result jitter) (.connected result jitter)
  | pingFailed (error now jitter) :
    Paired (.pinged (.error error) now jitter) (.pinged (.error error) now jitter)
  | healthTick (result) : Paired (.healthTick result) (.healthTick result)
  | sessionTick (closed) : Paired (.sessionTick closed) (.sessionTick closed)
  | client : Paired (.accepted (.ok ())) (.channel true)
  | connectionDone : Paired .connectionDone .connectionDone
  | clientDone : Paired .clientDone .poll
  | released (now jitter) : Paired (.released now jitter) (.released now jitter)
  | elapsed : Paired .elapsed .elapsed
  | pinged (rtts now jitter) : Paired .poll (.pinged (.ok rtts) now jitter)
  | registered (rtts now jitter port) :
    Paired (.pinged (.ok rtts) now jitter) (.registered (.ok port) now jitter)
  | ended : Paired .poll (.channel false)
  | healthChanged : Paired .healthChanged .healthChanged

/-- News from a worker that both supervisors get, but not as one
event. -/
def News (event' : SupervisorEvent) : Prop := event' = .channel false ∨ event' = .healthChanged

/-- The first ping is answered. -/
def Pong (event : SupervisorEvent) : Prop :=
  ∃ rtts now jitter, event = .pinged (.ok rtts) now jitter

variable {event event' : SupervisorEvent}

theorem Paired.accept (hp : Paired event event') (error : IoError) :
    event ≠ .accepted (.error error) := by
  intro h
  cases hp <;> cases h

/-- The pings of a tick have the same outcome. -/
theorem healthTick_alike {w w' : Worker} (hw : SameHealth w w')
    (result : Except Ssh.SshChainError (List Duration)) :
    (∃ v v', w.healthTick result = .ok v ∧ w'.healthTick result = .ok v' ∧ SameHealth v v') ∨
      ∃ error, w.healthTick result = .error error ∧ w'.healthTick result = .error error := by
  unfold Worker.healthTick
  rw [hw.failures]
  cases result with
  | ok rtts => exact .inl ⟨_, _, rfl, rfl, rfl, rfl, rfl⟩
  | error error =>
      dsimp only
      -- the third failure in a row is one too many for both
      by_cases hmany : maxPingFailures ≤ min (w'.pingFailures + 1) 255
      · exact .inr ⟨error, if_pos hmany, if_pos hmany⟩
      · exact .inl ⟨_, _, if_neg hmany, if_neg hmany, rfl, rfl, rfl⟩

/-- A report is the same news. -/
theorem observe_alike {w w' : Worker} (hw : SameHealth w w') (port : ℕ) :
    SameHealth (w.observe none).1 (w'.observe (some port)).1 ∧
      (w.observe none).2.map SupervisorState.anyPort =
        (w'.observe (some port)).2.map SupervisorState.anyPort := by
  unfold Worker.observe
  rw [hw.unseen, hw.health]
  split
  · refine ⟨⟨hw.failures, rfl, rfl⟩, ?_⟩
    cases w'.health with
    | none => rfl
    | some health =>
        cases health with
        | healthy rtts => rfl
        | degraded failures reason => rfl
  · exact ⟨hw, rfl⟩

/-- The workers go on alike, or end with the same words. -/
theorem runs_alike {w w' : Worker} (hw : SameHealth w w') (hp : Paired event event')
    (hnews : ¬ News event') :
    (∃ v v', w.runLocal false event = .inl v ∧ w'.runRemote event' = .inl v' ∧ SameHealth v v') ∨
      ∃ outcome outcome', w.runLocal false event = .inr outcome ∧ w'.runRemote event' = .inr outcome' ∧
        LocalForwardSupervisor.outcomeReason outcome =
          RemoteForwardSupervisor.outcomeReason outcome' := by
  cases hp with
  | healthTick result =>
      rcases healthTick_alike hw result with ⟨v, v', hv, hv', hvv'⟩ | ⟨error, hv, hv'⟩
      · refine .inl ⟨v, v', ?_, ?_, hvv'⟩
        · simp [Worker.runLocal, hv]
        · simp [Worker.runRemote, hv']
      · refine .inr ⟨.error (.health error), .error (.health error), ?_, ?_, rfl⟩
        · simp [Worker.runLocal, hv]
        · simp [Worker.runRemote, hv']
  | sessionTick closed =>
      cases closed with
      | true => exact .inr ⟨_, _, rfl, rfl, rfl⟩
      | false => exact .inl ⟨w, w', rfl, rfl, hw⟩
  | client =>
      have hlocal : ∃ v, w.runLocal false (.accepted (.ok ())) = .inl v ∧ SameHealth v w := by
        by_cases hroom : w.connections < maxActiveConnections
        · exact ⟨w.connectionOpened, by simp [Worker.runLocal, hroom], rfl, rfl, rfl⟩
        · exact ⟨w, by simp [Worker.runLocal, hroom], rfl, rfl, rfl⟩
      have hremote : ∃ v', w'.runRemote (.channel true) = .inl v' ∧ SameHealth w' v' := by
        by_cases hroom : w'.connections < maxActiveConnections
        · exact ⟨w'.connectionOpened, by simp [Worker.runRemote, hroom], rfl, rfl, rfl⟩
        · exact ⟨w', by simp [Worker.runRemote, hroom], rfl, rfl, rfl⟩
      obtain ⟨v, hv, hvw⟩ := hlocal
      obtain ⟨v', hv', hwv'⟩ := hremote
      exact .inl ⟨v, v', hv, hv', (hvw.trans hw).trans hwv'⟩
  | connectionDone => exact .inl ⟨_, _, rfl, rfl, hw.failures, hw.health, hw.unseen⟩
  | ended => exact absurd (.inl rfl) hnews
  | healthChanged => exact absurd (.inr rfl) hnews
  | _ => exact .inl ⟨w, w', rfl, rfl, hw⟩

/-- The connector is waited for. -/
theorem agree_connecting (hbound : given.listener ≠ none) (hs : Shared l r)
    (hplace : SamePlace given l r) {n : ℕ} (hc : l.control = .connecting n)
    (hp : Paired event event') : Agree given (l.advance event) (r.advance event') := by
  have hat := hplace
  rw [SamePlace, hc] at hat
  obtain ⟨hl, hr⟩ := hat
  unfold LocalForwardSupervisor.advance RemoteForwardSupervisor.advance
  rw [hc, hr]
  have haccept := hp.accept
  cases hp with
  | connected result jitter =>
      cases result with
      | ok _ =>
          have hnext : Agree given ([], { l with control := .pinging n })
              ([], { r with control := .pinging n }) := agree_move hs ⟨hl, rfl⟩
          exact agree_ready hbound hs hl hnext _
      | error error => exact agree_ready hbound hs hl (agree_afterFailure hs hl ..) _
  | _ => exact agree_pending hbound hs hl hplace haccept

/-- The listener comes back, and then both look at the cancellation. -/
theorem agree_releasing (hs : Shared l r) (hplace : SamePlace given l r) {n : ℕ} {since : Instant}
    {outcome : Except LocalForwardError Unit} {listener : ListenerRuntime}
    (hc : l.control = .releasing n since outcome listener) (hp : Paired event event') :
    Agree given (l.advance event) (r.advance event') := by
  have hstay : Agree given ([], l) ([], r) := ⟨rfl, .inr ⟨hs, hplace⟩⟩
  have hback : Shared { l with listener := some listener } r :=
    ⟨hs.retries, hs.cancelled, hs.hint, hs.target⟩
  rw [SamePlace, hc] at hplace
  obtain ⟨rfl, outcome', hr, hout⟩ := hplace
  unfold LocalForwardSupervisor.advance RemoteForwardSupervisor.advance
  rw [hc, hr]
  cases hp with
  | released now jitter =>
      dsimp only
      split
      · rename_i hcancel
        rw [if_pos (hs.cancelled.symm.trans hcancel)]
        exact agree_finish _
      · rename_i hcancel
        rw [if_neg (fun hr => hcancel (hs.cancelled.trans hr)), hout.resolve_left hcancel,
          ← hs.retries]
        exact agree_afterFailure hback rfl ..
  | _ => exact hstay

/-- The delay, or the hint. -/
theorem agree_backoff (hbound : given.listener ≠ none) (hs : Shared l r)
    (hplace : SamePlace given l r) {resume : ℕ} (hc : l.control = .backoff resume)
    (hp : Paired event event') : Agree given (l.advance event) (r.advance event') := by
  have hat := hplace
  rw [SamePlace, hc] at hat
  obtain ⟨hl, hr⟩ := hat
  unfold LocalForwardSupervisor.advance RemoteForwardSupervisor.advance
  rw [hc, hr]
  have haccept := hp.accept
  cases hp with
  | elapsed =>
      have hdropped : Shared { l with retryHint := l.retryHint.drop, control := .backoff resume }
          { r with retryHint := r.retryHint.drop, control := .backoff resume } :=
        ⟨hs.retries, hs.cancelled, congrArg Notify.drop hs.hint, hs.target⟩
      exact agree_ready hbound hdropped hl (agree_attempt hdropped hl resume) _
  | _ => exact agree_awaitHint hbound hs hl hplace haccept resume

/-- A Local supervisor whose worker goes on. -/
theorem local_goesOn (event : SupervisorEvent) {n : ℕ} {since : Instant} {worker worker' : Worker}
    {listener : ListenerRuntime} (hc : l.control = .serving n since worker listener)
    (hevent : event ≠ .healthChanged) (hrun : worker.runLocal l.cancelled event = .inl worker') :
    l.advance event = ([], { l with control := .serving n since worker' listener }) := by
  cases event with
  | healthChanged => exact absurd rfl hevent
  | _ => simp only [LocalForwardSupervisor.advance, hc, hrun]

/-- One whose worker ends. -/
theorem local_ends (event : SupervisorEvent) {n : ℕ} {since : Instant} {worker : Worker}
    {listener : ListenerRuntime} {outcome : Except LocalForwardError Unit}
    (hc : l.control = .serving n since worker listener) (hevent : event ≠ .healthChanged)
    (hrun : worker.runLocal l.cancelled event = .inr outcome) :
    l.advance event = ([], { l with control := .releasing n since outcome listener }) := by
  cases event with
  | healthChanged => exact absurd rfl hevent
  | _ => simp only [LocalForwardSupervisor.advance, hc, hrun]

/-- A Remote supervisor whose worker goes on. -/
theorem remote_goesOn (event : SupervisorEvent) {n port : ℕ} {since : Instant}
    {worker worker' : Worker} (hc : r.control = .serving n since port worker)
    (hlive : r.cancelled = false)
    (hevent : event ≠ .healthChanged) (hrun : worker.runRemote event = .inl worker') :
    r.advance event = ([], { r with control := .serving n since port worker' }) := by
  cases event with
  | healthChanged => exact absurd rfl hevent
  | _ => simp [RemoteForwardSupervisor.advance, hc, hlive, hrun]

/-- One whose worker ends. -/
theorem remote_ends (event : SupervisorEvent) {n port : ℕ} {since : Instant} {worker : Worker}
    {outcome : Except RemoteForwardError Unit} (hc : r.control = .serving n since port worker)
    (hlive : r.cancelled = false) (hevent : event ≠ .healthChanged)
    (hrun : worker.runRemote event = .inr outcome) :
    r.advance event = ([], { r with control := .stopping n since outcome }) := by
  cases event with
  | healthChanged => exact absurd rfl hevent
  | _ => simp [RemoteForwardSupervisor.advance, hc, hlive, hrun]

/-- A cancellation ends the worker, of whichever side. -/
theorem agree_cancelled (hs : Shared l r) {n port : ℕ} {since : Instant} {worker worker' : Worker}
    (hl : l.control = .serving n since worker given) (hr : r.control = .serving n since port worker')
    (hcancel : l.cancelled = true) (hevent : event ≠ .healthChanged) :
    Agree given (l.advance event) (r.advance event') := by
  have hcancel' : r.cancelled = true := hs.cancelled.symm.trans hcancel
  have hlocal : l.advance event = ([], { l with control := .releasing n since (.ok ()) given }) := by
    cases event with
    | healthChanged => exact absurd rfl hevent
    | _ => simp [LocalForwardSupervisor.advance, hl, Worker.runLocal, hcancel]
  have hremote : r.advance event' = ([], { r with control := .stopping n since (.ok ()) }) := by
    simp [RemoteForwardSupervisor.advance, hr, hcancel']
  rw [hlocal, hremote]
  exact agree_move hs ⟨rfl, .ok (), rfl, .inl hcancel⟩

/-- The worker is served. -/
theorem agree_serving (hs : Shared l r) (hplace : SamePlace given l r) {n : ℕ} {since : Instant}
    {worker : Worker} {listener : ListenerRuntime}
    (hc : l.control = .serving n since worker listener) (hp : Paired event event')
    (hnews : ¬ News event') : Agree given (l.advance event) (r.advance event') := by
  rw [SamePlace, hc] at hplace
  obtain ⟨rfl, port, worker', hr, hw⟩ := hplace
  have hevent' : event' ≠ .healthChanged := fun h => hnews (.inr h)
  have hevent : event ≠ .healthChanged := by
    rintro rfl
    cases hp
    exact hevent' rfl
  cases hcancel : l.cancelled with
  | true => exact agree_cancelled hs hc hr hcancel hevent
  | false =>
      have hlive : r.cancelled = false := hs.cancelled.symm.trans hcancel
      rcases runs_alike hw hp hnews with ⟨v, v', hv, hv', hvv'⟩ | ⟨outcome, outcome', ho, ho', hout⟩
      · rw [← hcancel] at hv
        rw [local_goesOn event hc hevent hv, remote_goesOn event' hr hlive hevent' hv']
        exact agree_move hs ⟨rfl, port, v', rfl, hvv'⟩
      · rw [← hcancel] at ho
        rw [local_ends event hc hevent ho, remote_ends event' hr hlive hevent' ho']
        exact agree_move hs ⟨rfl, outcome', rfl, .inr hout⟩

/-- **One event of both tasks.** -/
theorem agree_advance (hbound : given.listener ≠ none) (h : Alike given l r)
    (hp : Paired event event') (hpong : ∀ n, l.control = .pinging n → ¬ Pong event ∧ ¬ Pong event')
    (hnews : ∀ n since w g, l.control = .serving n since w g → ¬ News event') :
    Agree given (l.advance event) (r.advance event') := by
  rcases h with ⟨⟨result, hl⟩, hr⟩ | ⟨hs, hplace⟩
  · unfold LocalForwardSupervisor.advance RemoteForwardSupervisor.advance
    rw [hl, hr]
    exact ⟨rfl, .inl ⟨⟨result, hl⟩, hr⟩⟩
  · have hat := hplace
    cases hc : l.control with
    | spawned =>
        rw [SamePlace, hc] at hat
        obtain ⟨hl, hr⟩ := hat
        unfold LocalForwardSupervisor.advance RemoteForwardSupervisor.advance
        rw [hc, hr]
        exact agree_attempt hs hl 1
    | connecting n => exact agree_connecting hbound hs hplace hc hp
    | pinging n =>
        rw [SamePlace, hc] at hat
        obtain ⟨hl, hr⟩ := hat
        unfold LocalForwardSupervisor.advance RemoteForwardSupervisor.advance
        rw [hc, hr]
        obtain ⟨hno, hno'⟩ := hpong n hc
        cases hp with
        | pingFailed error now jitter => exact agree_afterFailure hs hl ..
        | pinged rtts now jitter => exact absurd ⟨rtts, now, jitter, rfl⟩ hno'
        | registered rtts now jitter port => exact absurd ⟨rtts, now, jitter, rfl⟩ hno
        | _ => exact ⟨rfl, .inr ⟨hs, hplace⟩⟩
    | serving n since worker listener =>
        exact agree_serving hs hplace hc hp (hnews n since worker listener hc)
    | releasing n since outcome listener => exact agree_releasing hs hplace hc hp
    | blocked resume =>
        rw [SamePlace, hc] at hat
        obtain ⟨hl, hr⟩ := hat
        unfold LocalForwardSupervisor.advance RemoteForwardSupervisor.advance
        rw [hc, hr]
        exact agree_awaitHint hbound hs hl hplace hp.accept resume
    | backoff resume => exact agree_backoff hbound hs hplace hc hp
    | finished result =>
        rw [SamePlace, hc] at hat
        exact hat.elim

/-- **One event.** A signal and a cancellation come to both. -/
theorem agree_step (hbound : given.listener ≠ none) (h : Alike given l r)
    (hp : Paired event event') (hpong : ∀ n, l.control = .pinging n → ¬ Pong event ∧ ¬ Pong event')
    (hnews : ∀ n since w g, l.control = .serving n since w g → ¬ News event') :
    Agree given (l.step event) (r.step event') := by
  have hadvance := agree_advance hbound h hp hpong hnews
  cases hp <;> exact hadvance

theorem agree_notify (h : Alike given l r) : Agree given (l.step .notify) (r.step .notify) := by
  rcases h with hover | ⟨hs, hplace⟩
  · exact ⟨rfl, .inl hover⟩
  · exact ⟨rfl, .inr ⟨⟨hs.retries, hs.cancelled, congrArg Notify.notifyOne hs.hint, hs.target⟩,
      hplace⟩⟩

theorem agree_cancel (h : Alike given l r) : Agree given (l.step .cancel) (r.step .cancel) := by
  rcases h with hover | ⟨hs, hplace⟩
  · exact ⟨rfl, .inl hover⟩
  · refine ⟨rfl, .inr ⟨⟨hs.retries, rfl, hs.hint, hs.target⟩, ?_⟩⟩
    have hsame : (l.step .cancel).2.control = l.control := rfl
    unfold SamePlace at hplace ⊢
    rw [hsame]
    cases hc : l.control with
    | releasing n since outcome listener =>
        rw [hc] at hplace
        obtain ⟨rfl, outcome', hr, -⟩ := hplace
        exact ⟨rfl, outcome', hr, .inl rfl⟩
    | _ =>
        rw [hc] at hplace
        exact hplace

/-! ## What happens to a tunnel -/

/-- Two steps one after the other. -/
theorem Agree.then {x : List Effect × LocalForwardSupervisor}
    {y : List Effect × RemoteForwardSupervisor} (h : Agree given x y)
    (hnext : Agree given (x.2.step event) (y.2.step event')) :
    Agree given (x.1 ++ (x.2.step event).1, (x.2.step event).2)
      (y.1 ++ (y.2.step event').1, (y.2.step event').2) := by
  refine ⟨?_, hnext.2⟩
  rw [List.map_append, List.map_append, h.1, hnext.1]

/-- The two are alike, having said the same. -/
def AgreeAfter (given : ListenerRuntime) (l : LocalForwardSupervisor) (r : RemoteForwardSupervisor)
    (events events' : List SupervisorEvent) : Prop :=
  Agree given (answers LocalForwardSupervisor.step l events,
      runState LocalForwardSupervisor.step l events)
    (answers RemoteForwardSupervisor.step r events',
      runState RemoteForwardSupervisor.step r events')

theorem AgreeAfter.one (h : Agree given (l.step event) (r.step event')) :
    AgreeAfter given l r [event] [event'] := by
  unfold AgreeAfter
  simpa [answers, trace] using h

theorem AgreeAfter.two {event₂ event₂' : SupervisorEvent}
    (h : Agree given (l.step event) (r.step event'))
    (hnext : Agree given ((l.step event).2.step event₂) ((r.step event').2.step event₂')) :
    AgreeAfter given l r [event, event₂] [event', event₂'] := by
  unfold AgreeAfter
  simpa [answers, trace] using h.then hnext

/-- An event that means something to a worker at most. -/
def Idle (event : SupervisorEvent) : Prop :=
  event = .poll ∨ ∃ result, event = .healthTick result

/-- Where a wait leads: nowhere, to the next attempt or to the end. -/
def Waited (l : LocalForwardSupervisor) (control : LocalControl) : Prop :=
  control = l.control ∨ (∃ n, control = .connecting n) ∨ ∃ result, control = .finished result

theorem waited_attempt (n : ℕ) : Waited l (l.attempt n).2.control := by
  unfold LocalForwardSupervisor.attempt
  split
  · exact .inr (.inr ⟨_, rfl⟩)
  · exact .inr (.inl ⟨n, rfl⟩)

theorem waited_whileUnhealthy {ready : Option (List Effect × LocalForwardSupervisor)}
    (hready : ∀ next, ready = some next → Waited l next.2.control) :
    Waited l (l.whileUnhealthy ready event).2.control := by
  rcases l.whileUnhealthy_cases ready event with ⟨-, result, -, heq⟩ | ⟨-, next, hnext, heq⟩ |
    ⟨-, -, error, heq⟩ | ⟨-, -, clients, heq⟩
  · rw [heq]
    exact .inr (.inr ⟨_, rfl⟩)
  · rw [heq]
    exact hready next hnext
  · rw [heq]
    exact .inr (.inr ⟨_, rfl⟩)
  · rw [heq]
    exact .inl rfl

theorem waited_awaitHint (resume : ℕ) : Waited l (l.awaitHint resume event).2.control := by
  rcases hp : l.retryHint.poll with ⟨_ | _, hint⟩
  · rw [LocalForwardSupervisor.awaitHint_pending hp]
    exact waited_whileUnhealthy (l := { l with retryHint := hint }) fun _ hnext => by cases hnext
  · rw [LocalForwardSupervisor.awaitHint_ready hp]
    refine waited_whileUnhealthy (l := { l with retryHint := hint }) fun next hnext => ?_
    rw [← Option.some.inj hnext]
    exact waited_attempt resume

/-- **What an idle event does to a supervisor** that has no worker. -/
theorem waited_of_idle (hidle : Idle event)
    (hserving : ∀ n since w g, l.control ≠ .serving n since w g) :
    Waited l (l.step event).2.control := by
  have hstep : l.step event = l.advance event := by
    rcases hidle with rfl | ⟨result, rfl⟩
    · rfl
    · rfl
  rw [hstep]
  unfold LocalForwardSupervisor.advance
  cases hc : l.control with
  | spawned => exact waited_attempt 1
  | connecting n =>
      rcases hidle with rfl | ⟨result, rfl⟩
      · exact waited_whileUnhealthy fun _ hnext => by cases hnext
      · exact waited_whileUnhealthy fun _ hnext => by cases hnext
  | serving n since worker listener => exact absurd hc (hserving n since worker listener)
  | pinging n =>
      rcases hidle with rfl | ⟨result, rfl⟩
      · exact .inl rfl
      · exact .inl rfl
  | releasing n since outcome listener =>
      rcases hidle with rfl | ⟨result, rfl⟩
      · exact .inl rfl
      · exact .inl rfl
  | blocked resume => exact waited_awaitHint resume
  | backoff resume =>
      rcases hidle with rfl | ⟨result, rfl⟩
      · exact waited_awaitHint resume
      · exact waited_awaitHint resume
  | finished result => exact .inl rfl

/-- What an idle event does to one that has. -/
theorem served_of_idle (hidle : Idle event) {n : ℕ} {since : Instant} {worker : Worker}
    {listener : ListenerRuntime} (hc : l.control = .serving n since worker listener) :
    (∃ worker', (l.step event).2.control = .serving n since worker' listener ∧
        (l.step event).2.cancelled = false) ∨
      ∃ outcome, (l.step event).2.control = .releasing n since outcome listener := by
  have hstep : l.step event = l.advance event := by
    rcases hidle with rfl | ⟨result, rfl⟩
    · rfl
    · rfl
  have hevent : event ≠ .healthChanged := by
    rcases hidle with rfl | ⟨result, rfl⟩ <;> exact nofun
  rw [hstep]
  rcases hrun : worker.runLocal l.cancelled event with worker' | outcome
  · rw [local_goesOn event hc hevent hrun]
    refine .inl ⟨worker', rfl, ?_⟩
    cases hcancel : l.cancelled with
    | true => simp [Worker.runLocal, hcancel] at hrun
    | false => rfl
  · rw [local_ends event hc hevent hrun]
    exact .inr ⟨outcome, rfl⟩

/-- An idle event does not begin a ping. -/
theorem pinging_of_idle (hidle : Idle event) {n : ℕ}
    (hc : (l.step event).2.control = .pinging n) : l.control = .pinging n := by
  by_cases hserving : ∃ n since w g, l.control = .serving n since w g
  · obtain ⟨n', since, w, g, hl⟩ := hserving
    rcases served_of_idle hidle hl with ⟨_, h, -⟩ | ⟨_, h⟩
    · cases h.symm.trans hc
    · cases h.symm.trans hc
  · rcases waited_of_idle hidle fun n since w g hl => hserving ⟨n, since, w, g, hl⟩ with
      h | ⟨_, h⟩ | ⟨_, h⟩
    · exact h.symm.trans hc
    · cases h.symm.trans hc
    · cases h.symm.trans hc

/-- Nor does it leave a worker to a supervisor that is cancelled. -/
theorem serving_of_idle (hidle : Idle event) {n : ℕ} {since : Instant} {worker : Worker}
    {listener : ListenerRuntime}
    (hc : (l.step event).2.control = .serving n since worker listener) :
    (l.step event).2.cancelled = false := by
  by_cases hserving : ∃ n since w g, l.control = .serving n since w g
  · obtain ⟨n', since', w, g, hl⟩ := hserving
    rcases served_of_idle hidle hl with ⟨_, -, h⟩ | ⟨_, h⟩
    · exact h
    · cases h.symm.trans hc
  · have hnot : ∀ n since w g, l.control ≠ .serving n since w g :=
      fun n since w g hl => hserving ⟨n, since, w, g, hl⟩
    rcases waited_of_idle hidle hnot with h | ⟨_, h⟩ | ⟨_, h⟩
    · exact absurd (h.symm.trans hc) (hnot n since worker listener)
    · cases h.symm.trans hc
    · cases h.symm.trans hc

/-- The two are alike at a ping that is answered. -/
theorem agree_pinged (hbound : given.listener ≠ none) (h : Alike given l r) (rtts : List Duration)
    (now : Instant) (jitter : ℤ) (port : ℕ) :
    AgreeAfter given l r [.poll, .pinged (.ok rtts) now jitter]
      [.pinged (.ok rtts) now jitter, .registered (.ok port) now jitter] := by
  by_cases hping : ∃ n, l.control = .pinging n
  · obtain ⟨n, hc⟩ := hping
    rcases h with ⟨⟨result, hl⟩, -⟩ | ⟨hs, hplace⟩
    · cases hl.symm.trans hc
    · rw [SamePlace, hc] at hplace
      obtain ⟨hl, hr⟩ := hplace
      -- the registration succeeds, and both publish `Healthy`
      have hpoll : l.step .poll = ([], l) := by
        simp [LocalForwardSupervisor.step, LocalForwardSupervisor.advance, hc]
      have hserve : l.step (.pinged (.ok rtts) now jitter) = ([.publish (.healthy rtts none)],
          { l with listener := none, state := .healthy rtts none,
                   control := .serving n now {} given }) := by
        simp [LocalForwardSupervisor.step, LocalForwardSupervisor.advance, hc,
          LocalForwardSupervisor.serve, hl, hbound]
      have hregister : r.step (.pinged (.ok rtts) now jitter) =
          ([], { r with control := .registering n rtts }) := by
        simp [RemoteForwardSupervisor.step, RemoteForwardSupervisor.advance, hr,
          RemoteForwardSupervisor.register, hs.target]
      unfold AgreeAfter
      simp only [answers, trace, runState, hpoll, hserve, hregister]
      exact ⟨rfl, .inr ⟨⟨hs.retries, hs.cancelled, hs.hint, hs.target⟩, rfl, port, {}, rfl, rfl, rfl,
        rfl⟩⟩
  · have hfirst : Agree given (l.step .poll) (r.step (.pinged (.ok rtts) now jitter)) :=
      agree_step hbound h (.pinged rtts now jitter) (fun n hc => absurd ⟨n, hc⟩ hping)
        fun _ _ _ _ _ => by simp [News]
    refine .two hfirst (agree_step hbound hfirst.2 (.registered rtts now jitter port) ?_
      fun _ _ _ _ _ => by simp [News])
    intro n hc
    exact absurd ⟨n, pinging_of_idle (.inl rfl) hc⟩ hping

/-- At what a worker has reported. -/
theorem agree_observe (h : Alike given l r) {n : ℕ} {since : Instant} {worker : Worker}
    {listener : ListenerRuntime} (hc : l.control = .serving n since worker listener)
    (hcancel : l.cancelled = false) :
    Agree given (l.step .healthChanged) (r.step .healthChanged) := by
  rcases h with ⟨⟨result, hl⟩, -⟩ | ⟨hs, hplace⟩
  · cases hl.symm.trans hc
  · rw [SamePlace, hc] at hplace
    obtain ⟨rfl, port, worker', hr, hw⟩ := hplace
    have hlive : r.cancelled ≠ true := by simp [← hs.cancelled, hcancel]
    obtain ⟨hsame, hstate⟩ := observe_alike hw port
    dsimp only [LocalForwardSupervisor.step, RemoteForwardSupervisor.step]
    unfold LocalForwardSupervisor.advance RemoteForwardSupervisor.advance
    rw [hc, hr]
    dsimp only
    rw [if_neg hlive]
    rcases ho : worker.observe none with ⟨v, _ | state⟩ <;>
      rcases ho' : worker'.observe (some port) with ⟨v', _ | state'⟩ <;>
      rw [ho, ho'] at hsame hstate
    · exact agree_move hs ⟨rfl, port, v', rfl, hsame⟩
    · cases hstate
    · cases hstate
    · have hshown : state.anyPort = state'.anyPort := Option.some.inj hstate
      refine ⟨?_, .inr ⟨⟨hs.retries, hs.cancelled, hs.hint, hs.target⟩, rfl, port, v', rfl, hsame⟩⟩
      dsimp only [List.map, Effect.anyPort]
      rw [hshown]

/-- At the pings of a tick, whose report is seen at once. -/
theorem agree_report (hbound : given.listener ≠ none) (h : Alike given l r)
    (result : Except Ssh.SshChainError (List Duration)) :
    AgreeAfter given l r [.healthTick result, .healthChanged]
      [.healthTick result, .healthChanged] := by
  have hfirst : Agree given (l.step (.healthTick result)) (r.step (.healthTick result)) :=
    agree_step hbound h (.healthTick result) (fun _ _ => by simp [Pong])
      fun _ _ _ _ _ => by simp [News]
  refine .two hfirst ?_
  by_cases hserving : ∃ n since w g, (l.step (.healthTick result)).2.control = .serving n since w g
  · obtain ⟨n, since, w, g, hc⟩ := hserving
    exact agree_observe hfirst.2 hc (serving_of_idle (.inr ⟨result, rfl⟩) hc)
  · exact agree_step hbound hfirst.2 .healthChanged (fun _ _ => by simp [Pong])
      fun n since w g hc => absurd ⟨n, since, w, g, hc⟩ hserving

/-- At the end of a session. -/
theorem agree_sessionEnded (hbound : given.listener ≠ none) (h : Alike given l r) :
    AgreeAfter given l r [.poll, .sessionTick true] [.channel false, .sessionTick true] := by
  have hthen : Agree given (l.step .poll) (r.step (.channel false)) →
      AgreeAfter given l r [.poll, .sessionTick true] [.channel false, .sessionTick true] :=
    fun hfirst => .two hfirst (agree_step hbound hfirst.2 (.sessionTick true)
      (fun _ _ => by simp [Pong]) fun _ _ _ _ _ => by simp [News])
  by_cases hserving : ∃ n since w g, l.control = .serving n since w g
  · obtain ⟨n, since, worker, listener, hc⟩ := hserving
    rcases h with ⟨⟨result, hl⟩, -⟩ | ⟨hs, hplace⟩
    · cases hl.symm.trans hc
    · rw [SamePlace, hc] at hplace
      obtain ⟨rfl, port, worker', hr, hw⟩ := hplace
      cases hcancel : l.cancelled with
      | true => exact hthen (agree_cancelled hs hc hr hcancel nofun)
      | false =>
          have hlive : r.cancelled = false := hs.cancelled.symm.trans hcancel
          have hpoll : l.step .poll = ([], l) := by
            have hkept : l.advance .poll =
                ([], { l with control := .serving n since worker listener }) :=
              local_goesOn .poll hc nofun (by simp [Worker.runLocal, hcancel])
            rw [← hc] at hkept
            exact hkept
          by_cases hroom : worker'.connections < maxActiveConnections
          · -- the Remote worker learns of it at once, the Local one at its next tick
            have hended : r.step (.channel false) =
                ([], { r with control := .stopping n since (.error .sessionClosed) }) :=
              remote_ends (.channel false) hr hlive nofun (by simp [Worker.runRemote, hroom])
            have htick : l.step (.sessionTick true) =
                ([], { l with control := .releasing n since (.error .sessionClosed) listener }) :=
              local_ends (.sessionTick true) hc nofun (by simp [Worker.runLocal, hcancel])
            unfold AgreeAfter
            simp only [answers, trace, runState, hpoll, hended, htick]
            exact agree_move hs ⟨rfl, .error .sessionClosed, rfl, .inr rfl⟩
          · have hkept : r.step (.channel false) =
                ([], { r with control := .serving n since port worker' }) :=
              remote_goesOn (.channel false) hr hlive nofun (by simp [Worker.runRemote, hroom])
            refine hthen ?_
            rw [hpoll, hkept]
            refine ⟨rfl, .inr ⟨⟨hs.retries, hs.cancelled, hs.hint, hs.target⟩, ?_⟩⟩
            rw [SamePlace, hc]
            exact ⟨rfl, port, worker', rfl, hw⟩
  · exact hthen (agree_step hbound h .ended (fun _ _ => by simp [Pong])
      fun n since w g hc => absurd ⟨n, since, w, g, hc⟩ hserving)

/-- **Whatever happens to a tunnel.** -/
theorem agree_happening (hbound : given.listener ≠ none) (h : Alike given l r) (x : Happening) :
    AgreeAfter given l r x.local x.remote := by
  have hone : ∀ {event event'}, Paired event event' →
      (¬ Pong event ∧ ¬ Pong event') ∧ ¬ News event' → AgreeAfter given l r [event] [event'] :=
    fun hp hplain => .one (agree_step hbound h hp (fun _ _ => hplain.1) fun _ _ _ _ _ => hplain.2)
  cases x with
  | pinged rtts now jitter port => exact agree_pinged hbound h rtts now jitter port
  | report result => exact agree_report hbound h result
  | sessionEnded => exact agree_sessionEnded hbound h
  | hint => exact .one (agree_notify h)
  | cancel => exact .one (agree_cancel h)
  | poll => exact hone .poll (by simp [Pong, News])
  | connected result jitter =>
      exact hone (.connected result jitter) (by simp [Pong, News])
  | pingFailed error now jitter =>
      exact hone (.pingFailed error now jitter) (by simp [Pong, News])
  | sessionTick closed =>
      exact hone (.sessionTick closed) (by simp [Pong, News])
  | client => exact hone .client (by simp [Pong, News])
  | connectionDone =>
      exact hone .connectionDone (by simp [Pong, News])
  | clientDone => exact hone .clientDone (by simp [Pong, News])
  | released now jitter =>
      exact hone (.released now jitter) (by simp [Pong, News])
  | elapsed => exact hone .elapsed (by simp [Pong, News])

/-- Two supervisors as they are spawned. -/
theorem alike_new {mode : SupervisorMode} {policy : RetryPolicy} {localTarget : LocalEndpoint}
    (hnew : LocalForwardSupervisor.new given mode policy = .ok l)
    (htarget : validTarget localTarget = true) :
    Alike given l (RemoteForwardSupervisor.new localTarget policy) := by
  unfold LocalForwardSupervisor.new at hnew
  split at hnew
  · cases hnew
  · obtain rfl := Except.ok.inj hnew
    exact .inr ⟨⟨rfl, rfl, rfl, htarget⟩, rfl, rfl⟩

end Alike

/-- **One retry policy.** Whatever the script, a Local or Dynamic
supervisor and a Remote one with the same policy publish the same
states, up to the port at the far side, and call their connectors at the
same points. The Local one has a bound listener, as `new` demands, and
the Remote one a target that can be registered. -/
theorem same_policy (listener : ListenerRuntime) (mode : SupervisorMode) (policy : RetryPolicy)
    (localTarget : LocalEndpoint) {l : LocalForwardSupervisor}
    (hnew : LocalForwardSupervisor.new listener mode policy = .ok l)
    (htarget : validTarget localTarget = true) (script : List Happening) :
    (answers LocalForwardSupervisor.step l (script.flatMap Happening.local)).map Effect.anyPort =
      (answers RemoteForwardSupervisor.step (RemoteForwardSupervisor.new localTarget policy)
        (script.flatMap Happening.remote)).map Effect.anyPort := by
  have hbound : listener.listener ≠ none := (LocalForwardSupervisor.owned_new hnew).2
  exact answers_lockstep (R := Alike listener)
    (fun l r x h => agree_happening (l := l) (r := r) hbound h x) (alike_new hnew htarget) script

/-- A connect error, a hint during the wait, a session with a missed
ping that ends, a stored hint, and a stop during the wait for credentials. -/
def longScript : List Happening :=
  [.poll, .connected (.error (.hop 1 (.timeout "TCP connect"))) 3, .poll, .hint, .poll,
    .connected (.ok ()) 0, .pinged [5] 100 0 4022, .report (.ok [6]), .client,
    .report (.error (.hop 1 (.timeout "SSH ping"))), .hint, .sessionEnded, .released 900 (-2), .poll,
    .connected (.error (.credential 1 "locked")) 0, .cancel, .poll]

theorem same_policy_longScript :
    ∃ l, LocalForwardSupervisor.new LocalForwardSupervisor.boundListener .dynamic {} = .ok l ∧
      validTarget ⟨"127.0.0.1", 8080⟩ = true ∧
      (answers LocalForwardSupervisor.step l (longScript.flatMap Happening.local)).map
          Effect.anyPort =
        (answers RemoteForwardSupervisor.step (RemoteForwardSupervisor.new ⟨"127.0.0.1", 8080⟩ {})
          (longScript.flatMap Happening.remote)).map Effect.anyPort :=
  have htarget : validTarget ⟨"127.0.0.1", 8080⟩ = true := by decide +kernel
  ⟨_, rfl, htarget,
    same_policy LocalForwardSupervisor.boundListener .dynamic {} _ rfl htarget longScript⟩

end TunnelWarden

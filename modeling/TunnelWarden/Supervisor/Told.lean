import TunnelWarden.Supervisor.SamePolicy
import TunnelWarden.Supervisor.Schedule

/-!
# What is shown of a session

A supervisor shows `Healthy` and `Degraded` of the session it has. Both
supervisors come to this state alike, and `ReportMove` says how: by the
first ping, by what the worker reports of the later ones, and by nothing
else. So what is published is what the pings of the present session came
to, and not of one before it, also where several pings passed unseen
(`tells_truth`).
-/

namespace TunnelWarden

open Lifecycle

/-- The answer to a ping of every hop. -/
abbrev PingResult := Except Ssh.SshChainError (List Duration)

/-- What was heard of a session: the pings that were answered since its
chain was asked for, and the port that was registered. -/
structure PingSession where
  pings : List PingResult := []
  port : Option ℕ := none

/-- What an event tells of the session. -/
inductive SessionNews where
  | nothing
  | ping (result : PingResult)
  | port (port : ℕ)

/-- A call of the connector begins a new session. -/
def PingSession.next (session : PingSession) (heard : SessionNews) (out : List Effect) :
    PingSession :=
  if .connect ∈ out then {}
  else match heard with
    | .nothing => session
    | .ping result => { session with pings := session.pings ++ [result] }
    | .port port => { session with port := some port }

/-- The pings in a row that failed last. -/
def missedPings (pings : List PingResult) : ℕ :=
  (pings.reverse.takeWhile fun result => result.isOk = false).length

@[simp] theorem missedPings_nil : missedPings [] = 0 := rfl

@[simp] theorem missedPings_concat_ok (pings : List PingResult) (rtts : List Duration) :
    missedPings (pings ++ [.ok rtts]) = 0 := by
  simp [missedPings, Except.isOk, Except.toBool]

@[simp] theorem missedPings_concat_error (pings : List PingResult) (error : Ssh.SshChainError) :
    missedPings (pings ++ [.error error]) = missedPings pings + 1 := by
  simp [missedPings, Except.isOk, Except.toBool]

/-- The states shown of a session. -/
def SupervisorState.Up : SupervisorState → Prop
  | .healthy .. | .degraded .. => True
  | _ => False

/-- **What the pings came to.** The last was answered in these times, or
the last ones were not, as many as this, and for this reason. -/
def TellsPings (pings : List PingResult) (port : Option ℕ) : SupervisorState → Prop
  | .healthy rtts remotePort => pings.getLast? = some (.ok rtts) ∧ remotePort = port
  | .degraded failedPings reason =>
    missedPings pings = failedPings ∧ failedPings < maxPingFailures ∧
      ∃ error, pings.getLast? = some (.error error) ∧ reason = takeChars 512 error.display
  | _ => False

/-- The state a report is shown as. -/
def WorkerHealth.shown (port : Option ℕ) : WorkerHealth → SupervisorState
  | .healthy rtts => .healthy rtts port
  | .degraded failedPings reason => .degraded failedPings reason

/-! ## The moves -/

/-- How far a supervisor is with a session. -/
inductive SessionPhase where
  /-- It has none, and waits before the next. -/
  | apart
  /-- The connector was called. -/
  | linking
  /-- The first ping is awaited. -/
  | testing
  /-- The far side is asked to listen. -/
  | tested (rtts : List Duration)
  | up (worker : Worker) (port : Option ℕ)
  /-- The worker is being shut down. -/
  | leaving
  | finished

/-- What is seen of a supervisor. -/
structure SessionView where
  phase : SessionPhase
  state : SupervisorState

/-- The worker is as it was, as far as its pings go. -/
structure SamePings (w w' : Worker) : Prop where
  failures : w'.pingFailures = w.pingFailures
  health : w'.health = w.health
  unseen : w'.unseen = w.unseen ∨ w.health = none

/-- **How a supervisor comes to what it shows of a session.** -/
inductive ReportMove : SessionView → SessionNews → List Effect → SessionView → Prop
  | idle {v} : ReportMove v .nothing [] v
  | attempt {v} (n) : v.phase = .apart →
    ReportMove v .nothing [.publish (.connecting n), .connect] ⟨.linking, .connecting n⟩
  | linked {v} : v.phase = .linking → ReportMove v .nothing [] { v with phase := .testing }
  | tested {v} (rtts) : v.phase = .testing →
    ReportMove v (.ping (.ok rtts)) [] { v with phase := .tested rtts }
  /-- The worker of a Local or Dynamic tunnel begins. -/
  | up {v} (rtts) : v.phase = .testing →
    ReportMove v (.ping (.ok rtts)) [.publish (.healthy rtts none)]
      ⟨.up {} none, .healthy rtts none⟩
  | registered {v} (rtts port) : v.phase = .tested rtts →
    ReportMove v (.port port) [.publish (.healthy rtts (some port))]
      ⟨.up {} (some port), .healthy rtts (some port)⟩
  | tick {v} (worker port result worker') : v.phase = .up worker port →
    worker.healthTick result = .ok worker' →
    ReportMove v (.ping result) [] { v with phase := .up worker' port }
  | serves {v} (worker port worker') : v.phase = .up worker port → SamePings worker worker' →
    ReportMove v .nothing [] { v with phase := .up worker' port }
  /-- The supervisor sees the report. -/
  | sees {v} (worker port health) : v.phase = .up worker port → worker.unseen = true →
    worker.health = some health →
    ReportMove v .nothing [.publish (health.shown port)]
      ⟨.up { worker with unseen := false } port, health.shown port⟩
  /-- The worker ends, for a ping or for another reason. -/
  | ends {v} (worker port heard) : v.phase = .up worker port → (∀ port, heard ≠ .port port) →
    ReportMove v heard [] { v with phase := .leaving }
  | fails {v} (heard state) : ¬ state.Up →
    ReportMove v heard [.publish state] ⟨.apart, state⟩
  | finish {v} (heard) : ReportMove v heard [.publish .stopped] ⟨.finished, .stopped⟩

/-! ## What they keep -/

/-- What is shown was true when it was published: of the pings up to
some one of this session. -/
def PingSession.Told (session : PingSession) (state : SupervisorState) : Prop :=
  ∃ n, TellsPings (session.pings.take n) session.port state

/-- A worker's report is of all the pings. -/
structure ReportsPings (session : PingSession) (worker : Worker) (state : SupervisorState) :
    Prop where
  failures : missedPings session.pings = worker.pingFailures
  few : worker.pingFailures < maxPingFailures
  health : ∀ health, worker.health = some health →
    TellsPings session.pings session.port (health.shown session.port)
  told : session.Told state
  seen : worker.unseen = false → TellsPings session.pings session.port state
  first : worker.health = none → TellsPings session.pings session.port state

/-- **What a supervisor shows, and what it heard.** -/
def KeepsSession (session : PingSession) (v : SessionView) : Prop :=
  match v.phase with
  | .apart | .finished => ¬ v.state.Up
  | .linking | .testing => ¬ v.state.Up ∧ session = {}
  | .tested rtts => ¬ v.state.Up ∧ session = ⟨[.ok rtts], none⟩
  | .up worker port => session.port = port ∧ ReportsPings session worker v.state
  | .leaving => session.Told v.state

theorem TellsPings.told {session : PingSession} {state : SupervisorState}
    (h : TellsPings session.pings session.port state) : session.Told state := by
  refine ⟨session.pings.length, ?_⟩
  rwa [List.take_length]

/-- More pings leave true what was true of those before. -/
theorem PingSession.Told.concat {session : PingSession} {state : SupervisorState}
    (h : session.Told state) (result : PingResult) :
    PingSession.Told { session with pings := session.pings ++ [result] } state := by
  obtain ⟨n, htells⟩ := h
  refine ⟨min n session.pings.length, ?_⟩
  show TellsPings ((session.pings ++ [result]).take _) session.port state
  rw [List.take_append_of_le_length (Nat.min_le_right _ _), ← List.take_take, List.take_length]
  exact htells

/-- The first ping is what the session is shown with. -/
theorem reports_first (rtts : List Duration) (port : Option ℕ) :
    ReportsPings ⟨[.ok rtts], port⟩ {} (.healthy rtts port) := by
  have htells : TellsPings [.ok rtts] port (.healthy rtts port) := ⟨rfl, rfl⟩
  refine ⟨rfl, by decide, fun health hhealth => ?_, htells.told, fun _ => htells, fun _ => htells⟩
  cases hhealth

/-- **A tick** reports the ping. -/
theorem ReportsPings.tick {session : PingSession} {worker worker' : Worker}
    {state : SupervisorState} (h : ReportsPings session worker state) {result : PingResult}
    (htick : worker.healthTick result = .ok worker') :
    ReportsPings { session with pings := session.pings ++ [result] } worker' state := by
  have hfailures := h.failures
  have htold := h.told.concat result
  cases result with
  | ok rtts =>
      obtain rfl := Except.ok.inj htick
      refine ⟨missedPings_concat_ok _ _, Nat.succ_pos 2, fun health hhealth => ?_, htold, nofun,
        nofun⟩
      obtain rfl := Option.some.inj hhealth
      exact ⟨List.getLast?_concat, rfl⟩
  | error error =>
      unfold Worker.healthTick at htick
      dsimp only at htick
      split at htick
      · cases htick
      · rename_i hfew
        have hcount : min (worker.pingFailures + 1) 255 = worker.pingFailures + 1 := by
          have hbound := h.few
          unfold maxPingFailures at hbound
          omega
        rw [hcount] at htick hfew
        obtain rfl := Except.ok.inj htick
        have hmissed : missedPings (session.pings ++ [.error error]) = worker.pingFailures + 1 := by
          rw [missedPings_concat_error, hfailures]
        refine ⟨hmissed, Nat.lt_of_not_le hfew, fun health hhealth => ?_, htold, nofun, nofun⟩
        obtain rfl := Option.some.inj hhealth
        exact ⟨hmissed, Nat.lt_of_not_le hfew, error, List.getLast?_concat, rfl⟩

theorem ReportsPings.same {session : PingSession} {worker worker' : Worker}
    {state : SupervisorState} (h : ReportsPings session worker state)
    (hsame : SamePings worker worker') :
    ReportsPings session worker' state where
  failures := by rw [hsame.failures]; exact h.failures
  few := by rw [hsame.failures]; exact h.few
  health := by rw [hsame.health]; exact h.health
  told := h.told
  seen hseen := by
    rcases hsame.unseen with hunseen | hnone
    · exact h.seen (hunseen ▸ hseen)
    · exact h.first hnone
  first := by rw [hsame.health]; exact h.first

/-- A report that is seen is shown. -/
theorem ReportsPings.sees {session : PingSession} {worker : Worker} {state : SupervisorState}
    (h : ReportsPings session worker state) {health : WorkerHealth}
    (hhealth : worker.health = some health) :
    ReportsPings session { worker with unseen := false } (health.shown session.port) :=
  have htells := h.health health hhealth
  ⟨h.failures, h.few, h.health, htells.told, fun _ => htells, fun _ => htells⟩

theorem next_of_publish (session : PingSession) (heard : SessionNews) (state : SupervisorState) :
    session.next heard [.publish state] = session.next heard [] := by
  unfold PingSession.next
  simp

/-- **Every move keeps it**, and publishes nothing of a session but what
its pings came to. -/
theorem ReportMove.keeps {v v' : SessionView} {heard : SessionNews} {out : List Effect}
    {session : PingSession} (h : ReportMove v heard out v') (hkeeps : KeepsSession session v) :
    KeepsSession (session.next heard out) v' ∧ ∀ state, .publish state ∈ out → state.Up →
      TellsPings (session.next heard out).pings (session.next heard out).port state := by
  unfold KeepsSession at hkeeps
  cases h with
  | idle =>
      exact ⟨hkeeps, fun _ hmem => (List.not_mem_nil hmem).elim⟩
  | attempt n _ =>
      refine ⟨⟨id, rfl⟩, fun state hmem hup => ?_⟩
      obtain rfl : state = .connecting n := by simpa using hmem
      exact hup.elim
  | linked hphase =>
      rw [hphase] at hkeeps
      exact ⟨hkeeps, fun _ hmem => (List.not_mem_nil hmem).elim⟩
  | tested rtts hphase =>
      rw [hphase] at hkeeps
      obtain ⟨hdown, rfl⟩ := hkeeps
      exact ⟨⟨hdown, rfl⟩, fun _ hmem => (List.not_mem_nil hmem).elim⟩
  | up rtts hphase =>
      rw [hphase] at hkeeps
      obtain ⟨-, rfl⟩ := hkeeps
      rw [next_of_publish]
      refine ⟨⟨rfl, reports_first rtts none⟩, fun state hmem _ => ?_⟩
      obtain rfl : state = .healthy rtts none := by simpa using hmem
      exact ⟨rfl, rfl⟩
  | registered rtts port hphase =>
      rw [hphase] at hkeeps
      obtain ⟨-, rfl⟩ := hkeeps
      rw [next_of_publish]
      refine ⟨⟨rfl, reports_first rtts (some port)⟩, fun state hmem _ => ?_⟩
      obtain rfl : state = .healthy rtts (some port) := by simpa using hmem
      exact ⟨rfl, rfl⟩
  | tick worker port result worker' hphase htick =>
      rw [hphase] at hkeeps
      exact ⟨⟨hkeeps.1, hkeeps.2.tick htick⟩, fun _ hmem => (List.not_mem_nil hmem).elim⟩
  | serves worker port worker' hphase hsame =>
      rw [hphase] at hkeeps
      exact ⟨⟨hkeeps.1, hkeeps.2.same hsame⟩, fun _ hmem => (List.not_mem_nil hmem).elim⟩
  | sees worker port health hphase hunseen hhealth =>
      rw [hphase] at hkeeps
      obtain ⟨rfl, hreports⟩ := hkeeps
      rw [next_of_publish]
      refine ⟨⟨rfl, hreports.sees hhealth⟩, fun state hmem _ => ?_⟩
      obtain rfl : state = health.shown session.port := by simpa using hmem
      exact hreports.health health hhealth
  | ends worker port heard hphase hheard =>
      rw [hphase] at hkeeps
      refine ⟨?_, fun _ hmem => (List.not_mem_nil hmem).elim⟩
      cases heard with
      | nothing => exact hkeeps.2.told
      | ping result => exact hkeeps.2.told.concat result
      | port port => exact (hheard port rfl).elim
  | fails heard state hdown =>
      refine ⟨hdown, fun state' hmem hup => ?_⟩
      obtain rfl : state' = state := by simpa using hmem
      exact (hdown hup).elim
  | finish heard =>
      refine ⟨id, fun state hmem hup => ?_⟩
      obtain rfl : state = .stopped := by simpa using hmem
      exact hup.elim

/-- What a supervisor publishes of a failure is of no session. -/
theorem not_up_failureState (policy : RetryPolicy) (n : ℕ) (reason : String) (blocked : Bool)
    (jitter : ℤ) : ¬ (failureState policy n reason blocked jitter).Up := by
  unfold failureState
  dsimp only
  split
  · exact id
  · exact id

theorem samePings_connections (worker : Worker) (connections : ℕ) :
    SamePings worker { worker with connections } := ⟨rfl, rfl, .inl rfl⟩

/-- The supervisor looks at the report. -/
theorem reportMove_observe {v v' : SessionView} {worker worker' : Worker} {port : Option ℕ}
    {seen : Option SupervisorState} (hphase : v.phase = .up worker port)
    (hobserve : worker.observe port = (worker', seen)) (hphase' : v'.phase = .up worker' port)
    (hstate : v'.state = seen.getD v.state) :
    ReportMove v .nothing (seen.toList.map .publish) v' := by
  obtain ⟨phase, state⟩ := v
  obtain ⟨phase', state'⟩ := v'
  obtain rfl : phase = .up worker port := hphase
  obtain rfl : phase' = .up worker' port := hphase'
  obtain rfl : state' = seen.getD state := hstate
  unfold Worker.observe at hobserve
  split at hobserve
  · rename_i hunseen
    obtain ⟨hworker, hseen⟩ := Prod.mk.inj hobserve
    cases hhealth : worker.health with
    | none =>
        rw [hhealth] at hseen
        subst hseen hworker
        exact .serves worker port _ rfl ⟨rfl, rfl, .inr hhealth⟩
    | some health =>
        have hshown : seen = some (health.shown port) := by
          rw [← hseen, hhealth]
          cases health with
          | healthy rtts => rfl
          | degraded failedPings reason => rfl
        subst hshown hworker
        exact .sees (v := ⟨.up worker port, state⟩) worker port health rfl hunseen hhealth
  · obtain ⟨rfl, rfl⟩ := Prod.mk.inj hobserve
    exact .idle

/-! ## Local -/

namespace LocalForwardSupervisor

variable {s : LocalForwardSupervisor}

def sessionPhase (s : LocalForwardSupervisor) : SessionPhase :=
  match s.control with
  | .spawned | .blocked _ | .backoff _ => .apart
  | .connecting _ => .linking
  | .pinging _ => .testing
  | .serving _ _ worker _ => .up worker none
  | .releasing .. => .leaving
  | .finished _ => .finished

def sessionView (s : LocalForwardSupervisor) : SessionView := ⟨s.sessionPhase, s.state⟩

/-- What it hears of its session. A worker that is cancelled does not
ping. -/
def hears (s : LocalForwardSupervisor) (event : SupervisorEvent) : SessionNews :=
  match s.control, event with
  | .pinging _, .pinged result _ _ => .ping result
  | .serving .., .healthTick result => if s.cancelled then .nothing else .ping result
  | _, _ => .nothing

theorem reportMove_attempt {v : SessionView} (hv : v.phase = .apart) (n : ℕ) :
    ReportMove v .nothing (s.attempt n).1 (s.attempt n).2.sessionView := by
  unfold attempt
  split
  · exact .finish _
  · exact .attempt n hv

theorem reportMove_afterFailure {v : SessionView} (heard : SessionNews) (n : ℕ) (reason : String)
    (blocked : Bool) (jitter : ℤ) (resume : ℕ) :
    ReportMove v heard (s.afterFailure n reason blocked jitter resume).1
      (s.afterFailure n reason blocked jitter resume).2.sessionView := by
  have hdown := not_up_failureState s.retries n reason blocked jitter
  cases blocked with
  | true => exact .fails heard _ hdown
  | false => exact .fails heard _ hdown

theorem reportMove_whileUnhealthy {v : SessionView} {event : SupervisorEvent}
    {ready : Option (List Effect × LocalForwardSupervisor)}
    (hready : ∀ next, ready = some next → ReportMove v .nothing next.1 next.2.sessionView)
    (hnone : ready = none → ReportMove v .nothing [] s.sessionView) :
    ReportMove v .nothing (s.whileUnhealthy ready event).1
      (s.whileUnhealthy ready event).2.sessionView := by
  rcases whileUnhealthy_cases s ready event with ⟨-, result, -, heq⟩ | ⟨-, next, hnext, heq⟩ |
    ⟨-, -, error, heq⟩ | ⟨hn, -, clients, heq⟩
  · rw [heq]; exact .finish _
  · rw [heq]; exact hready next hnext
  · rw [heq]; exact .finish _
  · rw [heq]; exact hnone hn

theorem reportMove_awaitHint (hs : s.sessionPhase = .apart) (resume : ℕ)
    (event : SupervisorEvent) :
    ReportMove s.sessionView .nothing (s.awaitHint resume event).1
      (s.awaitHint resume event).2.sessionView := by
  rcases hp : s.retryHint.poll with ⟨_ | _, hint⟩
  · rw [awaitHint_pending hp]
    refine reportMove_whileUnhealthy (fun _ hnext => ?_) fun _ => .idle
    cases hnext
  · rw [awaitHint_ready hp]
    refine reportMove_whileUnhealthy (fun next hnext => ?_) fun hnone => ?_
    · rw [← Option.some.inj hnext]
      exact reportMove_attempt hs resume
    · cases hnone

theorem reportMove_serve (hs : s.sessionPhase = .testing) (n : ℕ) (rtts : List Duration)
    (now : Instant) :
    ReportMove s.sessionView (.ping (.ok rtts)) (s.serve n rtts now).1
      (s.serve n rtts now).2.sessionView := by
  unfold serve
  cases s.listener with
  | none => exact .finish _
  | some listener =>
      dsimp only
      split
      · exact .finish _
      · exact .up rtts hs

/-- **One event of the worker**: a ping, or what leaves its pings as they
are; or it ends. -/
theorem runLocal_cases (worker : Worker) (cancelled : Bool) (event : SupervisorEvent) :
    (∃ worker', worker.runLocal cancelled event = .inl worker' ∧
      ((∃ result, event = .healthTick result ∧ cancelled = false ∧
        worker.healthTick result = .ok worker') ∨
      (∀ result, event ≠ .healthTick result) ∧ SamePings worker worker')) ∨
    ∃ outcome, worker.runLocal cancelled event = .inr outcome := by
  unfold Worker.runLocal
  split
  · exact .inr ⟨_, rfl⟩
  · rename_i hgoing
    have hsame : SamePings worker worker := ⟨rfl, rfl, .inl rfl⟩
    cases event with
    | sessionTick closed =>
        cases closed with
        | true => exact .inr ⟨_, rfl⟩
        | false => exact .inl ⟨_, rfl, .inr ⟨nofun, hsame⟩⟩
    | healthTick result =>
        dsimp only
        cases htick : worker.healthTick result with
        | ok worker' => exact .inl ⟨_, rfl, .inl ⟨result, rfl, Bool.eq_false_iff.2 hgoing, htick⟩⟩
        | error error => exact .inr ⟨_, rfl⟩
    | connectionDone => exact .inl ⟨_, rfl, .inr ⟨nofun, samePings_connections ..⟩⟩
    | accepted result =>
        dsimp only
        split
        · cases result with
          | ok _ => exact .inl ⟨_, rfl, .inr ⟨nofun, samePings_connections ..⟩⟩
          | error error => exact .inr ⟨_, rfl⟩
        · exact .inl ⟨_, rfl, .inr ⟨nofun, hsame⟩⟩
    | _ => exact .inl ⟨_, rfl, .inr ⟨nofun, hsame⟩⟩

/-- A worker that runs tells of its pings alone. -/
theorem hears_serving {n : ℕ} {since : Instant} {worker : Worker} {listener : ListenerRuntime}
    (hc : s.control = .serving n since worker listener) (event : SupervisorEvent) :
    (∃ result, event = .healthTick result ∧ s.cancelled = false ∧
      s.hears event = .ping result) ∨ s.hears event = .nothing := by
  unfold hears
  rw [hc]
  cases event with
  | healthTick result =>
      cases hcancelled : s.cancelled with
      | true => exact .inr rfl
      | false => exact .inl ⟨result, rfl, rfl, rfl⟩
  | _ => exact .inr rfl

/-- The worker runs. -/
theorem reportMove_serving {n : ℕ} {since : Instant} {worker : Worker}
    {listener : ListenerRuntime} (hc : s.control = .serving n since worker listener)
    (event : SupervisorEvent) :
    ReportMove s.sessionView (s.hears event) (s.advance event).1
      (s.advance event).2.sessionView := by
  have hs : s.sessionPhase = .up worker none := by rw [sessionPhase, hc]
  by_cases hreport : event = .healthChanged
  · subst hreport
    unfold advance hears
    rw [hc]
    dsimp only
    rcases hobserve : worker.observe none with ⟨worker', _ | state⟩
    · exact reportMove_observe hs hobserve rfl rfl
    · exact reportMove_observe hs hobserve rfl rfl
  · rcases runLocal_cases worker s.cancelled event with
      ⟨worker', hrun, ⟨result, rfl, hlive, htick⟩ | ⟨hnone, hsame⟩⟩ | ⟨outcome, hrun⟩
    · have hheard : s.hears (.healthTick result) = .ping result := by
        unfold hears
        rw [hc, hlive]
        rfl
      rw [local_goesOn _ hc hreport hrun, hheard]
      exact .tick (v := s.sessionView) worker none result worker' hs htick
    · rw [local_goesOn _ hc hreport hrun]
      rcases hears_serving hc event with ⟨result, rfl, -, -⟩ | hheard
      · exact (hnone result rfl).elim
      · rw [hheard]
        exact .serves (v := s.sessionView) worker none worker' hs hsame
    · rw [local_ends _ hc hreport hrun]
      refine .ends (v := s.sessionView) worker none _ hs fun port hport => ?_
      rcases hears_serving hc event with ⟨result, -, -, hheard⟩ | hheard
      · rw [hheard] at hport
        cases hport
      · rw [hheard] at hport
        cases hport

/-- **The Local supervisor moves so.** -/
theorem reportMove_advance (s : LocalForwardSupervisor) (event : SupervisorEvent) :
    ReportMove s.sessionView (s.hears event) (s.advance event).1
      (s.advance event).2.sessionView := by
  cases hc : s.control with
  | serving n since worker listener => exact reportMove_serving hc event
  | spawned =>
      unfold advance hears
      rw [hc]
      exact reportMove_attempt (by rw [sessionView, sessionPhase, hc]) 1
  | connecting n =>
      have hs : s.sessionPhase = .linking := by rw [sessionPhase, hc]
      unfold advance hears
      rw [hc]
      refine reportMove_whileUnhealthy (fun next hnext => ?_) fun _ => .idle
      split at hnext
      · rw [← Option.some.inj hnext]
        exact .linked hs
      · rw [← Option.some.inj hnext]
        exact reportMove_afterFailure ..
      · cases hnext
  | pinging n =>
      have hs : s.sessionPhase = .testing := by rw [sessionPhase, hc]
      unfold advance hears
      rw [hc]
      cases event with
      | pinged result now jitter =>
          cases result with
          | ok rtts => exact reportMove_serve hs n rtts now
          | error error => exact reportMove_afterFailure ..
      | _ => exact .idle
  | releasing n since outcome listener =>
      unfold advance hears
      rw [hc]
      cases event with
      | released now jitter =>
          dsimp only
          split
          · exact .finish _
          · exact reportMove_afterFailure (s := { s with listener := some listener }) ..
      | _ => exact .idle
  | blocked resume =>
      unfold advance hears
      rw [hc]
      exact reportMove_awaitHint (by rw [sessionPhase, hc]) resume event
  | backoff resume =>
      have hs : s.sessionPhase = .apart := by rw [sessionPhase, hc]
      unfold advance hears
      rw [hc]
      cases event with
      | elapsed =>
          refine reportMove_whileUnhealthy (fun next hnext => ?_) fun hnone => ?_
          · rw [← Option.some.inj hnext]
            exact reportMove_attempt hs resume
          · cases hnone
      | _ => exact reportMove_awaitHint hs resume _
  | finished result =>
      unfold advance hears
      rw [hc]
      exact .idle

end LocalForwardSupervisor

/-! ## Remote -/

namespace RemoteForwardSupervisor

variable {s : RemoteForwardSupervisor}

def sessionPhase (s : RemoteForwardSupervisor) : SessionPhase :=
  match s.control with
  | .spawned | .blocked _ | .backoff _ => .apart
  | .connecting _ => .linking
  | .pinging _ => .testing
  | .registering _ rtts => .tested rtts
  | .serving _ _ port worker => .up worker (some port)
  | .stopping .. => .leaving
  | .finished => .finished

def sessionView (s : RemoteForwardSupervisor) : SessionView := ⟨s.sessionPhase, s.state⟩

/-- What it hears of its session. -/
def hears (s : RemoteForwardSupervisor) (event : SupervisorEvent) : SessionNews :=
  match s.control, event with
  | .pinging _, .pinged result _ _ => .ping result
  | .registering .., .registered (.ok port) _ _ => .port port
  | .serving .., .healthTick result => if s.cancelled then .nothing else .ping result
  | _, _ => .nothing

theorem reportMove_attempt {v : SessionView} (hv : v.phase = .apart) (n : ℕ) :
    ReportMove v .nothing (s.attempt n).1 (s.attempt n).2.sessionView := by
  unfold attempt
  split
  · exact .finish _
  · exact .attempt n hv

theorem reportMove_afterFailure {v : SessionView} (heard : SessionNews) (n : ℕ) (reason : String)
    (blocked : Bool) (jitter : ℤ) (resume : ℕ) :
    ReportMove v heard (s.afterFailure n reason blocked jitter resume).1
      (s.afterFailure n reason blocked jitter resume).2.sessionView := by
  have hdown := not_up_failureState s.retries n reason blocked jitter
  cases blocked with
  | true => exact .fails heard _ hdown
  | false => exact .fails heard _ hdown

theorem reportMove_awaitHint (hs : s.sessionPhase = .apart) (resume : ℕ) :
    ReportMove s.sessionView .nothing (s.awaitHint resume).1
      (s.awaitHint resume).2.sessionView := by
  unfold awaitHint
  split
  · exact .finish _
  · rcases s.retryHint.poll with ⟨_ | _, hint⟩
    · exact .idle
    · exact reportMove_attempt hs resume

/-- **One event of the worker.** -/
theorem runRemote_cases (worker : Worker) (event : SupervisorEvent) :
    (∃ worker', worker.runRemote event = .inl worker' ∧
      ((∃ result, event = .healthTick result ∧ worker.healthTick result = .ok worker') ∨
      (∀ result, event ≠ .healthTick result) ∧ SamePings worker worker')) ∨
    ∃ outcome, worker.runRemote event = .inr outcome := by
  have hsame : SamePings worker worker := ⟨rfl, rfl, .inl rfl⟩
  unfold Worker.runRemote
  cases event with
  | sessionTick closed =>
      cases closed with
      | true => exact .inr ⟨_, rfl⟩
      | false => exact .inl ⟨_, rfl, .inr ⟨nofun, hsame⟩⟩
  | healthTick result =>
      dsimp only
      cases htick : worker.healthTick result with
      | ok worker' => exact .inl ⟨_, rfl, .inl ⟨result, rfl, htick⟩⟩
      | error error => exact .inr ⟨_, rfl⟩
  | connectionDone => exact .inl ⟨_, rfl, .inr ⟨nofun, samePings_connections ..⟩⟩
  | channel opened =>
      dsimp only
      split
      · cases opened with
        | true => exact .inl ⟨_, rfl, .inr ⟨nofun, samePings_connections ..⟩⟩
        | false => exact .inr ⟨_, rfl⟩
      · exact .inl ⟨_, rfl, .inr ⟨nofun, hsame⟩⟩
  | _ => exact .inl ⟨_, rfl, .inr ⟨nofun, hsame⟩⟩

theorem hears_serving {n port : ℕ} {since : Instant} {worker : Worker}
    (hc : s.control = .serving n since port worker) (event : SupervisorEvent) :
    (∃ result, event = .healthTick result ∧ s.cancelled = false ∧
      s.hears event = .ping result) ∨ s.hears event = .nothing := by
  unfold hears
  rw [hc]
  cases event with
  | healthTick result =>
      cases hcancelled : s.cancelled with
      | true => exact .inr rfl
      | false => exact .inl ⟨result, rfl, rfl, rfl⟩
  | _ => exact .inr rfl

/-- The worker runs, unless the tunnel is cancelled. -/
theorem reportMove_serving {n port : ℕ} {since : Instant} {worker : Worker}
    (hc : s.control = .serving n since port worker) (event : SupervisorEvent) :
    ReportMove s.sessionView (s.hears event) (s.advance event).1
      (s.advance event).2.sessionView := by
  have hs : s.sessionPhase = .up worker (some port) := by rw [sessionPhase, hc]
  have hends : ∀ {heard}, heard = s.hears event → ∀ port, heard ≠ .port port := by
    rintro heard rfl port hport
    rcases hears_serving hc event with ⟨result, -, -, hheard⟩ | hheard
    · rw [hheard] at hport
      cases hport
    · rw [hheard] at hport
      cases hport
  cases hcancelled : s.cancelled with
  | true =>
      have heq : s.advance event = ([], { s with control := .stopping n since (.ok ()) }) := by
        unfold advance
        rw [hc]
        dsimp only
        rw [if_pos hcancelled]
      rw [heq]
      exact .ends (v := s.sessionView) worker (some port) _ hs (hends rfl)
  | false =>
      by_cases hreport : event = .healthChanged
      · subst hreport
        unfold advance hears
        rw [hc]
        dsimp only
        rw [if_neg (Bool.eq_false_iff.1 hcancelled)]
        rcases hobserve : worker.observe (some port) with ⟨worker', _ | state⟩
        · exact reportMove_observe hs hobserve rfl rfl
        · exact reportMove_observe hs hobserve rfl rfl
      · rcases runRemote_cases worker event with
          ⟨worker', hrun, ⟨result, rfl, htick⟩ | ⟨hnone, hsame⟩⟩ | ⟨outcome, hrun⟩
        · have hheard : s.hears (.healthTick result) = .ping result := by
            unfold hears
            rw [hc, hcancelled]
            rfl
          rw [remote_goesOn _ hc hcancelled hreport hrun, hheard]
          exact .tick (v := s.sessionView) worker (some port) result worker' hs htick
        · rw [remote_goesOn _ hc hcancelled hreport hrun]
          rcases hears_serving hc event with ⟨result, rfl, -, -⟩ | hheard
          · exact (hnone result rfl).elim
          · rw [hheard]
            exact .serves (v := s.sessionView) worker (some port) worker' hs hsame
        · rw [remote_ends _ hc hcancelled hreport hrun]
          exact .ends (v := s.sessionView) worker (some port) _ hs (hends rfl)

/-- **The Remote supervisor moves so.** -/
theorem reportMove_advance (s : RemoteForwardSupervisor) (event : SupervisorEvent) :
    ReportMove s.sessionView (s.hears event) (s.advance event).1
      (s.advance event).2.sessionView := by
  cases hc : s.control with
  | serving n since port worker => exact reportMove_serving hc event
  | spawned =>
      unfold advance hears
      rw [hc]
      exact reportMove_attempt (by rw [sessionView, sessionPhase, hc]) 1
  | connecting n =>
      have hs : s.sessionPhase = .linking := by rw [sessionPhase, hc]
      unfold advance hears
      rw [hc]
      dsimp only
      split
      · exact .finish _
      · split
        · exact .linked hs
        · exact reportMove_afterFailure ..
        · exact .idle
  | pinging n =>
      have hs : s.sessionPhase = .testing := by rw [sessionPhase, hc]
      unfold advance hears
      rw [hc]
      cases event with
      | pinged result now jitter =>
          cases result with
          | ok rtts =>
              dsimp only
              unfold register
              split
              · exact .tested (v := s.sessionView) rtts hs
              · exact reportMove_afterFailure ..
          | error error => exact reportMove_afterFailure ..
      | _ => exact .idle
  | registering n rtts =>
      have hs : s.sessionPhase = .tested rtts := by rw [sessionPhase, hc]
      unfold advance hears
      rw [hc]
      cases event with
      | registered result now jitter =>
          cases result with
          | ok port => exact .registered rtts port hs
          | error source => exact reportMove_afterFailure ..
      | _ => exact .idle
  | stopping n since outcome =>
      unfold advance hears
      rw [hc]
      cases event with
      | released now jitter =>
          dsimp only
          split
          · exact .finish _
          · exact reportMove_afterFailure ..
      | _ => exact .idle
  | blocked resume =>
      unfold advance hears
      rw [hc]
      exact reportMove_awaitHint (by rw [sessionPhase, hc]) resume
  | backoff resume =>
      have hs : s.sessionPhase = .apart := by rw [sessionPhase, hc]
      unfold advance hears
      rw [hc]
      cases event with
      | elapsed =>
          dsimp only
          split
          · exact .finish _
          · exact reportMove_attempt hs resume
      | _ => exact reportMove_awaitHint hs resume
  | finished =>
      unfold advance hears
      rw [hc]
      exact .idle

end RemoteForwardSupervisor

/-! ## Either -/

namespace Supervisor

variable {s : Supervisor}

def sessionView : Supervisor → SessionView
  | .local s => s.sessionView
  | .remote s => s.sessionView

/-- What a supervisor hears of its session. Signals and cancellations
are not of it. -/
def hears : Supervisor → SupervisorEvent → SessionNews
  | .local s, event => s.hears event
  | .remote s, event => s.hears event

/-- The session after some events, as far as it was heard of. -/
def session (s : Supervisor) (events : List SupervisorEvent) : PingSession :=
  (trace step s events).foldl (fun session x => session.next (x.before.hears x.input) x.output) {}

theorem session_concat (events : List SupervisorEvent) (event : SupervisorEvent) :
    s.session (events ++ [event]) = (s.session events).next
      ((runState step s events).hears event) ((runState step s events).step event).1 := by
  unfold session
  rw [trace_concat, List.foldl_append]
  rfl

theorem hears_other (s : Supervisor) {event : SupervisorEvent}
    (h : event = .cancel ∨ event = .notify) : s.hears event = .nothing := by
  cases s with
  | «local» s =>
      show s.hears event = .nothing
      unfold LocalForwardSupervisor.hears
      rcases h with rfl | rfl
      · cases s.control <;> rfl
      · cases s.control <;> rfl
  | remote s =>
      show s.hears event = .nothing
      unfold RemoteForwardSupervisor.hears
      rcases h with rfl | rfl
      · cases s.control <;> rfl
      · cases s.control <;> rfl

/-- **A step of a supervisor is a move.** -/
theorem reportMove_step (s : Supervisor) (event : SupervisorEvent) :
    ReportMove s.sessionView (s.hears event) (s.step event).1 (s.step event).2.sessionView := by
  have hother : event = .cancel ∨ event = .notify → s.hears event = .nothing := s.hears_other
  cases event with
  | cancel =>
      rw [hother (.inl rfl)]
      cases s with
      | «local» s => exact .idle (v := s.sessionView)
      | remote s => exact .idle (v := s.sessionView)
  | notify =>
      rw [hother (.inr rfl)]
      cases s with
      | «local» s => exact .idle (v := s.sessionView)
      | remote s => exact .idle (v := s.sessionView)
  | _ =>
      cases s with
      | «local» s => exact s.reportMove_advance _
      | remote s => exact s.reportMove_advance _

/-- A supervisor as it is spawned has no session. -/
theorem Fresh.keeps (h : s.Fresh) : KeepsSession {} s.sessionView := by
  cases s with
  | «local» s =>
      obtain ⟨listener, mode, retry, hnew⟩ := h
      unfold LocalForwardSupervisor.new at hnew
      split at hnew
      · cases hnew
      · rw [← Except.ok.inj hnew]
        exact id
  | remote s =>
      obtain ⟨target, retry, rfl⟩ := h
      exact id

/-- **What a run keeps.** -/
theorem keeps_run (hs : s.Fresh) (events : List SupervisorEvent) :
    KeepsSession (s.session events) (runState step s events).sessionView := by
  induction events using List.reverseRecOn with
  | nil => exact hs.keeps
  | append_singleton events event ih =>
      rw [session_concat, runState_concat]
      exact ((reportMove_step _ event).keeps ih).1

/-- **What is shown is true.** Healthy and Degraded are shown of the
session that is up or being shut down, and were true when they were
published. With nothing unseen they are true of all its pings, and never
has it missed too many. -/
structure Truthful (session : PingSession) (s : Supervisor) : Prop where
  up : s.state.Up →
    (∃ worker port, s.sessionView.phase = .up worker port) ∨ s.sessionView.phase = .leaving
  told : s.state.Up → session.Told s.state
  seen : ∀ worker port, s.sessionView.phase = .up worker port → worker.unseen = false →
    TellsPings session.pings session.port s.state
  few : ∀ worker port, s.sessionView.phase = .up worker port →
    missedPings session.pings < maxPingFailures

theorem sessionView_state (s : Supervisor) : s.sessionView.state = s.state := by
  cases s <;> rfl

/-- Nothing is demanded where nothing is shown. -/
theorem truthful_of_down {session : PingSession} (hdown : ¬ s.state.Up)
    (hphase : ∀ worker port, s.sessionView.phase ≠ .up worker port) : Truthful session s where
  up hup := (hdown hup).elim
  told hup := (hdown hup).elim
  seen worker port heq := (hphase worker port heq).elim
  few worker port heq := (hphase worker port heq).elim

theorem truthful_of_keeps {session : PingSession} (h : KeepsSession session s.sessionView) :
    Truthful session s := by
  have hstate := s.sessionView_state
  unfold KeepsSession at h
  rw [hstate] at h
  cases hphase : s.sessionView.phase with
  | up worker port =>
      rw [hphase] at h
      obtain ⟨-, hreports⟩ := h
      have hsame : ∀ {worker' port'}, s.sessionView.phase = .up worker' port' →
          worker' = worker := by
        intro worker' port' heq
        rw [hphase] at heq
        exact (SessionPhase.up.inj heq).1.symm
      refine ⟨fun _ => .inl ⟨worker, port, hphase⟩, fun _ => hreports.told, ?_, ?_⟩
      · intro worker' port' heq hseen
        obtain rfl := hsame heq
        exact hreports.seen hseen
      · intro worker' port' heq
        rw [hreports.failures]
        exact hreports.few
  | leaving =>
      rw [hphase] at h
      refine ⟨fun _ => .inr hphase, fun _ => h, ?_, ?_⟩
      · intro worker' port' heq
        rw [hphase] at heq
        cases heq
      · intro worker' port' heq
        rw [hphase] at heq
        cases heq
  | apart => rw [hphase] at h; exact truthful_of_down h (by simp [hphase])
  | finished => rw [hphase] at h; exact truthful_of_down h (by simp [hphase])
  | linking => rw [hphase] at h; exact truthful_of_down h.1 (by simp [hphase])
  | testing => rw [hphase] at h; exact truthful_of_down h.1 (by simp [hphase])
  | tested rtts => rw [hphase] at h; exact truthful_of_down h.1 (by simp [hphase])

/-- **A supervisor tells the truth of its session.** However the
attempts, the pings, the reports and the cancellation follow each other:
what it publishes as healthy or degraded is what the pings of the
present session came to, the times of the last one or the number and the
reason of those that failed since, with the port that this session
registered. -/
theorem tells_truth (hs : s.Fresh) (events : List SupervisorEvent) :
    Truthful (s.session events) (runState step s events) ∧
      ∀ event state, .publish state ∈ ((runState step s events).step event).1 → state.Up →
        TellsPings (s.session (events ++ [event])).pings (s.session (events ++ [event])).port
          state := by
  have hkeeps := keeps_run hs events
  refine ⟨truthful_of_keeps hkeeps, fun event state hmem hup => ?_⟩
  rw [session_concat]
  exact ((reportMove_step _ event).keeps hkeeps).2 state hmem hup

/-- A session that misses a ping, and answers the next before the
supervisor looks. -/
def unseenMiss : List SupervisorEvent :=
  [.poll, .connected (.ok ()) 0, .pinged (.ok [.fromMillis 20]) 0 0,
    .healthTick (.error (.hop 1 (.timeout "SSH ping"))), .healthTick (.ok [.fromMillis 35]),
    .healthChanged]

theorem tells_truth_unseenMiss :
    Truthful (socks.session unseenMiss) (runState step socks unseenMiss) ∧
      ∀ event state, .publish state ∈ ((runState step socks unseenMiss).step event).1 →
        state.Up → TellsPings (socks.session (unseenMiss ++ [event])).pings
          (socks.session (unseenMiss ++ [event])).port state :=
  have hfresh : socks.Fresh := ⟨LocalForwardSupervisor.boundListener, .dynamic, {}, rfl⟩
  tells_truth hfresh unseenMiss

end Supervisor

end TunnelWarden

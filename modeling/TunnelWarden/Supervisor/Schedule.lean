import TunnelWarden.Supervisor.Hint

/-!
# The numbers of the retries

Both supervisors count their attempts alike, and `Counts` says how. An
attempt that fails publishes its own number and passes the next one on.
A worker that ends publishes the number of the next attempt, which that
attempt then publishes again if it fails. So the numbers of a run follow
the schedule only where no failure is out of turn (`onSchedule_iff`).
-/

namespace TunnelWarden

/-- A failure, as far as the numbers are concerned. -/
inductive FailureKind where
  /-- An attempt: of its connection, its first ping or its registration. -/
  | attempt
  /-- The same, and not to be retried. -/
  | blocked
  /-- A worker that was not up for `reset_after_healthy`. -/
  | shortWorker
  /-- A worker that was. -/
  | longWorker
  deriving DecidableEq, Repr

/-- A failure and the jitter drawn for its delay. -/
structure Failure where
  kind : FailureKind
  jitter : ℤ
  deriving DecidableEq, Repr

/-- A number that is published, and the delay with it. -/
abbrev Reconnect : Type := ℕ × Duration

/-- The failure of an attempt that may be retried, or may not. -/
def attemptFailure (retryability : Retryability) (jitter : ℤ) : Failure :=
  ⟨if retryability = .blocked then .blocked else .attempt, jitter⟩

/-- What a worker's end is. -/
def workerFailure (reset : Bool) (jitter : ℤ) : Failure :=
  ⟨if reset then .longWorker else .shortWorker, jitter⟩

/-- The reconnects among the effects of a step. -/
def reconnects : List Effect → List Reconnect
  | [] => []
  | .publish (.reconnecting n delay _) :: out => (n, delay) :: reconnects out
  | _ :: out => reconnects out

/-! ## The schedule -/

section Schedule

variable (policy : RetryPolicy)

/-- Number `n`, with its delay. -/
def numbered (n : ℕ) (jitter : ℤ) : Reconnect := (n, policy.delay n jitter)

/-- **The schedule**: after `k` reconnects the next has the number
`k + 1`, and a worker that was up for long begins anew. -/
def scheduled : ℕ → List Failure → List Reconnect
  | _, [] => []
  | k, f :: fs =>
    match f.kind with
    | .attempt | .shortWorker =>
      numbered policy (min (k + 1) attemptMax) f.jitter :: scheduled (k + 1) fs
    | .blocked => scheduled k fs
    | .longWorker => numbered policy 1 f.jitter :: scheduled 1 fs

/-- The number of the attempt after a failure of attempt `n`. -/
def Failure.next (f : Failure) (n : ℕ) : ℕ :=
  match f.kind with
  | .attempt | .blocked | .shortWorker => nextAttempt n
  | .longWorker => 1

/-- What a failure of attempt `n` publishes. -/
def Failure.shown (f : Failure) (n : ℕ) : List Reconnect :=
  match f.kind with
  | .attempt => [numbered policy n f.jitter]
  | .blocked => []
  | .shortWorker | .longWorker => [numbered policy (f.next n) f.jitter]

/-- What a list of failures publishes, from attempt `n` on. -/
def shown : ℕ → List Failure → List Reconnect
  | _, [] => []
  | n, f :: fs => f.shown policy n ++ shown (f.next n) fs

end Schedule

/-- **The failures come in their turn**, after `k` reconnects. `lead` is
how far the number of the attempt is ahead of them: by one at the start,
by none after a worker that was up for long, and by one more for each
blocked attempt since. An attempt may fail at a lead of one, a worker
end short at a lead of none; or the numbers do not grow any more. -/
def InTurn : ℕ → ℕ → List Failure → Prop
  | _, _, [] => True
  | lead, k, f :: fs =>
    match f.kind with
    | .attempt => (lead = 1 ∨ attemptMax ≤ k + min 1 lead) ∧ InTurn lead (k + 1) fs
    | .shortWorker => (lead = 0 ∨ attemptMax ≤ k + 1) ∧ InTurn lead (k + 1) fs
    | .blocked => InTurn (lead + 1) k fs
    | .longWorker => InTurn 0 1 fs

/-- The number of an attempt `lead` ahead of `k` reconnects. -/
def leading (lead k : ℕ) : ℕ := min (k + lead) attemptMax

theorem leading_next (lead k : ℕ) : nextAttempt (leading lead k) = leading (lead + 1) k := by
  unfold nextAttempt leading
  omega

theorem leading_reconnect (lead k : ℕ) : leading (lead + 1) k = leading lead (k + 1) := by
  unfold leading
  omega

variable {policy : RetryPolicy}

theorem numbered_inj {n m : ℕ} {jitter : ℤ} :
    numbered policy n jitter = numbered policy m jitter ↔ n = m := by
  constructor
  · intro h
    exact (Prod.mk.inj h).1
  · intro h
    rw [h]

/-- The number of a failing attempt is the next of the schedule. -/
theorem leading_eq_iff (lead k : ℕ) :
    leading lead k = min (k + 1) attemptMax ↔ lead = 1 ∨ attemptMax ≤ k + min 1 lead := by
  unfold leading
  omega

/-- **The numbers of a list of failures** are those of the schedule
exactly where the failures come in their turn. -/
theorem shown_eq_scheduled_iff (policy : RetryPolicy) (lead k : ℕ) (fs : List Failure) :
    shown policy (leading lead k) fs = scheduled policy k fs ↔ InTurn lead k fs := by
  induction fs generalizing lead k with
  | nil => simp [shown, scheduled, InTurn]
  | cons f fs ih =>
      obtain ⟨kind, jitter⟩ := f
      cases kind with
      | attempt =>
          have hrest := ih lead (k + 1)
          simp only [shown, Failure.shown, Failure.next, scheduled, InTurn, List.singleton_append,
            List.cons.injEq, numbered_inj, leading_next, leading_reconnect, hrest, leading_eq_iff]
      | blocked =>
          have hrest := ih (lead + 1) k
          simp only [shown, Failure.shown, Failure.next, scheduled, InTurn, List.nil_append,
            leading_next, hrest]
      | shortWorker =>
          have hrest := ih lead (k + 1)
          have hnumber : leading lead (k + 1) = min (k + 1) attemptMax ↔
              lead = 0 ∨ attemptMax ≤ k + 1 := by
            unfold leading
            omega
          simp only [shown, Failure.shown, Failure.next, scheduled, InTurn, List.singleton_append,
            List.cons.injEq, numbered_inj, leading_next, leading_reconnect, hrest, hnumber]
      | longWorker =>
          have hrest := ih 0 1
          have hfirst : leading 0 1 = 1 := by decide
          rw [hfirst] at hrest
          simp only [shown, Failure.shown, Failure.next, scheduled, InTurn, List.singleton_append,
            List.cons.injEq, true_and, hrest]

/-! ## What a step does to the count -/

/-- What counts of a supervisor: its policy, and the number of the
attempt it is at, until it has returned. -/
structure Count where
  policy : RetryPolicy
  number : Option ℕ

/-- What its failures will publish. -/
def Count.shown (c : Count) (fs : List Failure) : List Reconnect :=
  match c.number with
  | some n => TunnelWarden.shown c.policy n fs
  | none => []

theorem Count.shown_nil (c : Count) : c.shown [] = [] := by
  unfold Count.shown
  split
  · rfl
  · rfl

/-- **One step of a supervisor**, told by the failure it meets and what
it publishes. -/
def Counts (c : Count) (failure : Option Failure) (out : List Effect) (c' : Count) : Prop :=
  c'.policy = c.policy ∧
    match failure with
    | none => reconnects out = [] ∧ (c'.number = c.number ∨ c'.number = none)
    | some f => ∃ n, c.number = some n ∧ reconnects out = f.shown c.policy n ∧
        c'.number = some (f.next n)

/-- A step that does not count. -/
theorem counts_idle {c : Count} {out : List Effect} (hout : reconnects out = []) :
    Counts c none out c :=
  ⟨rfl, hout, .inl rfl⟩

/-- What a worker reports of its health does not count. -/
theorem reconnects_observe {w w' : Worker} {remotePort : Option ℕ} {state : SupervisorState}
    (hobs : w.observe remotePort = (w', some state)) : reconnects [.publish state] = [] := by
  rcases Worker.observe_some hobs with ⟨rtts, rfl⟩ | ⟨failures, reason, rfl⟩
  · rfl
  · rfl

/-- What is published for a failed attempt. -/
theorem counts_attemptFailure (policy : RetryPolicy) (n : ℕ) (reason : String)
    (retryability : Retryability) (jitter : ℤ) :
    Counts ⟨policy, some n⟩ (some (attemptFailure retryability jitter))
      [.publish (failureState policy n reason (retryability = .blocked) jitter)]
      ⟨policy, some (nextAttempt n)⟩ := by
  refine ⟨rfl, n, rfl, ?_, ?_⟩
  · unfold failureState attemptFailure
    cases retryability with
    | transient => rfl
    | blocked => rfl
  · unfold attemptFailure Failure.next
    cases retryability with
    | transient => rfl
    | blocked => rfl

/-- What is published for a worker's end. -/
theorem counts_workerFailure (policy : RetryPolicy) (n : ℕ) (reason : String) (reset : Bool)
    (jitter : ℤ) :
    Counts ⟨policy, some n⟩ (some (workerFailure reset jitter))
      [.publish (failureState policy (if reset then 1 else nextAttempt n) reason false jitter)]
      ⟨policy, some (if reset then 1 else nextAttempt n)⟩ := by
  refine ⟨rfl, n, rfl, ?_, ?_⟩
  · cases reset with
    | true => rfl
    | false => rfl
  · cases reset with
    | true => rfl
    | false => rfl

/-! ## Local -/

namespace LocalForwardSupervisor

variable {s : LocalForwardSupervisor} {event : SupervisorEvent} {v : Option ℕ}

/-- The number of the attempt the supervisor is at, or waits to make. -/
def number (s : LocalForwardSupervisor) : Option ℕ :=
  match s.control with
  | .spawned => some 1
  | .connecting n | .pinging n | .serving n .. | .releasing n .. => some n
  | .blocked resume | .backoff resume => some resume
  | .finished _ => none

/-- What counts of it. -/
def count (s : LocalForwardSupervisor) : Count := ⟨s.retries, s.number⟩

/-- The failure an event is. -/
def failure (s : LocalForwardSupervisor) (event : SupervisorEvent) : Option Failure :=
  match s.control, event with
  | .connecting _, .connected (.error error) jitter =>
    if s.cancelled ∨ s.socket = none then none
    else some (attemptFailure (chainRetryability error) jitter)
  | .pinging _, .pinged (.error _) _ jitter => some (attemptFailure .transient jitter)
  | .releasing _ since _ _, .released now jitter =>
    if s.cancelled then none
    else some (workerFailure (s.retries.resetAfterHealthy ≤ now - since) jitter)
  | _, _ => none

theorem counts_finish (result : Except SupervisorError Unit) :
    Counts ⟨s.retries, v⟩ none (s.finish result).1 (s.finish result).2.count :=
  ⟨rfl, rfl, .inr rfl⟩

/-- An attempt keeps its number. -/
theorem counts_attempt (n : ℕ) :
    Counts ⟨s.retries, some n⟩ none (s.attempt n).1 (s.attempt n).2.count := by
  unfold attempt
  split
  · exact counts_finish _
  · exact counts_idle rfl

theorem count_afterFailure (n : ℕ) (reason : String) (blocked : Bool) (jitter : ℤ) (resume : ℕ) :
    (s.afterFailure n reason blocked jitter resume).2.count = ⟨s.retries, some resume⟩ := by
  cases blocked with
  | true => rfl
  | false => rfl

/-- A wait that is not ready keeps the number. -/
theorem counts_pending : Counts s.count none (s.whileUnhealthy none event).1
    (s.whileUnhealthy none event).2.count := by
  rcases whileUnhealthy_cases s none event with ⟨-, result, -, heq⟩ | ⟨-, next, hnext, -⟩ |
    ⟨-, -, error, heq⟩ | ⟨-, -, clients, heq⟩
  · rw [heq]
    exact counts_finish _
  · cases hnext
  · rw [heq]
    exact counts_finish _
  · rw [heq]
    exact counts_idle rfl

/-- A wait that is ready goes on with what it was ready for. -/
theorem counts_ready {next : List Effect × LocalForwardSupervisor}
    (hnext : Counts ⟨s.retries, v⟩ none next.1 next.2.count) :
    Counts ⟨s.retries, v⟩ none (s.whileUnhealthy (some next) event).1
      (s.whileUnhealthy (some next) event).2.count := by
  rcases whileUnhealthy_cases s (some next) event with ⟨-, result, -, heq⟩ | ⟨-, next', hnext', heq⟩ |
    ⟨hnone, -⟩ | ⟨hnone, -⟩
  · rw [heq]
    exact counts_finish _
  · rw [heq, ← Option.some.inj hnext']
    exact hnext
  · cases hnone
  · cases hnone

theorem counts_awaitHint {resume : ℕ} (hs : s.count = ⟨s.retries, some resume⟩) :
    Counts s.count none (s.awaitHint resume event).1 (s.awaitHint resume event).2.count := by
  rcases hp : s.retryHint.poll with ⟨_ | _, hint⟩
  · rw [awaitHint_pending hp]
    exact counts_pending (s := { s with retryHint := hint })
  · rw [awaitHint_ready hp, hs]
    exact counts_ready (counts_attempt resume)

/-- A signal is no failure, and neither is a cancellation. -/
theorem failure_of_other (event : SupervisorEvent) (h : event = .cancel ∨ event = .notify) :
    s.failure event = none := by
  rcases h with rfl | rfl
  · unfold failure
    cases s.control <;> rfl
  · unfold failure
    cases s.control <;> rfl

/-- **The Local supervisor counts so.** -/
theorem counts_advance (s : LocalForwardSupervisor) (event : SupervisorEvent) :
    Counts s.count (s.failure event) (s.advance event).1 (s.advance event).2.count := by
  unfold advance failure
  cases hc : s.control with
  | spawned =>
      have hs : s.count = ⟨s.retries, some 1⟩ := by rw [count, number, hc]
      rw [hs]
      exact counts_attempt 1
  | connecting n =>
      have hs : s.count = ⟨s.retries, some n⟩ := by rw [count, number, hc]
      cases event with
      | connected result jitter =>
          cases result with
          | ok _ =>
              rw [hs]
              exact counts_ready (counts_idle rfl)
          | error error =>
              dsimp only
              split
              · rename_i hover
                obtain ⟨result, heq⟩ := whileUnhealthy_over hover (some _) _
                rw [heq]
                exact counts_finish _
              · rename_i hgoes
                obtain ⟨hlive, hsocket⟩ := not_or.1 hgoes
                rw [whileUnhealthy_ready (by simpa using hlive) hsocket, count_afterFailure, hs]
                exact counts_attemptFailure s.retries n error.display (chainRetryability error) jitter
      | _ => exact counts_pending
  | pinging n =>
      have hs : s.count = ⟨s.retries, some n⟩ := by rw [count, number, hc]
      rw [hs]
      cases event with
      | pinged result now jitter =>
          cases result with
          | ok rtts =>
              dsimp only
              unfold serve
              split
              · exact counts_finish _
              · dsimp only
                split
                · exact ⟨rfl, rfl, .inr rfl⟩
                · exact counts_idle rfl
          | error error =>
              dsimp only
              rw [count_afterFailure]
              exact counts_attemptFailure s.retries n error.display .transient jitter
      | _ => exact ⟨rfl, rfl, .inl (by rw [hs])⟩
  | serving n since worker listener =>
      have hs : s.count = ⟨s.retries, some n⟩ := by rw [count, number, hc]
      rw [hs]
      dsimp only
      split
      · rcases hobs : worker.observe none with ⟨worker', _ | state⟩
        · exact counts_idle rfl
        · exact counts_idle (reconnects_observe hobs)
      · split
        · exact counts_idle rfl
        · exact counts_idle rfl
  | releasing n since outcome listener =>
      have hs : s.count = ⟨s.retries, some n⟩ := by rw [count, number, hc]
      rw [hs]
      cases event with
      | released now jitter =>
          dsimp only
          split
          · exact ⟨rfl, rfl, .inr rfl⟩
          · rw [count_afterFailure]
            exact counts_workerFailure s.retries n (outcomeReason outcome) _ jitter
      | _ => exact ⟨rfl, rfl, .inl (by rw [hs])⟩
  | blocked resume =>
      exact counts_awaitHint (by rw [count, number, hc])
  | backoff resume =>
      have hs : s.count = ⟨s.retries, some resume⟩ := by rw [count, number, hc]
      dsimp only
      split
      · rw [hs]
        exact counts_ready (counts_attempt resume)
      · exact counts_awaitHint hs
  | finished result =>
      exact counts_idle rfl

end LocalForwardSupervisor

/-! ## Remote -/

namespace RemoteForwardSupervisor

variable {s : RemoteForwardSupervisor} {event : SupervisorEvent} {v : Option ℕ}

/-- The number of the attempt the supervisor is at, or waits to make. -/
def number (s : RemoteForwardSupervisor) : Option ℕ :=
  match s.control with
  | .spawned => some 1
  | .connecting n | .pinging n | .registering n _ | .serving n .. | .stopping n .. => some n
  | .blocked resume | .backoff resume => some resume
  | .finished => none

/-- What counts of it. -/
def count (s : RemoteForwardSupervisor) : Count := ⟨s.retries, s.number⟩

/-- The failure an event is. -/
def failure (s : RemoteForwardSupervisor) (event : SupervisorEvent) : Option Failure :=
  match s.control, event with
  | .connecting _, .connected (.error error) jitter =>
    if s.cancelled then none else some (attemptFailure (chainRetryability error) jitter)
  | .pinging _, .pinged (.error _) _ jitter => some (attemptFailure .transient jitter)
  | .pinging _, .pinged (.ok _) _ jitter =>
    if validTarget s.localTarget then none
    else some (attemptFailure (remoteRetryability .invalidTarget) jitter)
  | .registering _ _, .registered (.error source) _ jitter =>
    some (attemptFailure (remoteRetryability (.registration source)) jitter)
  | .stopping _ since _, .released now jitter =>
    if s.cancelled then none
    else some (workerFailure (s.retries.resetAfterHealthy ≤ now - since) jitter)
  | _, _ => none

theorem counts_finish : Counts ⟨s.retries, v⟩ none s.finish.1 s.finish.2.count :=
  ⟨rfl, rfl, .inr rfl⟩

/-- An attempt keeps its number. -/
theorem counts_attempt (n : ℕ) :
    Counts ⟨s.retries, some n⟩ none (s.attempt n).1 (s.attempt n).2.count := by
  unfold attempt
  split
  · exact counts_finish
  · exact counts_idle rfl

theorem count_afterFailure (n : ℕ) (reason : String) (blocked : Bool) (jitter : ℤ) (resume : ℕ) :
    (s.afterFailure n reason blocked jitter resume).2.count = ⟨s.retries, some resume⟩ := by
  cases blocked with
  | true => rfl
  | false => rfl

theorem counts_awaitHint {resume : ℕ} (hs : s.count = ⟨s.retries, some resume⟩) :
    Counts s.count none (s.awaitHint resume).1 (s.awaitHint resume).2.count := by
  unfold awaitHint
  split
  · exact counts_finish
  · rcases hp : s.retryHint.poll with ⟨_ | _, hint⟩
    · exact counts_idle rfl
    · rw [hs]
      exact counts_attempt resume

theorem failure_of_other (event : SupervisorEvent) (h : event = .cancel ∨ event = .notify) :
    s.failure event = none := by
  rcases h with rfl | rfl
  · unfold failure
    cases s.control <;> rfl
  · unfold failure
    cases s.control <;> rfl

/-- **The Remote supervisor counts so too.** -/
theorem counts_advance (s : RemoteForwardSupervisor) (event : SupervisorEvent) :
    Counts s.count (s.failure event) (s.advance event).1 (s.advance event).2.count := by
  unfold advance failure
  cases hc : s.control with
  | spawned =>
      have hs : s.count = ⟨s.retries, some 1⟩ := by rw [count, number, hc]
      rw [hs]
      exact counts_attempt 1
  | connecting n =>
      have hs : s.count = ⟨s.retries, some n⟩ := by rw [count, number, hc]
      rw [hs]
      cases event with
      | connected result jitter =>
          cases result with
          | ok _ =>
              dsimp only
              split
              · exact counts_finish
              · exact counts_idle rfl
          | error error =>
              dsimp only
              split
              · exact counts_finish
              · rw [count_afterFailure]
                exact counts_attemptFailure s.retries n error.display (chainRetryability error) jitter
      | _ =>
          dsimp only
          split
          · exact counts_finish
          · exact ⟨rfl, rfl, .inl (by rw [hs])⟩
  | pinging n =>
      have hs : s.count = ⟨s.retries, some n⟩ := by rw [count, number, hc]
      rw [hs]
      cases event with
      | pinged result now jitter =>
          cases result with
          | ok rtts =>
              dsimp only
              unfold register
              split
              · exact counts_idle rfl
              · rw [count_afterFailure]
                exact counts_attemptFailure s.retries n _ (remoteRetryability .invalidTarget) jitter
          | error error =>
              dsimp only
              rw [count_afterFailure]
              exact counts_attemptFailure s.retries n error.display .transient jitter
      | _ => exact ⟨rfl, rfl, .inl (by rw [hs])⟩
  | registering n rtts =>
      have hs : s.count = ⟨s.retries, some n⟩ := by rw [count, number, hc]
      rw [hs]
      cases event with
      | registered result now jitter =>
          cases result with
          | ok port => exact counts_idle rfl
          | error source =>
              dsimp only
              rw [count_afterFailure]
              exact counts_attemptFailure s.retries n _ (remoteRetryability (.registration source)) jitter
      | _ => exact ⟨rfl, rfl, .inl (by rw [hs])⟩
  | serving n since port worker =>
      have hs : s.count = ⟨s.retries, some n⟩ := by rw [count, number, hc]
      rw [hs]
      dsimp only
      split
      · exact counts_idle rfl
      · split
        · rcases hobs : worker.observe (some port) with ⟨worker', _ | state⟩
          · exact counts_idle rfl
          · exact counts_idle (reconnects_observe hobs)
        · split
          · exact counts_idle rfl
          · exact counts_idle rfl
  | stopping n since outcome =>
      have hs : s.count = ⟨s.retries, some n⟩ := by rw [count, number, hc]
      rw [hs]
      cases event with
      | released now jitter =>
          dsimp only
          split
          · exact counts_finish
          · rw [count_afterFailure]
            exact counts_workerFailure s.retries n (outcomeReason outcome) _ jitter
      | _ => exact ⟨rfl, rfl, .inl (by rw [hs])⟩
  | blocked resume => exact counts_awaitHint (by rw [count, number, hc])
  | backoff resume =>
      have hs : s.count = ⟨s.retries, some resume⟩ := by rw [count, number, hc]
      cases event with
      | elapsed =>
          rw [hs]
          dsimp only
          split
          · exact counts_finish
          · exact counts_attempt resume
      | _ => exact counts_awaitHint hs
  | finished => exact counts_idle rfl

end RemoteForwardSupervisor

/-! ## Either -/

namespace Supervisor

variable {s : Supervisor}

def retries : Supervisor → RetryPolicy
  | .local s => s.retries
  | .remote s => s.retries

/-- The failure an event is. -/
def failure : Supervisor → SupervisorEvent → Option Failure
  | .local s, event => s.failure event
  | .remote s, event => s.failure event

def count : Supervisor → Count
  | .local s => s.count
  | .remote s => s.count

/-- The failures of a run. -/
def failures (s : Supervisor) (events : List SupervisorEvent) : List Failure :=
  (trace step s events).filterMap fun x => x.before.failure x.input

/-- The reconnects a run publishes. -/
def published (s : Supervisor) (events : List SupervisorEvent) : List Reconnect :=
  (trace step s events).flatMap fun x => reconnects x.output

/-- Every step counts so. -/
theorem counts_step (s : Supervisor) (event : SupervisorEvent) :
    Counts s.count (s.failure event) (s.step event).1 (s.step event).2.count := by
  cases s with
  | «local» s =>
      have hother := s.failure_of_other event
      cases event with
      | cancel =>
          rw [Supervisor.failure, hother (.inl rfl)]
          exact counts_idle rfl
      | notify =>
          rw [Supervisor.failure, hother (.inr rfl)]
          exact counts_idle rfl
      | _ => exact s.counts_advance _
  | remote s =>
      have hother := s.failure_of_other event
      cases event with
      | cancel =>
          rw [Supervisor.failure, hother (.inl rfl)]
          exact counts_idle rfl
      | notify =>
          rw [Supervisor.failure, hother (.inr rfl)]
          exact counts_idle rfl
      | _ => exact s.counts_advance _

/-- **What a run publishes** is what its failures come to. After its
return a supervisor meets none. -/
theorem published_eq (s : Supervisor) (events : List SupervisorEvent) :
    s.published events = s.count.shown (s.failures events) ∧
      (s.count.number = none → s.failures events = []) := by
  induction events generalizing s with
  | nil => exact ⟨s.count.shown_nil.symm, fun _ => rfl⟩
  | cons event events ih =>
      obtain ⟨hpublished, hreturned⟩ := ih (s.step event).2
      obtain ⟨hpolicy, hmove⟩ := s.counts_step event
      have hcons : s.published (event :: events) =
          reconnects (s.step event).1 ++ (s.step event).2.published events := rfl
      rw [hcons, hpublished]
      cases hf : s.failure event with
      | none =>
          have hrest : s.failures (event :: events) = (s.step event).2.failures events := by
            simp only [failures, trace, List.filterMap_cons, hf]
          rw [hf] at hmove
          obtain ⟨hout, hnumber | hnumber⟩ := hmove
          · rw [hrest, hout, List.nil_append, Count.shown, Count.shown, hpolicy, hnumber]
            rw [hnumber] at hreturned
            exact ⟨rfl, hreturned⟩
          · rw [hrest, hout, List.nil_append, hreturned hnumber, Count.shown_nil, Count.shown_nil]
            exact ⟨rfl, fun _ => rfl⟩
      | some f =>
          have hrest : s.failures (event :: events) = f :: (s.step event).2.failures events := by
            simp only [failures, trace, List.filterMap_cons, hf]
          rw [hf] at hmove
          obtain ⟨n, hn, hout, hnumber⟩ := hmove
          rw [hrest, hout, Count.shown, Count.shown, hpolicy, hnumber, hn]
          exact ⟨rfl, fun hnone => by cases hnone⟩

/-- A supervisor as it is spawned makes its first attempt. -/
theorem Fresh.number (h : s.Fresh) : s.count.number = some 1 := by
  cases s with
  | «local» s =>
      obtain ⟨listener, mode, retry, hnew⟩ := h
      unfold LocalForwardSupervisor.new at hnew
      split at hnew
      · cases hnew
      · rw [← Except.ok.inj hnew]
        rfl
  | remote s =>
      obtain ⟨target, retry, rfl⟩ := h
      rfl

/-- **When the retries follow the schedule.** In every run of a
supervisor, over every script of events, the numbers published in
`Reconnecting` count the reconnects since the start, or since the last
worker that was up for `reset_after_healthy`, and each with the delay of
its number, exactly where the failures come in their turn. -/
theorem onSchedule_iff (hs : s.Fresh) (events : List SupervisorEvent) :
    s.published events = scheduled s.retries 0 (s.failures events) ↔
      InTurn 1 0 (s.failures events) := by
  have hnumber := hs.number
  have hpolicy : s.count.policy = s.retries := by
    cases s with
    | «local» s => rfl
    | remote s => rfl
  have hfirst : leading 1 0 = 1 := by decide
  rw [(s.published_eq events).1, Count.shown, hnumber, hpolicy,
    ← shown_eq_scheduled_iff s.retries, hfirst]

/-! ## A worker that ends at once -/

/-- The supervisor of a SOCKS tunnel. -/
def socks : Supervisor := .local LocalForwardSupervisor.socksSupervisor

/-- A tunnel with a first failure: its worker finds the session closed
two seconds after it began. -/
def droppedSession : List SupervisorEvent :=
  [.poll, .connected (.ok ()) 0, .pinged (.ok []) 0 0, .sessionTick true,
    .released (Duration.fromSecs 2) 0]

theorem onSchedule_iff_droppedSession :
    socks.Fresh ∧ (socks.published droppedSession =
        scheduled socks.retries 0 (socks.failures droppedSession) ↔
      InTurn 1 0 (socks.failures droppedSession)) :=
  have hfresh : socks.Fresh := ⟨LocalForwardSupervisor.boundListener, .dynamic, {}, rfl⟩
  ⟨hfresh, onSchedule_iff hfresh droppedSession⟩

/-- **The first delay is the second of the schedule.** -/
theorem droppedSession_not_onSchedule :
    socks.Fresh ∧ socks.published droppedSession = [(2, .fromSecs 2)] ∧
      scheduled socks.retries 0 (socks.failures droppedSession) = [(1, .fromSecs 1)] := by
  refine ⟨⟨LocalForwardSupervisor.boundListener, .dynamic, {}, rfl⟩, ?_, ?_⟩
  · decide +kernel
  · decide +kernel

end Supervisor

end TunnelWarden

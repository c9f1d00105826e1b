import Mathlib.Algebra.Group.Nat.Defs
import TunnelWarden.Supervisor.Model.Errors

/-!
# What a supervisor publishes, and how it times its retries

`SupervisorState` is the one value a supervisor publishes, `WorkerHealth`
what a running worker reports, and `RetrySchedule` the timing of the
attempts. Randomness and the clock are inputs.
-/

namespace TunnelWarden

inductive SupervisorState where
  | connecting (attempt : ℕ)
  | reconnecting (attempt : ℕ) (delay : Duration) (reason : String)
  | healthy (rtts : List Duration) (remotePort : Option ℕ)
  | degraded (failedPings : ℕ) (reason : String)
  | blocked (reason : String)
  | stopped
  deriving DecidableEq, Repr

namespace SupervisorState

/-- `std::mem::discriminant`. -/
def discriminant : SupervisorState → ℕ
  | connecting _ => 0
  | reconnecting .. => 1
  | healthy .. => 2
  | degraded .. => 3
  | blocked _ => 4
  | stopped => 5

/-- The states shown while nothing runs for the tunnel. -/
def Idle (s : SupervisorState) : Prop := s = .stopped ∨ ∃ reason, s = .blocked reason

end SupervisorState

inductive WorkerHealth where
  | healthy (rtts : List Duration)
  | degraded (failedPings : ℕ) (reason : String)
  deriving DecidableEq, Repr

/-- `u32::MAX`. -/
def attemptMax : ℕ := 2 ^ 32 - 1

/-- `attempt.saturating_add(1)`. -/
def nextAttempt (attempt : ℕ) : ℕ := min (attempt + 1) attemptMax

namespace RetryPolicy

/-- `MULTIPLIERS`. -/
def multipliers : List ℕ := [1, 2, 5, 10, 20, 30]

/-- `RetrySchedule::delay`. The products are of `u128`s and saturate. -/
def delay (policy : RetryPolicy) (attempt : ℕ) (jitterPercent : ℤ) : Duration :=
  let index := min (attempt - 1) 5
  let unjittered := min (min (policy.baseDelay.asMillis * multipliers.getD index 1) (2 ^ 128 - 1))
    policy.maxDelay.asMillis
  let limit : ℤ := (min policy.jitterPercent 100 : ℕ)
  let jitter := max (-limit) (min limit jitterPercent)
  let adjusted := min (unjittered * (100 + jitter).toNat) (2 ^ 128 - 1) / 100
  .fromMillis (min adjusted (2 ^ 64 - 1))

/-- `RetrySchedule::should_reset`. -/
def shouldReset (policy : RetryPolicy) (healthyFor : Duration) : Bool :=
  policy.resetAfterHealthy ≤ healthyFor

/-- `RetrySchedule::jitter_limit`. -/
def jitterLimit (policy : RetryPolicy) : ℤ := (min policy.jitterPercent 100 : ℕ)

end RetryPolicy

/-- The state `after_failure` publishes: blocked, or a delay before the
next attempt. -/
def failureState (policy : RetryPolicy) (attempt : ℕ) (reason : String) (blocked : Bool)
    (jitter : ℤ) : SupervisorState :=
  let reason := takeChars 512 reason
  if blocked then .blocked reason
  else .reconnecting attempt (policy.delay attempt jitter) reason

end TunnelWarden

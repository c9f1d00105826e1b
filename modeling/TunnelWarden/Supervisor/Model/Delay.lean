import TunnelWarden.Common.Fixed
import TunnelWarden.Supervisor.Model.State

/-!
# The delay, in the types it is computed in

`RetrySchedule` of `tunnel-core/retry.rs` as the machine runs it: the
attempt is a `u32`, the jitter an `i8`, the products are `u128`s. The
models of the supervisors use `RetryPolicy.delay`, on numbers.
-/

namespace TunnelWarden

/-- `Duration::MAX`: `u64::MAX` seconds and the nanoseconds below the
next. -/
def Duration.max : Duration := Duration.fromSecs (2 ^ 64 - 1) + 999999999

/-- What `RetrySchedule::delay` computes, step by step. `multiplier` is
the one at `index`, and `factor` is `total` as a `u128`. -/
structure DelaySteps where
  index : UInt32
  baseMs : BitVec 128
  maxMs : BitVec 128
  multiplier : BitVec 128
  scaled : BitVec 128
  unjittered : BitVec 128
  limit : Int16
  jitter : Int16
  total : Int16
  factor : BitVec 128
  product : BitVec 128
  adjusted : BitVec 128
  millis : UInt64
  deriving DecidableEq, Repr

namespace RetrySchedule

/-- The steps of `RetrySchedule::delay`. -/
def steps (policy : RetryPolicy) (attempt : UInt32) (jitterPercent : Int8) : DelaySteps :=
  let index := min (saturatingSub attempt 1) 5
  let baseMs := BitVec.ofNat 128 policy.baseDelay.asMillis
  let maxMs := BitVec.ofNat 128 policy.maxDelay.asMillis
  let multiplier := BitVec.ofNat 128 (RetryPolicy.multipliers.getD index.toNat 1)
  let scaled := saturatingMul baseMs multiplier
  let unjittered := minBits scaled maxMs
  let limit := Int16.ofNat (min policy.jitterPercent 100)
  let jitter := clamp jitterPercent.toInt16 (-limit) limit
  let total := 100 + jitter
  let factor := asU128 total
  let product := saturatingMul unjittered factor
  let adjusted := product / 100#128
  let millis := UInt64.ofNat (minBits adjusted (BitVec.ofNat 128 (2 ^ 64 - 1))).toNat
  { index, baseMs, maxMs, multiplier, scaled, unjittered, limit, jitter, total, factor, product,
    adjusted, millis }

/-- `RetrySchedule::delay`. -/
def delay (policy : RetryPolicy) (attempt : UInt32) (jitterPercent : Int8) : Duration :=
  .fromMillis (steps policy attempt jitterPercent).millis.toNat

/-- `RetrySchedule::jitter_limit`. -/
def jitterLimit (policy : RetryPolicy) : Int8 := Int8.ofNat (min policy.jitterPercent 100)

end RetrySchedule

end TunnelWarden

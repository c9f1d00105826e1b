import TunnelWarden.Domain.Valid
import TunnelWarden.Supervisor.Model.Delay

/-!
# The delay is exact

A policy that `validate` accepts has a jitter of at most 100 percent, and
a base delay below its maximum, which is itself a `Duration`. So the
products fit into a `u128`, the jitter does not make the factor negative,
and the machine computes the delay the schedule is for. That one grows
with the attempt and with the jitter.
-/

namespace TunnelWarden

namespace RetrySchedule

/-- The factor of an attempt. -/
def multiplierOf : ℕ → ℕ
  | 0 | 1 => 1
  | 2 => 2
  | 3 => 5
  | 4 => 10
  | 5 => 20
  | _ => 30

/-- The jitter, kept within the policy's percentage. -/
def banded (policy : RetryPolicy) (jitter : ℤ) : ℤ :=
  max (-(policy.jitterPercent : ℤ)) (min policy.jitterPercent jitter)

/-- The milliseconds before the jitter. -/
def plannedMs (policy : RetryPolicy) (attempt : ℕ) : ℕ :=
  min (policy.baseDelay.asMillis * multiplierOf attempt) policy.maxDelay.asMillis

/-- **The milliseconds the schedule is for.** -/
def expectedMs (policy : RetryPolicy) (attempt : ℕ) (jitter : ℤ) : ℤ :=
  min (plannedMs policy attempt * (100 + banded policy jitter) / 100) (2 ^ 64 - 1)

/-- **No step saturates, wraps or converts a negative number**: each is
the one on the numbers. -/
structure Exact (policy : RetryPolicy) (attempt : UInt32) (jitter : Int8) (s : DelaySteps) :
    Prop where
  index : s.index.toNat = min (attempt.toNat - 1) 5
  baseMs : s.baseMs.toNat = policy.baseDelay.asMillis
  maxMs : s.maxMs.toNat = policy.maxDelay.asMillis
  multiplier : s.multiplier.toNat = multiplierOf attempt.toNat
  scaled : s.scaled.toNat = s.baseMs.toNat * s.multiplier.toNat
  unjittered : s.unjittered.toNat = min s.scaled.toNat s.maxMs.toNat
  limit : s.limit.toInt = policy.jitterPercent
  low : (-s.limit).toInt = -s.limit.toInt
  inOrder : (-s.limit).toInt ≤ s.limit.toInt
  jitter : s.jitter.toInt = max (-s.limit.toInt) (min s.limit.toInt jitter.toInt)
  total : s.total.toInt = 100 + s.jitter.toInt
  nonneg : 0 ≤ s.total.toInt
  factor : (s.factor.toNat : ℤ) = s.total.toInt
  product : s.product.toNat = s.unjittered.toNat * s.factor.toNat
  adjusted : s.adjusted.toNat = s.product.toNat / 100
  millis : s.millis.toNat = min s.adjusted.toNat (2 ^ 64 - 1)

/-- What `validate` asks of a policy, and what its type does. -/
structure Sound (policy : RetryPolicy) : Prop where
  base_le : policy.baseDelay ≤ policy.maxDelay
  max_le : policy.maxDelay ≤ Duration.max
  percent : policy.jitterPercent ≤ 100

variable {policy : RetryPolicy} {attempt attempt' : UInt32} {jitter jitter' : Int8}
variable {t : TunnelConfig} {hosts : List SshHost} {groups : List TunnelGroup}

/-- A validated tunnel has a sound policy. -/
theorem sound_of_validate (h : t.validate hosts groups = .ok ())
    (hmax : t.reconnect.maxDelay ≤ Duration.max) : Sound t.reconnect := by
  have hretry := (TunnelConfig.validate_iff.1 h).reconnect
  simp only [not_or, Nat.not_lt] at hretry
  exact ⟨hretry.2.1, hmax, hretry.2.2.2⟩

/-! ## The numbers that are read -/

theorem asMillis_lt {d : ℕ} (h : d ≤ Duration.max) : Duration.asMillis d < 2 ^ 74 := by
  unfold Duration.max Duration.fromSecs at h
  unfold Duration.asMillis
  omega

theorem toNat_ofNat_asMillis {d : Duration} (h : d ≤ Duration.max) :
    (BitVec.ofNat 128 d.asMillis).toNat = d.asMillis := by
  have hlt : d.asMillis < 2 ^ 74 := asMillis_lt h
  rw [BitVec.toNat_ofNat]
  omega

theorem toNat_index (attempt : UInt32) :
    (min (saturatingSub attempt 1) 5).toNat = min (attempt.toNat - 1) 5 := by
  rw [UInt32.toNat_min, toNat_saturatingSub]
  rfl

/-- The entry of `MULTIPLIERS` at the index is the attempt's. -/
theorem getD_multipliers (n : ℕ) :
    RetryPolicy.multipliers.getD (min (n - 1) 5) 1 = multiplierOf n := by
  match n with
  | 0 | 1 | 2 | 3 | 4 | 5 => rfl
  | n + 6 =>
      have hindex : min (n + 6 - 1) 5 = 5 := by omega
      rw [hindex]
      rfl

/-- The factors grow. -/
theorem multiplierOf_mono {m n : ℕ} (h : m ≤ n) : multiplierOf m ≤ multiplierOf n := by
  refine monotone_nat_of_le_succ (fun k => ?_) h
  match k with
  | 0 | 1 | 2 | 3 | 4 | 5 => decide
  | k + 6 => exact le_rfl

theorem multiplierOf_le (n : ℕ) : multiplierOf n ≤ 30 :=
  multiplierOf_mono (Nat.le_add_right n 6)

theorem toInt_limit (h : Sound policy) :
    (Int16.ofNat (min policy.jitterPercent 100)).toInt = policy.jitterPercent := by
  have hmin : min policy.jitterPercent 100 = policy.jitterPercent := Nat.min_eq_left h.percent
  have hlt : policy.jitterPercent < 2 ^ 15 := Nat.lt_of_le_of_lt h.percent (by decide)
  rw [hmin, Int16.toInt_ofNat_of_lt hlt]

/-! ## The steps -/

/-- The index picks the attempt's multiplier. -/
theorem toNat_multiplier (attempt : UInt32) (jitter : Int8) :
    (steps policy attempt jitter).multiplier.toNat = multiplierOf attempt.toNat := by
  have hle : multiplierOf attempt.toNat ≤ 30 := multiplierOf_le _
  show (BitVec.ofNat 128 (RetryPolicy.multipliers.getD
    (min (saturatingSub attempt 1) 5).toNat 1)).toNat = _
  rw [toNat_index, getD_multipliers, BitVec.toNat_ofNat]
  omega

/-- The last conversion is of a number it has room for. -/
theorem toNat_millis (attempt : UInt32) (jitter : Int8) :
    (steps policy attempt jitter).millis.toNat =
      min (steps policy attempt jitter).adjusted.toNat (2 ^ 64 - 1) := by
  have hmin := toNat_minBits (steps policy attempt jitter).adjusted (BitVec.ofNat 128 (2 ^ 64 - 1))
  have hcap : (BitVec.ofNat 128 (2 ^ 64 - 1)).toNat = 2 ^ 64 - 1 := by decide
  have hmillis : (steps policy attempt jitter).millis.toNat =
      (minBits (steps policy attempt jitter).adjusted (BitVec.ofNat 128 (2 ^ 64 - 1))).toNat %
        2 ^ 64 :=
    UInt64.toNat_ofNat'
  rw [hmillis, hmin, hcap]
  omega

section Steps

variable (attempt : UInt32) (jitter : Int8)

/-! What the later steps are computed from. -/

theorem scaled_eq : (steps policy attempt jitter).scaled =
    saturatingMul (steps policy attempt jitter).baseMs (steps policy attempt jitter).multiplier := by
  dsimp only [steps]

theorem unjittered_eq : (steps policy attempt jitter).unjittered =
    minBits (steps policy attempt jitter).scaled (steps policy attempt jitter).maxMs := by
  dsimp only [steps]

theorem jitter_eq : (steps policy attempt jitter).jitter =
    clamp jitter.toInt16 (-(steps policy attempt jitter).limit)
      (steps policy attempt jitter).limit := by
  dsimp only [steps]

theorem total_eq : (steps policy attempt jitter).total =
    100 + (steps policy attempt jitter).jitter := by
  dsimp only [steps]

theorem product_eq : (steps policy attempt jitter).product =
    saturatingMul (steps policy attempt jitter).unjittered
      (steps policy attempt jitter).factor := by
  dsimp only [steps]

theorem adjusted_eq : (steps policy attempt jitter).adjusted =
    (steps policy attempt jitter).product / 100#128 := by
  dsimp only [steps]

variable (h : Sound policy)
include h

theorem toNat_scaled : (steps policy attempt jitter).scaled.toNat =
    policy.baseDelay.asMillis * multiplierOf attempt.toNat := by
  have hbase : (steps policy attempt jitter).baseMs.toNat = policy.baseDelay.asMillis :=
    toNat_ofNat_asMillis (h.base_le.trans h.max_le)
  have hmultiplier : (steps policy attempt jitter).multiplier.toNat =
      multiplierOf attempt.toNat := toNat_multiplier attempt jitter
  have hlt : policy.baseDelay.asMillis < 2 ^ 74 := asMillis_lt (h.base_le.trans h.max_le)
  have hle : multiplierOf attempt.toNat ≤ 30 := multiplierOf_le _
  have hfits : (steps policy attempt jitter).baseMs.toNat *
      (steps policy attempt jitter).multiplier.toNat < 2 ^ 128 := by
    rw [hbase, hmultiplier]
    exact Nat.lt_of_le_of_lt (Nat.mul_le_mul hlt.le hle) (by decide)
  rw [← hbase, ← hmultiplier, scaled_eq, toNat_saturatingMul hfits]

/-- The planned milliseconds. -/
theorem toNat_unjittered :
    (steps policy attempt jitter).unjittered.toNat = plannedMs policy attempt.toNat := by
  have hmin : (steps policy attempt jitter).unjittered.toNat =
      min (steps policy attempt jitter).scaled.toNat
        (steps policy attempt jitter).maxMs.toNat := by
    rw [unjittered_eq, toNat_minBits]
  have hmax : (steps policy attempt jitter).maxMs.toNat = policy.maxDelay.asMillis :=
    toNat_ofNat_asMillis h.max_le
  rw [hmin, toNat_scaled attempt jitter h, hmax]
  rfl

theorem toInt_low : (-(steps policy attempt jitter).limit).toInt = -(policy.jitterPercent : ℤ) := by
  have hlimit : (steps policy attempt jitter).limit.toInt = policy.jitterPercent := toInt_limit h
  rw [toInt_neg_of_ne (by omega), hlimit]

/-- The clamp keeps the jitter within the percentage. -/
theorem toInt_jitter :
    (steps policy attempt jitter).jitter.toInt = banded policy jitter.toInt := by
  have hlimit : (steps policy attempt jitter).limit.toInt = policy.jitterPercent := toInt_limit h
  have hlow := toInt_low attempt jitter h
  have horder : (-(steps policy attempt jitter).limit).toInt ≤
      (steps policy attempt jitter).limit.toInt := by
    omega
  have hclamp : (steps policy attempt jitter).jitter.toInt =
      max (-(steps policy attempt jitter).limit).toInt
        (min (steps policy attempt jitter).limit.toInt jitter.toInt16.toInt) := by
    rw [jitter_eq, toInt_clamp horder]
  rw [hclamp, hlow, hlimit, Int8.toInt_toInt16]
  rfl

theorem toInt_total :
    (steps policy attempt jitter).total.toInt = 100 + banded policy jitter.toInt := by
  have hpercent : policy.jitterPercent ≤ 100 := h.percent
  have hjitter := toInt_jitter attempt jitter h
  have hundred : (100 : Int16).toInt = 100 := rfl
  unfold banded at hjitter
  have hfits : -2 ^ 15 ≤ (100 : Int16).toInt + (steps policy attempt jitter).jitter.toInt ∧
      (100 : Int16).toInt + (steps policy attempt jitter).jitter.toInt < 2 ^ 15 := by
    omega
  have hadd : (steps policy attempt jitter).total.toInt =
      (100 : Int16).toInt + (steps policy attempt jitter).jitter.toInt := by
    rw [total_eq, toInt_add_of_fits hfits.1 hfits.2]
  rw [hadd, hundred, toInt_jitter attempt jitter h]

/-- The factor is not negative. -/
theorem toNat_factor :
    ((steps policy attempt jitter).factor.toNat : ℤ) = 100 + banded policy jitter.toInt := by
  have hpercent : policy.jitterPercent ≤ 100 := h.percent
  have htotal := toInt_total attempt jitter h
  have hnonneg : 0 ≤ (steps policy attempt jitter).total.toInt := by
    rw [htotal]
    unfold banded
    omega
  rw [← htotal]
  exact toNat_asU128 hnonneg

theorem toNat_product : (steps policy attempt jitter).product.toNat =
    (steps policy attempt jitter).unjittered.toNat *
      (steps policy attempt jitter).factor.toNat := by
  have hpercent : policy.jitterPercent ≤ 100 := h.percent
  have hlt : policy.maxDelay.asMillis < 2 ^ 74 := asMillis_lt h.max_le
  have hplanned : (steps policy attempt jitter).unjittered.toNat ≤ 2 ^ 74 := by
    rw [toNat_unjittered attempt jitter h]
    unfold plannedMs
    omega
  have hfactor : (steps policy attempt jitter).factor.toNat ≤ 200 := by
    have heq := toNat_factor attempt jitter h
    unfold banded at heq
    omega
  have hfits := Nat.lt_of_le_of_lt (Nat.mul_le_mul hplanned hfactor)
    (by decide : 2 ^ 74 * 200 < 2 ^ 128)
  rw [product_eq, toNat_saturatingMul hfits]

/-- **Every step is exact.** -/
theorem exact_steps : Exact policy attempt jitter (steps policy attempt jitter) := by
  have hpercent : policy.jitterPercent ≤ 100 := h.percent
  have hbase : (steps policy attempt jitter).baseMs.toNat = policy.baseDelay.asMillis :=
    toNat_ofNat_asMillis (h.base_le.trans h.max_le)
  have hmax : (steps policy attempt jitter).maxMs.toNat = policy.maxDelay.asMillis :=
    toNat_ofNat_asMillis h.max_le
  have hmultiplier : (steps policy attempt jitter).multiplier.toNat =
      multiplierOf attempt.toNat := toNat_multiplier attempt jitter
  have hlimit : (steps policy attempt jitter).limit.toInt = policy.jitterPercent := toInt_limit h
  have hlow := toInt_low attempt jitter h
  have hjitter := toInt_jitter attempt jitter h
  have htotal := toInt_total attempt jitter h
  have hfactor := toNat_factor attempt jitter h
  have hbanded : -(policy.jitterPercent : ℤ) ≤ banded policy jitter.toInt := by
    unfold banded
    omega
  exact
    { index := toNat_index attempt
      baseMs := hbase
      maxMs := hmax
      multiplier := hmultiplier
      scaled := by rw [toNat_scaled attempt jitter h, hbase, hmultiplier]
      unjittered := by rw [unjittered_eq, toNat_minBits]
      limit := hlimit
      low := by rw [hlow, hlimit]
      inOrder := by omega
      jitter := by rw [hjitter, hlimit, banded]
      total := by rw [htotal, hjitter]
      nonneg := by omega
      factor := by rw [hfactor, htotal]
      product := toNat_product attempt jitter h
      adjusted := by
        rw [adjusted_eq, BitVec.toNat_udiv]
        rfl
      millis := toNat_millis attempt jitter }

end Steps

/-! ## The delay -/

section Delay

variable (h : Sound policy)
include h

theorem banded_bounds (j : ℤ) : 0 ≤ 100 + banded policy j ∧ banded policy j ≤ 100 := by
  have hpercent : policy.jitterPercent ≤ 100 := h.percent
  unfold banded
  omega

/-- **The delay is the one the schedule is for.** -/
theorem millis_eq (attempt : UInt32) (jitter : Int8) :
    ((steps policy attempt jitter).millis.toNat : ℤ) =
      expectedMs policy attempt.toNat jitter.toInt := by
  have hexact := exact_steps attempt jitter h
  have hunjittered := toNat_unjittered attempt jitter h
  have hfactor := toNat_factor attempt jitter h
  rw [hexact.millis, hexact.adjusted, hexact.product, hunjittered, expectedMs, ← hfactor,
    ← Int.natCast_mul]
  omega

theorem expectedMs_mono_attempt {m n : ℕ} (hmn : m ≤ n) (j : ℤ) :
    expectedMs policy m j ≤ expectedMs policy n j := by
  have hmul : policy.baseDelay.asMillis * multiplierOf m ≤
      policy.baseDelay.asMillis * multiplierOf n :=
    Nat.mul_le_mul_left _ (multiplierOf_mono hmn)
  have hplanned : (plannedMs policy m : ℤ) ≤ plannedMs policy n := by
    unfold plannedMs
    omega
  have hproduct := Int.mul_le_mul_of_nonneg_right hplanned (banded_bounds h j).1
  have hdiv := Int.ediv_le_ediv (by decide : (0 : ℤ) < 100) hproduct
  unfold expectedMs
  omega

omit h in
theorem expectedMs_mono_jitter (n : ℕ) {i j : ℤ} (hij : i ≤ j) :
    expectedMs policy n i ≤ expectedMs policy n j := by
  have hbanded : 100 + banded policy i ≤ 100 + banded policy j := by
    unfold banded
    omega
  have hproduct := Int.mul_le_mul_of_nonneg_left hbanded (Int.natCast_nonneg (plannedMs policy n))
  have hdiv := Int.ediv_le_ediv (by decide : (0 : ℤ) < 100) hproduct
  unfold expectedMs
  omega

/-- Delays are ordered as their milliseconds. -/
theorem delay_le_of_expectedMs
    (hle : expectedMs policy attempt.toNat jitter.toInt ≤
      expectedMs policy attempt'.toNat jitter'.toInt) :
    delay policy attempt jitter ≤ delay policy attempt' jitter' := by
  rw [← millis_eq h, ← millis_eq h] at hle
  exact Nat.mul_le_mul_right _ (by omega)

/-- **The models of the supervisors use the same delay.** -/
theorem delay_eq_numbers (attempt : UInt32) (jitter : Int8) :
    delay policy attempt jitter = policy.delay attempt.toNat jitter.toInt := by
  have hexact := exact_steps attempt jitter h
  have hfactor := toNat_factor attempt jitter h
  have hbounds := banded_bounds h jitter.toInt
  have hmin : min policy.jitterPercent 100 = policy.jitterPercent := Nat.min_eq_left h.percent
  have hscaled : policy.baseDelay.asMillis * multiplierOf attempt.toNat ≤ 2 ^ 128 - 1 := by
    rw [← toNat_scaled attempt jitter h]
    exact Nat.le_sub_one_of_lt (BitVec.isLt _)
  have hproduct : plannedMs policy attempt.toNat * (100 + banded policy jitter.toInt).toNat ≤
      2 ^ 128 - 1 := by
    rw [← hfactor, ← toNat_unjittered attempt jitter h, Int.toNat_natCast, ← hexact.product]
    exact Nat.le_sub_one_of_lt (BitVec.isLt _)
  have hmillis : (steps policy attempt jitter).millis.toNat =
      min (plannedMs policy attempt.toNat * (100 + banded policy jitter.toInt).toNat / 100)
        (2 ^ 64 - 1) := by
    rw [hexact.millis, hexact.adjusted, hexact.product, toNat_unjittered attempt jitter h,
      ← hfactor, Int.toNat_natCast]
  unfold delay RetryPolicy.delay
  simp only [getD_multipliers, hmin]
  rw [hmillis, Nat.min_eq_left hscaled, ← plannedMs, ← banded, Nat.min_eq_left hproduct]

end Delay

/-! ## The draw -/

/-- **What the supervisors draw the jitter from**: `-limit..=limit` is a
range of `i8`s, not empty, and `delay` clamps nothing in it. -/
structure DrawRange (policy : RetryPolicy) : Prop where
  limit : (jitterLimit policy).toInt = policy.jitterPercent
  low : (-jitterLimit policy).toInt = -(jitterLimit policy).toInt
  inOrder : -jitterLimit policy ≤ jitterLimit policy
  unclamped : ∀ (attempt : UInt32) (jitter : Int8), -jitterLimit policy ≤ jitter →
    jitter ≤ jitterLimit policy → (steps policy attempt jitter).jitter = jitter.toInt16

theorem drawRange (h : Sound policy) : DrawRange policy := by
  have hpercent : policy.jitterPercent ≤ 100 := h.percent
  have hmin : min policy.jitterPercent 100 = policy.jitterPercent := Nat.min_eq_left hpercent
  have hlimit : (jitterLimit policy).toInt = policy.jitterPercent := by
    rw [jitterLimit, hmin, Int8.toInt_ofNat_of_lt (Nat.lt_of_le_of_lt hpercent (by decide))]
  have hlow : (-jitterLimit policy).toInt = -(jitterLimit policy).toInt := by
    rw [Int8.toInt_neg]
    exact Int.bmod_eq_of_le (by omega) (by omega)
  refine ⟨hlimit, hlow, Int8.le_iff_toInt_le.2 (by omega), fun attempt jitter hge hle => ?_⟩
  rw [Int8.le_iff_toInt_le, hlow] at hge
  rw [Int8.le_iff_toInt_le] at hle
  have hjitter := toInt_jitter attempt jitter h
  have hbanded : banded policy jitter.toInt = jitter.toInt := by
    unfold banded
    omega
  rw [hbanded, ← Int8.toInt_toInt16] at hjitter
  exact Int16.toInt_inj.1 hjitter

/-! ## The delays of a tunnel -/

/-- **The delays are exact, within the band and monotone.** -/
structure ExactDelays (policy : RetryPolicy) : Prop where
  /-- Every step is exact, and the delay is the one the schedule is for. -/
  exact : ∀ (attempt : UInt32) (jitter : Int8),
    Exact policy attempt jitter (steps policy attempt jitter) ∧
      ∃ ms : ℕ, delay policy attempt jitter = .fromMillis ms ∧
        (ms : ℤ) = expectedMs policy attempt.toNat jitter.toInt
  attempt_mono : ∀ (attempt attempt' : UInt32) (jitter : Int8), attempt ≤ attempt' →
    delay policy attempt jitter ≤ delay policy attempt' jitter
  jitter_mono : ∀ (attempt : UInt32) (jitter jitter' : Int8), jitter ≤ jitter' →
    delay policy attempt jitter ≤ delay policy attempt jitter'
  draw : DrawRange policy

/-- **A validated tunnel has exact delays.** Its maximum is a `Duration`,
and so no greater than the greatest one. -/
theorem exactDelays_of_validate (h : t.validate hosts groups = .ok ())
    (hmax : t.reconnect.maxDelay ≤ Duration.max) : ExactDelays t.reconnect := by
  have hsound := sound_of_validate h hmax
  refine ⟨fun attempt jitter => ?_, fun attempt attempt' jitter hle => ?_,
    fun attempt jitter jitter' hle => ?_, drawRange hsound⟩
  · exact ⟨exact_steps attempt jitter hsound, _, rfl, millis_eq hsound attempt jitter⟩
  · exact delay_le_of_expectedMs hsound
      (expectedMs_mono_attempt hsound (UInt32.le_iff_toNat_le.1 hle) jitter.toInt)
  · exact delay_le_of_expectedMs hsound
      (expectedMs_mono_jitter attempt.toNat (Int8.le_iff_toInt_le.1 hle))

/-- A tunnel that waits as long as a `Duration` allows. -/
def patientTunnel : TunnelConfig where
  id := ⟨"patient"⟩
  name := "Patient"
  groupId := none
  mode := .dynamic
  jumpChain := [⟨"gateway"⟩]
  localEnd := ⟨"127.0.0.1", 1080⟩
  remote := none
  autoStart := false
  reconnect := { baseDelay := Duration.max, maxDelay := Duration.max, jitterPercent := 100 }
  description := ""

def gatewayHost : SshHost where
  id := ⟨"gateway"⟩
  name := "Gateway"
  hostname := "gateway.test"
  port := 22
  username := "operator"
  auth := .agent none
  hostKeyPolicy := .strict
  connectTimeout := .fromSecs 10
  keepaliveInterval := .fromSecs 30
  keepaliveMax := 3
  notes := ""

theorem exactDelays_patientTunnel : ExactDelays patientTunnel.reconnect :=
  exactDelays_of_validate (show patientTunnel.validate [gatewayHost] [] = .ok () by decide +kernel)
    le_rfl

end RetrySchedule

end TunnelWarden

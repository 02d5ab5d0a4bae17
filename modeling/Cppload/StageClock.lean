import Cppload.ConfigValidation
import Cppload.ScenarioEngineStages

/-!
# Deadlines and slots in 64 bits

`run` adds the duration of a stage to the clock and only then compares the sum with a
horizon that is meant to prevent an overflow.  A worker multiplies its slot period by
its number before it divides by the number of workers.  Both are computed in signed
64-bit nanoseconds; here is where the exact results fit.
-/

namespace Cppload.Engine

/-- The value is one of a signed 64-bit integer. -/
def Fits64 (value : ℤ) : Prop :=
  -2 ^ 63 ≤ value ∧ value < 2 ^ 63

theorem wrap64_eq_self {value : ℤ} (fits : Fits64 value) : wrap64 value = value := by
  obtain ⟨low, high⟩ := fits
  apply Int.bmod_eq_of_le_mul_two
  · push_cast
    omega
  · push_cast
    omega

/-! ## The deadline of a stage -/

namespace Stage

variable (stage : Stage) (now : ℤ)

/-- `now + duration` as a mathematical sum of nanoseconds. -/
def exactEnd : ℤ :=
  now + stage.duration * 1000000

/-- The horizon that `end` is compared with. -/
def endLimit : ℤ :=
  timePointMax - maxHorizon

/-- The deadline of a stage without a global cap is the exact one or the horizon, nothing
on the way to it leaves 64 bits, and it is still to come. -/
structure Saturates : Prop where
  conversion : Fits64 (stage.duration * 1000000)
  sum : Fits64 (stage.exactEnd now)
  value : stage.endAt now timePointMax = min (stage.exactEnd now) endLimit
  later : now < stage.endAt now timePointMax

variable {stage now}

theorem endAt_of_positive (positive : 0 < stage.duration) :
    stage.endAt now timePointMax =
      min (wrap64 (now + wrap64 (stage.duration * 1000000))) endLimit := by
  unfold endAt
  rw [if_neg (not_not.mpr rfl), if_pos positive]
  by_cases above : endLimit < wrap64 (now + wrap64 (stage.duration * 1000000))
  · rw [min_eq_right above.le]
    exact if_pos above
  · rw [min_eq_left (not_lt.mp above)]
    exact if_neg above

/-- Every clock reading below `2 ^ 62` is before the horizon. -/
theorem lt_endLimit (early : now < 2 ^ 62) : now < endLimit := by
  have room : (2 : ℤ) ^ 62 ≤ endLimit := by decide
  omega

/-- The clamp to the horizon comes too late for a duration that does not fit, with the
time that has already passed, into 64-bit nanoseconds. -/
theorem saturates_iff (positive : 0 < stage.duration) (low : -2 ^ 63 ≤ now)
    (early : now < 2 ^ 62) :
    stage.Saturates now ↔
      stage.duration * 1000000 < 2 ^ 63 ∧ now + stage.duration * 1000000 < 2 ^ 63 := by
  constructor
  · intro saturates
    exact ⟨saturates.conversion.2, saturates.sum.2⟩
  · rintro ⟨short, inTime⟩
    have conversion : Fits64 (stage.duration * 1000000) := ⟨by omega, short⟩
    have sum : Fits64 (stage.exactEnd now) := ⟨by unfold exactEnd; omega, inTime⟩
    have value : stage.endAt now timePointMax = min (stage.exactEnd now) endLimit := by
      rw [endAt_of_positive positive, wrap64_eq_self conversion]
      exact congrArg (min · endLimit) (wrap64_eq_self sum)
    refine ⟨conversion, sum, value, ?_⟩
    rw [value]
    apply lt_min
    · unfold exactEnd
      omega
    · exact lt_endLimit early

/-- A stage of one hour. -/
theorem saturates_iff_hour :
    Scenario.parseDuration "1h".toList = 3600000 ∧
    ({ duration := 3600000, targetRps := 0, concurrentUsers := 1 } : Stage).Saturates 0 := by
  refine ⟨by decide +kernel, ?_⟩
  exact (saturates_iff (by decide) (by decide) (by decide)).mpr (by decide)

/-- `parse_duration` turns every duration that is too long into `milliseconds::max()`;
such a stage is over one millisecond before it begins. -/
theorem endAt_millisecondsMax (capped : stage.duration = Scenario.millisecondsMax)
    (low : 0 ≤ now) (early : now < 2 ^ 62) :
    stage.endAt now timePointMax = now - 1000000 := by
  have positive : 0 < stage.duration := by
    rw [capped]
    decide
  have converted : wrap64 (stage.duration * 1000000) = -1000000 := by
    rw [capped]
    decide
  have fits : Fits64 (now + -1000000) := ⟨by omega, by omega⟩
  rw [endAt_of_positive positive, converted, wrap64_eq_self fits,
    min_eq_left (by have := lt_endLimit early; omega)]
  ring

/-- A stage that is to last for ever is over at once, and one of 300 years has a deadline
in the past. -/
theorem endAt_overflows :
    Scenario.parseDuration "999999999999999999999999s".toList = 9223372036854775807 ∧
    Scenario.parseDuration "2628000h".toList = 9460800000000 ∧
    ({ duration := 9223372036854775807, targetRps := 0, concurrentUsers := 1 } : Stage).endAt
      1000000000 timePointMax = 999000000 ∧
    ({ duration := 9460800000000, targetRps := 0, concurrentUsers := 1 } : Stage).endAt
      1000000000 timePointMax = -8985944072709551616 := by
  decide +kernel

end Stage

/-! ## The slots of a worker -/

/-- `slot_period * w / stage_concurrency`. -/
def phaseOffset (period : ℤ) (number concurrency : ℕ) : ℤ :=
  (wrap64 (period * number)).tdiv concurrency

/-- The first slot of a worker lies within the first period, and nothing overflows on
the way to it. -/
structure SlotFits (concurrency targetRps number : ℕ) : Prop where
  product : Fits64 (slotPeriod concurrency targetRps * number)
  nonneg : 0 ≤ phaseOffset (slotPeriod concurrency targetRps) number concurrency
  within :
    phaseOffset (slotPeriod concurrency targetRps) number concurrency <
      slotPeriod concurrency targetRps

theorem firstSlotAt_eq (now period : ℤ) (number concurrency : ℕ) :
    firstSlotAt now period number concurrency =
      wrap64 (now + phaseOffset period number concurrency) :=
  rfl

section Slots

variable {concurrency targetRps number : ℕ}

/-- The upper clamp of the period is never reached. -/
theorem slotPeriod_eq (few : concurrency ≤ 100000) (rate : 1 ≤ targetRps) :
    slotPeriod concurrency targetRps =
      (max 1 (concurrency * 1000000000 / targetRps) : ℕ) := by
  have quotient : (concurrency : ℚ) / targetRps * 1000000000 =
      ((concurrency * 1000000000 : ℕ) : ℚ) / targetRps := by
    push_cast
    ring
  have floored : ⌊((concurrency * 1000000000 : ℕ) : ℚ) / targetRps⌋ =
      ((concurrency * 1000000000 / targetRps : ℕ) : ℤ) :=
    Rat.floor_natCast_div_natCast _ _
  have below : ((concurrency * 1000000000 : ℕ) : ℚ) / targetRps ≤ 10 ^ 18 := by
    rw [div_le_iff₀ (by exact_mod_cast rate)]
    have product : concurrency * 1000000000 ≤ 10 ^ 18 * targetRps := by nlinarith
    exact_mod_cast product
  unfold slotPeriod
  simp only [if_neg (Nat.one_le_iff_ne_zero.mp rate), quotient]
  by_cases short : ((concurrency * 1000000000 : ℕ) : ℚ) / targetRps < 1
  · rw [if_pos short, if_neg (by norm_num), Int.floor_one]
    have zero : ((concurrency * 1000000000 / targetRps : ℕ) : ℤ) < 1 := by
      rw [← floored]
      exact Int.floor_lt.mpr (by simpa using short)
    omega
  · rw [if_neg short, if_neg (not_lt.mpr below), floored]
    have positive : (1 : ℤ) ≤ ((concurrency * 1000000000 / targetRps : ℕ) : ℤ) := by
      rw [← floored]
      exact Int.le_floor.mpr (by exact_mod_cast not_lt.mp short)
    omega

theorem slotPeriod_mul_lt (few : concurrency ≤ 100000) (fast : 2 ≤ targetRps)
    (below : number < concurrency) : slotPeriod concurrency targetRps * number < 2 ^ 63 := by
  rw [slotPeriod_eq few (by omega)]
  have half : concurrency * 1000000000 / targetRps ≤ 50000000000000 := by
    apply Nat.div_le_of_le_mul
    nlinarith
  have period : ((max 1 (concurrency * 1000000000 / targetRps) : ℕ) : ℤ) ≤ 50000000000000 := by
    omega
  have grown := mul_le_mul_of_nonneg_right period (Int.natCast_nonneg number)
  omega

/-- At one request per second the period is a second for each worker. -/
theorem slotPeriod_mul_lt_iff (few : concurrency ≤ 100000) (below : number < concurrency) :
    slotPeriod concurrency 1 * number < 2 ^ 63 ↔ concurrency * number ≤ 9223372036 := by
  have period : slotPeriod concurrency 1 = concurrency * 1000000000 := by
    rw [slotPeriod_eq few le_rfl, Nat.div_one]
    omega
  have product : (concurrency : ℤ) * 1000000000 * number =
      ((concurrency * number : ℕ) : ℤ) * 1000000000 := by
    push_cast
    ring
  rw [period, product]
  omega

theorem phaseOffset_bounds {period : ℤ} (positive : 0 < period) (below : number < concurrency)
    (fits : Fits64 (period * number)) :
    0 ≤ phaseOffset period number concurrency ∧
      phaseOffset period number concurrency < period := by
  have nonneg : 0 ≤ period * number := mul_nonneg positive.le (Int.natCast_nonneg number)
  unfold phaseOffset
  rw [wrap64_eq_self fits, Int.tdiv_eq_ediv_of_nonneg nonneg]
  constructor
  · exact Int.ediv_nonneg nonneg (Int.natCast_nonneg concurrency)
  · apply Int.ediv_lt_of_lt_mul (by omega)
    exact mul_lt_mul_of_pos_left (by exact_mod_cast below) positive

theorem slotFits_of_lt (few : concurrency ≤ 100000) (rate : 1 ≤ targetRps)
    (below : number < concurrency) (small : slotPeriod concurrency targetRps * number < 2 ^ 63) :
    SlotFits concurrency targetRps number := by
  have positive : 0 < slotPeriod concurrency targetRps := by
    rw [slotPeriod_eq few rate]
    omega
  have nonneg : 0 ≤ slotPeriod concurrency targetRps * (number : ℤ) :=
    mul_nonneg positive.le (Int.natCast_nonneg number)
  have product : Fits64 (slotPeriod concurrency targetRps * number) := ⟨by omega, small⟩
  obtain ⟨low, high⟩ := phaseOffset_bounds positive below product
  exact ⟨product, low, high⟩

end Slots

/-- Only at one request per second can the product overflow: then a worker's number and
the number of workers must not multiply to more than 9223372036. -/
theorem Plan.slotFits_iff (plan : Plan) (stage : Stage) {targetRps number : ℕ}
    (rate : 1 ≤ targetRps) (below : number < plan.stageConcurrency stage) :
    SlotFits (plan.stageConcurrency stage) targetRps number ↔
      2 ≤ targetRps ∨ plan.stageConcurrency stage * number ≤ 9223372036 := by
  have few := System.stageConcurrency_le plan stage
  by_cases fast : 2 ≤ targetRps
  · exact iff_of_true (slotFits_of_lt few rate below (slotPeriod_mul_lt few fast below))
      (.inl fast)
  · obtain rfl : targetRps = 1 := by omega
    constructor
    · intro slot
      exact .inr ((slotPeriod_mul_lt_iff few below).mp slot.product.2)
    · rintro (fast | small)
      · omega
      · exact slotFits_of_lt few le_rfl below ((slotPeriod_mul_lt_iff few below).mpr small)

/-- A stage of the configuration as `run` sees it. -/
def Stage.ofConfig (stage : Scenario.Stage) : Stage where
  duration := stage.duration
  targetRps := stage.targetRps.toNat
  concurrentUsers := stage.concurrentUsers.toNat

/-- The largest stage at 100 requests per second. -/
theorem Plan.slotFits_iff_crowd :
    ((Config.probe [⟨60000, 100, 100000⟩]).plan 0 100).stageConcurrency ⟨60000, 100, 100000⟩ =
      100000 ∧
    SlotFits (((Config.probe [⟨60000, 100, 100000⟩]).plan 0 100).stageConcurrency
      ⟨60000, 100, 100000⟩) 100 99999 := by
  have users : ((Config.probe [⟨60000, 100, 100000⟩]).plan 0 100).stageConcurrency
      ⟨60000, 100, 100000⟩ = 100000 := by
    decide
  refine ⟨users, (Plan.slotFits_iff _ _ (by decide) ?_).mpr (.inl (by decide))⟩
  rw [users]
  decide

/-- A configuration with the largest stage, at one request per second. -/
def crowdedConfig : Scenario.ScenarioConfig where
  testId := ['t']
  target := { baseUrl := "http://localhost".toList }
  stages := [{ duration := 60000, targetRps := 1, concurrentUsers := 100000 }]
  scenarios := [{ steps := [{ path := ['/'] }] }]

theorem crowdedConfig_valid : Scenario.ValidConfig crowdedConfig where
  testId := by decide
  baseUrl := by decide
  nonempty := by decide
  scenarios := by
    intro scenario member
    obtain rfl := List.mem_singleton.mp member
    refine ⟨by decide, by decide, ?_⟩
    intro step listed
    obtain rfl := List.mem_singleton.mp listed
    exact ⟨by decide, by decide, by simp⟩
  stages := by
    intro stage member
    obtain rfl := List.mem_singleton.mp member
    exact ⟨by decide, by decide⟩

/-- The last of 100000 workers at one request per second would start before the stage:
the product wraps around. -/
theorem slot_product_overflows :
    Scenario.validateScenarioConfig crowdedConfig = .ok () ∧
    (crowdedConfig.stages.map fun stage =>
      ((Config.probe [Stage.ofConfig stage]).plan 0 100).stageConcurrency
        (Stage.ofConfig stage)) = [100000] ∧
    slotPeriod 100000 1 * 99999 = 9999900000000000000 ∧
    phaseOffset (slotPeriod 100000 1) 99999 100000 = -84468440737095 := by
  refine ⟨(Scenario.validateScenarioConfig_eq_ok_iff _).mpr crowdedConfig_valid, ?_⟩
  decide +kernel

end Cppload.Engine

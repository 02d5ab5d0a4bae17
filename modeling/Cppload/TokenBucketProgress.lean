import Cppload.TokenBucketRateBound

/-!
# The only user of a token bucket

A user that shares the bucket with no one gets a token once the missing part of
it has arrived, provided that the burst has room for a whole token.  The timed
call rounds its wait down to whole nanoseconds, and when it wakes up right then
the last fraction of the token is still missing.
-/

namespace Cppload.TokenBucket

open Transition

/-- `max(0, 1 - tokens_) / rate_` seconds have passed since `last_refill_`. -/
def Due (bucket : TokenBucket) (now : ℤ) : Prop :=
  max 0 (1 - bucket.tokens) / bucket.rate ≤ seconds (now - bucket.lastRefill)

/-- The time in which the part of a token arrives that is missing at a reading. -/
def missing (bucket : TokenBucket) (now : ℤ) : ℚ :=
  (1 - bucket.tokensAvailable now) / bucket.rate

theorem seconds_le_iff {first second : ℤ} : seconds first ≤ seconds second ↔ first ≤ second := by
  unfold seconds
  rw [div_le_div_iff_of_pos_right (by norm_num), Int.cast_le]

/-- Waiting in whole nanoseconds is never too long. -/
theorem seconds_waitNanoseconds_le (wait : ℚ) : seconds (waitNanoseconds wait) ≤ wait := by
  unfold seconds waitNanoseconds
  rw [div_le_iff₀ (by norm_num)]
  exact Int.floor_le _

theorem waitNanoseconds_nonneg {wait : ℚ} (nonneg : 0 ≤ wait) : 0 ≤ waitNanoseconds wait :=
  Int.floor_nonneg.mpr (mul_nonneg nonneg (by norm_num))

theorem le_seconds_waitNanoseconds_iff {wait : ℚ} :
    wait ≤ seconds (waitNanoseconds wait) ↔ ∃ nanoseconds, wait = seconds nanoseconds := by
  constructor
  · intro enough
    exact ⟨_, le_antisymm enough (seconds_waitNanoseconds_le wait)⟩
  · rintro ⟨nanoseconds, rfl⟩
    have whole : seconds nanoseconds * 1000000000 = nanoseconds := by
      unfold seconds
      exact div_mul_cancel₀ _ (by norm_num)
    rw [waitNanoseconds, whole, Int.floor_intCast]

section Refill

variable {bucket : TokenBucket} (wellFormed : bucket.WellFormed) {now : ℤ}
include wellFormed

theorem refill_lastRefill (later : bucket.lastRefill ≤ now) :
    (bucket.refill now).lastRefill = now := by
  rw [wellFormed.refill_eq later]

theorem refill_tokens (later : bucket.lastRefill ≤ now) :
    (bucket.refill now).tokens = bucket.tokensAvailable now := by
  rw [wellFormed.refill_eq later]

theorem waitSeconds_refill (later : bucket.lastRefill ≤ now) :
    (bucket.refill now).waitSeconds = bucket.missing now := by
  rw [wellFormed.refill_eq later]
  rfl

/-- A refill makes a token whole when the burst has room for it and the missing
part has arrived. -/
theorem one_le_tokensAvailable_iff (later : bucket.lastRefill ≤ now) :
    1 ≤ bucket.tokensAvailable now ↔
      1 ≤ bucket.burst ∧ bucket.waitSeconds ≤ seconds (now - bucket.lastRefill) := by
  rw [wellFormed.tokensAvailable_eq_min later, le_min_iff, waitSeconds,
    div_le_iff₀ wellFormed.rate_pos, sub_le_iff_le_add']

/-- After a refill at one reading, the token at a later one. -/
theorem refill_again_iff {back : ℤ} (later : bucket.lastRefill ≤ now)
    (large : 1 ≤ bucket.burst) (forward : now ≤ back) :
    1 ≤ ((bucket.refill now).refill back).tokens ↔
      bucket.missing now ≤ seconds (back - now) := by
  have settled := wellFormed.refill_wellFormed later
  have lastEq := refill_lastRefill wellFormed later
  have behind : (bucket.refill now).lastRefill ≤ back := lastEq.le.trans forward
  rw [refill_tokens settled behind, one_le_tokensAvailable_iff settled behind,
    waitSeconds_refill wellFormed later, lastEq, refill_burst]
  exact and_iff_right large

theorem waitSeconds_le_due (due : bucket.Due now) :
    bucket.waitSeconds ≤ seconds (now - bucket.lastRefill) :=
  (div_le_div_of_nonneg_right (le_max_right _ _) wellFormed.rate_pos.le).trans due

theorem lastRefill_le_due (due : bucket.Due now) : bucket.lastRefill ≤ now := by
  have nonneg : 0 ≤ max 0 (1 - bucket.tokens) / bucket.rate :=
    div_nonneg (le_max_left _ _) wellFormed.rate_pos.le
  have elapsed : seconds 0 ≤ seconds (now - bucket.lastRefill) := by
    have zero : seconds 0 = 0 := by simp [seconds]
    exact zero.le.trans (nonneg.trans due)
  exact sub_nonneg.mp (seconds_le_iff.mp elapsed)

end Refill

/-- The time passes in any case. -/
theorem exists_due (bucket : TokenBucket) : ∃ now, bucket.Due now := by
  refine ⟨bucket.lastRefill + ⌈max 0 (1 - bucket.tokens) / bucket.rate * 1000000000⌉, ?_⟩
  rw [Due, add_sub_cancel_left, seconds, le_div_iff₀ (by norm_num)]
  exact Int.le_ceil _

theorem tryConsume_granted_iff (bucket : TokenBucket) (now : ℤ) :
    (bucket.tryConsume now).1 = true ↔ 1 ≤ (bucket.refill now).tokens := by
  unfold tryConsume
  dsimp only
  split
  · rename_i short
    simpa using short
  · rename_i enough
    simpa using enough

namespace System

variable {system after : System} {action : Action} {outcome : Outcome} {user : ℕ}

/-- No other thread holds the mutex, and the user, if it is parked in `consume`,
is woken before its token is due. -/
structure Sole (user : ℕ) (system : System) : Prop where
  entry : system.mayEnter user = true
  early : ∀ wakeAt, system.threads user = .consuming wakeAt →
    seconds (wakeAt - system.bucket.lastRefill) ≤ system.bucket.waitSeconds

theorem settle_sole (system : System) (action : Action) (bucket : TokenBucket) :
    (system.settle action bucket .idle none).Sole action.thread where
  entry := rfl
  early := by simp [settle]

theorem park_mayEnter (system : System) (action : Action) (bucket : TokenBucket)
    (thread : ℤ → Thread) (wait : ℤ) :
    (system.park action bucket thread wait).mayEnter action.thread = true := by
  unfold park settle mayEnter
  dsimp only
  split <;> simp

theorem consumeFrom_sole (sound : system.Sound) (forward : system.clock ≤ action.now) :
    (system.consumeFrom action).1.Sole action.thread := by
  unfold consumeFrom
  dsimp only
  split
  · refine ⟨park_mayEnter _ _ _ _ _, ?_⟩
    intro wakeAt parked
    simp only [park, settle, Function.update_self, Thread.consuming.injEq] at parked
    have settled := refill_lastRefill sound.wellFormed (sound.settled.trans forward)
    rw [← parked]
    change seconds (_ - (system.bucket.refill action.now).lastRefill) ≤
      (system.bucket.refill action.now).waitSeconds
    rw [settled, add_sub_cancel_left]
    refine (seconds_waitNanoseconds_le _).trans ?_
    split
    · rename_i long
      exact long.le
    · exact le_rfl
  · exact settle_sole _ _ _

theorem attempt_sole (system : System) (action : Action) :
    (system.attempt action).1.Sole action.thread :=
  settle_sole _ _ _

theorem tryConsumeForFrom_sole (system : System) (action : Action) (timeout : ℚ) :
    (system.tryConsumeForFrom action timeout).1.Sole action.thread := by
  unfold tryConsumeForFrom
  dsimp only
  split
  · exact settle_sole _ _ _
  · split
    · exact settle_sole _ _ _
    · exact ⟨park_mayEnter _ _ _ _ _, by simp [park, settle]⟩

theorem step_sole (sound : system.Sound) (sole : system.Sole action.thread)
    (taken : system.step action = some (after, outcome)) : after.Sole action.thread := by
  obtain ⟨forward, entered⟩ := step_criticalSection taken
  generalize resultEq : (after, outcome) = result at entered
  obtain rfl : result.1 = after := congrArg Prod.fst resultEq.symm
  cases entered with
  | consumed => exact consumeFrom_sole sound forward
  | attempted => exact attempt_sole system action
  | triedFor timeout => exact tryConsumeForFrom_sole system action timeout
  | rateRefused | burstRefused | reported => exact ⟨sole.entry, sole.early⟩
  | rateSet | burstSet => exact settle_sole _ _ _

theorem trace_sole {first last : System} {actions : List Action} {outcomes : List Outcome}
    (executes : trace step first actions = some (last, outcomes))
    (alone : ∀ action ∈ actions, action.thread = user) (sound : first.Sound)
    (sole : first.Sole user) : last.Sound ∧ last.Sole user := by
  induction actions generalizing first outcomes with
  | nil =>
      cases executes
      exact ⟨sound, sole⟩
  | cons action rest ih =>
      obtain ⟨next, outcome, later, taken, remaining, rfl⟩ := trace_cons executes
      obtain rfl := alone action List.mem_cons_self
      exact ih remaining (fun other member => alone other (List.mem_cons_of_mem _ member))
        (step_paid sound taken).1 (step_sole sound sole taken)

theorem reached_sound {rate burst : ℚ} {start : ℤ} {bucket : TokenBucket}
    (created : create rate burst start = some bucket) {actions : List Action}
    {outcomes : List Outcome}
    (executes : trace step (fresh bucket start) actions = some (system, outcomes)) :
    system.Sound :=
  trace_invariant executes Sound (fresh_sound created)
    fun _ _ _ _ kept taken => (step_paid kept taken).1

theorem reached_sole {rate burst : ℚ} {start : ℤ} {bucket : TokenBucket}
    (created : create rate burst start = some bucket) {actions : List Action}
    {outcomes : List Outcome}
    (executes : trace step (fresh bucket start) actions = some (system, outcomes))
    (alone : ∀ action ∈ actions, action.thread = user) : system.Sole user :=
  (trace_sole executes alone (fresh_sound created) ⟨rfl, by simp [fresh]⟩).2

/-! ### `consume` -/

theorem consumeFrom_granted (enough : 1 ≤ (system.bucket.refill action.now).tokens) :
    ∃ next, system.consumeFrom action = (next, .granted) := by
  unfold consumeFrom
  dsimp only
  rw [if_neg enough.not_gt]
  exact ⟨_, rfl⟩

/-- The user calls `consume`. -/
theorem consume_granted {now : ℤ} (sole : system.Sole user) (forward : system.clock ≤ now)
    (idle : system.threads user = .idle) (enough : 1 ≤ (system.bucket.refill now).tokens) :
    ∃ next, system.step ⟨user, .consume, now⟩ = some (next, .granted) := by
  have granted : ∃ next, system.consumeFrom ⟨user, .consume, now⟩ = (next, .granted) :=
    consumeFrom_granted enough
  obtain ⟨next, result⟩ := granted
  refine ⟨next, ?_⟩
  rw [step, if_neg forward.not_gt, if_pos sole.entry, if_pos idle, callStep, result]

/-- The user wakes up inside `consume`. -/
theorem consume_wakes {now wakeAt : ℤ} (sole : system.Sole user) (forward : system.clock ≤ now)
    (parked : system.threads user = .consuming wakeAt)
    (arrived : system.bucket.waitSeconds ≤ seconds (now - system.bucket.lastRefill))
    (enough : 1 ≤ (system.bucket.refill now).tokens) :
    ∃ next, system.step ⟨user, .wake, now⟩ = some (next, .granted) := by
  have granted : ∃ next, system.consumeFrom ⟨user, .wake, now⟩ = (next, .granted) :=
    consumeFrom_granted enough
  obtain ⟨next, result⟩ := granted
  have ended : wakeAt ≤ now := by
    have early := seconds_le_iff.mp ((sole.early wakeAt parked).trans arrived)
    linarith
  have wakes : system.mayWake now wakeAt = true := by simp [mayWake, ended]
  refine ⟨next, ?_⟩
  rw [step, if_neg forward.not_gt, if_pos sole.entry, if_neg (by simp [parked])]
  simp [wakeStep, parked, wakes, result]

/-- A due token is granted in every state exactly when the burst in force has
room for a whole token. -/
theorem never_starves_iff {rate burst : ℚ} {start : ℤ} {bucket : TokenBucket}
    (created : create rate burst start = some bucket) {actions : List Action}
    {outcomes : List Outcome}
    (executes : trace step (fresh bucket start) actions = some (system, outcomes)) :
    ((∀ now, system.bucket.Due now → (system.bucket.tryConsume now).1 = true) ∧
      ∀ user, (∀ action ∈ actions, action.thread = user) →
        ∀ now, system.clock ≤ now → system.bucket.Due now →
          (system.threads user = .idle →
            ∃ next, system.step ⟨user, .consume, now⟩ = some (next, .granted)) ∧
          ∀ wakeAt, system.threads user = .consuming wakeAt →
            ∃ next, system.step ⟨user, .wake, now⟩ = some (next, .granted)) ↔
      1 ≤ system.bucket.burst := by
  have sound := reached_sound created executes
  have wellFormed := sound.wellFormed
  have whole {now : ℤ} (due : system.bucket.Due now) :
      1 ≤ (system.bucket.refill now).tokens ↔ 1 ≤ system.bucket.burst := by
    have later := lastRefill_le_due wellFormed due
    rw [refill_tokens wellFormed later, one_le_tokensAvailable_iff wellFormed later]
    exact and_iff_left (waitSeconds_le_due wellFormed due)
  constructor
  · rintro ⟨served, -⟩
    obtain ⟨now, due⟩ := exists_due system.bucket
    exact (whole due).mp ((tryConsume_granted_iff _ _).mp (served now due))
  · intro large
    refine ⟨fun now due => (tryConsume_granted_iff _ _).mpr ((whole due).mpr large), ?_⟩
    intro user alone now forward due
    have sole := reached_sole created executes alone
    have enough := (whole due).mpr large
    refine ⟨fun idle => consume_granted sole forward idle enough, ?_⟩
    intro wakeAt parked
    exact consume_wakes sole forward parked (waitSeconds_le_due wellFormed due) enough

/-- A bucket of one token and two tokens a second, half a second after the token
was taken. -/
theorem never_starves_after_consume :
    ∃ bucket system outcomes, create 2 1 0 = some bucket ∧
      trace step (fresh bucket 0) [⟨0, .consume, 0⟩] = some (system, outcomes) ∧
      (system.bucket.tryConsume 500000000).1 = true := by
  have created : create 2 1 0 = some ⟨2, 1, 1, 0⟩ := by decide +kernel
  have evaluated :
      (trace step (fresh ⟨2, 1, 1, 0⟩ 0) [⟨0, .consume, 0⟩]).map (fun last => last.1.bucket) =
        some ⟨2, 1, 0, 0⟩ := by
    decide +kernel
  obtain ⟨⟨system, outcomes⟩, executes, bucketEq⟩ := Option.map_eq_some_iff.mp evaluated
  dsimp only at bucketEq
  have large : 1 ≤ system.bucket.burst := by rw [bucketEq]
  have due : system.bucket.Due 500000000 := by
    rw [bucketEq, Due]
    decide +kernel
  exact ⟨_, system, outcomes, created, executes,
    ((never_starves_iff created executes).mpr large).1 _ due⟩

/-- The default burst `0` of the bindings with half a token a second: an hour
later there is no token, and `consume` goes back to waiting. -/
theorem starves_with_default_burst :
    ∃ bucket, create (1 / 2) 0 0 = some bucket ∧ bucket.Due 3600000000000 ∧
      (bucket.tryConsume 3600000000000).1 = false ∧
      ((fresh bucket 0).step ⟨0, .consume, 3600000000000⟩).map Prod.snd = some .parked := by
  refine ⟨⟨1 / 2, 1 / 2, 1 / 2, 0⟩, by decide +kernel, ?_, by decide +kernel, by decide +kernel⟩
  rw [Due]
  decide +kernel

/-! ### `try_consume_for` -/

/-- The promise of `try_consume_for`: when the missing part arrives within the
timeout it returns true, whenever `wait_for` returns after the nanoseconds asked
for; otherwise it returns false at once and takes nothing. -/
structure KeepsPromise (system : System) (user : ℕ) (now : ℤ) (timeout : ℚ) : Prop where
  inTime : system.bucket.missing now ≤ timeout →
    (∃ next, system.step ⟨user, .tryConsumeFor timeout, now⟩ = some (next, .granted)) ∨
    ∃ parked, system.step ⟨user, .tryConsumeFor timeout, now⟩ = some (parked, .parked) ∧
      ∀ back, now + waitNanoseconds (system.bucket.missing now) ≤ back →
        ∃ next, parked.step ⟨user, .wake, back⟩ = some (next, .granted)
  tooLate : timeout < system.bucket.missing now →
    ∃ next, system.step ⟨user, .tryConsumeFor timeout, now⟩ = some (next, .denied) ∧
      next.bucket = system.bucket.refill now

theorem step_tryConsumeFor {now : ℤ} {timeout : ℚ} (sole : system.Sole user)
    (forward : system.clock ≤ now) (idle : system.threads user = .idle) :
    system.step ⟨user, .tryConsumeFor timeout, now⟩ =
      some (system.tryConsumeForFrom ⟨user, .tryConsumeFor timeout, now⟩ timeout) := by
  rw [step, if_neg forward.not_gt, if_pos sole.entry, if_pos idle, callStep]

/-- The call comes back from its wait. -/
theorem tryingFor_wake_iff {back wakeAt : ℤ} (entry : system.mayEnter user = true)
    (forward : system.clock ≤ back) (waiting : system.threads user = .tryingFor wakeAt)
    (ended : wakeAt ≤ back) :
    (∃ next, system.step ⟨user, .wake, back⟩ = some (next, .granted)) ↔
      1 ≤ (system.bucket.refill back).tokens := by
  have wakes : system.mayWake back wakeAt = true := by simp [mayWake, ended]
  rw [← tryConsume_granted_iff, step, if_neg forward.not_gt, if_pos entry,
    if_neg (by simp [waiting])]
  simp only [wakeStep, waiting, wakes, if_true, attempt]
  cases (system.bucket.tryConsume back).1 <;> simp

/-- Alone on a bucket with room for a token, `try_consume_for` keeps its promise
exactly when it need not wait, gives up, or waits a whole number of nanoseconds. -/
theorem tryConsumeFor_keeps_iff {rate burst : ℚ} {start : ℤ} {bucket : TokenBucket}
    (created : create rate burst start = some bucket) {actions : List Action}
    {outcomes : List Outcome}
    (executes : trace step (fresh bucket start) actions = some (system, outcomes))
    (alone : ∀ action ∈ actions, action.thread = user) (idle : system.threads user = .idle)
    (large : 1 ≤ system.bucket.burst) {now : ℤ} (forward : system.clock ≤ now) {timeout : ℚ}
    (nonneg : 0 ≤ timeout) :
    system.KeepsPromise user now timeout ↔
      1 ≤ system.bucket.tokensAvailable now ∨ timeout < system.bucket.missing now ∨
        ∃ nanoseconds, system.bucket.missing now = seconds nanoseconds := by
  have sound := reached_sound created executes
  have wellFormed := sound.wellFormed
  have later := sound.settled.trans forward
  have sole := reached_sole created executes alone
  have tokensEq := refill_tokens wellFormed later
  have waitEq := waitSeconds_refill wellFormed later
  have called : system.step ⟨user, .tryConsumeFor timeout, now⟩ = some _ :=
    step_tryConsumeFor sole forward idle
  unfold tryConsumeForFrom at called
  dsimp only at called
  rw [tokensEq, waitEq] at called
  by_cases ready : 1 ≤ system.bucket.tokensAvailable now
  · rw [if_pos ready] at called
    have nothingMissing : system.bucket.missing now ≤ 0 :=
      div_nonpos_of_nonpos_of_nonneg (sub_nonpos.mpr ready) wellFormed.rate_pos.le
    exact iff_of_true
      ⟨fun _ => .inl ⟨_, called⟩, fun late => absurd (nothingMissing.trans nonneg) late.not_ge⟩
      (.inl ready)
  · rw [if_neg ready] at called
    by_cases late : timeout < system.bucket.missing now
    · rw [if_pos late] at called
      exact iff_of_true
        ⟨fun inTime => absurd late inTime.not_gt, fun _ => ⟨_, called, rfl⟩⟩
        (.inr (.inl late))
    · rw [if_neg late] at called
      have waitNonneg : 0 ≤ waitNanoseconds (system.bucket.missing now) :=
        waitNanoseconds_nonneg (div_nonneg (sub_nonneg.mpr (le_of_not_ge ready))
          wellFormed.rate_pos.le)
      -- when it comes back the token is whole if the missing part has arrived
      have wakes {back : ℤ}
          (ended : now + waitNanoseconds (system.bucket.missing now) ≤ back) :
          (∃ next, (system.park ⟨user, .tryConsumeFor timeout, now⟩ (system.bucket.refill now)
            .tryingFor (waitNanoseconds (system.bucket.missing now))).step ⟨user, .wake, back⟩ =
              some (next, .granted)) ↔ system.bucket.missing now ≤ seconds (back - now) := by
        have returned : now ≤ back := by omega
        rw [tryingFor_wake_iff (park_mayEnter _ _ _ _ _) returned (Function.update_self ..) ended]
        exact refill_again_iff wellFormed later large returned
      constructor
      · intro promise
        rcases promise.inTime (le_of_not_gt late) with ⟨next, granted⟩ | ⟨parked, parkedEq, served⟩
        · rw [called] at granted
          cases granted
        · rw [called] at parkedEq
          cases parkedEq
          have arrived := (wakes le_rfl).mp (served _ le_rfl)
          rw [add_sub_cancel_left] at arrived
          exact .inr (.inr (le_seconds_waitNanoseconds_iff.mp arrived))
      · intro condition
        have arrives := le_seconds_waitNanoseconds_iff.mpr
          ((condition.resolve_left ready).resolve_left late)
        refine ⟨fun _ => .inr ⟨_, called, fun back ended => (wakes ended).mpr ?_⟩,
          fun tooLate => absurd tooLate late⟩
        exact arrives.trans (seconds_le_iff.mpr (by omega))

/-- At two tokens a second the wait for an empty bucket is a whole number of
nanoseconds. -/
theorem tryConsumeFor_keeps_half_second :
    ∃ bucket system outcomes, create 2 1 0 = some bucket ∧
      trace step (fresh bucket 0) [⟨0, .consume, 0⟩] = some (system, outcomes) ∧
      system.bucket.missing 0 = 1 / 2 ∧ system.KeepsPromise 0 0 1 := by
  have created : create 2 1 0 = some ⟨2, 1, 1, 0⟩ := by decide +kernel
  have evaluated :
      (trace step (fresh ⟨2, 1, 1, 0⟩ 0) [⟨0, .consume, 0⟩]).map
        (fun last => (last.1.bucket, last.1.clock, last.1.threads 0)) =
        some (⟨2, 1, 0, 0⟩, 0, .idle) := by
    decide +kernel
  obtain ⟨⟨system, outcomes⟩, executes, fields⟩ := Option.map_eq_some_iff.mp evaluated
  simp only [Prod.mk.injEq] at fields
  obtain ⟨bucketEq, clockEq, idle⟩ := fields
  have missingEq : system.bucket.missing 0 = 1 / 2 := by
    rw [bucketEq]
    decide +kernel
  refine ⟨_, system, outcomes, created, executes, missingEq, ?_⟩
  refine (tryConsumeFor_keeps_iff created executes (by simp) idle (by rw [bucketEq])
    clockEq.le zero_le_one).mpr (.inr (.inr ⟨500000000, ?_⟩))
  rw [missingEq]
  decide +kernel

/-- At three tokens a second the wait is cut to 333333333 nanoseconds; a call that
wakes up right then returns false although it had a second. -/
theorem tryConsumeFor_truncated_wait :
    ∃ bucket, create 3 1 0 = some bucket ∧
      (trace step (fresh bucket 0)
        [⟨0, .consume, 0⟩, ⟨0, .tryConsumeFor 1, 0⟩, ⟨0, .wake, 333333333⟩]).map
          Prod.snd = some [.granted, .parked, .denied] ∧
      ((trace step (fresh bucket 0) [⟨0, .consume, 0⟩]).map fun last =>
        (last.1.bucket.missing 0, waitNanoseconds (last.1.bucket.missing 0))) =
          some (1 / 3, 333333333) :=
  ⟨⟨3, 1, 1, 0⟩, by decide +kernel, by decide +kernel, by decide +kernel⟩

end System

end Cppload.TokenBucket

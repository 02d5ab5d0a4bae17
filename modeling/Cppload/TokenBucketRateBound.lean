import Cppload.TokenBucket

/-!
# The rate bound of the token bucket

Whatever calls interleave on a bucket, each critical section changes it in one
of five ways.  Taking `tokensAvailable` at the latest clock reading as a
potential, a granted token is paid by the drop of the potential and by the
tokens that the elapsed time brings in, and so the tokens granted in any part
of a run are bounded by the level at its start and the rate integrated over
its duration.
-/

namespace Cppload.TokenBucket

open Transition

theorem seconds_add (first second : ℤ) :
    seconds (first + second) = seconds first + seconds second := by
  simp only [seconds]
  push_cast
  ring

theorem seconds_between (first middle last : ℤ) :
    seconds (last - first) = seconds (last - middle) + seconds (middle - first) := by
  rw [← seconds_add]
  congr 1
  ring

theorem seconds_nonneg {first last : ℤ} (ordered : first ≤ last) :
    0 ≤ seconds (last - first) := by
  unfold seconds
  have : (0 : ℚ) ≤ ((last - first : ℤ) : ℚ) := by exact_mod_cast sub_nonneg.mpr ordered
  positivity

theorem seconds_pos {first last : ℤ} (ordered : first < last) :
    0 < seconds (last - first) := by
  unfold seconds
  have : (0 : ℚ) < ((last - first : ℤ) : ℚ) := by exact_mod_cast sub_pos.mpr ordered
  positivity

@[simp]
theorem seconds_self (reading : ℤ) : seconds (reading - reading) = 0 := by
  simp [seconds]

/-- What the constructor and the setters establish of the four fields. -/
structure WellFormed (bucket : TokenBucket) : Prop where
  rate_pos : 0 < bucket.rate
  tokens_nonneg : 0 ≤ bucket.tokens
  tokens_le : bucket.tokens ≤ bucket.burst

theorem create_wellFormed {rate burst : ℚ} {now : ℤ} {bucket : TokenBucket}
    (created : create rate burst now = some bucket) : bucket.WellFormed := by
  unfold create at created
  split at created
  · contradiction
  · rename_i positive
    simp only [Option.some.injEq] at created
    subst created
    have rate_pos : 0 < rate := lt_of_not_ge positive
    have size_pos : 0 < (if 0 < burst then burst else rate) := by
      split <;> assumption
    exact ⟨rate_pos, size_pos.le, le_refl _⟩

theorem create_lastRefill {rate burst : ℚ} {now : ℤ} {bucket : TokenBucket}
    (created : create rate burst now = some bucket) : bucket.lastRefill = now := by
  unfold create at created
  split at created
  · contradiction
  · simp only [Option.some.injEq] at created
    subst created
    rfl

namespace WellFormed

variable {bucket : TokenBucket} (wellFormed : bucket.WellFormed)
include wellFormed

theorem grown_nonneg {now : ℤ} (later : bucket.lastRefill ≤ now) :
    0 ≤ bucket.tokens + seconds (now - bucket.lastRefill) * bucket.rate := by
  have elapsed := seconds_nonneg later
  have gained := mul_nonneg elapsed wellFormed.rate_pos.le
  linarith [wellFormed.tokens_nonneg]

/-- After the last refill the level is the grown one, cut off at the burst. -/
theorem tokensAvailable_eq_min {now : ℤ} (later : bucket.lastRefill ≤ now) :
    bucket.tokensAvailable now =
      min bucket.burst
        (bucket.tokens + seconds (now - bucket.lastRefill) * bucket.rate) := by
  have grown := wellFormed.grown_nonneg later
  simp only [tokensAvailable]
  split
  · rename_i above
    exact (min_eq_left above.le).symm
  · rename_i below
    rw [if_neg (not_lt.mpr grown)]
    exact (min_eq_right (not_lt.mp below)).symm

theorem tokensAvailable_lastRefill :
    bucket.tokensAvailable bucket.lastRefill = bucket.tokens := by
  rw [wellFormed.tokensAvailable_eq_min le_rfl, seconds_self, zero_mul, add_zero]
  exact min_eq_right wellFormed.tokens_le

/-- `refill` stores exactly the level that `tokens_available` reports. -/
theorem refill_eq {now : ℤ} (later : bucket.lastRefill ≤ now) :
    bucket.refill now =
      { bucket with tokens := bucket.tokensAvailable now, lastRefill := now } := by
  rcases later.lt_or_eq with strictly | same
  · rw [wellFormed.tokensAvailable_eq_min later, refill, if_pos (seconds_pos strictly)]
    simp only [min_def]
    congr 1
    split <;> split <;> first | rfl | linarith
  · rw [← same, wellFormed.tokensAvailable_lastRefill, refill, seconds_self, if_neg (lt_irrefl 0)]

theorem refill_wellFormed {now : ℤ} (later : bucket.lastRefill ≤ now) :
    (bucket.refill now).WellFormed := by
  have grown := wellFormed.grown_nonneg later
  have burst_nonneg := wellFormed.tokens_nonneg.trans wellFormed.tokens_le
  rw [wellFormed.refill_eq later, wellFormed.tokensAvailable_eq_min later]
  exact ⟨wellFormed.rate_pos, le_min burst_nonneg grown, min_le_left _ _⟩

/-- Between two readings the level grows by at most what the rate brings in. -/
theorem tokensAvailable_le_add {first last : ℤ}
    (settled : bucket.lastRefill ≤ first) (ordered : first ≤ last) :
    bucket.tokensAvailable last ≤
      bucket.tokensAvailable first + bucket.rate * seconds (last - first) := by
  rw [wellFormed.tokensAvailable_eq_min settled,
    wellFormed.tokensAvailable_eq_min (settled.trans ordered),
    seconds_between bucket.lastRefill first last]
  have gained := mul_nonneg wellFormed.rate_pos.le (seconds_nonneg ordered)
  rw [← min_add_add_right]
  apply min_le_min <;> linarith

theorem tokensAvailable_le_burst {now : ℤ} (later : bucket.lastRefill ≤ now) :
    bucket.tokensAvailable now ≤ bucket.burst := by
  rw [wellFormed.tokensAvailable_eq_min later]
  exact min_le_left _ _

theorem tokensAvailable_nonneg {now : ℤ} (later : bucket.lastRefill ≤ now) :
    0 ≤ bucket.tokensAvailable now := by
  rw [wellFormed.tokensAvailable_eq_min later]
  exact le_min (wellFormed.tokens_nonneg.trans wellFormed.tokens_le)
    (wellFormed.grown_nonneg later)

end WellFormed

/-- What one critical section of an action can do to the bucket, with the
number of tokens it grants. -/
inductive Change (bucket : TokenBucket) (action : Action) :
    TokenBucket → ℕ → Prop
  | kept : Change bucket action bucket 0
  | settled : Change bucket action (bucket.refill action.now) 0
  | taken (enough : 1 ≤ (bucket.refill action.now).tokens) :
      Change bucket action (bucket.refill action.now).take 1
  | rateSet (rate : ℚ) (called : action.call = .setRate rate)
      (positive : 0 < rate) :
      Change bucket action (bucket.setRate action.now rate) 0
  | burstSet (burst : ℚ) (called : action.call = .setBurst burst)
      (positive : 0 < burst) :
      Change bucket action (bucket.setBurst action.now burst) 0

/-- A change of a well-formed bucket keeps it well formed and settled, and pays
for what it grants out of the level at its clock reading. -/
theorem Change.spec {bucket after : TokenBucket} {action : Action} {grants : ℕ}
    (change : Change bucket action after grants) (wellFormed : bucket.WellFormed)
    (later : bucket.lastRefill ≤ action.now) :
    after.WellFormed ∧ after.lastRefill ≤ action.now ∧
      (grants : ℚ) + after.tokensAvailable action.now ≤
        bucket.tokensAvailable action.now := by
  have refilled := wellFormed.refill_wellFormed later
  have refillEq := wellFormed.refill_eq later
  have level : (bucket.refill action.now).tokens =
      bucket.tokensAvailable action.now := by
    rw [refillEq]
  have reading : (bucket.refill action.now).lastRefill = action.now := by
    rw [refillEq]
  cases change with
  | kept => exact ⟨wellFormed, later, by simp⟩
  | settled =>
      have same := refilled.tokensAvailable_lastRefill
      rw [reading, level] at same
      exact ⟨refilled, reading.le, by simp [same]⟩
  | taken enough =>
      have takenFormed : (bucket.refill action.now).take.WellFormed :=
        ⟨refilled.rate_pos, by simp only [take]; linarith,
          by simp only [take]; linarith [refilled.tokens_le]⟩
      have same := takenFormed.tokensAvailable_lastRefill
      simp only [take, reading, level] at same
      refine ⟨takenFormed, reading.le, ?_⟩
      simp only [take, level, reading, same]
      push_cast
      linarith
  | rateSet rate _ positive =>
      have setFormed : (bucket.setRate action.now rate).WellFormed :=
        ⟨positive, refilled.tokens_nonneg, refilled.tokens_le⟩
      have same := setFormed.tokensAvailable_lastRefill
      simp only [setRate, reading, level] at same
      refine ⟨setFormed, reading.le, ?_⟩
      simp only [setRate, level, reading, same]
      simp
  | burstSet burst _ positive =>
      have cut : (if burst < (bucket.refill action.now).tokens then burst
          else (bucket.refill action.now).tokens) =
            min burst (bucket.refill action.now).tokens := by
        rw [min_def]
        split <;> split <;> first | rfl | linarith
      have setFormed : (bucket.setBurst action.now burst).WellFormed :=
        ⟨refilled.rate_pos,
          by simp only [setBurst, cut]; exact le_min positive.le refilled.tokens_nonneg,
          by simp only [setBurst, cut]; exact min_le_left _ _⟩
      have same := setFormed.tokensAvailable_lastRefill
      simp only [setBurst, cut, reading] at same
      refine ⟨setFormed, reading.le, ?_⟩
      simp only [setBurst, cut, reading, same]
      simp [level]

/-- An action that leaves rate `rate` and burst `burst` as they are. -/
def Keeps (rate burst : ℚ) (action : Action) : Prop :=
  match action.call with
  | .setRate newRate => newRate ≤ 0 ∨ newRate = rate
  | .setBurst newBurst => newBurst ≤ 0 ∨ newBurst = burst
  | _ => True

@[simp]
theorem refill_rate (bucket : TokenBucket) (now : ℤ) :
    (bucket.refill now).rate = bucket.rate := by
  simp only [refill]
  split <;> rfl

@[simp]
theorem refill_burst (bucket : TokenBucket) (now : ℤ) :
    (bucket.refill now).burst = bucket.burst := by
  simp only [refill]
  split <;> rfl

theorem Change.keeps {bucket after : TokenBucket} {action : Action} {grants : ℕ}
    (change : Change bucket action after grants)
    (keeps : Keeps bucket.rate bucket.burst action) :
    after.rate = bucket.rate ∧ after.burst = bucket.burst := by
  cases change with
  | kept => exact ⟨rfl, rfl⟩
  | settled => simp
  | taken enough => simp [take]
  | rateSet rate called positive =>
      simp only [Keeps, called, not_le.mpr positive, false_or] at keeps
      simp [setRate, keeps]
  | burstSet burst called positive =>
      simp only [Keeps, called, not_le.mpr positive, false_or] at keeps
      simp [setBurst, keeps]

namespace System

theorem attempt_change (system : System) (action : Action) :
    Change system.bucket action (system.attempt action).1.bucket
      (system.attempt action).2.grants := by
  unfold attempt tryConsume
  by_cases short : (system.bucket.refill action.now).tokens < 1
  · simpa [short, settle, Outcome.grants] using Change.settled
  · simpa [short, settle, Outcome.grants] using Change.taken (not_lt.mp short)

theorem consumeFrom_change (system : System) (action : Action) :
    Change system.bucket action (system.consumeFrom action).1.bucket
      (system.consumeFrom action).2.grants := by
  unfold consumeFrom
  by_cases short : (system.bucket.refill action.now).tokens < 1
  · simpa [short, park, settle, Outcome.grants] using Change.settled
  · simpa [short, settle, Outcome.grants] using Change.taken (not_lt.mp short)

theorem tryConsumeForFrom_change (system : System) (action : Action) (timeout : ℚ) :
    Change system.bucket action (system.tryConsumeForFrom action timeout).1.bucket
      (system.tryConsumeForFrom action timeout).2.grants := by
  unfold tryConsumeForFrom
  by_cases enough : 1 ≤ (system.bucket.refill action.now).tokens
  · simpa [enough, settle, Outcome.grants] using Change.taken enough
  · simp only [enough, if_false]
    split
    · simpa [settle, Outcome.grants] using Change.settled
    · simpa [park, settle, Outcome.grants] using Change.settled

@[simp]
theorem attempt_clock (system : System) (action : Action) :
    (system.attempt action).1.clock = action.now := rfl

@[simp]
theorem consumeFrom_clock (system : System) (action : Action) :
    (system.consumeFrom action).1.clock = action.now := by
  unfold consumeFrom
  dsimp only
  split <;> rfl

@[simp]
theorem tryConsumeForFrom_clock (system : System) (action : Action) (timeout : ℚ) :
    (system.tryConsumeForFrom action timeout).1.clock = action.now := by
  unfold tryConsumeForFrom
  dsimp only
  split
  · rfl
  · split <;> rfl

/-- The moment of a step is its clock reading, and the bucket makes one of the
listed changes. -/
def Moves (system : System) (action : Action) (result : System × Outcome) : Prop :=
  result.1.clock = action.now ∧
    Change system.bucket action result.1.bucket result.2.grants

theorem attempt_moves (system : System) (action : Action) :
    system.Moves action (system.attempt action) :=
  ⟨rfl, system.attempt_change action⟩

theorem consumeFrom_moves (system : System) (action : Action) :
    system.Moves action (system.consumeFrom action) :=
  ⟨system.consumeFrom_clock action, system.consumeFrom_change action⟩

/-- What the critical section of a thread can be, with the state and the answer it
leaves. -/
inductive CriticalSection (system : System) (action : Action) : System × Outcome → Prop
  | consumed : CriticalSection system action (system.consumeFrom action)
  | attempted : CriticalSection system action (system.attempt action)
  | triedFor (timeout : ℚ) :
      CriticalSection system action (system.tryConsumeForFrom action timeout)
  | rateRefused (rate : ℚ) (nonpositive : rate ≤ 0) :
      CriticalSection system action ({ system with clock := action.now }, .invalidArgument)
  | rateSet (rate : ℚ) (called : action.call = .setRate rate) (positive : 0 < rate) :
      CriticalSection system action
        (system.settle action (system.bucket.setRate action.now rate) .idle none, .done)
  | burstRefused (burst : ℚ) (nonpositive : burst ≤ 0) :
      CriticalSection system action ({ system with clock := action.now }, .invalidArgument)
  | burstSet (burst : ℚ) (called : action.call = .setBurst burst) (positive : 0 < burst) :
      CriticalSection system action
        (system.settle action (system.bucket.setBurst action.now burst) .idle none, .done)
  | reported :
      CriticalSection system action
        ({ system with clock := action.now }, .available (system.bucket.tokensAvailable action.now))

section Inversion

variable {system : System} {action : Action} {result : System × Outcome}

theorem callStep_criticalSection (taken : system.callStep action = some result) :
    system.CriticalSection action result := by
  unfold callStep at taken
  cases called : action.call with
  | consume =>
      simp only [called, Option.some.injEq] at taken
      exact taken ▸ .consumed
  | tryConsume =>
      simp only [called, Option.some.injEq] at taken
      exact taken ▸ .attempted
  | tryConsumeFor timeout =>
      simp only [called, Option.some.injEq] at taken
      exact taken ▸ .triedFor timeout
  | setRate rate =>
      simp only [called] at taken
      split at taken <;> rename_i sign <;> obtain rfl := Option.some.inj taken
      · exact .rateRefused rate sign
      · exact .rateSet rate called (lt_of_not_ge sign)
  | setBurst burst =>
      simp only [called] at taken
      split at taken <;> rename_i sign <;> obtain rfl := Option.some.inj taken
      · exact .burstRefused burst sign
      · exact .burstSet burst called (lt_of_not_ge sign)
  | tokensAvailable =>
      simp only [called, Option.some.injEq] at taken
      exact taken ▸ .reported
  | wake => simp [called] at taken

theorem wakeStep_criticalSection (taken : system.wakeStep action = some result) :
    system.CriticalSection action result := by
  unfold wakeStep at taken
  split at taken
  · split at taken
    · obtain rfl := Option.some.inj taken
      exact .consumed
    · contradiction
  · split at taken
    · obtain rfl := Option.some.inj taken
      exact .attempted
    · contradiction
  · contradiction

/-- Every step is one critical section of a thread, at a later reading. -/
theorem step_criticalSection (taken : system.step action = some result) :
    system.clock ≤ action.now ∧ system.CriticalSection action result := by
  unfold step at taken
  split at taken
  · contradiction
  · rename_i forward
    refine ⟨not_lt.mp forward, ?_⟩
    split at taken
    · split at taken
      · exact callStep_criticalSection taken
      · exact wakeStep_criticalSection taken
    · contradiction

theorem CriticalSection.moves (entered : system.CriticalSection action result) :
    system.Moves action result := by
  cases entered with
  | consumed => exact system.consumeFrom_moves action
  | attempted => exact system.attempt_moves action
  | triedFor timeout =>
      exact ⟨system.tryConsumeForFrom_clock action timeout,
        system.tryConsumeForFrom_change action timeout⟩
  | rateRefused | burstRefused | reported => exact ⟨rfl, .kept⟩
  | rateSet rate called positive => exact ⟨rfl, .rateSet rate called positive⟩
  | burstSet burst called positive => exact ⟨rfl, .burstSet burst called positive⟩

/-- Every step moves the clock forward and makes one of the listed changes. -/
theorem step_moves (taken : system.step action = some result) :
    system.clock ≤ action.now ∧ system.Moves action result := by
  obtain ⟨forward, entered⟩ := step_criticalSection taken
  exact ⟨forward, entered.moves⟩

end Inversion

/-- The bucket is well formed and was settled no later than the latest clock
reading. -/
structure Sound (system : System) : Prop where
  wellFormed : system.bucket.WellFormed
  settled : system.bucket.lastRefill ≤ system.clock

theorem fresh_sound {rate burst : ℚ} {now : ℤ} {bucket : TokenBucket}
    (created : create rate burst now = some bucket) : (fresh bucket now).Sound :=
  ⟨create_wellFormed created, (create_lastRefill created).le⟩

/-- The level that `tokens_available` would report at the latest reading. -/
def level (system : System) : ℚ :=
  system.bucket.tokensAvailable system.clock

/-- The tokens that arrive, at the rate in force before a step, in the time
between the previous clock reading and that of the step. -/
def inflow (system : System) (action : Action) : ℚ :=
  system.bucket.rate * seconds (action.now - system.clock)

theorem step_paid {system after : System} {action : Action} {outcome : Outcome}
    (sound : system.Sound) (taken : system.step action = some (after, outcome)) :
    after.Sound ∧
      (outcome.grants : ℚ) + after.level ≤ system.level + system.inflow action := by
  obtain ⟨forward, moment, change⟩ := step_moves taken
  obtain ⟨formed, settled, payment⟩ :=
    change.spec sound.wellFormed (sound.settled.trans forward)
  have grown := sound.wellFormed.tokensAvailable_le_add sound.settled forward
  refine ⟨⟨formed, moment ▸ settled⟩, ?_⟩
  unfold level inflow
  rw [moment]
  exact payment.trans grown

/-- Tokens granted by a list of critical sections. -/
def granted (outcomes : List Outcome) : ℚ :=
  (outcomes.map fun outcome => (outcome.grants : ℚ)).sum

theorem granted_le_level {first last : System} {actions : List Action}
    {outcomes : List Outcome} (sound : first.Sound)
    (executes : trace step first actions = some (last, outcomes)) :
    granted outcomes ≤ first.level + accumulate step inflow first actions := by
  have lastSound : last.Sound :=
    trace_invariant executes Sound sound
      fun _ _ _ _ kept taken => (step_paid kept taken).1
  have paid := trace_potential Sound level
    (fun outcome => (outcome.grants : ℚ)) inflow
    (fun _ _ _ _ kept taken => step_paid kept taken) executes sound
  have level_nonneg : 0 ≤ last.level :=
    lastSound.wellFormed.tokensAvailable_nonneg lastSound.settled
  unfold granted
  linarith

/-- Moving the latest reading forward, up to the reading of the next action,
changes nothing for that action. -/
theorem step_advance {system : System} {action : Action} {reading : ℤ}
    (forward : system.clock ≤ action.now) (below : reading ≤ action.now) :
    step { system with clock := reading } action = system.step action := by
  simp only [step, not_lt.mpr forward, not_lt.mpr below, if_false]
  rfl

/-- A run is the same from any moment on between the latest reading and that of its
first action. -/
theorem trace_advance {first last : System} {action : Action} {rest : List Action}
    {outcomes : List Outcome} {reading : ℤ} (forward : first.clock ≤ action.now)
    (below : reading ≤ action.now)
    (executes : trace step first (action :: rest) = some (last, outcomes)) :
    trace step { first with clock := reading } (action :: rest) = some (last, outcomes) := by
  simp only [trace, step_advance forward below]
  exact executes

/-- The bound from any moment on that lies between two readings. -/
theorem granted_le_tokensAvailable {first last : System} {actions : List Action}
    {outcomes : List Outcome} (sound : first.Sound)
    (executes : trace step first actions = some (last, outcomes)) {reading : ℤ}
    (later : first.clock ≤ reading) (opens : ∀ action ∈ actions, reading ≤ action.now) :
    granted outcomes ≤ first.bucket.tokensAvailable reading +
      accumulate step inflow { first with clock := reading } actions := by
  have settled := sound.settled.trans later
  cases actions with
  | nil =>
      simp only [trace, Option.some.injEq, Prod.mk.injEq] at executes
      obtain ⟨_, rfl⟩ := executes
      simpa [granted, accumulate] using sound.wellFormed.tokensAvailable_nonneg settled
  | cons action rest =>
      have below := opens action (by simp)
      have advanced : Sound { first with clock := reading } := ⟨sound.wellFormed, settled⟩
      have bound := granted_le_level advanced (trace_advance (later.trans below) below executes)
      exact bound

/-- The latest reading of a schedule has every property that its first state's
reading and the readings of its actions have. -/
theorem trace_clock {first last : System} {actions : List Action}
    {outcomes : List Outcome}
    (executes : trace step first actions = some (last, outcomes))
    (property : ℤ → Prop) (initial : property first.clock)
    (readings : ∀ action ∈ actions, property action.now) :
    property last.clock := by
  induction actions generalizing first outcomes with
  | nil =>
      simp only [trace, Option.some.injEq, Prod.mk.injEq] at executes
      exact executes.1 ▸ initial
  | cons action rest ih =>
      obtain ⟨next, outcome, later, taken, remaining, rfl⟩ := trace_cons executes
      have moment := (step_moves taken).2.1
      refine ih remaining ?_ fun other member => readings other (by simp [member])
      rw [moment]
      exact readings action (by simp)

/-- With constant rate and burst the tokens that arrive are the rate times the
duration. -/
theorem accumulate_inflow_constant {first last : System} {actions : List Action}
    {outcomes : List Outcome}
    (executes : trace step first actions = some (last, outcomes))
    (keeps : ∀ action ∈ actions, Keeps first.bucket.rate first.bucket.burst action) :
    accumulate step inflow first actions =
      first.bucket.rate * seconds (last.clock - first.clock) := by
  induction actions generalizing first outcomes with
  | nil =>
      simp only [trace, Option.some.injEq, Prod.mk.injEq] at executes
      obtain ⟨rfl, _⟩ := executes
      simp only [accumulate, seconds_self, mul_zero]
  | cons action rest ih =>
      obtain ⟨next, outcome, later, taken, remaining, rfl⟩ := trace_cons executes
      obtain ⟨forward, moment, change⟩ := step_moves taken
      obtain ⟨rateEq, burstEq⟩ := change.keeps (keeps action (by simp))
      have tail := ih remaining (by
        rw [rateEq, burstEq]
        exact fun other member => keeps other (by simp [member]))
      rw [accumulate_cons taken, tail, rateEq, inflow, moment,
        seconds_between first.clock action.now last.clock]
      ring

/-- A window whose clock readings span at most `duration` grants at most a full
burst and what a constant rate brings in meanwhile. -/
theorem granted_le_burst {first last : System} {actions : List Action}
    {outcomes : List Outcome} (sound : first.Sound)
    (executes : trace step first actions = some (last, outcomes))
    (keeps : ∀ action ∈ actions, Keeps first.bucket.rate first.bucket.burst action)
    {opening : ℤ} {duration : ℚ} (nonneg : 0 ≤ duration)
    (within : ∀ action ∈ actions,
      opening ≤ action.now ∧ seconds (action.now - opening) ≤ duration) :
    granted outcomes ≤ first.bucket.burst + first.bucket.rate * duration := by
  have rate_pos := sound.wellFormed.rate_pos
  have burst_nonneg :=
    sound.wellFormed.tokens_nonneg.trans sound.wellFormed.tokens_le
  cases actions with
  | nil =>
      simp only [trace, Option.some.injEq, Prod.mk.injEq] at executes
      obtain ⟨_, rfl⟩ := executes
      simp only [granted, List.map_nil, List.sum_nil]
      positivity
  | cons action rest =>
      -- the run is the same from the moment the window opens
      let reading := max opening first.clock
      obtain ⟨next, outcome, later, taken, remaining, rfl⟩ := trace_cons executes
      have forward := (step_moves taken).1
      have opened := within action (by simp)
      have below : reading ≤ action.now := max_le opened.1 forward
      have settled : first.bucket.lastRefill ≤ reading :=
        sound.settled.trans (le_max_right _ _)
      have advanced := trace_advance forward below executes
      have advancedSound : Sound { first with clock := reading } :=
        ⟨sound.wellFormed, settled⟩
      have bound := granted_le_level advancedSound advanced
      rw [accumulate_inflow_constant advanced keeps] at bound
      have levelBound : level { first with clock := reading } ≤ first.bucket.burst :=
        sound.wellFormed.tokensAvailable_le_burst settled
      have elapsed : seconds (last.clock - reading) ≤ duration := by
        have closing : seconds (last.clock - opening) ≤ duration := by
          refine trace_clock advanced
            (fun now => seconds (now - opening) ≤ duration) ?_
            fun other member => (within other member).2
          have spread := seconds_between opening reading action.now
          have rest_nonneg := seconds_nonneg below
          linarith [opened.2]
        have split := seconds_between opening reading last.clock
        have opened_nonneg := seconds_nonneg (le_max_left opening first.clock)
        linarith
      have inflowBound := mul_le_mul_of_nonneg_left elapsed rate_pos.le
      exact bound.trans (add_le_add levelBound inflowBound)

/-- The tokens always lie between zero and the burst.  From any moment of a run on no
more is granted than `tokens_available` would report at it and the rate integrated
over the time since, and under a constant rate and burst no window grants more than
the burst and the rate times its length. -/
theorem granted_between_le {rate burst : ℚ} {start : ℤ} {bucket : TokenBucket}
    (created : create rate burst start = some bucket)
    {before window : List Action} {first last : System}
    {earlier outcomes : List Outcome}
    (reached : trace step (fresh bucket start) before = some (first, earlier))
    (executes : trace step first window = some (last, outcomes)) :
    0 ≤ first.bucket.tokens ∧ first.bucket.tokens ≤ first.bucket.burst ∧
      (∀ reading, first.clock ≤ reading → (∀ action ∈ window, reading ≤ action.now) →
        granted outcomes ≤ first.bucket.tokensAvailable reading +
          accumulate step inflow { first with clock := reading } window) ∧
      ∀ (opening : ℤ) (duration : ℚ), 0 ≤ duration →
        (∀ action ∈ window, Keeps first.bucket.rate first.bucket.burst action) →
        (∀ action ∈ window,
          opening ≤ action.now ∧ seconds (action.now - opening) ≤ duration) →
        granted outcomes ≤ first.bucket.burst + first.bucket.rate * duration := by
  have sound : first.Sound :=
    trace_invariant reached Sound (fresh_sound created)
      fun _ _ _ _ kept taken => (step_paid kept taken).1
  refine ⟨sound.wellFormed.tokens_nonneg, sound.wellFormed.tokens_le, ?_, ?_⟩
  · intro reading later opens
    exact granted_le_tokensAvailable sound executes later opens
  · intro opening duration nonneg keeps within
    exact granted_le_burst sound executes keeps nonneg within

/-- Four tokens are left after the first call, so two threads that come back
within a tenth of a second are both served. -/
theorem granted_between_le_two_threads :
    ∃ bucket first last earlier outcomes,
      create 10 5 0 = some bucket ∧
      trace step (fresh bucket 0) [⟨0, .tryConsume, 0⟩] = some (first, earlier) ∧
      trace step first [⟨1, .consume, 50000000⟩, ⟨0, .tryConsume, 100000000⟩] =
        some (last, outcomes) ∧
      granted outcomes = 2 ∧
      granted outcomes ≤ first.bucket.tokensAvailable 20000000 +
        accumulate step inflow { first with clock := 20000000 }
          [⟨1, .consume, 50000000⟩, ⟨0, .tryConsume, 100000000⟩] := by
  have created : create 10 5 0 = some ⟨10, 5, 5, 0⟩ := by decide +kernel
  have evaluated :
      ((trace step (fresh ⟨10, 5, 5, 0⟩ 0) [⟨0, .tryConsume, 0⟩]).bind fun first =>
        (trace step first.1
          [⟨1, .consume, 50000000⟩, ⟨0, .tryConsume, 100000000⟩]).map fun last =>
            (first.1.clock, last.2)) = some (0, [.granted, .granted]) := by
    decide +kernel
  obtain ⟨⟨first, earlier⟩, reached, mapped⟩ :=
    Option.bind_eq_some_iff.mp evaluated
  obtain ⟨⟨last, outcomes⟩, executes, fields⟩ := Option.map_eq_some_iff.mp mapped
  simp only [Prod.mk.injEq] at fields
  obtain ⟨clockEq, rfl⟩ := fields
  exact ⟨_, first, last, earlier, _, created, reached, executes,
    by norm_num [granted, Outcome.grants],
    (granted_between_le created reached executes).2.2.1 20000000
      (by rw [clockEq]; decide) (by decide)⟩

/-- `tokens_` is settled by the granting calls only.  Five calls empty the bucket;
half a second later `tokens_available` reports five tokens and leaves `tokens_` at
zero, and five calls at that moment are served. -/
theorem granted_exceeds_tokens :
    ∃ bucket first last earlier outcomes,
      create 10 5 0 = some bucket ∧
      trace step (fresh bucket 0)
        (List.replicate 5 ⟨0, .tryConsume, 0⟩ ++ [⟨0, .tokensAvailable, 500000000⟩]) =
        some (first, earlier) ∧
      trace step first (List.replicate 5 ⟨0, .tryConsume, 500000000⟩) =
        some (last, outcomes) ∧
      first.bucket.tokens +
          accumulate step inflow first (List.replicate 5 ⟨0, .tryConsume, 500000000⟩) = 0 ∧
      granted outcomes = 5 := by
  have created : create 10 5 0 = some ⟨10, 5, 5, 0⟩ := by decide +kernel
  have evaluated :
      ((trace step (fresh ⟨10, 5, 5, 0⟩ 0)
        (List.replicate 5 ⟨0, .tryConsume, 0⟩ ++ [⟨0, .tokensAvailable, 500000000⟩])).bind
          fun first =>
            (trace step first.1 (List.replicate 5 ⟨0, .tryConsume, 500000000⟩)).map
              fun last => (first.1.bucket.tokens +
                accumulate step inflow first.1 (List.replicate 5 ⟨0, .tryConsume, 500000000⟩),
                last.2)) = some (0, List.replicate 5 .granted) := by
    decide +kernel
  obtain ⟨⟨first, earlier⟩, reached, mapped⟩ := Option.bind_eq_some_iff.mp evaluated
  obtain ⟨⟨last, outcomes⟩, executes, fields⟩ := Option.map_eq_some_iff.mp mapped
  simp only [Prod.mk.injEq] at fields
  obtain ⟨tokensEq, rfl⟩ := fields
  exact ⟨_, first, last, earlier, _, created, reached, executes, tokensEq,
    by norm_num [granted, Outcome.grants, List.replicate]⟩

end System

end Cppload.TokenBucket

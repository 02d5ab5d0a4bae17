import Cppload.TokenBucketProgress

/-!
# Polling a token bucket

Every critical section begins with a refill, and refilling in two steps is
refilling once.  So a bucket does not show how often it was looked at: when the
visits that change nothing but the time of the last refill are left out of a run,
all others are answered as before.
-/

namespace Cppload.TokenBucket

open Transition

/-- The critical sections: one turn of the loop of `consume`, an attempt to take a
token, the first part of `try_consume_for`, the two setters and the query. -/
inductive Operation where
  | consume
  | tryConsume
  | tryConsumeFor (timeout : ℚ)
  | setRate (rate : ℚ)
  | setBurst (burst : ℚ)
  | tokensAvailable
  deriving DecidableEq, Repr

structure Visit where
  operation : Operation
  now : ℤ
  deriving DecidableEq, Repr

/-- What a critical section answers, with the nanoseconds it waits for. -/
structure Reply where
  outcome : Outcome
  wait : Option ℤ
  deriving DecidableEq, Repr

def serve (bucket : TokenBucket) (visit : Visit) : Reply × TokenBucket :=
  let settled := bucket.refill visit.now
  match visit.operation with
  | .consume =>
      if settled.tokens < 1 then
        let wait := if 1 < settled.waitSeconds then 1 else settled.waitSeconds
        (⟨.parked, some (waitNanoseconds wait)⟩, settled)
      else (⟨.granted, none⟩, settled.take)
  | .tryConsume =>
      let result := bucket.tryConsume visit.now
      (⟨if result.1 then .granted else .denied, none⟩, result.2)
  | .tryConsumeFor timeout =>
      if 1 ≤ settled.tokens then (⟨.granted, none⟩, settled.take)
      else if timeout < settled.waitSeconds then (⟨.denied, none⟩, settled)
      else (⟨.parked, some (waitNanoseconds settled.waitSeconds)⟩, settled)
  | .setRate rate =>
      if rate ≤ 0 then (⟨.invalidArgument, none⟩, bucket)
      else (⟨.done, none⟩, bucket.setRate visit.now rate)
  | .setBurst burst =>
      if burst ≤ 0 then (⟨.invalidArgument, none⟩, bucket)
      else (⟨.done, none⟩, bucket.setBurst visit.now burst)
  | .tokensAvailable => (⟨.available (bucket.tokensAvailable visit.now), none⟩, bucket)

/-- One visit after the other. -/
def serveAll (bucket : TokenBucket) : List Visit → List Reply × TokenBucket
  | [] => ([], bucket)
  | visit :: rest =>
      let result := bucket.serve visit
      let later := serveAll result.2 rest
      (result.1 :: later.1, later.2)

/-- A failed `try_consume`, a `tokens_available`, or a setter that sets the
current value. -/
def Polls (bucket : TokenBucket) (visit : Visit) : Prop :=
  match visit.operation with
  | .tryConsume => (bucket.tryConsume visit.now).1 = false
  | .tokensAvailable => True
  | .setRate rate => rate = bucket.rate
  | .setBurst burst => burst = bucket.burst
  | _ => False

/-- Every visit is made, but only the marked ones are listened to. -/
def listen (bucket : TokenBucket) : List (Visit × Bool) → List Reply
  | [] => []
  | (visit, kept) :: rest =>
      let result := bucket.serve visit
      if kept then result.1 :: listen result.2 rest else listen result.2 rest

/-- The visits that are not marked are polls where they are made. -/
def OthersPoll (bucket : TokenBucket) : List (Visit × Bool) → Prop
  | [] => True
  | (visit, kept) :: rest =>
      (kept = false → bucket.Polls visit) ∧ OthersPoll (bucket.serve visit).2 rest

/-- The marked visits. -/
def keptVisits (marked : List (Visit × Bool)) : List Visit :=
  (marked.filter Prod.snd).map Prod.fst

/-! ### Critical sections -/

def Operation.call : Operation → Call
  | .consume => .consume
  | .tryConsume => .tryConsume
  | .tryConsumeFor timeout => .tryConsumeFor timeout
  | .setRate rate => .setRate rate
  | .setBurst burst => .setBurst burst
  | .tokensAvailable => .tokensAvailable

section Serve

variable {bucket : TokenBucket} {visit : Visit}

theorem serve_change (bucket : TokenBucket) (visit : Visit) :
    ∃ grants, Change bucket ⟨0, visit.operation.call, visit.now⟩ (bucket.serve visit).2 grants := by
  obtain ⟨operation, now⟩ := visit
  cases operation with
  | consume =>
      simp only [serve]
      split
      · exact ⟨0, .settled⟩
      · rename_i enough
        exact ⟨1, .taken (not_lt.mp enough)⟩
  | tryConsume =>
      simp only [serve, tryConsume]
      split
      · exact ⟨0, .settled⟩
      · rename_i enough
        exact ⟨1, .taken (not_lt.mp enough)⟩
  | tryConsumeFor timeout =>
      simp only [serve]
      split
      · rename_i enough
        exact ⟨1, .taken enough⟩
      · split <;> exact ⟨0, .settled⟩
  | setRate rate =>
      simp only [serve]
      split
      · exact ⟨0, .kept⟩
      · rename_i positive
        exact ⟨0, .rateSet rate rfl (lt_of_not_ge positive)⟩
  | setBurst burst =>
      simp only [serve]
      split
      · exact ⟨0, .kept⟩
      · rename_i positive
        exact ⟨0, .burstSet burst rfl (lt_of_not_ge positive)⟩
  | tokensAvailable => exact ⟨0, .kept⟩

/-- The bucket is well formed and was last refilled before the reading. -/
structure Settled (reading : ℤ) (bucket : TokenBucket) : Prop where
  wellFormed : bucket.WellFormed
  past : bucket.lastRefill ≤ reading

theorem Settled.later {reading now : ℤ} (settled : bucket.Settled reading)
    (later : reading ≤ now) : bucket.Settled now :=
  ⟨settled.wellFormed, settled.past.trans later⟩

theorem Settled.serve {reading : ℤ} (settled : bucket.Settled reading)
    (later : reading ≤ visit.now) : (bucket.serve visit).2.Settled visit.now := by
  obtain ⟨grants, change⟩ := serve_change bucket visit
  obtain ⟨formed, past, -⟩ := change.spec settled.wellFormed (settled.past.trans later)
  exact ⟨formed, past⟩

/-- What is cut off at the burst stays cut off. -/
theorem min_add_cut {burst level gained : ℚ} (nonneg : 0 ≤ gained) :
    min burst (min burst level + gained) = min burst (level + gained) := by
  rcases le_total burst level with full | room
  · rw [min_eq_left full, min_eq_left (by linarith), min_eq_left (by linarith)]
  · rw [min_eq_right room]

theorem tokensAvailable_refill {now later : ℤ} (settled : bucket.Settled now)
    (ordered : now ≤ later) :
    (bucket.refill now).tokensAvailable later = bucket.tokensAvailable later := by
  have formed := settled.wellFormed
  have refilled := formed.refill_wellFormed settled.past
  have lastEq := refill_lastRefill formed settled.past
  have gained := mul_nonneg (seconds_nonneg ordered) formed.rate_pos.le
  rw [refilled.tokensAvailable_eq_min (lastEq.le.trans ordered),
    formed.tokensAvailable_eq_min (settled.past.trans ordered), lastEq, refill_rate,
    refill_burst, refill_tokens formed settled.past,
    formed.tokensAvailable_eq_min settled.past, min_add_cut gained,
    seconds_between bucket.lastRefill now later, add_mul, add_comm (seconds (later - now) * _),
    add_assoc]

/-- Refilling in two steps is refilling once. -/
theorem refill_refill {now later : ℤ} (settled : bucket.Settled now) (ordered : now ≤ later) :
    (bucket.refill now).refill later = bucket.refill later := by
  have formed := settled.wellFormed
  have refilled := formed.refill_wellFormed settled.past
  have lastEq := refill_lastRefill formed settled.past
  rw [refilled.refill_eq (lastEq.le.trans ordered),
    formed.refill_eq (settled.past.trans ordered), tokensAvailable_refill settled ordered,
    refill_rate, refill_burst]

theorem setRate_self (bucket : TokenBucket) (now : ℤ) :
    bucket.setRate now bucket.rate = bucket.refill now := by
  rw [setRate, ← refill_rate bucket now]

theorem setBurst_self {now : ℤ} (settled : bucket.Settled now) :
    bucket.setBurst now bucket.burst = bucket.refill now := by
  have below := (settled.wellFormed.refill_wellFormed settled.past).tokens_le
  rw [setBurst, ← refill_burst bucket now]
  simp only [if_neg below.not_gt]

end Serve

/-! ### Buckets that look alike -/

/-- From the reading on, the buckets differ at most in how far they are refilled. -/
structure Agree (reading : ℤ) (first second : TokenBucket) : Prop where
  firstSettled : first.Settled reading
  secondSettled : second.Settled reading
  same : ∀ now, reading ≤ now → first.refill now = second.refill now

section Agree

variable {reading : ℤ} {bucket first second : TokenBucket} {visit : Visit}

theorem Agree.refl (settled : bucket.Settled reading) : Agree reading bucket bucket :=
  ⟨settled, settled, fun _ _ => rfl⟩

theorem Agree.trans {third : TokenBucket} (left : Agree reading first second)
    (right : Agree reading second third) : Agree reading first third :=
  ⟨left.firstSettled, right.secondSettled,
    fun now later => (left.same now later).trans (right.same now later)⟩

theorem Agree.later {now : ℤ} (agree : Agree reading first second) (later : reading ≤ now) :
    Agree now first second :=
  ⟨agree.firstSettled.later later, agree.secondSettled.later later,
    fun after ordered => agree.same after (later.trans ordered)⟩

theorem Agree.tokensAvailable {now : ℤ} (agree : Agree reading first second)
    (later : reading ≤ now) : first.tokensAvailable now = second.tokensAvailable now := by
  have firstSettled := agree.firstSettled.later later
  have secondSettled := agree.secondSettled.later later
  rw [← refill_tokens firstSettled.wellFormed firstSettled.past,
    ← refill_tokens secondSettled.wellFormed secondSettled.past, agree.same now later]

/-- Buckets that agree answer alike and agree afterwards. -/
theorem Agree.serve (agree : Agree reading first second) (later : reading ≤ visit.now) :
    (first.serve visit).1 = (second.serve visit).1 ∧
      Agree visit.now (first.serve visit).2 (second.serve visit).2 := by
  have settledEq := agree.same visit.now later
  have alike (equal : first.serve visit = second.serve visit) :
      (first.serve visit).1 = (second.serve visit).1 ∧
        Agree visit.now (first.serve visit).2 (second.serve visit).2 := by
    rw [equal]
    exact ⟨rfl, .refl (agree.secondSettled.serve later)⟩
  obtain ⟨operation, now⟩ := visit
  cases operation with
  | consume | tryConsume | tryConsumeFor timeout =>
      refine alike ?_
      simp only [TokenBucket.serve, TokenBucket.tryConsume, settledEq]
  | setRate rate =>
      by_cases refused : rate ≤ 0
      · simp only [TokenBucket.serve, refused, if_true]
        exact ⟨trivial, agree.later later⟩
      · refine alike ?_
        simp only [TokenBucket.serve, refused, if_false, TokenBucket.setRate, settledEq]
  | setBurst burst =>
      by_cases refused : burst ≤ 0
      · simp only [TokenBucket.serve, refused, if_true]
        exact ⟨trivial, agree.later later⟩
      · refine alike ?_
        simp only [TokenBucket.serve, refused, if_false, TokenBucket.setBurst, settledEq]
  | tokensAvailable =>
      simp only [TokenBucket.serve, agree.tokensAvailable later]
      exact ⟨trivial, agree.later later⟩

theorem Agree.of_refill (settled : bucket.Settled visit.now) :
    Agree visit.now (bucket.refill visit.now) bucket where
  firstSettled := ⟨settled.wellFormed.refill_wellFormed settled.past,
    (refill_lastRefill settled.wellFormed settled.past).le⟩
  secondSettled := settled
  same := fun _ ordered => refill_refill settled ordered

/-- A poll leaves a bucket that agrees with the one before. -/
theorem Polls.agree (polls : bucket.Polls visit) (settled : bucket.Settled visit.now) :
    Agree visit.now (bucket.serve visit).2 bucket := by
  have refilled := Agree.of_refill settled
  obtain ⟨operation, now⟩ := visit
  cases operation with
  | consume | tryConsumeFor timeout => exact polls.elim
  | tryConsume =>
      have failed : (bucket.tryConsume now).1 = false := polls
      have denied : (bucket.refill now).tokens < 1 :=
        not_le.mp ((tryConsume_granted_iff bucket now).not.mp (by simp [failed]))
      simpa [TokenBucket.serve, TokenBucket.tryConsume, denied] using refilled
  | setRate rate =>
      obtain rfl : rate = bucket.rate := polls
      simpa [TokenBucket.serve, settled.wellFormed.rate_pos.not_ge, setRate_self] using refilled
  | setBurst burst =>
      obtain rfl : burst = bucket.burst := polls
      by_cases refused : bucket.burst ≤ 0
      · simpa [TokenBucket.serve, refused] using Agree.refl settled
      · simpa [TokenBucket.serve, refused, setBurst_self settled] using refilled
  | tokensAvailable => exact .refl settled

end Agree

/-! ### Whole runs -/

section Runs

variable {reading : ℤ}

theorem listen_eq_serveAll {marked : List (Visit × Bool)} {polled left : TokenBucket}
    (agree : Agree reading polled left)
    (ordered : (reading :: marked.map fun entry => entry.1.now).IsChain (· ≤ ·))
    (others : polled.OthersPoll marked) :
    polled.listen marked = (left.serveAll (keptVisits marked)).1 := by
  induction marked generalizing reading polled left with
  | nil => rfl
  | cons entry rest ih =>
      obtain ⟨visit, kept⟩ := entry
      obtain ⟨later, remaining⟩ := List.isChain_cons_cons.mp ordered
      obtain ⟨poll, othersLater⟩ := others
      cases kept with
      | true =>
          obtain ⟨replyEq, agreeLater⟩ := agree.serve later
          have restEq := ih agreeLater remaining othersLater
          simp only [listen, keptVisits, serveAll, List.filter_cons, List.map_cons, if_true,
            replyEq, restEq]
      | false =>
          have polls := (poll rfl).agree (agree.firstSettled.later later)
          exact ih (polls.trans (agree.later later)) remaining othersLater

theorem serveAll_settled {visits : List Visit} {bucket : TokenBucket} {now : ℤ}
    (settled : bucket.Settled reading)
    (ordered : (reading :: visits.map Visit.now).IsChain (· ≤ ·)) (started : reading ≤ now)
    (past : ∀ visit ∈ visits, visit.now ≤ now) : (bucket.serveAll visits).2.Settled now := by
  induction visits generalizing reading bucket with
  | nil => exact settled.later started
  | cons visit rest ih =>
      obtain ⟨later, remaining⟩ := List.isChain_cons_cons.mp ordered
      exact ih (settled.serve later) remaining (past visit List.mem_cons_self)
        fun other member => past other (List.mem_cons_of_mem _ member)

/-- Leaving out polls changes no answer, and the level that is reported is at
least one exactly when a token can be taken. -/
theorem polling_changes_nothing {rate burst : ℚ} {start : ℤ} {bucket : TokenBucket}
    (created : create rate burst start = some bucket) {marked : List (Visit × Bool)}
    (ordered : (start :: marked.map fun entry => entry.1.now).IsChain (· ≤ ·)) :
    (bucket.OthersPoll marked →
      bucket.listen marked = (bucket.serveAll (keptVisits marked)).1) ∧
    ∀ now, start ≤ now → (∀ entry ∈ marked, entry.1.now ≤ now) →
      (1 ≤ (bucket.serveAll (marked.map Prod.fst)).2.tokensAvailable now ↔
        ((bucket.serveAll (marked.map Prod.fst)).2.tryConsume now).1 = true) := by
  have settled : bucket.Settled start :=
    ⟨create_wellFormed created, (create_lastRefill created).le⟩
  refine ⟨listen_eq_serveAll (.refl settled) ordered, ?_⟩
  intro now started past
  have reached : (bucket.serveAll (marked.map Prod.fst)).2.Settled now := by
    refine serveAll_settled settled ?_ started ?_
    · rw [List.map_map]
      exact ordered
    · intro visit member
      obtain ⟨entry, entryMember, rfl⟩ := List.mem_map.mp member
      exact past entry entryMember
  rw [tryConsume_granted_iff, refill_tokens reached.wellFormed reached.past]

/-- An empty bucket is polled twice before its next token is taken. -/
theorem polling_empty_bucket :
    ∃ bucket, create 2 1 0 = some bucket ∧
      bucket.OthersPoll [(⟨.tryConsume, 0⟩, true), (⟨.tryConsume, 100000000⟩, false),
        (⟨.setRate 2, 200000000⟩, false), (⟨.tryConsume, 500000000⟩, true)] ∧
      bucket.listen [(⟨.tryConsume, 0⟩, true), (⟨.tryConsume, 100000000⟩, false),
        (⟨.setRate 2, 200000000⟩, false), (⟨.tryConsume, 500000000⟩, true)] =
      (bucket.serveAll [⟨.tryConsume, 0⟩, ⟨.tryConsume, 500000000⟩]).1 := by
  have created : create 2 1 0 = some ⟨2, 1, 1, 0⟩ := by decide +kernel
  have others : OthersPoll ⟨2, 1, 1, 0⟩ [(⟨.tryConsume, 0⟩, true),
      (⟨.tryConsume, 100000000⟩, false), (⟨.setRate 2, 200000000⟩, false),
      (⟨.tryConsume, 500000000⟩, true)] := by
    refine ⟨by simp, fun _ => ?_, fun _ => ?_, by simp, trivial⟩
    · change _ = false
      decide +kernel
    · change _ = _
      decide +kernel
  exact ⟨_, created, others, (polling_changes_nothing created (by decide)).1 others⟩

end Runs

/-! ### The visits of a schedule -/

namespace System

variable {system after : System} {action : Action} {outcome : Outcome}

/-- The step's answer and bucket are those of a visit. -/
def Visits (system : System) (action : Action) (result : System × Outcome) : Prop :=
  ∃ operation, (system.bucket.serve ⟨operation, action.now⟩).1.outcome = result.2 ∧
    (system.bucket.serve ⟨operation, action.now⟩).2 = result.1.bucket

theorem consumeFrom_visits (system : System) (action : Action) :
    system.Visits action (system.consumeFrom action) := by
  refine ⟨.consume, ?_⟩
  simp only [serve, consumeFrom]
  split <;> exact ⟨rfl, rfl⟩

theorem attempt_visits (system : System) (action : Action) :
    system.Visits action (system.attempt action) :=
  ⟨.tryConsume, rfl, rfl⟩

theorem tryConsumeForFrom_visits (system : System) (action : Action) (timeout : ℚ) :
    system.Visits action (system.tryConsumeForFrom action timeout) := by
  refine ⟨.tryConsumeFor timeout, ?_⟩
  simp only [serve, tryConsumeForFrom]
  split
  · exact ⟨rfl, rfl⟩
  · split <;> exact ⟨rfl, rfl⟩

/-- Every step of the threads is one visit. -/
theorem step_visits {result : System × Outcome} (taken : system.step action = some result) :
    system.Visits action result := by
  obtain ⟨-, entered⟩ := step_criticalSection taken
  cases entered with
  | consumed => exact consumeFrom_visits system action
  | attempted => exact attempt_visits system action
  | triedFor timeout => exact tryConsumeForFrom_visits system action timeout
  | rateRefused rate nonpositive =>
      refine ⟨.setRate rate, ?_⟩
      simp only [serve, if_pos nonpositive, and_self]
  | rateSet rate called positive =>
      refine ⟨.setRate rate, ?_⟩
      simp only [serve, if_neg positive.not_ge, true_and]
      rfl
  | burstRefused burst nonpositive =>
      refine ⟨.setBurst burst, ?_⟩
      simp only [serve, if_pos nonpositive, and_self]
  | burstSet burst called positive =>
      refine ⟨.setBurst burst, ?_⟩
      simp only [serve, if_neg positive.not_ge, true_and]
      rfl
  | reported => exact ⟨.tokensAvailable, rfl, rfl⟩

theorem trace_serveAll {actions : List Action} {outcomes : List Outcome}
    (executes : trace step system actions = some (after, outcomes)) :
    ∃ visits, visits.map Visit.now = actions.map Action.now ∧
      (system.bucket.serveAll visits).1.map Reply.outcome = outcomes ∧
      (system.bucket.serveAll visits).2 = after.bucket := by
  induction actions generalizing system outcomes with
  | nil =>
      cases executes
      exact ⟨[], rfl, rfl, rfl⟩
  | cons action rest ih =>
      obtain ⟨next, outcome, later, taken, remaining, rfl⟩ := trace_cons executes
      obtain ⟨operation, outcomeEq, bucketEq⟩ := step_visits taken
      obtain ⟨visits, readings, outcomesEq, lastEq⟩ := ih remaining
      refine ⟨⟨operation, action.now⟩ :: visits, ?_, ?_, ?_⟩
      · rw [List.map_cons, List.map_cons, readings]
      · simp only [serveAll, List.map_cons, outcomeEq, bucketEq, outcomesEq]
      · simp only [serveAll, bucketEq, lastEq]

end System

end Cppload.TokenBucket

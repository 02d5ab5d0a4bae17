import Cppload.TransitionSystem

/-!
# The shared token bucket

`TokenBucket` is one mutex, one condition variable and four fields.  This file
translates its critical sections and puts them under any number of calling
threads.  Arithmetic is exact: the `double` fields are rationals and clock
readings are whole nanoseconds of the steady clock.

A call that has to wait leaves its critical section inside `cv_.wait_for` and
comes back in a later one, so `consume` and `tryConsumeFor` take several steps.
When the computed wait is zero nanoseconds the lock is not released; the
`holder` field keeps every other thread out until that call moves on.
-/

namespace Cppload

/-- The fields of `TokenBucket`; `lastRefill` is a steady-clock reading. -/
structure TokenBucket where
  rate : ℚ
  burst : ℚ
  tokens : ℚ
  lastRefill : ℤ
  deriving DecidableEq, Repr

namespace TokenBucket

/-- `std::chrono::duration<double>` of a number of nanoseconds. -/
def seconds (nanoseconds : ℤ) : ℚ :=
  nanoseconds / 1000000000

/-- The constructor.  A burst that is not positive is replaced by the rate, and
a rate that is not positive throws. -/
def create (rate burst : ℚ) (now : ℤ) : Option TokenBucket :=
  if rate ≤ 0 then
    none
  else
    let size := if 0 < burst then burst else rate
    some { rate := rate, burst := size, tokens := size, lastRefill := now }

/-- `TokenBucket::refill` at the clock reading `now`. -/
def refill (bucket : TokenBucket) (now : ℤ) : TokenBucket :=
  let elapsed := seconds (now - bucket.lastRefill)
  if 0 < elapsed then
    let grown := bucket.tokens + elapsed * bucket.rate
    { bucket with
      tokens := if bucket.burst < grown then bucket.burst else grown
      lastRefill := now }
  else
    bucket

/-- The locked part of `set_rate`. -/
def setRate (bucket : TokenBucket) (now : ℤ) (rate : ℚ) : TokenBucket :=
  { bucket.refill now with rate := rate }

/-- The locked part of `set_burst`. -/
def setBurst (bucket : TokenBucket) (now : ℤ) (burst : ℚ) : TokenBucket :=
  let settled := bucket.refill now
  { settled with
    burst := burst
    tokens := if burst < settled.tokens then burst else settled.tokens }

/-- `tokens_ -= 1.0`. -/
def take (bucket : TokenBucket) : TokenBucket :=
  { bucket with tokens := bucket.tokens - 1 }

/-- `TokenBucket::try_consume`. -/
def tryConsume (bucket : TokenBucket) (now : ℤ) : Bool × TokenBucket :=
  let settled := bucket.refill now
  if settled.tokens < 1 then (false, settled) else (true, settled.take)

/-- `TokenBucket::tokens_available`, which reads the clock but settles
nothing. -/
def tokensAvailable (bucket : TokenBucket) (now : ℤ) : ℚ :=
  let available := bucket.tokens + seconds (now - bucket.lastRefill) * bucket.rate
  if bucket.burst < available then bucket.burst
  else if available < 0 then 0 else available

/-- `deficit / rate_`: the time in which the missing part of a token arrives. -/
def waitSeconds (bucket : TokenBucket) : ℚ :=
  (1 - bucket.tokens) / bucket.rate

/-- `static_cast<int64_t>(wait_sec * 1'000'000'000)`. -/
def waitNanoseconds (wait : ℚ) : ℤ :=
  ⌊wait * 1000000000⌋

/-- What a calling thread is in the middle of: nothing, or one of the two
waiting calls parked until `wakeAt`. -/
inductive Thread where
  | idle
  | consuming (wakeAt : ℤ)
  | tryingFor (wakeAt : ℤ)
  deriving DecidableEq, Repr

/-- The public calls, and the return of a parked call from `cv_.wait_for`. -/
inductive Call where
  | consume
  | tryConsume
  | tryConsumeFor (timeout : ℚ)
  | setRate (rate : ℚ)
  | setBurst (burst : ℚ)
  | tokensAvailable
  | wake
  deriving DecidableEq, Repr

/-- What a critical section gives back to its caller. -/
inductive Outcome where
  | granted
  | denied
  | parked
  | done
  | available (tokens : ℚ)
  | invalidArgument
  deriving DecidableEq, Repr

/-- Tokens handed out by one critical section. -/
def Outcome.grants : Outcome → ℕ
  | granted => 1
  | _ => 0

/-- The bucket with its callers.  `clock` is the latest clock reading and
`holder` the thread that kept the mutex across a wait of zero nanoseconds. -/
structure System where
  bucket : TokenBucket
  clock : ℤ
  holder : Option ℕ
  threads : ℕ → Thread

/-- One critical section: thread `thread` runs `call` at clock reading `now`. -/
structure Action where
  thread : ℕ
  call : Call
  now : ℤ
  deriving DecidableEq, Repr

namespace System

/-- A new bucket that no thread is using. -/
def fresh (bucket : TokenBucket) (now : ℤ) : System where
  bucket := bucket
  clock := now
  holder := none
  threads := fun _ => .idle

/-- The mutex is free, or `thread` already has it. -/
def mayEnter (system : System) (thread : ℕ) : Bool :=
  system.holder = none || system.holder = some thread

/-- Store the bucket and the caller's new situation. -/
def settle (system : System) (action : Action) (bucket : TokenBucket)
    (thread : Thread) (holder : Option ℕ) : System where
  bucket := bucket
  clock := action.now
  holder := holder
  threads := Function.update system.threads action.thread thread

/-- Leave the critical section waiting for `wait` nanoseconds.  A wait of zero
keeps the mutex. -/
def park (system : System) (action : Action) (bucket : TokenBucket)
    (thread : ℤ → Thread) (wait : ℤ) : System :=
  system.settle action bucket (thread (action.now + wait))
    (if 0 < wait then none else some action.thread)

/-- The loop of `consume` from a `refill` on: take a token, or wait for at most
a second. -/
def consumeFrom (system : System) (action : Action) : System × Outcome :=
  let settled := system.bucket.refill action.now
  if settled.tokens < 1 then
    let wait := if 1 < settled.waitSeconds then 1 else settled.waitSeconds
    (system.park action settled .consuming (waitNanoseconds wait), .parked)
  else
    (system.settle action settled.take .idle none, .granted)

/-- The first part of `try_consume_for`. -/
def tryConsumeForFrom (system : System) (action : Action) (timeout : ℚ) :
    System × Outcome :=
  let settled := system.bucket.refill action.now
  if 1 ≤ settled.tokens then
    (system.settle action settled.take .idle none, .granted)
  else if timeout < settled.waitSeconds then
    (system.settle action settled .idle none, .denied)
  else
    (system.park action settled .tryingFor (waitNanoseconds settled.waitSeconds),
      .parked)

/-- A refill followed by one attempt: `try_consume`, and `try_consume_for` once
its wait is over. -/
def attempt (system : System) (action : Action) : System × Outcome :=
  let result := system.bucket.tryConsume action.now
  (system.settle action result.2 .idle none,
    if result.1 then .granted else .denied)

/-- `wait_for` returns once its predicate `tokens_ >= 1.0` holds or its time is
over. -/
def mayWake (system : System) (now wakeAt : ℤ) : Bool :=
  1 ≤ system.bucket.tokens || wakeAt ≤ now

/-- A call by a thread that is not parked. -/
def callStep (system : System) (action : Action) : Option (System × Outcome) :=
  match action.call with
  | .consume => some (system.consumeFrom action)
  | .tryConsume => some (system.attempt action)
  | .tryConsumeFor timeout => some (system.tryConsumeForFrom action timeout)
  | .setRate rate =>
      if rate ≤ 0 then
        some ({ system with clock := action.now }, .invalidArgument)
      else
        some (system.settle action (system.bucket.setRate action.now rate)
          .idle none, .done)
  | .setBurst burst =>
      if burst ≤ 0 then
        some ({ system with clock := action.now }, .invalidArgument)
      else
        some (system.settle action (system.bucket.setBurst action.now burst)
          .idle none, .done)
  | .tokensAvailable =>
      some ({ system with clock := action.now },
        .available (system.bucket.tokensAvailable action.now))
  | .wake => none

/-- The return of a parked call. -/
def wakeStep (system : System) (action : Action) : Option (System × Outcome) :=
  match action.call, system.threads action.thread with
  | .wake, .consuming wakeAt =>
      if system.mayWake action.now wakeAt then
        some (system.consumeFrom action)
      else none
  | .wake, .tryingFor wakeAt =>
      if system.mayWake action.now wakeAt then
        some (system.attempt action)
      else none
  | _, _ => none

/-- One critical section of one thread.  Clock readings never decrease. -/
def step (system : System) (action : Action) : Option (System × Outcome) :=
  if action.now < system.clock then none
  else if system.mayEnter action.thread then
    if system.threads action.thread = .idle then system.callStep action
    else system.wakeStep action
  else none

end System

end TokenBucket

end Cppload

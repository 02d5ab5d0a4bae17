import Cppload.DirectModeRequests

/-!
# Pacing in direct mode

The slots of a thread of `run_direct` are a fixed period apart, whatever its requests take;
a thread that is late sends without waiting until it has caught up.  The bucket bounds all
threads together.  A signal ends the waits, and the threads that waited still send.
-/

namespace Cppload.Direct

open Transition
open Engine (wrap64 firstSlotAt Fits64)

/-! ## Slots -/

namespace Args

variable (args : Args)

theorem concurrency_bounds :
    1 ≤ args.concurrency ∧ args.concurrency ≤ 64 ∧ args.concurrency ≤ args.rps := by
  have rate := args.rps_pos
  simp only [concurrency]
  split <;> split <;> omega

theorem period_bounds : 1 ≤ args.period ∧ args.period ≤ 1000000000 := by
  obtain ⟨-, few, below⟩ := args.concurrency_bounds
  have quotient : args.concurrency * 1000000000 / args.rps ≤ 1000000000 :=
    Nat.div_le_of_le_mul (Nat.mul_le_mul_right _ below)
  rw [period, Engine.slotPeriod_eq (by omega) args.rps_pos]
  omega

/-- The first slot of a thread is within a period of its start. -/
theorem firstSlot_bounds {number : ℕ} {now : ℤ} (below : number < args.concurrency)
    (nonneg : 0 ≤ now) (small : now < 2 ^ 62) :
    now ≤ firstSlotAt now args.period number args.concurrency ∧
      firstSlotAt now args.period number args.concurrency ≤ now + args.period := by
  obtain ⟨-, few, -⟩ := args.concurrency_bounds
  obtain ⟨positive, short⟩ := args.period_bounds
  have product : args.period * (number : ℤ) < 2 ^ 63 := by
    have grown := mul_le_mul_of_nonneg_right short (Int.natCast_nonneg number)
    omega
  obtain ⟨-, low, high⟩ := Engine.slotFits_of_lt (by omega) args.rps_pos below product
  have fits : Fits64 (now + Engine.phaseOffset args.period number args.concurrency) := by
    rw [period] at positive short ⊢
    exact ⟨by omega, by omega⟩
  rw [Engine.firstSlotAt_eq, Engine.wrap64_eq_self fits]
  rw [period] at *
  omega

end Args

namespace WorkerPc

/-- The thread has begun a slot in which it may still send. -/
def reserves : WorkerPc → Bool
  | .sleepClock | .sleepStopped | .spinClock | .spinStopped | .slotDeadline | .consuming
  | .preparing | .issuing => true
  | _ => false

/-- The slot of the thread has come, unless a signal cut the wait short. -/
def due : WorkerPc → Bool
  | .loopTest | .slotDeadline | .consuming | .preparing | .issuing | .doneTest | .stopTest
  | .serving | .handling false => true
  | _ => false

/-- The thread has not set its locals, or an exception ended it. -/
def outside : WorkerPc → Bool
  | .starting | .catching | .finished true => true
  | _ => false

theorem of_waits {pc : WorkerPc} (waiting : pc.waits) :
    pc.reserves = true ∧ pc.due = false ∧ pc.outside = false ∧ pc ≠ .deadlineTest ∧
      pc ≠ .starting := by
  cases pc with
  | sleepClock | sleepStopped | spinClock | spinStopped => decide
  | _ => cases waiting

end WorkerPc

namespace Worker

/-- The slots of a thread lie a period apart, and it has sent at most one request in each
that has come. -/
structure Paced (args : Args) (start now : ℤ) (stopped : Bool) (worker : Worker) : Prop where
  number_lt : worker.number < args.concurrency
  fresh : worker.pc = .starting → worker.slots = 0
  begun : worker.pc.outside ∧ worker.issued = 0 ∨ worker.slotPeriod = args.period ∧
    start ≤ worker.origin ∧ worker.origin ≤ now + args.period
  next_eq : worker.nextSlot = worker.origin + ((worker.slots - 1 : ℕ) : ℤ) * worker.slotPeriod
  first_iff : worker.firstSlot = true ↔ worker.slots = 0
  used : worker.issued + (if worker.pc.reserves then 1 else 0) ≤ worker.slots
  ready : worker.pc = .deadlineTest → worker.slots ≤ 1 ∨ worker.nextSlot ≤ now
  waited : worker.pc.due → worker.slots ≤ 1 ∨ worker.nextSlot ≤ now ∨ stopped = true
  paced : worker.issued ≤ 1 ∨
    worker.origin + ((worker.issued - 1 : ℕ) : ℤ) * worker.slotPeriod ≤ now ∨ stopped = true

namespace Paced

variable {args : Args} {start now : ℤ} {stopped : Bool} {worker : Worker}

theorem spawned {number : ℕ} (below : number < args.concurrency) :
    (Worker.spawned number).Paced args start now stopped where
  number_lt := below
  fresh _ := rfl
  begun := .inl ⟨rfl, rfl⟩
  next_eq := by simp [Worker.spawned]
  first_iff := by simp [Worker.spawned]
  used := by simp [Worker.spawned, WorkerPc.reserves]
  ready := by rintro ⟨⟩
  waited := by rintro ⟨⟩
  paced := .inl (Nat.zero_le _)

/-- Time passes, or the flag is set. -/
theorem later {reading : ℤ} {flag : Bool} (paced : worker.Paced args start now stopped)
    (ordered : now ≤ reading) (set : stopped = true → flag = true) :
    worker.Paced args start reading flag where
  number_lt := paced.number_lt
  fresh := paced.fresh
  begun := paced.begun.imp_right fun ⟨periodEq, low, high⟩ => ⟨periodEq, low, by linarith⟩
  next_eq := paced.next_eq
  first_iff := paced.first_iff
  used := paced.used
  ready located := (paced.ready located).imp_right fun reached => reached.trans ordered
  waited due := (paced.waited due).imp_right
    fun reached => reached.imp (fun reached => reached.trans ordered) set
  paced := paced.paced.imp_right
    fun reached => reached.imp (fun reached => reached.trans ordered) set

/-- Control flow within a slot or out of the loop. -/
theorem goto (paced : worker.Paced args start now stopped) {pc : WorkerPc}
    (moved : pc ≠ .starting)
    (outside : worker.pc.outside → worker.issued = 0 → pc.outside)
    (reserves : pc.reserves → worker.pc.reserves)
    (ready : pc = .deadlineTest → worker.slots ≤ 1 ∨ worker.nextSlot ≤ now)
    (waited : pc.due → worker.slots ≤ 1 ∨ worker.nextSlot ≤ now ∨ stopped = true) :
    (worker.goto pc).Paced args start now stopped where
  number_lt := paced.number_lt
  fresh located := absurd located moved
  begun := paced.begun.imp_left fun ⟨out, idle⟩ => ⟨outside out idle, idle⟩
  next_eq := paced.next_eq
  first_iff := paced.first_iff
  used := by
    refine le_trans (Nat.add_le_add_left ?_ _) paced.used
    by_cases begins : pc.reserves
    · exact ((if_pos begins).trans (if_pos (reserves begins)).symm).le
    · exact (if_neg begins).trans_le (Nat.zero_le _)
  ready := ready
  waited := waited
  paced := paced.paced

end Paced

section Moves

variable {args : Args} {start : ℤ} {system next : System} {worker after : Worker}

theorem Paced.begin (paced : worker.Paced args start system.now system.stopped)
    (located : worker.pc = .starting) (nonneg : 0 ≤ system.now) (ordered : start ≤ system.now)
    (small : system.now < 2 ^ 62) :
    (worker.begin args system.now).Paced args start system.now system.stopped := by
  have fresh := paced.fresh located
  have used := paced.used
  obtain ⟨low, high⟩ := args.firstSlot_bounds paced.number_lt nonneg small
  refine ⟨paced.number_lt, by rintro ⟨⟩, .inr ⟨rfl, ordered.trans low, high⟩, ?_,
    paced.first_iff, ?_, by rintro ⟨⟩, fun _ => .inl ?_, .inl ?_⟩
  · simp [Worker.begin, fresh]
  · exact le_trans (Nat.le_add_right _ _) used
  · simp [Worker.begin, fresh]
  · simp only [Worker.begin]
    omega

/-- The next slot is a period after the last one, within 64 bits. -/
theorem Paced.advance (paced : worker.Paced args start system.now system.stopped)
    (located : worker.pc = .deadlineTest) (later : worker.firstSlot = false)
    (nonneg : 0 ≤ start) (small : system.now < 2 ^ 62) {pc : WorkerPc}
    (reached : pc.waits ∨
      pc = .consuming ∧ wrap64 (worker.nextSlot + worker.slotPeriod) ≤ system.now) :
    Paced args start system.now system.stopped
      { worker with
        nextSlot := wrap64 (worker.nextSlot + worker.slotPeriod)
        slots := worker.slots + 1
        pc := pc } := by
  obtain ⟨positive, short⟩ := args.period_bounds
  have nonzero : worker.slots ≠ 0 := fun unused => by
    rw [paced.first_iff.mpr unused] at later
    cases later
  obtain ⟨periodEq, low, high⟩ : worker.slotPeriod = args.period ∧
      start ≤ worker.origin ∧ worker.origin ≤ system.now + args.period :=
    paced.begun.resolve_left (by rw [located]; rintro ⟨⟨⟩, -⟩)
  have next_eq := paced.next_eq
  rw [periodEq] at next_eq
  have passed : 0 ≤ ((worker.slots - 1 : ℕ) : ℤ) * args.period :=
    mul_nonneg (Int.natCast_nonneg _) (by omega)
  have soon : worker.nextSlot ≤ system.now + args.period := by
    rcases paced.ready located with one | reached
    · rw [next_eq, show worker.slots - 1 = 0 by omega]
      simpa using high
    · omega
  have sumEq : wrap64 (worker.nextSlot + worker.slotPeriod) =
      worker.nextSlot + args.period := by
    rw [periodEq]
    exact Engine.wrap64_eq_self ⟨by omega, by omega⟩
  have pcFacts : pc.reserves = true ∧ pc.outside = false ∧ pc ≠ .deadlineTest ∧
      pc ≠ .starting ∧ (pc.due → worker.nextSlot + args.period ≤ system.now) := by
    rcases reached with waits | ⟨rfl, come⟩
    · obtain ⟨reserves, due, outside, apart, moved⟩ := WorkerPc.of_waits waits
      exact ⟨reserves, outside, apart, moved, by simp [due]⟩
    · exact ⟨rfl, rfl, by decide, by decide, fun _ => by rwa [sumEq] at come⟩
  obtain ⟨reserves, -, apart, moved, come⟩ := pcFacts
  refine ⟨paced.number_lt, fun located => absurd located moved, .inr ⟨periodEq, low, high⟩, ?_,
    ?_, ?_, fun located => absurd located apart, fun due => .inr (.inl ?_), paced.paced⟩
  · dsimp only
    rw [sumEq, next_eq, periodEq, Nat.add_sub_cancel]
    obtain ⟨earlier, slotsEq⟩ := Nat.exists_eq_succ_of_ne_zero nonzero
    rw [slotsEq, Nat.succ_eq_add_one, Nat.add_sub_cancel]
    push_cast
    ring
  · simp [later]
  · have old := paced.used
    simp only [reserves, if_true]
    omega
  · dsimp only
    rw [sumEq]
    exact come due

/-- A request is sent in a slot of its own. -/
theorem Paced.issue (paced : worker.Paced args start system.now system.stopped)
    (located : worker.pc = .issuing) (immediate : Bool) :
    (worker.issue immediate).Paced args start system.now system.stopped := by
  have used := paced.used
  rw [located] at used
  simp only [WorkerPc.reserves, if_true] at used
  obtain ⟨periodEq, low, high⟩ : worker.slotPeriod = args.period ∧
      start ≤ worker.origin ∧ worker.origin ≤ system.now + args.period :=
    paced.begun.resolve_left (by rw [located]; rintro ⟨⟨⟩, -⟩)
  have waited := paced.waited (by rw [located]; rfl)
  have sent : worker.issued + 1 ≤ 1 ∨
      worker.origin + ((worker.issued + 1 - 1 : ℕ) : ℤ) * worker.slotPeriod ≤ system.now ∨
        system.stopped = true := by
    rcases waited with one | come | stopped
    · exact .inl (by omega)
    · refine .inr (.inl (le_trans ?_ come))
      rw [paced.next_eq]
      have fewer : ((worker.issued + 1 - 1 : ℕ) : ℤ) ≤ ((worker.slots - 1 : ℕ) : ℤ) := by omega
      have nonneg : 0 ≤ worker.slotPeriod := by
        rw [periodEq]
        have positive := args.period_bounds.1
        omega
      have products := mul_le_mul_of_nonneg_right fewer nonneg
      omega
    · exact .inr (.inr stopped)
  cases immediate with
  | true | false =>
      exact ⟨paced.number_lt, by rintro ⟨⟩, .inr ⟨periodEq, low, high⟩, paced.next_eq,
        paced.first_iff, used, by rintro ⟨⟩, fun _ => waited, sent⟩

theorem Moves.keeps_paced (moves : Moves args system worker next after)
    (paced : worker.Paced args start system.now system.stopped) (nonneg : 0 ≤ start)
    (ordered : start ≤ system.now) (small : system.now < 2 ^ 62) :
    after.Paced args start system.now system.stopped := by
  -- leaving the loop, or going on in it from a place where the slot has come
  have exit {pc : WorkerPc} (moved : pc ≠ .starting)
      (outside : worker.pc.outside → worker.issued = 0 → pc.outside)
      (reserves : pc.reserves = false) (apart : pc ≠ .deadlineTest) (due : pc.due = false) :
      (worker.goto pc).Paced args start system.now system.stopped :=
    paced.goto moved outside (by simp [reserves]) (fun located => absurd located apart)
      (by simp [due])
  have within {pc : WorkerPc} (moved : pc ≠ .starting) (inside : worker.pc.outside = false)
      (reserves : pc.reserves → worker.pc.reserves) (apart : pc ≠ .deadlineTest)
      (due : worker.pc.due) : (worker.goto pc).Paced args start system.now system.stopped :=
    paced.goto moved (by simp [inside]) reserves (fun located => absurd located apart)
      fun _ => paced.waited due
  cases moves with
  | began located => exact paced.begin located (nonneg.trans ordered) ordered small
  | threw => exact exit (by decide) (fun _ _ => rfl) rfl (by decide) rfl
  | counted => exact exit (by decide) (fun _ _ => rfl) rfl (by decide) rfl
  | entered located running =>
      refine paced.goto (by decide) (by simp [located, WorkerPc.outside]) (by rintro ⟨⟩)
        (fun _ => ?_) (by rintro ⟨⟩)
      exact (paced.waited (by rw [located]; rfl)).imp_right
        fun reached => reached.resolve_right (by simp [running])
  | halted located =>
      exact exit (by decide) (by simp [located, WorkerPc.outside]) rfl (by decide) rfl
  | expired located =>
      refine exit (by decide) ?_ rfl (by decide) rfl
      rcases located with located | located <;> simp [located, WorkerPc.outside]
  | opened located first =>
      have unused := paced.first_iff.mp first
      have used := paced.used
      have begun := paced.begun.resolve_left (by rw [located]; rintro ⟨⟨⟩, -⟩)
      have next_eq := paced.next_eq
      rw [unused] at next_eq
      refine ⟨paced.number_lt, by rintro ⟨⟩, .inr begun, ?_, ?_, ?_, by rintro ⟨⟩,
        fun _ => .inl ?_, paced.paced⟩
      · simpa [unused] using next_eq
      · simp
      · simp only [WorkerPc.reserves, if_true]
        omega
      · dsimp only
        omega
  | advanced located later reached => exact paced.advance located later nonneg small reached
  | waited waits reached =>
      obtain ⟨reserves, -, outside, -⟩ := WorkerPc.of_waits waits
      obtain ⟨-, due, -, apart, moved⟩ := WorkerPc.of_waits reached
      exact paced.goto moved (by simp [outside]) (fun _ => reserves)
        (fun located => absurd located apart) (by simp [due])
  | woke waits come =>
      obtain ⟨reserves, -, outside, -⟩ := WorkerPc.of_waits waits
      exact paced.goto (by decide) (by simp [outside]) (fun _ => reserves) (by rintro ⟨⟩)
        fun _ => .inr come
  | punctual located | granted located | prepared located =>
      exact within (by decide) (by rw [located]; rfl) (fun _ => by rw [located]; rfl)
        (by decide) (by rw [located]; rfl)
  | denied located | answered located | unanswered located | interrupted located
  | continued located | served located =>
      exact within (by decide) (by rw [located]; rfl) (by rintro ⟨⟩) (by decide)
        (by rw [located]; rfl)
  | issued immediate located => exact paced.issue located immediate
  | @completed drains located =>
      cases drains with
      | true =>
          have kept : (worker.goto (.handling true)).Paced args start system.now system.stopped :=
            exit (by decide)
            (by simp [located, WorkerPc.outside]) rfl (by decide) rfl
          exact { kept with }
      | false =>
          have kept : (worker.goto (.handling false)).Paced args start system.now system.stopped :=
            within (by decide) (by rw [located]; rfl)
            (by rintro ⟨⟩) (by decide) (by rw [located]; rfl)
          exact { kept with }
  | @handled drains located =>
      cases drains with
      | true =>
          have kept : (worker.goto (.draining)).Paced args start system.now system.stopped :=
            exit (by decide)
            (by simp [located, WorkerPc.outside]) rfl (by decide) rfl
          exact { kept with }
      | false =>
          have kept : (worker.goto (.doneTest)).Paced args start system.now system.stopped :=
            within (by decide) (by rw [located]; rfl)
            (by rintro ⟨⟩) (by decide) (by rw [located]; rfl)
          exact { kept with }
  | pumped => exact paced
  | drained located =>
      exact exit (by decide) (by simp [located, WorkerPc.outside]) rfl (by decide) rfl

end Moves

end Worker

/-! ## Tokens -/

namespace WorkerPc

/-- 1 between the token and the request. -/
def sends : WorkerPc → ℕ
  | .preparing | .issuing => 1
  | _ => 0

theorem sends_of_waits {pc : WorkerPc} (waiting : pc.waits) : pc.sends = 0 := by
  cases pc with
  | preparing | issuing => cases waiting
  | _ => rfl

end WorkerPc

namespace Worker

/-- The tokens that the thread has taken for requests, sent or still to be sent. -/
def claims (worker : Worker) : ℕ :=
  worker.issued + worker.pc.sends

variable {args : Args} {system next : System} {worker after : Worker}

theorem claims_le_of_idle (same : after.issued = worker.issued) (idle : after.pc.sends = 0) :
    after.claims ≤ worker.claims := by
  unfold claims
  omega

theorem claims_issue (located : worker.pc = .issuing) (immediate : Bool) :
    (worker.issue immediate).claims = worker.claims := by
  cases immediate <;> simp [issue, complete, claims, WorkerPc.sends, located]

/-- A request is paid for with a token of the bucket. -/
theorem Moves.claims_le (moves : Moves args system worker next after) :
    ∃ grants, system.bucket.Change ⟨0, .tryConsume, system.now⟩ next.bucket grants ∧
      after.claims ≤ worker.claims + grants := by
  cases moves with
  | granted located enough =>
      exact ⟨1, .taken enough, by simp [claims, goto, WorkerPc.sends, located]⟩
  | denied located => exact ⟨0, .settled, claims_le_of_idle rfl rfl⟩
  | prepared located =>
      exact ⟨0, .kept, by simp [claims, goto, WorkerPc.sends, located]⟩
  | issued immediate located => exact ⟨0, .kept, (claims_issue located immediate).le⟩
  | waited _ reached =>
      exact ⟨0, .kept, claims_le_of_idle rfl (WorkerPc.sends_of_waits reached)⟩
  | advanced _ _ reached =>
      refine ⟨0, .kept, claims_le_of_idle rfl ?_⟩
      rcases reached with waits | ⟨rfl, -⟩
      · exact WorkerPc.sends_of_waits waits
      · rfl
  | @handled drains => cases drains <;> exact ⟨0, .kept, claims_le_of_idle rfl rfl⟩
  | pumped => exact ⟨0, .kept, le_rfl⟩
  | _ => exact ⟨0, .kept, claims_le_of_idle rfl rfl⟩

end Worker

namespace System

variable {args : Args} {system after : System} {start : ℤ}

/-- The tokens taken and those in the bucket came with the bucket or with the time. -/
structure Metered (args : Args) (start : ℤ) (system : System) : Prop where
  wellFormed : system.bucket.WellFormed
  rate_eq : system.bucket.rate = args.rps
  settled : system.bucket.lastRefill ≤ system.now
  paid : ((system.workers.map Worker.claims).sum : ℚ) + system.bucket.tokensAvailable system.now ≤
    max 100 (args.rps : ℚ) + args.rps * TokenBucket.seconds (system.now - start)

theorem Metered.step (metered : system.Metered args start) (steps : Steps args system after) :
    after.Metered args start := by
  cases steps with
  | joins | joinedAll | returns | signals =>
      exact ⟨metered.wellFormed, metered.rate_eq, metered.settled, metered.paid⟩
  | @ticks now later =>
      refine ⟨metered.wellFormed, metered.rate_eq, metered.settled.trans later, ?_⟩
      have grown := metered.wellFormed.tokensAvailable_le_add metered.settled later
      have time := TokenBucket.seconds_between start system.now now
      have paid := metered.paid
      rw [metered.rate_eq] at grown
      dsimp only
      rw [time]
      linarith
  | @moves index worker next shared found moves =>
      obtain ⟨-, nowEq, -⟩ := moves.frame
      obtain ⟨grants, change, most⟩ := moves.claims_le
      obtain ⟨formed, reading, payment⟩ := change.spec metered.wellFormed metered.settled
      obtain ⟨sameRate, -⟩ := change.keeps trivial
      have total := Roster.sum_map_set Worker.claims found next
      have sums : ((system.workers.set index next).map Worker.claims).sum ≤
          (system.workers.map Worker.claims).sum + grants := by omega
      have sumsRat : (((system.workers.set index next).map Worker.claims).sum : ℚ) ≤
          (system.workers.map Worker.claims).sum + grants := by exact_mod_cast sums
      have paid := metered.paid
      refine ⟨formed, sameRate.trans metered.rate_eq, by rwa [nowEq], ?_⟩
      dsimp only at payment ⊢
      rw [nowEq]
      linarith

theorem start_metered (started : System.start args start = some system) :
    system.Metered args start := by
  obtain ⟨bucket, created, rfl⟩ := Option.map_eq_some_iff.mp started
  have formed := TokenBucket.create_wellFormed created
  have reading := TokenBucket.create_lastRefill created
  have fields : bucket.rate = args.rps ∧ bucket.burst = max 100 (args.rps : ℚ) := by
    unfold TokenBucket.create at created
    split at created
    · cases created
    · cases created
      exact ⟨rfl, if_pos (lt_max_of_lt_left (by norm_num))⟩
  have most := formed.tokensAvailable_le_burst reading.le
  rw [fields.2] at most
  have unclaimed :
      (((List.range args.concurrency).map Worker.spawned).map Worker.claims).sum = 0 := by
    refine List.sum_eq_zero fun claims member => ?_
    simp only [List.map_map, List.mem_map, Function.comp_apply] at member
    obtain ⟨number, -, rfl⟩ := member
    rfl
  refine ⟨formed, fields.1, reading.le, ?_⟩
  dsimp only
  rw [unclaimed, TokenBucket.seconds_self, mul_zero, add_zero, Nat.cast_zero, zero_add]
  exact most

/-- The threads keep to their slots as long as the clock is below `2 ^ 62`. -/
structure Timed (args : Args) (start : ℤ) (system : System) : Prop where
  later : start ≤ system.now
  paced : system.now < 2 ^ 62 →
    ∀ worker ∈ system.workers, worker.Paced args start system.now system.stopped

theorem Timed.step (timed : system.Timed args start) (nonneg : 0 ≤ start)
    (steps : Steps args system after) : after.Timed args start := by
  cases steps with
  | joins | joinedAll => exact ⟨timed.later, timed.paced⟩
  | returns | signals =>
      exact ⟨timed.later, fun small worker member =>
        (timed.paced small worker member).later le_rfl fun _ => rfl⟩
  | ticks later =>
      exact ⟨timed.later.trans later, fun small worker member =>
        (timed.paced (later.trans_lt small) worker member).later later id⟩
  | @moves index worker next shared found moves =>
      obtain ⟨stoppedEq, nowEq, -⟩ := moves.frame
      refine ⟨by rw [nowEq]; exact timed.later, fun small entry member => ?_⟩
      rw [nowEq] at small
      dsimp only
      rw [nowEq, stoppedEq]
      rcases Roster.mem_set_cases member with rfl | ⟨other, -, old⟩
      · exact moves.keeps_paced (timed.paced small worker (List.mem_of_getElem? found)) nonneg
          timed.later small
      · exact timed.paced small entry (List.mem_of_getElem? old)

theorem start_timed (started : System.start args start = some system) :
    system.Timed args start := by
  obtain ⟨bucket, -, rfl⟩ := Option.map_eq_some_iff.mp started
  refine ⟨le_rfl, fun _ worker member => ?_⟩
  obtain ⟨number, below, rfl⟩ := List.mem_map.mp member
  exact .spawned (List.mem_range.mp below)

/-- Until a signal comes a thread has sent at most one request more than periods have
passed since the start, and all threads together at most what the bucket held at first and
the rate has brought in, signal or not. -/
theorem reachable_paced {first : System} (started : System.start args start = some first)
    (nonneg : 0 ≤ start) (reaches : Reaches (step args) Unrestricted first system)
    (small : system.now < 2 ^ 62) :
    (system.stopped = false → ∀ worker ∈ system.workers,
      (worker.issued : ℤ) ≤ 1 + (system.now - start) / args.period) ∧
    ((system.workers.map Worker.issued).sum : ℚ) ≤
      max 100 (args.rps : ℚ) + args.rps * TokenBucket.seconds (system.now - start) := by
  have timed : system.Timed args start :=
    reaches.invariant _ (start_timed started) fun _ _ _ holds _ taken =>
      holds.step nonneg (steps_of_step taken)
  have metered : system.Metered args start :=
    reaches.invariant _ (start_metered started) fun _ _ _ holds _ taken =>
      holds.step (steps_of_step taken)
  obtain ⟨positive, -⟩ := args.period_bounds
  constructor
  · intro running worker member
    have paced := timed.paced small worker member
    have elapsed : 0 ≤ (system.now - start) / args.period :=
      Int.ediv_nonneg (sub_nonneg.mpr timed.later) (by omega)
    rcases paced.paced with one | come | stopped
    · omega
    · rcases paced.begun with ⟨-, unsent⟩ | ⟨periodEq, low, -⟩
      · omega
      · rw [periodEq] at come
        have periods : ((worker.issued - 1 : ℕ) : ℤ) ≤ (system.now - start) / args.period := by
          rw [Int.le_ediv_iff_mul_le (by omega)]
          linarith
        omega
    · rw [running] at stopped
      cases stopped
  · have level : 0 ≤ system.bucket.tokensAvailable system.now := by
      rw [metered.wellFormed.tokensAvailable_eq_min metered.settled]
      exact le_min (metered.wellFormed.tokens_nonneg.trans metered.wellFormed.tokens_le)
        (metered.wellFormed.grown_nonneg metered.settled)
    have fewer : (system.workers.map Worker.issued).sum ≤
        (system.workers.map Worker.claims).sum :=
      List.sum_le_sum fun worker _ => Nat.le_add_right _ _
    have fewerRat : ((system.workers.map Worker.issued).sum : ℚ) ≤
        (system.workers.map Worker.claims).sum := by exact_mod_cast fewer
    have paid := metered.paid
    linarith

/-- The second request of the thread is sent in its slot, a tenth of a second later. -/
def twoSlots : List Action :=
  untilSecondSlot ++ Action.tick 100000000 :: turns 7

theorem reachable_paced_secondSlot :
    ∃ (first system : System), System.start tenPerSecond 0 = some first ∧
      run (step tenPerSecond) first twoSlots = some system ∧
      system.workers.map Worker.issued = [2] ∧
      ∀ worker ∈ system.workers,
        (worker.issued : ℤ) ≤ 1 + (system.now - 0) / tenPerSecond.period := by
  have ran : ((System.start tenPerSecond 0).bind fun first =>
      (run (step tenPerSecond) first twoSlots).map fun system =>
        (system.now, system.stopped, system.workers.map Worker.issued)) =
      some (100000000, false, [2]) := by
    decide +kernel
  obtain ⟨first, started, ran⟩ := Option.bind_eq_some_iff.mp ran
  obtain ⟨system, executes, seen⟩ := Option.map_eq_some_iff.mp ran
  simp only [Prod.mk.injEq] at seen
  obtain ⟨reading, running, sent⟩ := seen
  have paced := reachable_paced started le_rfl (reaches_of_run executes)
    (by rw [reading]; norm_num)
  exact ⟨first, system, started, executes, sent, paced.1 running⟩

end System

/-! ## After a signal -/

namespace WorkerPc

/-- The thread has passed the test of `g_stop_requested` and may send before the next. -/
def coming : WorkerPc → ℕ
  | .deadlineTest | .sleepClock | .sleepStopped | .spinClock | .spinStopped | .slotDeadline
  | .consuming | .preparing | .issuing => 1
  | _ => 0

theorem coming_le_one (pc : WorkerPc) : pc.coming ≤ 1 := by
  cases pc with
  | handling | finished => exact Nat.zero_le 1
  | _ => decide

theorem coming_of_waits {pc : WorkerPc} (waiting : pc.waits) : pc.coming = 1 := by
  cases pc with
  | sleepClock | sleepStopped | spinClock | spinStopped => rfl
  | _ => cases waiting

end WorkerPc

namespace Worker

variable {args : Args} {system next : System} {worker after : Worker}

/-- The requests that the thread has sent and the one that it may send when it is told to
stop. -/
def upTo (worker : Worker) : ℕ :=
  worker.issued + worker.pc.coming

theorem Moves.upTo_le (moves : Moves args system worker next after)
    (stopped : system.stopped = true) : after.upTo ≤ worker.upTo := by
  have outside (same : after.issued = worker.issued) (gone : after.pc.coming = 0) :
      after.upTo ≤ worker.upTo := by
    unfold upTo
    omega
  have inside (same : after.issued = worker.issued) (was : worker.pc.coming = 1) :
      after.upTo ≤ worker.upTo := by
    have most := after.pc.coming_le_one
    unfold upTo
    omega
  cases moves with
  | entered _ running =>
      rw [stopped] at running
      cases running
  | opened located | advanced located | punctual located | granted located | prepared located =>
      exact inside rfl (by rw [located]; rfl)
  | waited waits | woke waits => exact inside rfl (WorkerPc.coming_of_waits waits)
  | issued immediate located =>
      cases immediate <;> simp [upTo, issue, complete, WorkerPc.coming, located]
  | @handled drains => cases drains <;> exact outside rfl rfl
  | pumped => exact le_rfl
  | _ => exact outside rfl rfl

end Worker

namespace System

variable {args : Args} {system later : System}

/-- The flag is set, and no thread has sent more than `before` allowed. -/
structure Halting (before later : System) : Prop where
  stopped : later.stopped = true
  upTo_le : ∀ (index : ℕ) (worker : Worker), later.workers[index]? = some worker →
    ∃ old, before.workers[index]? = some old ∧ worker.upTo ≤ old.upTo

theorem Halting.step {before : System} (halting : Halting before system)
    (steps : Steps args system later) : Halting before later := by
  cases steps with
  | joins | joinedAll | ticks => exact ⟨halting.stopped, halting.upTo_le⟩
  | returns | signals => exact ⟨rfl, halting.upTo_le⟩
  | @moves position mover next shared foundMover moves =>
      refine ⟨moves.frame.1.trans halting.stopped, fun index worker found => ?_⟩
      rcases Roster.getElem?_set_cases found with ⟨rfl, rfl⟩ | ⟨-, same⟩
      · obtain ⟨old, foundOld, most⟩ := halting.upTo_le index mover foundMover
        exact ⟨old, foundOld, (moves.upTo_le halting.stopped).trans most⟩
      · exact halting.upTo_le index worker same

/-- After a signal a thread sends at most one more request.  It is one whose thread had
begun a pass of its loop: the wait for its slot ends with the signal and is not followed by
a test of the flag, so that the request goes out before its time. -/
theorem at_most_one_after_signal (stopped : system.stopped = true)
    (reaches : Reaches (step args) Unrestricted system later) {index : ℕ} {old worker : Worker}
    (foundOld : system.workers[index]? = some old)
    (found : later.workers[index]? = some worker) :
    worker.issued ≤ old.issued + 1 ∧ (old.pc.coming = 0 → worker.issued ≤ old.issued) := by
  have halting : Halting system later :=
    reaches.invariant _ ⟨stopped, fun _ entry foundEntry => ⟨entry, foundEntry, le_rfl⟩⟩
      fun _ _ _ holds _ taken => holds.step (steps_of_step taken)
  obtain ⟨before, foundBefore, most⟩ := halting.upTo_le index worker found
  obtain rfl := Option.some.inj (foundBefore.symm.trans foundOld)
  have one := before.pc.coming_le_one
  unfold Worker.upTo at most
  constructor <;> omega

/-- A signal comes a tenth of a second before the second slot, and the request is sent. -/
theorem at_most_one_after_signal_early :
    ∃ (told later : System) (old worker : Worker), told.stopped = true ∧
      run (step tenPerSecond) told (turns 8) = some later ∧
      told.workers[0]? = some old ∧ later.workers[0]? = some worker ∧
      old.issued = 1 ∧ worker.issued = 2 ∧ later.now < worker.nextSlot ∧
      worker.issued ≤ old.issued + 1 := by
  have ran : ((start tenPerSecond 0).bind fun first =>
      (run (step tenPerSecond) first (untilSecondSlot ++ [Action.signal])).bind fun told =>
        told.workers[0]?.bind fun old =>
          (run (step tenPerSecond) told (turns 8)).bind fun later =>
            later.workers[0]?.map fun worker =>
              (told.stopped, old.issued, worker.issued, later.now, worker.nextSlot)) =
      some (true, 1, 2, 0, 100000000) := by
    decide +kernel
  obtain ⟨first, -, ran⟩ := Option.bind_eq_some_iff.mp ran
  obtain ⟨told, -, ran⟩ := Option.bind_eq_some_iff.mp ran
  obtain ⟨old, foundOld, ran⟩ := Option.bind_eq_some_iff.mp ran
  obtain ⟨later, executes, ran⟩ := Option.bind_eq_some_iff.mp ran
  obtain ⟨worker, found, seen⟩ := Option.map_eq_some_iff.mp ran
  simp only [Prod.mk.injEq] at seen
  obtain ⟨stopped, one, two, reading, slot⟩ := seen
  have most := at_most_one_after_signal stopped (reaches_of_run executes) foundOld found
  exact ⟨told, later, old, worker, stopped, executes, foundOld, found, one, two,
    by rw [reading, slot]; norm_num, most.1⟩

end System

end Cppload.Direct

import Cppload.MetricsCollectorExact

/-!
# What the collector holds when all calls have returned

Without resets, and when no sum exceeds 64 bits, every figure of the collector is
the one computed from the list of recorded samples.
-/

namespace Cppload.Metrics

open Transition TicketRing

/-- What a sample adds to a counter. -/
def Sample.amount (sample : Sample) (counter : Counter) : ℕ :=
  amountOf counter sample.fetchAdds

section Amounts

variable (sample : Sample)

@[simp]
theorem amount_totalRequests : sample.amount .totalRequests = 1 := by
  unfold Sample.amount Sample.fetchAdds Sample.outcome
  split <;> simp

@[simp]
theorem amount_totalBytesSent : sample.amount .totalBytesSent = sample.bytesSent := by
  unfold Sample.amount Sample.fetchAdds Sample.outcome
  split <;> simp

@[simp]
theorem amount_totalBytesReceived :
    sample.amount .totalBytesReceived = sample.bytesReceived := by
  unfold Sample.amount Sample.fetchAdds Sample.outcome
  split <;> simp

theorem amount_cumulativeLatencyUs (nonneg : 0 ≤ sample.latency) :
    (sample.amount .cumulativeLatencyUs : ℤ) = sample.latency := by
  have below := sample.latency_le
  unfold microsecondsMax at below
  unfold Sample.amount Sample.fetchAdds Sample.outcome
  split <;> simp <;> omega

theorem amount_outcomes :
    sample.amount .successfulRequests + sample.amount .failedRequests = 1 := by
  unfold Sample.amount Sample.fetchAdds Sample.outcome
  split <;> simp

end Amounts

theorem sum_planned (counter : Counter) (tasks : List Task) :
    (tasks.map (Task.planned counter)).sum =
      ((tasks.filterMap Task.sample).map fun sample => sample.amount counter).sum := by
  induction tasks with
  | nil => rfl
  | cons task rest ih =>
      cases task with
      | record sample pc =>
          simp only [List.map_cons, List.sum_cons, List.filterMap_cons, Task.sample, ih]
          rfl
      | reset pc => exact (Nat.zero_add _).trans ih
      | collect pc => exact (Nat.zero_add _).trans ih

theorem pending_of_returned {task : Task} (returned : task.isReturned = true)
    (counter : Counter) : task.pending counter = 0 := by
  unfold Task.isReturned at returned
  split at returned <;> first | rfl | cases returned

/-- A returned record is past both loops. -/
theorem stages_of_returned {task : Task} {sample : Sample} (returned : task.isReturned = true)
    (sampleEq : task.sample = some sample) :
    task.minimumStage = .past ∧ task.maximumStage = .past := by
  unfold Task.isReturned at returned
  split at returned
  · exact ⟨rfl, rfl⟩
  · cases sampleEq
  · cases sampleEq
  · cases returned

/-- Every returned record holds a ticket. -/
theorem length_tickets {tasks : List Task} (returned : ∀ task ∈ tasks, task.isReturned = true) :
    ((tasks.map Task.role).filterMap Role.ticket).length =
      (tasks.filterMap Task.sample).length := by
  induction tasks with
  | nil => rfl
  | cons task rest ih =>
      have first := returned task List.mem_cons_self
      have others := ih fun other member => returned other (List.mem_cons_of_mem task member)
      unfold Task.isReturned at first
      split at first
      · exact congrArg Nat.succ others
      · exact others
      · exact others
      · cases first

namespace System

variable {system : System}

/-- The ticket claimed by the call with this number. -/
def ticketAt (system : System) (index : ℕ) : Option ℕ :=
  (system.roles[index]?).bind Role.ticket

/-- The ticket whose cell the call with this number is writing. -/
def writingAt (system : System) (index : ℕ) : Option ℕ :=
  (system.roles[index]?).bind Role.inFlight

/-- The ring never overflows, tickets are claimed once, and a cell is not claimed
again before its ticket is published. -/
structure WritesApart (system : System) : Prop where
  ordered : system.collector.ring.head ≤ system.collector.ring.tail
  bounded : system.collector.ring.tail ≤ system.collector.ring.head + kRingCapacity
  claimed : ∀ ticket, ticket < system.collector.ring.tail ↔
    ∃ index, system.ticketAt index = some ticket
  claimedOnce : ∀ ticket first second, system.ticketAt first = some ticket →
    system.ticketAt second = some ticket → first = second
  unpublished : ∀ index ticket, system.writingAt index = some ticket →
    system.collector.ring.tail ≤ ticket + kRingCapacity
  apart : ∀ first second ticket other, first ≠ second →
    system.writingAt first = some ticket → system.writingAt second = some other →
    slot ticket ≠ slot other

/-- Counters, sums, extremes and buffered samples are those of the recorded list. -/
structure Recorded (system : System) : Prop where
  total : system.collector.counters .totalRequests = system.records.length
  outcomes : system.collector.counters .successfulRequests +
    system.collector.counters .failedRequests = system.records.length
  bytesSent : system.collector.counters .totalBytesSent =
    (system.records.map Sample.bytesSent).sum
  bytesReceived : system.collector.counters .totalBytesReceived =
    (system.records.map Sample.bytesReceived).sum
  latencies : (system.collector.counters .cumulativeLatencyUs : ℤ) =
    (system.records.map Sample.latency).sum
  minimum : system.records ≠ [] →
    IsLeast {latency | ∃ sample ∈ system.records, sample.latency = latency}
      system.collector.minLatencyUs
  maximum : system.records ≠ [] →
    IsGreatest {latency | ∃ sample ∈ system.records, sample.latency = latency}
      system.collector.maxLatencyUs
  tail : system.collector.ring.tail = system.records.length
  samples : ∀ ticket, system.collector.ring.head ≤ ticket → ticket < system.records.length →
    ∃ (index : ℕ) (sample : Sample),
      system.tasks[index]? = some (.record sample (.pushing (.returned ticket))) ∧
      system.collector.ring.cells (slot ticket) = { seq := ticket + 1, value := sample.latency }

theorem exists_role_of_bind {select : Role → Option ℕ} {index ticket : ℕ}
    (selected : (system.roles[index]?).bind select = some ticket) :
    ∃ role, system.roles[index]? = some role ∧ select role = some ticket :=
  Option.bind_eq_some_iff.mp selected

theorem Exact.writesApart (booked : Booked system.collector.ring system.roles)
    (exactly : system.Exact) : system.WritesApart where
  ordered := booked.ordered
  bounded := exactly.whole.bounded
  claimed := by
    intro ticket
    rw [← List.mem_range, ← booked.claims.mem_iff, List.mem_filterMap]
    constructor
    · rintro ⟨role, member, selected⟩
      obtain ⟨index, found⟩ := List.mem_iff_getElem?.mp member
      exact ⟨index, by simp [ticketAt, found, selected]⟩
    · rintro ⟨index, claimed⟩
      obtain ⟨role, found, selected⟩ := exists_role_of_bind claimed
      exact ⟨role, List.mem_of_getElem? found, selected⟩
  claimedOnce := by
    intro ticket first second firstClaims secondClaims
    obtain ⟨role, found, selected⟩ := exists_role_of_bind firstClaims
    obtain ⟨other, otherFound, otherSelected⟩ := exists_role_of_bind secondClaims
    by_contra distinct
    exact booked.ticket_ne (Ne.symm distinct) found otherFound selected otherSelected
  unpublished := by
    intro index ticket writing
    obtain ⟨role, found, selected⟩ := exists_role_of_bind writing
    have current := (exactly.owed role (List.mem_of_getElem? found)).current ticket selected
    exact exactly.whole.bounded.trans (Nat.add_le_add_right current _)
  apart := by
    intro first second ticket other distinct firstWrites secondWrites
    obtain ⟨role, found, selected⟩ := exists_role_of_bind firstWrites
    obtain ⟨otherRole, otherFound, otherSelected⟩ := exists_role_of_bind secondWrites
    have member := List.mem_of_getElem? found
    have otherMember := List.mem_of_getElem? otherFound
    have claims := Role.ticket_of_inFlight selected
    have otherClaims := Role.ticket_of_inFlight otherSelected
    have differs : ticket ≠ other := by
      rintro rfl
      exact booked.ticket_ne distinct.symm found otherFound claims otherClaims
    rw [slot_eq, slot_eq]
    exact mod_ne_of_window exactly.whole.bounded differs
      ((exactly.owed role member).current ticket selected)
      (booked.ticket_lt member claims)
      ((exactly.owed otherRole otherMember).current other otherSelected)
      (booked.ticket_lt otherMember otherClaims)

/-- A counter whose plan fits into 64 bits is exact. -/
theorem Exact.counter_eq (exactly : system.Exact) (quiescent : system.Quiescent)
    {counter : Counter}
    (fits : (system.records.map fun sample => sample.amount counter).sum < 2 ^ 64) :
    system.collector.counters counter =
      (system.records.map fun sample => sample.amount counter).sum := by
  have balanced := exactly.balanced counter
  have nothing : (system.tasks.map (Task.pending counter)).sum = 0 := by
    refine List.sum_eq_zero fun amount member => ?_
    obtain ⟨task, taskMember, rfl⟩ := List.mem_map.mp member
    exact pending_of_returned (quiescent task taskMember) counter
  have total := balanced.total
  rw [nothing, Nat.add_zero, sum_planned] at total
  exact total.eq_of_lt_of_lt balanced.reduced fits

theorem Exact.minimum_isLeast (exactly : system.Exact) (quiescent : system.Quiescent)
    (nonempty : system.records ≠ []) :
    IsLeast {latency | ∃ sample ∈ system.records, sample.latency = latency}
      system.collector.minLatencyUs := by
  have lower : ∀ sample ∈ system.records,
      system.collector.minLatencyUs ≤ sample.latency := by
    intro sample member
    obtain ⟨task, taskMember, sampleEq⟩ := List.mem_filterMap.mp member
    have settled := exactly.extremes.minimum.settled task taskMember sample sampleEq
    rw [(stages_of_returned (quiescent task taskMember) sampleEq).1] at settled
    exact not_lt.mp (of_decide_eq_false settled)
  refine ⟨?_, ?_⟩
  · rcases exactly.extremes.minimum.attained with initial | attained
    · obtain ⟨sample, member⟩ := List.exists_mem_of_ne_nil _ nonempty
      exact ⟨sample, member, le_antisymm (initial ▸ sample.latency_le) (lower sample member)⟩
    · exact attained
  · rintro latency ⟨sample, member, rfl⟩
    exact lower sample member

theorem Exact.maximum_isGreatest (exactly : system.Exact) (quiescent : system.Quiescent)
    (nonempty : system.records ≠ []) :
    IsGreatest {latency | ∃ sample ∈ system.records, sample.latency = latency}
      system.collector.maxLatencyUs := by
  have upper : ∀ sample ∈ system.records,
      sample.latency ≤ system.collector.maxLatencyUs := by
    intro sample member
    obtain ⟨task, taskMember, sampleEq⟩ := List.mem_filterMap.mp member
    have settled := exactly.extremes.maximum.settled task taskMember sample sampleEq
    rw [(stages_of_returned (quiescent task taskMember) sampleEq).2] at settled
    exact not_lt.mp (of_decide_eq_false settled)
  refine ⟨?_, ?_⟩
  · rcases exactly.extremes.maximum.attained with initial | attained
    · obtain ⟨sample, member⟩ := List.exists_mem_of_ne_nil _ nonempty
      exact ⟨sample, member, le_antisymm (upper sample member) (initial ▸ sample.latency_ge)⟩
    · exact attained
  · rintro latency ⟨sample, member, rfl⟩
    exact upper sample member

theorem Exact.tail_eq (booked : Booked system.collector.ring system.roles)
    (quiescent : system.Quiescent) :
    system.collector.ring.tail = system.records.length := by
  have lengths := booked.claims.length_eq
  rw [List.length_range] at lengths
  exact lengths.symm.trans (length_tickets quiescent)

theorem Exact.samples_eq (booked : Booked system.collector.ring system.roles)
    (exactly : system.Exact) (quiescent : system.Quiescent) {ticket : ℕ}
    (above : system.collector.ring.head ≤ ticket)
    (below : ticket < system.collector.ring.tail) :
    ∃ (index : ℕ) (sample : Sample),
      system.tasks[index]? = some (.record sample (.pushing (.returned ticket))) ∧
      system.collector.ring.cells (slot ticket) =
        { seq := ticket + 1, value := sample.latency } := by
  obtain ⟨index, claimed⟩ := ((exactly.writesApart booked).claimed ticket).mp below
  obtain ⟨role, found, selected⟩ := exists_role_of_bind claimed
  have owed := exactly.owed role (List.mem_of_getElem? found)
  simp only [roles, List.getElem?_map, Option.map_eq_some_iff] at found
  obtain ⟨task, taskFound, rfl⟩ := found
  have returned := quiescent task (List.mem_of_getElem? taskFound)
  unfold Task.isReturned at returned
  split at returned
  · rename_i sample t
    obtain rfl : t = ticket := Option.some.inj selected
    have published := (exactly.whole.covered t above below).resolve_right ?_
    · refine ⟨index, sample, taskFound, ?_⟩
      rw [slot_eq]
      ext
      · exact published
      · exact owed.value (t, sample.latency) rfl above
    · rintro ⟨other, member, excuse⟩
      obtain ⟨otherTask, otherMember, rfl⟩ := List.mem_map.mp member
      exact not_excuses_of_returned (quiescent otherTask otherMember) t excuse
  · cases selected
  · cases selected
  · cases returned

/-- The sums of the recorded samples fit into 64 bits. -/
structure SumsFit (system : System) : Prop where
  bytesSent : (system.records.map Sample.bytesSent).sum < 2 ^ 64
  bytesReceived : (system.records.map Sample.bytesReceived).sum < 2 ^ 64
  latencies : (system.records.map Sample.latency).sum < 2 ^ 64

theorem sum_outcomes (samples : List Sample) :
    (samples.map fun sample => sample.amount .successfulRequests).sum +
      (samples.map fun sample => sample.amount .failedRequests).sum = samples.length := by
  induction samples with
  | nil => rfl
  | cons sample rest ih =>
      have one := amount_outcomes sample
      simp only [List.map_cons, List.sum_cons, List.length_cons]
      omega

theorem sum_latencies {samples : List Sample} (nonneg : ∀ sample ∈ samples, 0 ≤ sample.latency) :
    (((samples.map fun sample => sample.amount .cumulativeLatencyUs).sum : ℕ) : ℤ) =
      (samples.map Sample.latency).sum := by
  induction samples with
  | nil => rfl
  | cons sample rest ih =>
      have first := amount_cumulativeLatencyUs sample (nonneg sample List.mem_cons_self)
      have others := ih fun other member => nonneg other (List.mem_cons_of_mem sample member)
      simp only [List.map_cons, List.sum_cons]
      omega

theorem Exact.recorded (booked : Booked system.collector.ring system.roles)
    (exactly : system.Exact) (few : system.tasks.length < 2 ^ 63)
    (quiescent : system.Quiescent) (fits : system.SumsFit) : system.Recorded := by
  have recordsFew : system.records.length < 2 ^ 63 :=
    (List.length_filterMap_le _ _).trans_lt few
  have total : (system.records.map fun sample => sample.amount .totalRequests).sum =
      system.records.length := by simp
  have outcomes := sum_outcomes system.records
  have latencies := sum_latencies exactly.nonneg
  have latenciesFit := fits.latencies
  refine ⟨?_, ?_, ?_, ?_, ?_, exactly.minimum_isLeast quiescent,
    exactly.maximum_isGreatest quiescent, Exact.tail_eq booked quiescent, ?_⟩
  · rw [exactly.counter_eq quiescent, total]
    omega
  · rw [exactly.counter_eq quiescent, exactly.counter_eq quiescent, outcomes]
    · omega
    · omega
  · rw [exactly.counter_eq quiescent]
    · simp
    · simpa using fits.bytesSent
  · rw [exactly.counter_eq quiescent]
    · simp
    · simpa using fits.bytesReceived
  · rw [exactly.counter_eq quiescent, latencies]
    omega
  · intro ticket above below
    exact exactly.samples_eq booked quiescent above
      (below.trans_eq (Exact.tail_eq booked quiescent).symm)

/-- Without reset, concurrent calls never write the same cell, and when they all
have returned nothing is lost. -/
theorem reachable_exact {now : ℤ}
    (reaches : Reaches step (fun _ action => action.recordsOnly) (new now) system)
    (few : system.tasks.length < 2 ^ 63) :
    system.WritesApart ∧ (system.Quiescent → system.SumsFit → system.Recorded) := by
  obtain ⟨booked, exactly⟩ := booked_invariant reaches few Exact (new_exact now)
    fun _ action _ booked small exactly allowed taken => by
      cases action with
      | call call => exact exactly.call allowed taken
      | move index choice => exact exactly.move booked small taken
  exact ⟨exactly.writesApart booked, exactly.recorded booked few⟩

/-- A failed request whose answer took a while. -/
def slowFailure : Sample where
  statusCode := 503
  latency := 7
  bytesSent := 10
  bytesReceived := 20
  statusCode_lt := by decide
  latency_ge := by decide
  latency_le := by decide
  bytesSent_lt := by decide
  bytesReceived_lt := by decide

/-- Two calls take turns; both claim the first ticket, and one of them loses. -/
theorem exists_two_writers :
    ∃ system, Reaches step (fun _ action => action.recordsOnly) (new 0) system ∧
      system.tasks.length = 2 ∧ system.records.length = 2 ∧
      (∀ task ∈ system.tasks, task.isReturned = true) ∧ system.SumsFit := by
  have evaluated :
      (guardedRun step (fun _ action => action.recordsOnly = true) (new 0)
        ([Action.call (.record .instant), Action.call (.record slowFailure)] ++
          (List.replicate 14 [Action.move 0 smooth, Action.move 1 smooth]).flatten ++
          List.replicate 3 (Action.move 1 smooth))).map
        (fun system => (system.tasks.length, system.records.map Sample.latency,
          system.records.map Sample.bytesSent, system.records.map Sample.bytesReceived,
          system.tasks.all Task.isReturned)) =
      some (2, [0, 7], [0, 10], [0, 20], true) := by
    decide +kernel
  obtain ⟨system, executes, fields⟩ := Option.map_eq_some_iff.mp evaluated
  simp only [Prod.mk.injEq] at fields
  obtain ⟨lengthEq, latencies, bytesSent, bytesReceived, returned⟩ := fields
  have fits : system.SumsFit :=
    ⟨by rw [bytesSent]; decide, by rw [bytesReceived]; decide, by rw [latencies]; decide⟩
  exact ⟨system, reaches_of_guardedRun executes, lengthEq,
    by simpa using congrArg List.length latencies, List.all_eq_true.mp returned, fits⟩

theorem reachable_exact_two_writers :
    ∃ system, Reaches step (fun _ action => action.recordsOnly) (new 0) system ∧
      system.records.length = 2 ∧ system.WritesApart ∧ system.Recorded := by
  obtain ⟨system, reaches, few, two, returned, fits⟩ := exists_two_writers
  obtain ⟨apart, recorded⟩ := reachable_exact reaches (by omega)
  exact ⟨system, reaches, two, apart, recorded returned fits⟩

end System

end Cppload.Metrics

import Cppload.MetricsCollectorLedger
import Cppload.ShardedCollector

/-!
# What the shards hold together

The merged numbers only depend on totals over all shards, so no invariant speaks
of how the calls are spread.  What the shards hold together and what the calls
still have to add sum up to the amounts of all calls.  A call past the loop for
the minimum or the maximum is beaten by the register of its own shard, and every
register that was changed holds the latency of a call.
-/

namespace Cppload.Metrics.Sharded

open Transition

theorem latVal_eq (sample : Sample) : latVal sample = max 0 sample.latency := by
  unfold latVal
  split <;> omega

theorem latVal_nonneg (sample : Sample) : 0 ≤ latVal sample := by
  rw [latVal_eq]
  exact le_max_left _ _

theorem latVal_le (sample : Sample) : latVal sample ≤ microsecondsMax := by
  have bound := sample.latency_le
  rw [latVal_eq, microsecondsMax] at *
  omega

/-- The latency of a call as the sums take it. -/
def latCount (sample : Sample) : ℕ :=
  (latVal sample).toNat

theorem latCount_eq (sample : Sample) : latCount sample = sample.latency.toNat := by
  rw [latCount, latVal_eq]
  omega

/-! ### What a move does to the shard of its task -/

/-- The counters a call has not added to yet. -/
def RecordPc.awaited : RecordPc → List ShardCounter
  | .requests => [.requests, .bytesSent, .bytesReceived, .successful, .failed]
  | .bytesSent => [.bytesSent, .bytesReceived, .successful, .failed]
  | .bytesReceived => [.bytesReceived, .successful, .failed]
  | .summing _ | .outcome => [.successful, .failed]
  | _ => []

def Task.pending (counter : ShardCounter) (task : Task) : ℕ :=
  if counter ∈ task.pc.awaited then amount counter task.sample else 0

/-- The latency a call has not added yet. -/
def Task.pendingLatency (task : Task) : ℕ :=
  match task.pc with
  | .requests | .bytesSent | .bytesReceived | .summing _ => latCount task.sample
  | _ => 0

/-- The store of the largest number is next. -/
def RecordPc.saturates : RecordPc → Bool
  | .summing .saturate => true
  | _ => false

def RecordPc.minimumStage : RecordPc → Stage
  | .minimum loop => .racing loop
  | .maximum _ | .sampling | .counting | .returned => .past
  | _ => .ahead

def RecordPc.maximumStage : RecordPc → Stage
  | .maximum loop => .racing loop
  | .sampling | .counting | .returned => .past
  | _ => .ahead

section Moves

variable {sample : Sample} {spurious : Bool} {shard later : Shard} {window nextWindow : Window}
variable {pc nextPc : RecordPc}

theorem Shard.fetchAdd_counters (shard : Shard) (target counter : ShardCounter) (added : ℕ) :
    (shard.fetchAdd target added).counters counter ≡
      shard.counters counter + (if counter = target then added else 0) [MOD 2 ^ 64] := by
  unfold fetchAdd
  by_cases same : counter = target
  · subst same
    simp only [Function.update_self, if_true]
    exact Nat.mod_modEq _ _
  · simp only [Function.update_of_ne same, if_neg same, Nat.add_zero]
    rfl

/-- The one increment of the status test is the amount of both its counters. -/
theorem amount_outcome (sample : Sample) (counter : ShardCounter)
    (tested : counter = .successful ∨ counter = .failed) :
    amount counter sample = if counter = outcomeOf sample then 1 else 0 := by
  by_cases good : 200 ≤ sample.statusCode ∧ sample.statusCode < 400
  · rcases tested with rfl | rfl <;> simp [amount, outcomeOf, good]
  · rcases tested with rfl | rfl <;> simp only [amount, outcomeOf, if_neg good] <;> rfl

theorem outcomeOf_cases (sample : Sample) :
    outcomeOf sample = .successful ∨ outcomeOf sample = .failed := by
  unfold outcomeOf
  split
  · exact .inl rfl
  · exact .inr rfl

theorem awaited_afterBytes (sample : Sample) :
    (RecordPc.afterBytes sample).awaited = [.successful, .failed] := by
  unfold RecordPc.afterBytes
  split <;> rfl

theorem awaited_afterSum (left : Option SumLoop) :
    (RecordPc.afterSum left).awaited = [.successful, .failed] := by
  cases left <;> rfl

theorem awaited_afterMinimum (left : Option Contend) :
    (RecordPc.afterMinimum left).awaited = [] := by
  cases left <;> rfl

theorem awaited_afterMaximum (left : Option Contend) :
    (RecordPc.afterMaximum left).awaited = [] := by
  cases left <;> rfl

/-- A `fetch_add` of what is no longer pending. -/
theorem Shard.fetchAdd_pending {counter target : ShardCounter} {added pending left : ℕ}
    (less : (if counter = target then added else 0) + left = pending) :
    (shard.fetchAdd target added).counters counter + left ≡
      shard.counters counter + pending [MOD 2 ^ 64] := by
  rw [← less, ← Nat.add_assoc]
  exact (shard.fetchAdd_counters target counter added).add_right _

/-- What a move adds to a counter of the shard is no longer pending. -/
theorem Task.move_counters (counter : ShardCounter) {task : Task}
    (moved : task.pc.move task.sample spurious shard window =
      some (later, nextWindow, nextPc)) :
    later.counters counter + Task.pending counter { task with pc := nextPc } ≡
      shard.counters counter + task.pending counter [MOD 2 ^ 64] := by
  obtain ⟨index, sample, pc⟩ := task
  cases pc with
  | requests | bytesSent =>
      cases moved
      refine Shard.fetchAdd_pending ?_
      cases counter <;> simp [Task.pending, RecordPc.awaited, amount]
  | bytesReceived =>
      cases moved
      refine Shard.fetchAdd_pending ?_
      simp only [Task.pending, awaited_afterBytes]
      cases counter <;> simp [RecordPc.awaited, amount]
  | outcome =>
      cases moved
      refine Shard.fetchAdd_pending ?_
      by_cases tested : counter = .successful ∨ counter = .failed
      · simp [Task.pending, RecordPc.awaited, tested, amount_outcome sample counter tested]
      · have other : counter ≠ outcomeOf sample := by
          rintro rfl
          exact tested (outcomeOf_cases sample)
        simp [Task.pending, RecordPc.awaited, tested, other]
  | summing loop =>
      cases moved
      simp only [Task.pending, awaited_afterSum]
      rfl
  | minimum loop =>
      cases moved
      simp only [Task.pending, awaited_afterMinimum]
      rfl
  | maximum loop =>
      cases moved
      simp only [Task.pending, awaited_afterMaximum]
      rfl
  | sampling | counting =>
      cases moved
      rfl
  | returned => cases moved

/-- As long as the sum stays below the bound, the loop goes on with the value just
read or adds to it. -/
theorem SumLoop.move_cases (spurious : Bool) {latency register : ℕ} {loop : SumLoop}
    (fits : register + latency < 2 ^ 64) (exactly : loop ≠ .saturate) :
    loop.move latency spurious register = (register, some (.cas register)) ∨
      loop.move latency spurious register = (register + latency, none) := by
  have test_eq : SumLoop.test latency register = .cas register := if_neg (by omega)
  cases loop with
  | load =>
      rw [SumLoop.move, test_eq]
      exact .inl rfl
  | cas curSum =>
      rw [SumLoop.move, test_eq]
      split
      · rename_i swapped
        rw [← swapped.1, Nat.mod_eq_of_lt fits]
        exact .inr rfl
      · exact .inl rfl
  | saturate => exact absurd rfl exactly

/-- As long as the sum stays below the bound, a move adds what is no longer
pending and does not saturate. -/
theorem Task.move_latencySum {task : Task}
    (moved : task.pc.move task.sample spurious shard window =
      some (later, nextWindow, nextPc))
    (fits : shard.latencySumUs + task.pendingLatency < 2 ^ 64)
    (exactly : task.pc.saturates = false) :
    later.latencySumUs + Task.pendingLatency { task with pc := nextPc } =
        shard.latencySumUs + task.pendingLatency ∧
      nextPc.saturates = false := by
  obtain ⟨index, sample, pc⟩ := task
  cases pc with
  | requests | bytesSent | outcome | sampling | counting =>
      cases moved
      exact ⟨rfl, rfl⟩
  | bytesReceived =>
      cases moved
      unfold RecordPc.afterBytes
      split
      · rename_i nonpositive
        refine ⟨?_, rfl⟩
        simp only [Task.pendingLatency, latCount_eq, Int.toNat_of_nonpos nonpositive]
        rfl
      · exact ⟨rfl, rfl⟩
  | summing loop =>
      cases moved
      simp only [Task.pendingLatency, latCount_eq] at fits
      have unsaturated : loop ≠ .saturate := by
        rintro rfl
        cases exactly
      rcases SumLoop.move_cases spurious fits unsaturated with again | added
      · rw [again]
        exact ⟨rfl, rfl⟩
      · rw [added]
        simp only [RecordPc.afterSum, Task.pendingLatency, latCount_eq]
        exact ⟨rfl, rfl⟩
  | minimum loop =>
      cases moved
      generalize (loop.move _ _ _ _).2 = left
      cases left <;> exact ⟨rfl, rfl⟩
  | maximum loop =>
      cases moved
      generalize (loop.move _ _ _ _).2 = left
      cases left <;> exact ⟨rfl, rfl⟩
  | returned => cases moved

theorem minimumStage_afterMinimum (left : Option Contend) :
    (RecordPc.afterMinimum left).minimumStage = .after left := by
  cases left <;> rfl

theorem maximumStage_afterMaximum (left : Option Contend) :
    (RecordPc.afterMaximum left).maximumStage = .after left := by
  cases left <;> rfl

theorem RecordPc.move_minimum
    (moved : pc.move sample spurious shard window = some (later, nextWindow, nextPc)) :
    Stage.Moves (fun latency current => latency < current) (latVal sample)
      shard.minLatencyUs pc.minimumStage later.minLatencyUs nextPc.minimumStage := by
  cases pc with
  | requests | bytesSent =>
      cases moved
      exact .rest .ahead
  | bytesReceived =>
      cases moved
      unfold afterBytes
      split <;> exact .rest .ahead
  | summing loop =>
      cases moved
      generalize (loop.move _ _ _).2 = left
      cases left <;> exact .rest .ahead
  | outcome =>
      cases moved
      exact .enter
  | minimum loop =>
      cases moved
      rw [minimumStage_afterMinimum]
      exact .race loop spurious
  | maximum loop =>
      cases moved
      generalize (loop.move _ _ _ _).2 = left
      cases left <;> exact .rest .past
  | sampling | counting =>
      cases moved
      exact .rest .past
  | returned => cases moved

theorem RecordPc.move_maximum
    (moved : pc.move sample spurious shard window = some (later, nextWindow, nextPc)) :
    Stage.Moves (fun latency current => latency > current) (latVal sample)
      shard.maxLatencyUs pc.maximumStage later.maxLatencyUs nextPc.maximumStage := by
  cases pc with
  | requests | bytesSent | outcome =>
      cases moved
      exact .rest .ahead
  | bytesReceived =>
      cases moved
      unfold afterBytes
      split <;> exact .rest .ahead
  | summing loop =>
      cases moved
      generalize (loop.move _ _ _).2 = left
      cases left <;> exact .rest .ahead
  | minimum loop =>
      cases moved
      generalize (loop.move _ _ _ _).2 = left
      cases left with
      | none => exact .enter
      | some loop => exact .rest .ahead
  | maximum loop =>
      cases moved
      rw [maximumStage_afterMaximum]
      exact .race loop spurious
  | sampling | counting =>
      cases moved
      exact .rest .past
  | returned => cases moved

end Moves

/-! ### Invariants of all shards together -/

/-- Everything about one of the two loops. -/
structure Extremal (better : ℤ → ℤ → Bool) (initial : ℤ) (register : Shard → ℤ)
    (stageOf : RecordPc → Stage) (shards : List Shard) (tasks : List Task) : Prop where
  settled : ∀ task ∈ tasks, ∀ shard, shards[task.shard]? = some shard →
    (stageOf task.pc).Settled better (register shard) (latVal task.sample)
  attained : ∀ shard ∈ shards, register shard = initial ∨
    ∃ sample ∈ tasks.map Task.sample, latVal sample = register shard

section Extremal

variable {better : ℤ → ℤ → Bool} {initial : ℤ} {register : Shard → ℤ}
variable {stageOf : RecordPc → Stage} {shards : List Shard} {tasks : List Task}
variable {index : ℕ} {task : Task} {shard later : Shard} {nextPc : RecordPc}

theorem Extremal.call (extremal : Extremal better initial register stageOf shards tasks)
    (ahead : stageOf task.pc = .ahead) :
    Extremal better initial register stageOf shards (tasks ++ [task]) where
  settled := by
    intro other member shard located
    rcases List.mem_append.mp member with old | new
    · exact extremal.settled other old shard located
    · obtain rfl := List.mem_singleton.mp new
      rw [ahead]
      trivial
  attained := by
    intro shard member
    refine (extremal.attained shard member).imp_right fun ⟨sample, recorded, latencyEq⟩ => ?_
    exact ⟨sample, by rw [List.map_append]; exact List.mem_append_left _ recorded, latencyEq⟩

theorem Extremal.move (irreflexive : ∀ latency, better latency latency = false)
    (transitive : ∀ first second third, better first second = true →
      better second third = true → better first third = true)
    (extremal : Extremal better initial register stageOf shards tasks)
    (found : tasks[index]? = some task) (located : shards[task.shard]? = some shard)
    (moves : Stage.Moves better (latVal task.sample) (register shard) (stageOf task.pc)
      (register later) (stageOf nextPc)) :
    Extremal better initial register stageOf (shards.set task.shard later)
      (tasks.set index { task with pc := nextPc }) := by
  have settled := extremal.settled task (List.mem_of_getElem? found) shard located
  have samples : (tasks.set index { task with pc := nextPc }).map Task.sample =
      tasks.map Task.sample := Roster.map_set_of_eq found rfl
  constructor
  · intro other member otherShard otherLocated
    rcases List.mem_or_eq_of_mem_set member with old | rfl
    · rcases Roster.getElem?_set_cases otherLocated with ⟨same, rfl⟩ | ⟨-, apart⟩
      · have before := extremal.settled other old shard (same ▸ located)
        rcases moves.replaces settled with unchanged | ⟨replaced, wins⟩
        · rwa [unchanged]
        · rw [replaced]
          exact Stage.Settled.replace transitive before wins
      · exact extremal.settled other old otherShard apart
    · rw [Roster.getElem?_set_self located] at otherLocated
      cases otherLocated
      exact moves.settled (irreflexive _) settled
  · rw [samples]
    intro other member
    rcases List.mem_or_eq_of_mem_set member with old | rfl
    · exact extremal.attained other old
    · rcases moves.replaces settled with unchanged | ⟨replaced, -⟩
      · rw [unchanged]
        exact extremal.attained shard (List.mem_of_getElem? located)
      · rw [replaced]
        exact .inr ⟨task.sample, List.mem_map_of_mem (List.mem_of_getElem? found), rfl⟩

end Extremal

namespace System

variable {system next : System}

def latencies (system : System) : ℕ :=
  (system.calls.map latCount).sum

/-- The counters of all shards are short of the amounts of all calls by what is
pending. -/
def Balanced (system : System) (counter : ShardCounter) : Prop :=
  (system.collector.shards.map fun shard => shard.counters counter).sum +
      (system.tasks.map (Task.pending counter)).sum ≡
    (system.calls.map (amount counter)).sum [MOD 2 ^ 64]

/-- The sums of the latencies are exact and no call saturates them. -/
structure Unsaturated (system : System) : Prop where
  total : (system.collector.shards.map Shard.latencySumUs).sum +
    (system.tasks.map Task.pendingLatency).sum = system.latencies
  exactly : ∀ task ∈ system.tasks, task.pc.saturates = false

structure Consistent (system : System) : Prop where
  located : ∀ task ∈ system.tasks, task.shard < system.collector.shards.length
  balanced : ∀ counter, system.Balanced counter
  unsaturated : system.latencies < 2 ^ 64 → system.Unsaturated
  minimum : Extremal (fun latency current => latency < current) microsecondsMax
    Shard.minLatencyUs RecordPc.minimumStage system.collector.shards system.tasks
  maximum : Extremal (fun latency current => latency > current) microsecondsMin
    Shard.maxLatencyUs RecordPc.maximumStage system.collector.shards system.tasks

/-- Before the first call after construction or a reset. -/
theorem Consistent.fresh (idle : system.tasks = [])
    (zeroed : ∀ shard ∈ system.collector.shards, shard = .new) : system.Consistent := by
  have sumZero : ∀ weight : Shard → ℕ, weight .new = 0 →
      (system.collector.shards.map weight).sum = 0 := by
    intro weight zero
    refine List.sum_eq_zero fun value member => ?_
    obtain ⟨shard, shardMember, rfl⟩ := List.mem_map.mp member
    rw [zeroed shard shardMember, zero]
  refine ⟨?_, ?_, fun _ => ⟨?_, ?_⟩, ⟨?_, ?_⟩, ⟨?_, ?_⟩⟩
  · simp [idle]
  · intro counter
    rw [Balanced, calls, idle, sumZero _ rfl]
    rfl
  · rw [latencies, calls, idle, sumZero _ rfl]
    rfl
  · simp [idle]
  · simp [idle]
  · exact fun shard member => .inl (zeroed shard member ▸ rfl)
  · simp [idle]
  · exact fun shard member => .inl (zeroed shard member ▸ rfl)

theorem new_consistent (numShards : ℕ) (assignment : Assignment) :
    (new numShards assignment).Consistent :=
  .fresh rfl fun _ member => List.eq_of_mem_replicate member

theorem step_call {thread : ℕ} {sample : Sample}
    (taken : system.step (.call thread sample) = some next) :
    ∃ shard, shard < system.collector.shards.length ∧
      next.collector = system.collector ∧
      next.tasks = system.tasks ++ [⟨shard, sample, .requests⟩] := by
  simp only [step] at taken
  split at taken
  · rename_i within
    cases taken
    exact ⟨_, within, rfl, rfl⟩
  · cases taken

theorem step_move {index : ℕ} {spurious : Bool}
    (taken : system.step (.move index spurious) = some next) :
    ∃ task shard later window nextPc, system.tasks[index]? = some task ∧
      system.collector.shards[task.shard]? = some shard ∧
      task.pc.move task.sample spurious shard system.collector.window =
        some (later, window, nextPc) ∧
      next.collector.shards = system.collector.shards.set task.shard later ∧
      next.collector.window = window ∧
      next.tasks = system.tasks.set index { task with pc := nextPc } := by
  obtain ⟨task, found, taken⟩ := Option.bind_eq_some_iff.mp taken
  obtain ⟨shard, located, taken⟩ := Option.bind_eq_some_iff.mp taken
  obtain ⟨⟨later, window, nextPc⟩, moved, rfl⟩ := Option.map_eq_some_iff.mp taken
  exact ⟨task, shard, later, window, nextPc, found, located, moved, rfl, rfl, rfl⟩

theorem Consistent.call {thread : ℕ} {sample : Sample} (consistent : system.Consistent)
    (taken : system.step (.call thread sample) = some next) : next.Consistent := by
  obtain ⟨shard, within, collectorEq, tasksEq⟩ := step_call taken
  have callsEq : next.calls = system.calls ++ [sample] := by
    simp [calls, tasksEq]
  have latenciesEq : next.latencies = system.latencies + latCount sample := by
    simp [latencies, callsEq]
  refine ⟨?_, ?_, ?_, ?_, ?_⟩
  · rw [collectorEq, tasksEq]
    intro task member
    rcases List.mem_append.mp member with old | new
    · exact consistent.located task old
    · rw [List.mem_singleton.mp new]
      exact within
  · intro counter
    have pendingEq : Task.pending counter ⟨shard, sample, .requests⟩ = amount counter sample := by
      cases counter <;> rfl
    rw [Balanced, collectorEq, tasksEq, callsEq]
    simp only [List.map_append, List.map_cons, List.map_nil, List.sum_append, List.sum_singleton,
      pendingEq, ← Nat.add_assoc]
    exact (consistent.balanced counter).add_right _
  · intro fits
    obtain ⟨total, exactly⟩ := consistent.unsaturated (by omega)
    refine ⟨?_, ?_⟩
    · rw [collectorEq, tasksEq, latenciesEq, ← total]
      simp only [List.map_append, List.map_cons, List.map_nil, List.sum_append,
        List.sum_singleton, Task.pendingLatency, Nat.add_assoc]
    · rw [tasksEq]
      intro task member
      rcases List.mem_append.mp member with old | new
      · exact exactly task old
      · rw [List.mem_singleton.mp new]
        rfl
  · rw [collectorEq, tasksEq]
    exact consistent.minimum.call rfl
  · rw [collectorEq, tasksEq]
    exact consistent.maximum.call rfl

theorem Balanced.move {counter : ShardCounter} {index : ℕ} {task : Task} {shard later : Shard}
    {nextPc : RecordPc} (balanced : system.Balanced counter)
    (found : system.tasks[index]? = some task)
    (located : system.collector.shards[task.shard]? = some shard)
    (shardsEq : next.collector.shards = system.collector.shards.set task.shard later)
    (tasksEq : next.tasks = system.tasks.set index { task with pc := nextPc })
    (callsEq : next.calls = system.calls)
    (moved : later.counters counter + Task.pending counter { task with pc := nextPc } ≡
      shard.counters counter + Task.pending counter task [MOD 2 ^ 64]) :
    next.Balanced counter := by
  have shardSum := Roster.sum_map_set (fun shard => shard.counters counter) located later
  have pendingSum := Roster.sum_map_set (Task.pending counter) found { task with pc := nextPc }
  rw [← shardsEq] at shardSum
  rw [← tasksEq] at pendingSum
  rw [Balanced, callsEq]
  refine Nat.ModEq.trans ?_ balanced
  refine Nat.ModEq.add_right_cancel' (shard.counters counter + Task.pending counter task) ?_
  calc (next.collector.shards.map fun shard => shard.counters counter).sum +
          (next.tasks.map (Task.pending counter)).sum +
          (shard.counters counter + Task.pending counter task)
      = (system.collector.shards.map fun shard => shard.counters counter).sum +
          (system.tasks.map (Task.pending counter)).sum +
          (later.counters counter + Task.pending counter { task with pc := nextPc }) := by omega
    _ ≡ _ [MOD 2 ^ 64] := moved.add_left _

theorem Unsaturated.move {index : ℕ} {task : Task} {shard later : Shard}
    {window nextWindow : Window} {spurious : Bool} {nextPc : RecordPc}
    (unsaturated : system.Unsaturated) (fits : system.latencies < 2 ^ 64)
    (found : system.tasks[index]? = some task)
    (located : system.collector.shards[task.shard]? = some shard)
    (moved : task.pc.move task.sample spurious shard window = some (later, nextWindow, nextPc))
    (shardsEq : next.collector.shards = system.collector.shards.set task.shard later)
    (tasksEq : next.tasks = system.tasks.set index { task with pc := nextPc })
    (latenciesEq : next.latencies = system.latencies) : next.Unsaturated := by
  obtain ⟨total, exactly⟩ := unsaturated
  have shardSum := Roster.sum_map_set Shard.latencySumUs located later
  have pendingSum := Roster.sum_map_set Task.pendingLatency found { task with pc := nextPc }
  rw [← shardsEq] at shardSum
  rw [← tasksEq] at pendingSum
  have register := List.single_le_sum (fun value _ => Nat.zero_le value) shard.latencySumUs
    (List.mem_map_of_mem (List.mem_of_getElem? located))
  have pending := List.single_le_sum (fun value _ => Nat.zero_le value) task.pendingLatency
    (List.mem_map_of_mem (List.mem_of_getElem? found))
  obtain ⟨sumEq, exactlyNext⟩ := Task.move_latencySum moved (by omega)
    (exactly task (List.mem_of_getElem? found))
  constructor
  · omega
  · rw [tasksEq]
    intro other member
    rcases List.mem_or_eq_of_mem_set member with old | rfl
    · exact exactly other old
    · exact exactlyNext

theorem Consistent.move {index : ℕ} {spurious : Bool} (consistent : system.Consistent)
    (taken : system.step (.move index spurious) = some next) : next.Consistent := by
  obtain ⟨task, shard, later, window, nextPc, found, located, moved, shardsEq, -, tasksEq⟩ :=
    step_move taken
  have callsEq : next.calls = system.calls := by
    rw [calls, tasksEq]
    exact Roster.map_set_of_eq found rfl
  have latenciesEq : next.latencies = system.latencies := by
    rw [latencies, callsEq, latencies]
  refine ⟨?_, ?_, ?_, ?_, ?_⟩
  · rw [shardsEq, tasksEq, List.length_set]
    intro other member
    rcases List.mem_or_eq_of_mem_set member with old | rfl
    · exact consistent.located other old
    · exact consistent.located task (List.mem_of_getElem? found)
  · intro counter
    exact (consistent.balanced counter).move found located shardsEq tasksEq callsEq
      (Task.move_counters counter moved)
  · intro fits
    rw [latenciesEq] at fits
    exact (consistent.unsaturated fits).move fits found located moved shardsEq tasksEq latenciesEq
  · rw [shardsEq, tasksEq]
    exact consistent.minimum.move (by simp)
      (fun _ _ _ below above => decide_eq_true
        (lt_trans (of_decide_eq_true below) (of_decide_eq_true above)))
      found located (RecordPc.move_minimum moved)
  · rw [shardsEq, tasksEq]
    exact consistent.maximum.move (by simp)
      (fun _ _ _ above below => decide_eq_true
        (gt_trans (of_decide_eq_true above) (of_decide_eq_true below)))
      found located (RecordPc.move_maximum moved)

theorem Consistent.reset (quiescent : system.Quiescent)
    (taken : system.step .reset = some next) : next.Consistent := by
  cases taken
  refine .fresh ?_ ?_
  · refine List.filter_eq_nil_iff.mpr fun task member => ?_
    simp [quiescent task member]
  · intro shard member
    obtain ⟨_, -, rfl⟩ := List.mem_map.mp member
    rfl

theorem reaches_consistent {numShards : ℕ} {assignment : Assignment}
    (reaches : Reaches step ResetsIdle (new numShards assignment) system) :
    system.Consistent := by
  refine reaches.invariant Consistent (new_consistent numShards assignment) ?_
  intro before action after consistent allowed taken
  cases action with
  | call thread sample => exact consistent.call taken
  | move index spurious => exact consistent.move taken
  | reset => exact .reset allowed taken

end System

end Cppload.Metrics.Sharded

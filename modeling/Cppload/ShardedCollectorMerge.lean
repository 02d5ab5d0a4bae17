import Cppload.ShardedCollectorLedger

/-!
# Merging the shards

When all calls have returned, nothing is pending and the totals over all shards are
those of the calls.  The snapshot is then the plain fold, with one exception: the
largest latency is also the initial value of a minimum, and a minimum that was never
changed is reported as `0`.
-/

namespace Cppload.Metrics.Sharded

open Transition

/-! ### The two folds -/

section Folds

variable {Entry : Type*}

theorem foldl_wrapping_modEq (weight : Entry → ℕ) (entries : List Entry) (initial : ℕ) :
    entries.foldl (fun total entry => (total + weight entry) % 2 ^ 64) initial ≡
      initial + (entries.map weight).sum [MOD 2 ^ 64] := by
  induction entries generalizing initial with
  | nil => rfl
  | cons entry rest ih =>
      rw [List.foldl_cons, List.map_cons, List.sum_cons, ← Nat.add_assoc]
      exact (ih _).trans ((Nat.mod_modEq _ _).add_right _)

theorem foldl_wrapping_lt (weight : Entry → ℕ) (entries : List Entry) {initial : ℕ}
    (reduced : initial < 2 ^ 64) :
    entries.foldl (fun total entry => (total + weight entry) % 2 ^ 64) initial < 2 ^ 64 := by
  induction entries generalizing initial with
  | nil => exact reduced
  | cons entry rest ih => exact ih (Nat.mod_lt _ (Nat.two_pow_pos 64))

theorem foldl_wrapping (weight : Entry → ℕ) (entries : List Entry) :
    entries.foldl (fun total entry => (total + weight entry) % 2 ^ 64) 0 =
      (entries.map weight).sum % 2 ^ 64 := by
  have congruent := foldl_wrapping_modEq weight entries 0
  rw [Nat.zero_add] at congruent
  rw [← Nat.mod_eq_of_lt (foldl_wrapping_lt weight entries (Nat.two_pow_pos 64))]
  exact congruent

theorem wrappingSum_eq (values : List ℕ) : wrappingSum values = values.sum % 2 ^ 64 := by
  have folded := foldl_wrapping id values
  rwa [List.map_id] at folded

end Folds

section PickBest

variable (better : ℤ → ℤ → Bool)

theorem pickBest_mem (initial : ℤ) (values : List ℤ) :
    pickBest better initial values = initial ∨ pickBest better initial values ∈ values := by
  induction values generalizing initial with
  | nil => exact .inl rfl
  | cons value rest ih =>
      rw [pickBest, List.foldl_cons]
      rcases ih (if better value initial then value else initial) with same | member
      · rw [pickBest] at same
        rw [same]
        split
        · exact .inr List.mem_cons_self
        · exact .inl rfl
      · exact .inr (List.mem_cons_of_mem value member)

/-- The result is at least as good as the initial value and every other one. -/
theorem pickBest_best {better} {cost : ℤ → ℤ}
    (costs : ∀ value best, better value best = true ↔ cost value < cost best)
    (initial : ℤ) (values : List ℤ) :
    ∀ value ∈ initial :: values, cost (pickBest better initial values) ≤ cost value := by
  induction values generalizing initial with
  | nil =>
      intro value member
      rw [List.mem_singleton.mp member]
      exact le_refl _
  | cons head rest ih =>
      have bound := ih (if better head initial then head else initial)
      have first := bound _ List.mem_cons_self
      have chosen : cost (if better head initial then head else initial) ≤ cost initial ∧
          cost (if better head initial then head else initial) ≤ cost head := by
        split
        · rename_i wins
          exact ⟨((costs head initial).mp wins).le, le_refl _⟩
        · rename_i loses
          exact ⟨le_refl _, not_lt.mp fun less => loses ((costs head initial).mpr less)⟩
      intro value member
      rcases List.mem_cons.mp member with rfl | others
      · exact first.trans chosen.1
      · rcases List.mem_cons.mp others with rfl | later
        · exact first.trans chosen.2
        · exact bound value (List.mem_cons_of_mem _ later)

end PickBest

/-! ### The plain fold -/

namespace Tally

theorem record_eq (tally : Tally) (sample : Sample) :
    tally.record sample =
      { counters := fun counter => (tally.counters counter + amount counter sample) % 2 ^ 64
        latencySum := tally.latencySum + latCount sample
        minimum := some (tally.minimum.elim (latCount sample)
          fun least => min least (latCount sample))
        maximum := some (tally.maximum.elim (latCount sample)
          fun greatest => max greatest (latCount sample)) } := by
  simp only [record, latCount, latVal_eq]

theorem foldl_record_counters (counter : ShardCounter) (calls : List Sample) (tally : Tally) :
    (calls.foldl record tally).counters counter =
      calls.foldl (fun total call => (total + amount counter call) % 2 ^ 64)
        (tally.counters counter) := by
  induction calls generalizing tally with
  | nil => rfl
  | cons call rest ih => exact ih _

theorem ofCalls_counters (counter : ShardCounter) (calls : List Sample) :
    (ofCalls calls).counters counter = (calls.map (amount counter)).sum % 2 ^ 64 :=
  (foldl_record_counters counter calls empty).trans (foldl_wrapping (amount counter) calls)

theorem foldl_record_latencySum (calls : List Sample) (tally : Tally) :
    (calls.foldl record tally).latencySum = tally.latencySum + (calls.map latCount).sum := by
  induction calls generalizing tally with
  | nil => rfl
  | cons call rest ih =>
      rw [List.foldl_cons, ih, record_eq, List.map_cons, List.sum_cons]
      exact Nat.add_assoc _ _ _

theorem ofCalls_latencySum (calls : List Sample) :
    (ofCalls calls).latencySum = (calls.map latCount).sum :=
  (foldl_record_latencySum calls empty).trans (Nat.zero_add _)

/-- Minimum and maximum, once there is one. -/
theorem foldl_record_extreme (choose : ℕ → ℕ → ℕ) (field : Tally → Option ℕ)
    (recorded : ∀ tally call, field (record tally call) =
      some ((field tally).elim (latCount call) fun best => choose best (latCount call)))
    (calls : List Sample) {tally : Tally} {best : ℕ} (known : field tally = some best) :
    field (calls.foldl record tally) = some ((calls.map latCount).foldl choose best) := by
  induction calls generalizing tally best with
  | nil => exact known
  | cons call rest ih =>
      refine ih ?_
      rw [recorded, known]
      rfl

theorem ofCalls_minimum (calls : List Sample) :
    (ofCalls calls).minimum = (calls.map latCount).min? := by
  have recorded : ∀ tally call, (record tally call).minimum =
      some (tally.minimum.elim (latCount call) fun best => min best (latCount call)) := by
    intro tally call
    rw [record_eq]
  cases calls with
  | nil => rfl
  | cons call rest =>
      rw [List.map_cons, List.min?_cons']
      exact foldl_record_extreme min minimum recorded rest (recorded empty call)

theorem ofCalls_maximum (calls : List Sample) :
    (ofCalls calls).maximum = (calls.map latCount).max? := by
  have recorded : ∀ tally call, (record tally call).maximum =
      some (tally.maximum.elim (latCount call) fun best => max best (latCount call)) := by
    intro tally call
    rw [record_eq]
  cases calls with
  | nil => rfl
  | cons call rest =>
      rw [List.map_cons, List.max?_cons']
      exact foldl_record_extreme max maximum recorded rest (recorded empty call)

end Tally

/-! ### The extremes of all shards -/

namespace Extremal

variable {better : ℤ → ℤ → Bool} {initial : ℤ} {register : Shard → ℤ}
variable {stageOf : RecordPc → Stage} {shards : List Shard} {tasks : List Task}

theorem pickBest_attained (extremal : Extremal better initial register stageOf shards tasks) :
    pickBest better initial (shards.map register) = initial ∨
      ∃ sample ∈ tasks.map Task.sample,
        latVal sample = pickBest better initial (shards.map register) := by
  rcases pickBest_mem better initial (shards.map register) with same | member
  · exact .inl same
  · obtain ⟨shard, shardMember, registerEq⟩ := List.mem_map.mp member
    rw [← registerEq]
    exact extremal.attained shard shardMember

theorem pickBest_le (cost : ℤ → ℤ)
    (costs : ∀ value best, better value best = true ↔ cost value < cost best)
    (extremal : Extremal better initial register stageOf shards tasks)
    (located : ∀ task ∈ tasks, task.shard < shards.length)
    (past : ∀ task ∈ tasks, stageOf task.pc = .past)
    {sample : Sample} (member : sample ∈ tasks.map Task.sample) :
    cost (pickBest better initial (shards.map register)) ≤ cost (latVal sample) := by
  obtain ⟨task, taskMember, rfl⟩ := List.mem_map.mp member
  have found := List.getElem?_eq_getElem (located task taskMember)
  have beaten := extremal.settled task taskMember _ found
  rw [past task taskMember, Stage.Settled, ← Bool.not_eq_true, costs, not_lt] at beaten
  refine le_trans (pickBest_best costs initial _ _ ?_) beaten
  exact List.mem_cons_of_mem _ (List.mem_map_of_mem (List.getElem_mem _))

end Extremal

theorem min?_latCount {calls : List Sample} {least : ℤ}
    (below : ∀ sample ∈ calls, least ≤ latVal sample)
    (attained : ∃ sample ∈ calls, latVal sample = least) :
    (calls.map latCount).min? = some least.toNat := by
  refine List.min?_eq_some_iff.mpr ⟨?_, ?_⟩
  · obtain ⟨sample, member, rfl⟩ := attained
    exact List.mem_map_of_mem member
  · intro value member
    obtain ⟨sample, sampleMember, rfl⟩ := List.mem_map.mp member
    exact Int.toNat_le_toNat (below sample sampleMember)

theorem max?_latCount {calls : List Sample} {greatest : ℤ}
    (above : ∀ sample ∈ calls, latVal sample ≤ greatest)
    (attained : ∃ sample ∈ calls, latVal sample = greatest) :
    (calls.map latCount).max? = some greatest.toNat := by
  refine List.max?_eq_some_iff.mpr ⟨?_, ?_⟩
  · obtain ⟨sample, member, rfl⟩ := attained
    exact List.mem_map_of_mem member
  · intro value member
    obtain ⟨sample, sampleMember, rfl⟩ := List.mem_map.mp member
    exact Int.toNat_le_toNat (above sample sampleMember)

namespace System

variable {system : System}

section Quiescent

variable (consistent : system.Consistent) (quiescent : system.Quiescent)

include consistent quiescent

theorem merged_eq (counter : ShardCounter) :
    system.collector.merged counter = (Tally.ofCalls system.calls).counters counter := by
  have pendingZero : (system.tasks.map (Task.pending counter)).sum = 0 := by
    refine List.sum_eq_zero fun value member => ?_
    obtain ⟨task, taskMember, rfl⟩ := List.mem_map.mp member
    simp [Task.pending, quiescent task taskMember, RecordPc.awaited]
  have balanced := consistent.balanced counter
  rw [Balanced, pendingZero, Nat.add_zero] at balanced
  rw [Tally.ofCalls_counters, ShardedMetricsCollector.merged, wrappingSum_eq]
  exact balanced

theorem latencySum_eq (fits : system.latencies < 2 ^ 64) :
    wrappingSum (system.collector.shards.map Shard.latencySumUs) =
      (Tally.ofCalls system.calls).latencySum := by
  have pendingZero : (system.tasks.map Task.pendingLatency).sum = 0 := by
    refine List.sum_eq_zero fun value member => ?_
    obtain ⟨task, taskMember, rfl⟩ := List.mem_map.mp member
    simp [Task.pendingLatency, quiescent task taskMember]
  have total := (consistent.unsaturated fits).total
  rw [pendingZero, Nat.add_zero] at total
  rw [wrappingSum_eq, total, Nat.mod_eq_of_lt fits, Tally.ofCalls_latencySum]
  rfl

theorem globalMin_le {sample : Sample} (member : sample ∈ system.calls) :
    system.collector.globalMin ≤ latVal sample := by
  refine consistent.minimum.pickBest_le id (by simp) consistent.located ?_ member
  intro task taskMember
  rw [quiescent task taskMember]
  rfl

theorem le_globalMax {sample : Sample} (member : sample ∈ system.calls) :
    latVal sample ≤ system.collector.globalMax := by
  refine neg_le_neg_iff.mp
    (consistent.maximum.pickBest_le Neg.neg (by simp) consistent.located ?_ member)
  intro task taskMember
  rw [quiescent task taskMember]
  rfl

/-- A minimum of the largest latency is taken for the minimum of no call. -/
theorem minLatencyUs_eq_iff {Double : Type*} [Zero Double] (quotient : ℕ → ℕ → Double) :
    (system.collector.snapshot quotient).minLatencyUs =
        (Tally.ofCalls system.calls).minimum.getD 0 ↔
      system.calls = [] ∨ ∃ call ∈ system.calls, call.latency < microsecondsMax := by
  have below : ∀ sample ∈ system.calls, system.collector.globalMin ≤ latVal sample :=
    fun _ member => globalMin_le consistent quiescent member
  simp only [ShardedMetricsCollector.snapshot, Tally.ofCalls_minimum]
  by_cases largest : system.collector.globalMin = microsecondsMax
  · rw [if_pos largest]
    rcases List.eq_nil_or_concat system.calls with uncalled | ⟨_, last, callsEq⟩
    · simp [uncalled]
    · -- Every call took the largest latency, which the snapshot does not report.
      have all : ∀ sample ∈ system.calls, latVal sample = microsecondsMax :=
        fun sample member => le_antisymm (latVal_le sample) (largest ▸ below sample member)
      have lastMember : last ∈ system.calls := by simp [callsEq]
      rw [min?_latCount below ⟨last, lastMember, (all last lastMember).trans largest.symm⟩,
        largest]
      refine iff_of_false (by decide) ?_
      rintro (none | ⟨call, member, less⟩)
      · rw [none] at lastMember
        cases lastMember
      · have equal := all call member
        rw [latVal_eq, microsecondsMax] at equal
        rw [microsecondsMax] at less
        omega
  · rw [if_neg largest]
    obtain ⟨sample, member, attained⟩ :=
      consistent.minimum.pickBest_attained.resolve_left largest
    change latVal sample = system.collector.globalMin at attained
    rw [min?_latCount below ⟨sample, member, attained⟩]
    have nonneg := latVal_nonneg sample
    have bound := latVal_le sample
    refine iff_of_true ?_ (.inr ⟨sample, member, ?_⟩)
    · rw [attained] at nonneg bound
      rw [microsecondsMax] at bound
      rw [Int.emod_eq_of_lt nonneg (by omega)]
      rfl
    · rw [← attained] at largest
      rw [latVal_eq] at largest bound
      omega

theorem maxLatencyUs_eq {Double : Type*} [Zero Double] (quotient : ℕ → ℕ → Double) :
    (system.collector.snapshot quotient).maxLatencyUs =
      (Tally.ofCalls system.calls).maximum.getD 0 := by
  have above : ∀ sample ∈ system.calls, latVal sample ≤ system.collector.globalMax :=
    fun _ member => le_globalMax consistent quiescent member
  simp only [ShardedMetricsCollector.snapshot, Tally.ofCalls_maximum]
  by_cases smallest : system.collector.globalMax = microsecondsMin
  · rw [if_pos smallest]
    have uncalled : system.calls = [] := by
      refine List.eq_nil_iff_forall_not_mem.mpr fun sample member => ?_
      have bound := above sample member
      have nonneg := latVal_nonneg sample
      rw [smallest, microsecondsMin] at bound
      omega
    rw [uncalled]
    rfl
  · rw [if_neg smallest]
    obtain ⟨sample, member, attained⟩ :=
      consistent.maximum.pickBest_attained.resolve_left smallest
    change latVal sample = system.collector.globalMax at attained
    rw [max?_latCount above ⟨sample, member, attained⟩]
    have nonneg := latVal_nonneg sample
    have bound := latVal_le sample
    rw [attained] at nonneg bound
    rw [microsecondsMax] at bound
    rw [Int.emod_eq_of_lt nonneg (by omega)]
    rfl

end Quiescent

/-- However the calls are spread and interleaved, the snapshot is the plain fold
over them, but for a minimum that is the largest latency. -/
theorem reachable_snapshot_eq_iff {Double : Type*} [Zero Double] (quotient : ℕ → ℕ → Double)
    {numShards : ℕ} {assignment : Assignment}
    (reaches : Reaches step ResetsIdle (new numShards assignment) system)
    (quiescent : system.Quiescent)
    (fits : (Tally.ofCalls system.calls).latencySum < 2 ^ 64) :
    (system.collector.snapshot quotient).toSummary =
        (Tally.ofCalls system.calls).summary quotient ↔
      system.calls = [] ∨ ∃ call ∈ system.calls, call.latency < microsecondsMax := by
  have consistent := reaches_consistent reaches
  have small : system.latencies < 2 ^ 64 := by
    rwa [Tally.ofCalls_latencySum] at fits
  rw [← minLatencyUs_eq_iff consistent quiescent quotient]
  constructor
  · intro same
    exact congrArg Summary.minLatencyUs same
  · intro minimum
    ext
    · exact merged_eq consistent quiescent .requests
    · exact merged_eq consistent quiescent .successful
    · exact merged_eq consistent quiescent .failed
    · exact merged_eq consistent quiescent .bytesSent
    · exact merged_eq consistent quiescent .bytesReceived
    · simp only [ShardedMetricsCollector.snapshot, Tally.summary,
        merged_eq consistent quiescent, latencySum_eq consistent quiescent small]
    · exact minimum
    · exact maxLatencyUs_eq consistent quiescent quotient

/-- No thread has called yet. -/
def unassigned : Assignment where
  shardIndex := fun _ => none
  nextShard := 0

theorem microsecondsMin_le_max : microsecondsMin ≤ microsecondsMax := by decide

/-- A call with the given answer, without a body in either direction. -/
def bare (statusCode : Fin (2 ^ 16)) (latency : ℤ) : Sample where
  statusCode := statusCode
  latency := max microsecondsMin (min microsecondsMax latency)
  bytesSent := 0
  bytesReceived := 0
  statusCode_lt := statusCode.isLt
  latency_ge := le_max_left _ _
  latency_le := max_le microsecondsMin_le_max (min_le_left _ _)
  bytesSent_lt := Nat.two_pow_pos 64
  bytesReceived_lt := Nat.two_pow_pos 64

/-- Three threads on two shards; the first and the third take turns on the same
shard and one of them has to repeat its swap. -/
def threeThreads : List Action :=
  [Action.call 0 (bare 200 7), Action.call 1 (bare 503 (-3)), Action.call 2 (bare 200 5)] ++
  (List.replicate 10 [Action.move 0 false, Action.move 1 false, Action.move 2 false]).flatten ++
  (List.replicate 2 [Action.move 0 false, Action.move 2 false]).flatten

theorem reachable_snapshot_eq_three_threads :
    ∃ system, Reaches step ResetsIdle (new 2 unassigned) system ∧ system.Quiescent ∧
      system.calls.length = 3 ∧
      (system.collector.snapshot fun sum total => (sum / total : ℚ)).toSummary =
        (Tally.ofCalls system.calls).summary fun sum total => (sum / total : ℚ) := by
  have evaluated :
      (guardedRun step ResetsIdle (new 2 unassigned) threeThreads).map
        (fun system => (decide system.Quiescent, system.calls.map Sample.latency,
          (Tally.ofCalls system.calls).latencySum)) =
      some (true, [7, -3, 5], 12) := by
    decide +kernel
  obtain ⟨system, executes, fields⟩ := Option.map_eq_some_iff.mp evaluated
  simp only [Prod.mk.injEq, decide_eq_true_eq] at fields
  obtain ⟨quiescent, latencies, latencySum⟩ := fields
  have reaches := reaches_of_guardedRun executes
  have short : ∃ call ∈ system.calls, call.latency < microsecondsMax := by
    have member : 7 ∈ system.calls.map Sample.latency := by simp [latencies]
    obtain ⟨call, callMember, latencyEq⟩ := List.mem_map.mp member
    exact ⟨call, callMember, by rw [latencyEq]; decide⟩
  refine ⟨system, reaches, quiescent, by simpa using congrArg List.length latencies, ?_⟩
  exact (reachable_snapshot_eq_iff _ reaches quiescent (by rw [latencySum]; decide)).mpr
    (.inr short)

/-- One call with the largest latency; the snapshot reports the minimum `0`. -/
theorem largest_latency_not_minimum :
    ∃ system, Reaches step ResetsIdle (new 4 unassigned) system ∧ system.Quiescent ∧
      system.calls.map Sample.latency = [microsecondsMax] ∧
      (Tally.ofCalls system.calls).latencySum < 2 ^ 64 ∧
      (Tally.ofCalls system.calls).minimum = some (2 ^ 63 - 1) ∧
      (system.collector.snapshot fun sum total => (sum / total : ℚ)).minLatencyUs = 0 := by
  have evaluated :
      (guardedRun step ResetsIdle (new 4 unassigned)
        (.call 0 (bare 200 microsecondsMax) ::
          List.replicate 11 (.move 0 false))).map
        (fun system => (decide system.Quiescent, system.calls.map Sample.latency,
          (Tally.ofCalls system.calls).latencySum, (Tally.ofCalls system.calls).minimum,
          (system.collector.snapshot fun sum total => (sum / total : ℚ)).minLatencyUs)) =
      some (true, [microsecondsMax], 2 ^ 63 - 1, some (2 ^ 63 - 1), 0) := by
    decide +kernel
  obtain ⟨system, executes, fields⟩ := Option.map_eq_some_iff.mp evaluated
  simp only [Prod.mk.injEq, decide_eq_true_eq] at fields
  obtain ⟨quiescent, latencies, latencySum, minimum, reported⟩ := fields
  exact ⟨system, reaches_of_guardedRun executes, quiescent, latencies,
    by rw [latencySum]; decide, minimum, reported⟩

end System

end Cppload.Metrics.Sharded

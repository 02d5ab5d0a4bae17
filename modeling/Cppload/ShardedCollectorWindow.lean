import Cppload.OrderStatistic
import Cppload.ShardedCollectorMerge
import Cppload.TicketRing

/-!
# Percentiles of the sharded collector

When every call returns before the next one starts, the shared ring holds the
latest latencies since the last reset, oldest at its head.  The percentiles that
`snapshot` reports are nearest-rank percentiles of this window, except that it
looks at the ring only when the total of the requests, which wraps around at
`2 ^ 64`, is not zero.
-/

namespace Cppload.Metrics.Sharded

open OrderStatistic TicketRing Transition Relation

/-- The least of the samples that at least this percentage of them do not exceed. -/
def NearestRank (percent : ℕ) (samples : List ℕ) (value : ℕ) : Prop :=
  IsLeast {least | least ∈ samples ∧
    percent * samples.length ≤ 100 * samples.countP (· ≤ least)} value

/-! ### The ring -/

theorem kMaxLatencySamples_pos : 0 < kMaxLatencySamples := by
  decide

structure Window.Keeps (window : Window) (history : List ℕ) : Prop where
  head : window.samplesHead = history.length % kMaxLatencySamples
  count : window.samplesCount = min history.length kMaxLatencySamples
  recent : Recent kMaxLatencySamples window.latencySamples (fun _ value cell => cell = value) 0
    (history.length - kMaxLatencySamples) history

section Window

variable {window : Window} {history : List ℕ}

/-- Construction and `reset` leave the cells as they are. -/
theorem Window.keeps_nil (head : window.samplesHead = 0) (count : window.samplesCount = 0) :
    window.Keeps [] where
  head := head
  count := count
  recent := Recent.empty _ _ _ 0

theorem Window.Keeps.push (keeps : window.Keeps history) (latency : ℕ) :
    (window.push latency).Keeps (history ++ [latency]) := by
  have recent := keeps.recent
  refine ⟨?_, ?_, ?_⟩
  · simp only [Window.push, keeps.head, List.length_append, List.length_singleton, Nat.mod_add_mod]
  · simp only [Window.push, keeps.count, List.length_append, List.length_singleton]
    split <;> omega
  · have cellsEq : (window.push latency).latencySamples = Function.update window.latencySamples
        ((0 + history.length) % kMaxLatencySamples) latency := by
      rw [Nat.zero_add, ← keeps.head]
      rfl
    rw [cellsEq, List.length_append, List.length_singleton]
    have positive := kMaxLatencySamples_pos
    by_cases full : kMaxLatencySamples ≤ history.length
    · rw [Nat.sub_add_comm full]
      exact (recent.evict (by omega)).push (by omega) rfl
    · have start : history.length + 1 - kMaxLatencySamples =
          history.length - kMaxLatencySamples := by omega
      rw [start]
      exact recent.push (by omega) rfl

/-- What `snapshot` sorts. -/
theorem Window.Keeps.sorted (keeps : window.Keeps history) :
    window.sorted = ascending (history.rtake kMaxLatencySamples) := by
  have read := keeps.recent.map_cells
  unfold Window.sorted
  dsimp only
  rw [mergeSort_eq_ascending, List.rtake, keeps.head, keeps.count]
  rw [Nat.sub_zero, Nat.zero_add] at read
  refine congrArg ascending ?_
  split
  · rename_i full
    have enough : kMaxLatencySamples ≤ history.length := by omega
    rw [Nat.sub_sub_self enough] at read
    rw [← read, Nat.mod_eq_sub_mod enough]
    exact (map_mod_range' kMaxLatencySamples_pos _).symm
  · rename_i room
    have short : history.length < kMaxLatencySamples := by omega
    rw [Nat.sub_eq_zero_of_le short.le, Nat.sub_zero] at read
    rw [Nat.sub_eq_zero_of_le short.le, ← read, min_eq_left short.le, ← List.range_eq_range']
    refine List.map_congr_left ?_
    intro ticket member
    rw [Nat.mod_eq_of_lt ((List.mem_range.mp member).trans short)]

/-- The index of a percentile stays inside the window. -/
theorem percentileIndex_lt {size percent : ℕ} (positive : 0 < size) (atMost : percent ≤ 100) :
    (size * percent + 99) / 100 - 1 < size := by
  have product : size * percent ≤ size * 100 := Nat.mul_le_mul_left size atMost
  omega

theorem Window.Keeps.percentile {percent : ℕ} (keeps : window.Keeps history)
    (positive : 0 < percent) (atMost : percent ≤ 100)
    (filled : history.rtake kMaxLatencySamples ≠ []) :
    NearestRank percent (history.rtake kMaxLatencySamples) (window.percentile percent) := by
  have sizePositive := List.length_pos_iff.mpr filled
  unfold Window.percentile
  dsimp only
  rw [keeps.sorted, length_ascending, if_pos sizePositive]
  generalize history.rtake kMaxLatencySamples = samples at *
  have within : (samples.length * percent + 99) / 100 - 1 < (ascending samples).length := by
    rw [length_ascending]
    exact percentileIndex_lt sizePositive atMost
  rw [List.getD_eq_getElem _ _ within]
  have product : 0 < samples.length * percent := Nat.mul_pos sizePositive positive
  -- so many samples reach the rank exactly when they reach the percentage
  have rank (reached : ℕ) : (samples.length * percent + 99) / 100 - 1 < reached ↔
      percent * samples.length ≤ 100 * reached := by
    rw [Nat.mul_comm percent]
    omega
  have least := isLeast_rank (List.getElem?_eq_getElem within)
  simpa only [NearestRank, rank] using least

end Window

theorem nearestRank_mono {samples : List ℕ} {low high lowValue highValue : ℕ} (ordered : low ≤ high)
    (lowRank : NearestRank low samples lowValue) (highRank : NearestRank high samples highValue) :
    lowValue ≤ highValue :=
  lowRank.2 ⟨highRank.1.1, (Nat.mul_le_mul_right _ ordered).trans highRank.1.2⟩

/-- Zero is the percentile when so many samples are zero. -/
theorem nearestRank_zero_iff {samples : List ℕ} {percent : ℕ} (positive : 0 < percent)
    (filled : samples ≠ []) :
    NearestRank percent samples 0 ↔ percent * samples.length ≤ 100 * samples.count 0 := by
  have zeros : samples.countP (· ≤ 0) = samples.count 0 := by
    rw [List.count]
    exact List.countP_congr (by simp)
  constructor
  · intro rank
    exact zeros ▸ rank.1.2
  · intro enough
    have product : 0 < percent * samples.length :=
      Nat.mul_pos positive (List.length_pos_iff.mpr filled)
    have member : 0 ∈ samples := List.count_pos_iff.mp (by omega)
    exact ⟨⟨member, zeros ▸ enough⟩, fun value _ => Nat.zero_le value⟩

/-! ### Calls one after the other -/

namespace System

variable {system next : System}

/-- A call or a reset starts only when no call is in progress. -/
def Sequential (system : System) : Action → Prop
  | .call _ _ | .reset => system.Quiescent
  | .move _ _ => True

instance (system : System) : (action : Action) → Decidable (system.Sequential action)
  | .call _ _ | .reset => inferInstanceAs (Decidable system.Quiescent)
  | .move _ _ => .isTrue trivial

theorem Sequential.resetsIdle {action : Action} (allowed : system.Sequential action) :
    system.ResetsIdle action := by
  cases action with
  | call | move => trivial
  | reset => exact allowed

end System

/-- The latency of the call, once it is pushed. -/
def RecordPc.pushed (sample : Sample) : RecordPc → List ℕ
  | .counting | .returned => [latCount sample]
  | _ => []

/-- All calls but possibly the last one have returned; the ring holds their
latencies and that of the last one once it is pushed. -/
inductive Serial : System → Prop
  | idle {system : System} (returned : system.Quiescent)
      (keeps : system.collector.window.Keeps (system.calls.map latCount)) : Serial system
  | busy {system : System} {finished : List Task} {task : Task}
      (tasksEq : system.tasks = finished ++ [task])
      (returned : ∀ earlier ∈ finished, earlier.pc = .returned)
      (keeps : system.collector.window.Keeps
        ((finished.map Task.sample).map latCount ++ task.pc.pushed task.sample)) :
      Serial system

theorem RecordPc.move_window {sample : Sample} {spurious : Bool} {shard later : Shard}
    {window after : Window} {pc nextPc : RecordPc} {history : List ℕ}
    (keeps : window.Keeps (history ++ pc.pushed sample))
    (moved : pc.move sample spurious shard window = some (later, after, nextPc)) :
    after.Keeps (history ++ nextPc.pushed sample) := by
  cases pc with
  | requests | bytesSent | outcome =>
      cases moved
      exact keeps
  | bytesReceived =>
      cases moved
      unfold RecordPc.afterBytes
      split <;> exact keeps
  | summing loop =>
      cases moved
      unfold RecordPc.afterSum
      split <;> exact keeps
  | minimum loop =>
      cases moved
      unfold RecordPc.afterMinimum
      split <;> exact keeps
  | maximum loop =>
      cases moved
      unfold RecordPc.afterMaximum
      split <;> exact keeps
  | sampling =>
      cases moved
      have kept : window.Keeps history := by simpa [RecordPc.pushed] using keeps
      exact kept.push (latCount sample)
  | counting =>
      cases moved
      exact ⟨keeps.head, keeps.count, keeps.recent⟩
  | returned => cases moved

namespace System

variable {system next : System}

theorem serial_keeps (serial : Serial system) (quiescent : system.Quiescent) :
    system.collector.window.Keeps (system.calls.map latCount) := by
  cases serial with
  | idle returned keeps => exact keeps
  | @busy finished task tasksEq returned keeps =>
      have last : task.pc = .returned := quiescent task (by simp [tasksEq])
      rw [last, RecordPc.pushed] at keeps
      rw [calls, tasksEq, List.map_append, List.map_append]
      exact keeps

theorem step_serial {action : Action} (serial : Serial system)
    (allowed : system.Sequential action) (taken : system.step action = some next) :
    Serial next := by
  cases action with
  | call thread sample =>
      obtain ⟨shard, -, collectorEq, tasksEq⟩ := step_call taken
      have keeps := serial_keeps serial allowed
      refine .busy tasksEq allowed ?_
      rw [collectorEq]
      simpa [RecordPc.pushed, calls] using keeps
  | move index spurious =>
      obtain ⟨task, shard, later, window, nextPc, found, -, moved, -, windowEq, nextTasks⟩ :=
        step_move taken
      have running : task.pc ≠ .returned := by
        intro returned
        rw [returned] at moved
        cases moved
      cases serial with
      | idle returned => exact absurd (returned task (List.mem_of_getElem? found)) running
      | @busy finished last tasksEq returned keeps =>
          rw [tasksEq] at found nextTasks
          obtain ⟨rfl, rfl⟩ := Roster.last_of_running returned found running
          rw [Roster.set_concat] at nextTasks
          refine .busy nextTasks returned ?_
          rw [windowEq]
          exact RecordPc.move_window keeps moved
  | reset =>
      cases taken
      have settled : system.tasks.filter (fun task => task.pc ≠ .returned) = [] := by
        refine List.filter_eq_nil_iff.mpr fun task member => ?_
        simpa using allowed task member
      refine .idle ?_ ?_
      · intro task member
        rw [settled] at member
        cases member
      · rw [calls, settled]
        exact Window.keeps_nil rfl rfl

theorem reaches_serial {numShards : ℕ} {assignment : Assignment}
    (reaches : Reaches step Sequential (new numShards assignment) system) : Serial system :=
  reaches.invariant Serial (.idle (by simp [Quiescent, new]) (Window.keeps_nil rfl rfl))
    fun _ _ _ serial allowed taken => step_serial serial allowed taken

theorem requests_eq {numShards : ℕ} {assignment : Assignment}
    (reaches : Reaches step Sequential (new numShards assignment) system)
    (quiescent : system.Quiescent) :
    system.collector.merged .requests = system.calls.length % 2 ^ 64 := by
  have consistent := reaches_consistent (reaches.mono fun _ _ => Sequential.resetsIdle)
  have each : amount .requests = fun _ => 1 := rfl
  rw [merged_eq consistent quiescent, Tally.ofCalls_counters, each, List.map_const',
    List.sum_replicate, smul_eq_mul, Nat.mul_one]

/-- What `snapshot` should report about the recent window. -/
structure PercentilesNearest (system : System) (samples : List ℕ) (p95 p99 : ℕ) : Prop where
  sorted : system.collector.window.sorted = samples.mergeSort (fun first second => first ≤ second)
  inside : ∀ percent ∈ [95, 99], samples ≠ [] →
    (samples.length * percent + 99) / 100 - 1 < system.collector.window.sorted.length
  ordered : p95 ≤ p99
  nearest : samples ≠ [] → NearestRank 95 samples p95 ∧ NearestRank 99 samples p99

theorem percentilesNearest_of_keeps {history : List ℕ} {p95 p99 : ℕ}
    (keeps : system.collector.window.Keeps history) (ordered : p95 ≤ p99)
    (nearest : history.rtake kMaxLatencySamples ≠ [] →
      NearestRank 95 (history.rtake kMaxLatencySamples) p95 ∧
        NearestRank 99 (history.rtake kMaxLatencySamples) p99) :
    PercentilesNearest system (history.rtake kMaxLatencySamples) p95 p99 where
  sorted := keeps.sorted.trans (mergeSort_eq_ascending _).symm
  inside := by
    intro percent member filled
    rw [keeps.sorted, length_ascending]
    refine percentileIndex_lt (List.length_pos_iff.mpr filled) ?_
    fin_cases member <;> decide
  ordered := ordered
  nearest := nearest

theorem rtake_eq_nil_iff (calls : List Sample) :
    (calls.map latCount).rtake kMaxLatencySamples = [] ↔ calls.length = 0 := by
  have positive := kMaxLatencySamples_pos
  rw [List.rtake, List.drop_eq_nil_iff, List.length_map]
  omega

/-- The percentiles are nearest-rank percentiles of the latest latencies exactly
when the number of calls since the last reset is no positive multiple of
`2 ^ 64`, or nearly all of these latencies are zero anyway. -/
theorem reachable_percentiles_iff {Double : Type*} [Zero Double] (quotient : ℕ → ℕ → Double)
    {numShards : ℕ} {assignment : Assignment}
    (reaches : Reaches step Sequential (new numShards assignment) system)
    (quiescent : system.Quiescent) :
    PercentilesNearest system ((system.calls.map latCount).rtake kMaxLatencySamples)
        (system.collector.snapshot quotient).p95LatencyUs
        (system.collector.snapshot quotient).p99LatencyUs ↔
      system.calls.length = 0 ∨ ¬ 2 ^ 64 ∣ system.calls.length ∨
        99 * ((system.calls.map latCount).rtake kMaxLatencySamples).length ≤
          100 * ((system.calls.map latCount).rtake kMaxLatencySamples).count 0 := by
  have keeps := serial_keeps (reaches_serial reaches) quiescent
  have total := requests_eq reaches quiescent
  have emptyIff : (system.calls.map latCount).rtake kMaxLatencySamples = [] ↔
      system.calls.length = 0 := rtake_eq_nil_iff _
  by_cases counted : system.collector.merged .requests > 0
  · have p95Eq : (system.collector.snapshot quotient).p95LatencyUs =
        system.collector.window.percentile 95 := if_pos counted
    have p99Eq : (system.collector.snapshot quotient).p99LatencyUs =
        system.collector.window.percentile 99 := if_pos counted
    have indivisible : ¬ 2 ^ 64 ∣ system.calls.length := by omega
    have filled := emptyIff.not.mpr (by omega)
    have nearest95 := keeps.percentile (show 0 < 95 by decide) (by decide) filled
    have nearest99 := keeps.percentile (show 0 < 99 by decide) (by decide) filled
    rw [p95Eq, p99Eq]
    exact iff_of_true
      (percentilesNearest_of_keeps keeps (nearestRank_mono (by decide) nearest95 nearest99)
        fun _ => ⟨nearest95, nearest99⟩)
      (.inr (.inl indivisible))
  · have p95Eq : (system.collector.snapshot quotient).p95LatencyUs = 0 := if_neg counted
    have p99Eq : (system.collector.snapshot quotient).p99LatencyUs = 0 := if_neg counted
    have divisible : 2 ^ 64 ∣ system.calls.length := by omega
    rw [p95Eq, p99Eq, ← emptyIff]
    constructor
    · intro reported
      by_cases empty : (system.calls.map latCount).rtake kMaxLatencySamples = []
      · exact .inl empty
      · exact .inr (.inr ((nearestRank_zero_iff (by decide) empty).mp (reported.nearest empty).2))
    · rintro (empty | indivisible | zeros)
      · exact percentilesNearest_of_keeps keeps le_rfl fun filled => absurd empty filled
      · exact absurd divisible indivisible
      · refine percentilesNearest_of_keeps keeps le_rfl fun filled => ?_
        rw [nearestRank_zero_iff (by decide) filled, nearestRank_zero_iff (by decide) filled]
        exact ⟨by omega, zeros⟩

end System

/-! ### A call that runs alone returns -/

/-- Moves of a call in a row that no other call interrupts. -/
def Alone (sample : Sample) :
    Shard × Window × RecordPc → Shard × Window × RecordPc → Prop :=
  ReflTransGen fun before after =>
    before.2.2.move sample false before.1 before.2.1 = some after

section Alone

variable (sample : Sample) (shard : Shard) (window : Window)

theorem alone_sum : ∃ later, Alone sample (shard, window, .afterBytes sample)
    (later, window, .outcome) := by
  unfold RecordPc.afterBytes
  split
  · exact ⟨shard, .refl⟩
  · have loaded : Alone sample (shard, window, .summing .load)
        (shard, window, .summing (.test sample.latency.toNat shard.latencySumUs)) :=
      .single rfl
    unfold SumLoop.test at loaded
    split at loaded
    · exact ⟨_, loaded.tail rfl⟩
    · refine ⟨{ shard with
        latencySumUs := (shard.latencySumUs + sample.latency.toNat) % 2 ^ 64 },
        loaded.tail ?_⟩
      simp [RecordPc.move, SumLoop.move, RecordPc.afterSum]

theorem alone_minimum : ∃ later, Alone sample (shard, window, .minimum .load)
    (later, window, .maximum .load) := by
  by_cases lower : latVal sample < shard.minLatencyUs
  · have loaded : Alone sample (shard, window, .minimum .load)
        (shard, window, .minimum (.cas shard.minLatencyUs)) := by
      refine .single ?_
      simp [RecordPc.move, Contend.move, Contend.test, lower, RecordPc.afterMinimum]
    refine ⟨{ shard with minLatencyUs := latVal sample }, loaded.tail ?_⟩
    simp [RecordPc.move, Contend.move, RecordPc.afterMinimum]
  · refine ⟨shard, .single ?_⟩
    simp [RecordPc.move, Contend.move, Contend.test, lower, RecordPc.afterMinimum]

theorem alone_maximum : ∃ later, Alone sample (shard, window, .maximum .load)
    (later, window, .sampling) := by
  by_cases higher : shard.maxLatencyUs < latVal sample
  · have loaded : Alone sample (shard, window, .maximum .load)
        (shard, window, .maximum (.cas shard.maxLatencyUs)) := by
      refine .single ?_
      simp [RecordPc.move, Contend.move, Contend.test, higher, RecordPc.afterMaximum]
    refine ⟨{ shard with maxLatencyUs := latVal sample }, loaded.tail ?_⟩
    simp [RecordPc.move, Contend.move, RecordPc.afterMaximum]
  · refine ⟨shard, .single ?_⟩
    simp [RecordPc.move, Contend.move, Contend.test, higher, RecordPc.afterMaximum]

theorem alone_returns : ∃ later after, Alone sample (shard, window, .requests)
    (later, after, .returned) := by
  let counted := ((shard.fetchAdd .requests 1).fetchAdd .bytesSent sample.bytesSent).fetchAdd
    .bytesReceived sample.bytesReceived
  obtain ⟨summed, toOutcome⟩ := alone_sum sample counted window
  obtain ⟨lowered, toMaximum⟩ :=
    alone_minimum sample (summed.fetchAdd (outcomeOf sample) 1) window
  obtain ⟨raised, toSampling⟩ := alone_maximum sample lowered window
  have toSum : Alone sample (shard, window, .requests) (counted, window, .afterBytes sample) :=
    .head rfl (.head rfl (.head rfl .refl))
  have toMinimum : Alone sample (summed, window, .outcome)
      (summed.fetchAdd (outcomeOf sample) 1, window, .minimum .load) := .head rfl .refl
  refine ⟨raised, _, toSum.trans (toOutcome.trans (toMinimum.trans
    (toMaximum.trans (toSampling.trans (.head rfl (.head rfl .refl))))))⟩

end Alone

namespace System

variable {system : System}

/-- Moves of one call are moves of the system. -/
theorem reaches_of_alone {index : ℕ} {task : Task} {shard : Shard}
    {last : Shard × Window × RecordPc} (found : system.tasks[index]? = some task)
    (located : system.collector.shards[task.shard]? = some shard)
    (alone : Alone task.sample (shard, system.collector.window, task.pc) last) :
    Reaches step Sequential system
      { system with
        collector :=
          { shards := system.collector.shards.set task.shard last.1
            window := last.2.1 }
        tasks := system.tasks.set index { task with pc := last.2.2 } } := by
  induction alone with
  | refl =>
      change Reaches step Sequential system
        ⟨⟨system.collector.shards.set task.shard shard, system.collector.window⟩,
          system.assignment, system.tasks.set index task⟩
      rw [Roster.set_eq_self found, Roster.set_eq_self located]
      exact Reaches.refl system
  | @tail middle last _ moved reached =>
      have foundMiddle : (system.tasks.set index { task with pc := middle.2.2 })[index]? =
          some { task with pc := middle.2.2 } := Roster.getElem?_set_self found
      have locatedMiddle : (system.collector.shards.set task.shard middle.1)[task.shard]? =
          some middle.1 := Roster.getElem?_set_self located
      refine ReflTransGen.tail reached ⟨.move index false, trivial, ?_⟩
      simp [step, foundMiddle, locatedMiddle, moved]

/-- The thread has no shard yet or one of this collector. -/
def Assigned (system : System) (thread : ℕ) : Prop :=
  (system.assignment.getShardIndex system.collector.shards.length thread).1 <
    system.collector.shards.length

theorem getShardIndex_again {assignment : Assignment} {numShards thread : ℕ}
    {given : ℕ × Assignment} (givenEq : assignment.getShardIndex numShards thread = given) :
    (given.2.getShardIndex numShards thread).1 = given.1 := by
  subst givenEq
  unfold Assignment.getShardIndex
  cases known : assignment.shardIndex thread with
  | some index => simp [known]
  | none => simp

/-- A call of a thread that has a shard can return before anything else happens. -/
theorem call_returns {thread : ℕ} (sample : Sample) (quiescent : system.Quiescent)
    (assigned : system.Assigned thread) :
    ∃ next, Reaches step Sequential system next ∧ next.Quiescent ∧ next.Assigned thread ∧
      next.calls = system.calls ++ [sample] := by
  obtain ⟨given, givenEq⟩ :
      ∃ given, system.assignment.getShardIndex system.collector.shards.length thread = given :=
    ⟨_, rfl⟩
  have within : given.1 < system.collector.shards.length := givenEq ▸ assigned
  obtain ⟨called, calledEq⟩ : ∃ called, called =
      { system with
        assignment := given.2
        tasks := system.tasks ++ [Task.mk given.1 sample .requests] } :=
    ⟨_, rfl⟩
  have started : step system (.call thread sample) = some called := by
    rw [calledEq, ← givenEq]
    exact if_pos assigned
  have found : called.tasks[system.tasks.length]? = some ⟨given.1, sample, .requests⟩ := by
    simp [calledEq]
  have located : called.collector.shards[given.1]? =
      some system.collector.shards[given.1] := by
    rw [calledEq]
    exact List.getElem?_eq_getElem within
  obtain ⟨later, after, alone⟩ :=
    alone_returns sample system.collector.shards[given.1] called.collector.window
  have begun : Reaches step Sequential system called :=
    ReflTransGen.single ⟨.call thread sample, quiescent, started⟩
  refine ⟨_, begun.trans (reaches_of_alone found located alone), ?_, ?_, ?_⟩
  · subst calledEq
    simpa [Quiescent, forall_and, or_imp] using quiescent
  · subst calledEq
    rw [Assigned, List.length_set]
    exact getShardIndex_again givenEq ▸ within
  · subst calledEq
    simp [calls]

theorem calls_reachable {numShards thread : ℕ} {assignment : Assignment}
    (assigned : (new numShards assignment).Assigned thread) (calls : List Sample) :
    ∃ system, Reaches step Sequential (new numShards assignment) system ∧ system.Quiescent ∧
      system.Assigned thread ∧ system.calls = calls := by
  induction calls using List.reverseRecOn with
  | nil => exact ⟨_, Reaches.refl _, by simp [Quiescent, new], assigned, rfl⟩
  | append_singleton calls sample ih =>
      obtain ⟨system, reaches, quiescent, ready, callsEq⟩ := ih
      obtain ⟨next, toNext, nextQuiescent, nextReady, nextCalls⟩ :=
        call_returns sample quiescent ready
      exact ⟨next, reaches.trans toNext, nextQuiescent, nextReady, callsEq ▸ nextCalls⟩

/-- After a multiple of `2 ^ 64` calls the percentiles are reported as zero. -/
theorem wraparound_reachable {n : ℕ} (divisible : 2 ^ 64 ∣ n) :
    ∃ system, Reaches step Sequential (new 1 unassigned) system ∧ system.Quiescent ∧
      system.calls.length = n ∧ (∀ call ∈ system.calls, latCount call = 1) ∧
      (system.collector.snapshot fun sum total => (sum / total : ℚ)).p95LatencyUs = 0 := by
  have assigned : (new 1 unassigned).Assigned 0 := Nat.one_pos
  obtain ⟨system, reaches, quiescent, -, callsEq⟩ :=
    calls_reachable assigned (List.replicate n (bare 200 1))
  have total := requests_eq reaches quiescent
  have lengthEq : system.calls.length = n := by
    rw [callsEq, List.length_replicate]
  rw [lengthEq, Nat.mod_eq_zero_of_dvd divisible] at total
  refine ⟨system, reaches, quiescent, lengthEq, ?_, if_neg total.not_gt⟩
  intro call member
  rw [callsEq] at member
  rw [List.eq_of_mem_replicate member]
  decide

/-- After `2 ^ 64` calls of one microsecond each the reported percentiles are
not among the samples. -/
theorem percentiles_lost_by_wraparound :
    ∃ system, Reaches step Sequential (new 1 unassigned) system ∧ system.Quiescent ∧
      system.calls.length = 2 ^ 64 ∧ (∀ call ∈ system.calls, latCount call = 1) ∧
      (system.collector.snapshot fun sum total => (sum / total : ℚ)).p95LatencyUs = 0 ∧
      ¬ PercentilesNearest system ((system.calls.map latCount).rtake kMaxLatencySamples)
        (system.collector.snapshot fun sum total => (sum / total : ℚ)).p95LatencyUs
        (system.collector.snapshot fun sum total => (sum / total : ℚ)).p99LatencyUs := by
  obtain ⟨system, reaches, quiescent, lengthEq, ones, zero⟩ :=
    wraparound_reachable dvd_rfl
  refine ⟨system, reaches, quiescent, lengthEq, ones, zero, ?_⟩
  intro reported
  have filled : (system.calls.map latCount).rtake kMaxLatencySamples ≠ [] := by
    rw [ne_eq, rtake_eq_nil_iff, lengthEq]
    exact (Nat.two_pow_pos 64).ne'
  have member := (reported.nearest filled).1.1.1
  rw [zero] at member
  obtain ⟨call, callMember, latencyEq⟩ := List.mem_map.mp (List.mem_of_mem_drop member)
  exact absurd ((ones call callMember).symm.trans latencyEq) Nat.one_ne_zero

/-- Three calls, a reset and three more calls, one of them with a negative
latency. -/
theorem reachable_percentiles_after_reset :
    ∃ system, Reaches step Sequential (new 2 unassigned) system ∧ system.Quiescent ∧
      system.calls.map Sample.latency = [7, -3, 5] ∧
      PercentilesNearest system [7, 0, 5]
        (system.collector.snapshot fun sum total => (sum / total : ℚ)).p95LatencyUs
        (system.collector.snapshot fun sum total => (sum / total : ℚ)).p99LatencyUs := by
  have evaluated :
      (guardedRun step Sequential (new 2 unassigned) (List.flatten
        [.call 0 (bare 200 9) :: List.replicate 12 (.move 0 false),
          [.reset],
          .call 0 (bare 200 7) :: List.replicate 12 (.move 0 false),
          .call 1 (bare 503 (-3)) :: List.replicate 10 (.move 1 false),
          .call 0 (bare 200 5) :: List.replicate 11 (.move 2 false)])).map
        (fun system => (decide system.Quiescent, system.calls.map Sample.latency,
          (system.calls.map latCount).rtake kMaxLatencySamples)) =
      some (true, [7, -3, 5], [7, 0, 5]) := by
    decide +kernel
  obtain ⟨system, executes, fields⟩ := Option.map_eq_some_iff.mp evaluated
  simp only [Prod.mk.injEq, decide_eq_true_eq] at fields
  obtain ⟨quiescent, latencies, windowEq⟩ := fields
  have three : system.calls.length = 3 := by
    simpa using congrArg List.length latencies
  have reaches := reaches_of_guardedRun executes
  refine ⟨system, reaches, quiescent, latencies, ?_⟩
  rw [← windowEq]
  exact (reachable_percentiles_iff _ reaches quiescent).mpr (.inr (.inl (by rw [three]; decide)))

end System

end Cppload.Metrics.Sharded

import Cppload.MetricsCollector

/-!
# The sharded metrics collector

`ShardedMetricsCollector` spreads its counters over shards, and each thread keeps
to the shard it was given at its first call.  As for the plain collector, a call
in progress is a task with a program counter and a move of a task is one atomic
operation or one critical section.  `snapshot` merges the shards; what it should
amount to is the `Tally` of the calls, made one after the other on one set of
numbers.
-/

namespace Cppload.Metrics.Sharded

def kMaxLatencySamples : ℕ :=
  8192

inductive ShardCounter where
  | requests
  | successful
  | failed
  | bytesSent
  | bytesReceived
  deriving DecidableEq, Repr

structure Shard where
  counters : ShardCounter → ℕ
  latencySumUs : ℕ
  minLatencyUs : ℤ
  maxLatencyUs : ℤ

def Shard.new : Shard where
  counters := fun _ => 0
  latencySumUs := 0
  minLatencyUs := microsecondsMax
  maxLatencyUs := microsecondsMin

def Shard.fetchAdd (shard : Shard) (counter : ShardCounter) (amount : ℕ) : Shard :=
  { shard with
    counters := Function.update shard.counters counter
      ((shard.counters counter + amount) % 2 ^ 64) }

/-- The ring of latencies for the percentiles and the counter of the request
rate, which all shards have in common. -/
structure Window where
  latencySamples : ℕ → ℕ
  samplesHead : ℕ
  samplesCount : ℕ
  rpsCount : ℕ

def Window.new : Window where
  latencySamples := fun _ => 0
  samplesHead := 0
  samplesCount := 0
  rpsCount := 0

structure ShardedMetricsCollector where
  shards : List Shard
  window : Window

def ShardedMetricsCollector.new (numShards : ℕ) : ShardedMetricsCollector where
  shards := List.replicate numShards .new
  window := .new

/-- `t_shard_index` of each thread, which is `none` for `SIZE_MAX`, and
`s_next_shard`. -/
structure Assignment where
  shardIndex : ℕ → Option ℕ
  nextShard : ℕ

def Assignment.getShardIndex (assignment : Assignment) (numShards thread : ℕ) :
    ℕ × Assignment :=
  match assignment.shardIndex thread with
  | some index => (index, assignment)
  | none =>
      let index := assignment.nextShard % numShards
      (index,
        { shardIndex := Function.update assignment.shardIndex thread (some index)
          nextShard := increment assignment.nextShard })

/-! ### `record_request` -/

/-- The counter of the status test. -/
def outcomeOf (sample : Sample) : ShardCounter :=
  if 200 ≤ sample.statusCode ∧ sample.statusCode < 400 then .successful else .failed

/-- `lat_val`, the latency clamped to at least zero. -/
def latVal (sample : Sample) : ℤ :=
  if sample.latency < 0 then 0 else sample.latency

/-- The loop that adds to `latency_sum_us`; `saturate` is the store of the
largest number. -/
inductive SumLoop where
  | load
  | cas (curSum : ℕ)
  | saturate
  deriving DecidableEq, Repr

def SumLoop.test (latCount curSum : ℕ) : SumLoop :=
  if curSum > 2 ^ 64 - 1 - latCount then .saturate else .cas curSum

/-- One move of the loop, which is left when no program counter remains. -/
def SumLoop.move (latCount : ℕ) (spurious : Bool) (register : ℕ) :
    SumLoop → ℕ × Option SumLoop
  | .load => (register, some (test latCount register))
  | .cas curSum =>
      if register = curSum ∧ spurious = false then ((curSum + latCount) % 2 ^ 64, none)
      else (register, some (test latCount register))
  | .saturate => (2 ^ 64 - 1, none)

inductive RecordPc where
  | requests
  | bytesSent
  | bytesReceived
  | summing (loop : SumLoop)
  | outcome
  | minimum (loop : Contend)
  | maximum (loop : Contend)
  | sampling
  | counting
  | returned
  deriving DecidableEq, Repr

/-- A latency that is not positive is not added. -/
def RecordPc.afterBytes (sample : Sample) : RecordPc :=
  if sample.latency ≤ 0 then .outcome else .summing .load

def RecordPc.afterSum : Option SumLoop → RecordPc
  | some loop => .summing loop
  | none => .outcome

def RecordPc.afterMinimum : Option Contend → RecordPc
  | some loop => .minimum loop
  | none => .maximum .load

def RecordPc.afterMaximum : Option Contend → RecordPc
  | some loop => .maximum loop
  | none => .sampling

/-- The critical section of `samples_mtx_`. -/
def Window.push (window : Window) (latency : ℕ) : Window :=
  { window with
    latencySamples := Function.update window.latencySamples window.samplesHead latency
    samplesHead := (window.samplesHead + 1) % kMaxLatencySamples
    samplesCount := if window.samplesCount < kMaxLatencySamples then window.samplesCount + 1
      else window.samplesCount }

def RecordPc.move (sample : Sample) (spurious : Bool) (shard : Shard) (window : Window) :
    RecordPc → Option (Shard × Window × RecordPc)
  | .requests => some (shard.fetchAdd .requests 1, window, .bytesSent)
  | .bytesSent => some (shard.fetchAdd .bytesSent sample.bytesSent, window, .bytesReceived)
  | .bytesReceived =>
      some (shard.fetchAdd .bytesReceived sample.bytesReceived, window, afterBytes sample)
  | .summing loop =>
      let result := loop.move sample.latency.toNat spurious shard.latencySumUs
      some ({ shard with latencySumUs := result.1 }, window, afterSum result.2)
  | .outcome => some (shard.fetchAdd (outcomeOf sample) 1, window, .minimum .load)
  | .minimum loop =>
      let result := loop.move (fun latency current => latency < current) (latVal sample)
        spurious shard.minLatencyUs
      some ({ shard with minLatencyUs := result.1 }, window, afterMinimum result.2)
  | .maximum loop =>
      let result := loop.move (fun latency current => latency > current) (latVal sample)
        spurious shard.maxLatencyUs
      some ({ shard with maxLatencyUs := result.1 }, window, afterMaximum result.2)
  | .sampling => some (shard, window.push (latVal sample).toNat, .counting)
  | .counting =>
      some (shard, { window with rpsCount := increment window.rpsCount }, .returned)
  | .returned => none

/-! ### `snapshot` -/

/-- The part of `ShardedMetrics` that does not come from the ring. -/
@[ext]
structure Summary (Double : Type*) where
  totalRequests : ℕ
  successfulRequests : ℕ
  failedRequests : ℕ
  totalBytesSent : ℕ
  totalBytesReceived : ℕ
  meanLatencyUs : Double
  minLatencyUs : ℕ
  maxLatencyUs : ℕ
  deriving DecidableEq

structure ShardedMetrics (Double : Type*) extends Summary Double where
  p95LatencyUs : ℕ
  p99LatencyUs : ℕ

/-- `total += value` for every value. -/
def wrappingSum (values : List ℕ) : ℕ :=
  values.foldl (fun total value => (total + value) % 2 ^ 64) 0

/-- `if (better(value, best)) best = value` for every value. -/
def pickBest (better : ℤ → ℤ → Bool) (initial : ℤ) (values : List ℤ) : ℤ :=
  values.foldl (fun best value => if better value best then value else best) initial

/-- The retained latencies, sorted; a full ring begins at its head. -/
def Window.sorted (window : Window) : List ℕ :=
  let kept :=
    if window.samplesCount = kMaxLatencySamples then
      (List.range' window.samplesHead (kMaxLatencySamples - window.samplesHead)).map
          window.latencySamples ++
        (List.range window.samplesHead).map window.latencySamples
    else (List.range window.samplesCount).map window.latencySamples
  kept.mergeSort (fun first second => first ≤ second)

def Window.percentile (window : Window) (percent : ℕ) : ℕ :=
  let n := window.sorted.length
  if 0 < n then window.sorted.getD ((n * percent + 99) / 100 - 1) 0 else 0

namespace ShardedMetricsCollector

def merged (collector : ShardedMetricsCollector) (counter : ShardCounter) : ℕ :=
  wrappingSum (collector.shards.map fun shard => shard.counters counter)

def globalMin (collector : ShardedMetricsCollector) : ℤ :=
  pickBest (fun value best => value < best) microsecondsMax
    (collector.shards.map Shard.minLatencyUs)

def globalMax (collector : ShardedMetricsCollector) : ℤ :=
  pickBest (fun value best => value > best) microsecondsMin
    (collector.shards.map Shard.maxLatencyUs)

/-- `quotient` converts two unsigned numbers to `double` and divides them. -/
def snapshot {Double : Type*} [Zero Double] (quotient : ℕ → ℕ → Double)
    (collector : ShardedMetricsCollector) : ShardedMetrics Double :=
  let totalRequests := collector.merged .requests
  { totalRequests := totalRequests
    successfulRequests := collector.merged .successful
    failedRequests := collector.merged .failed
    totalBytesSent := collector.merged .bytesSent
    totalBytesReceived := collector.merged .bytesReceived
    meanLatencyUs :=
      if totalRequests > 0 then
        quotient (wrappingSum (collector.shards.map Shard.latencySumUs)) totalRequests
      else 0
    minLatencyUs :=
      if collector.globalMin = microsecondsMax then 0
      else (collector.globalMin % 2 ^ 64).toNat
    maxLatencyUs :=
      if collector.globalMax = microsecondsMin then 0
      else (collector.globalMax % 2 ^ 64).toNat
    p95LatencyUs := if totalRequests > 0 then collector.window.percentile 95 else 0
    p99LatencyUs := if totalRequests > 0 then collector.window.percentile 99 else 0 }

/-- All stores of `reset`; the cells of the ring keep what they hold. -/
def reset (collector : ShardedMetricsCollector) : ShardedMetricsCollector where
  shards := collector.shards.map fun _ => .new
  window :=
    { collector.window with
      samplesHead := 0
      samplesCount := 0
      rpsCount := 0 }

end ShardedMetricsCollector

/-! ### Calls on a collector -/

structure Task where
  shard : ℕ
  sample : Sample
  pc : RecordPc

/-- A collector with the calls that were made on it since the last reset, in the
order of their start. -/
structure System where
  collector : ShardedMetricsCollector
  assignment : Assignment
  tasks : List Task

inductive Action where
  | call (thread : ℕ) (sample : Sample)
  | move (index : ℕ) (spurious : Bool)
  | reset

namespace System

def new (numShards : ℕ) (assignment : Assignment) : System where
  collector := .new numShards
  assignment := assignment
  tasks := []

def step (system : System) : Action → Option System
  | .call thread sample =>
      let shards := system.collector.shards
      let given := system.assignment.getShardIndex shards.length thread
      if given.1 < shards.length then
        some { system with
          assignment := given.2
          tasks := system.tasks ++ [⟨given.1, sample, .requests⟩] }
      else none
  | .move index spurious =>
      (system.tasks[index]?).bind fun task =>
        (system.collector.shards[task.shard]?).bind fun shard =>
          (task.pc.move task.sample spurious shard system.collector.window).map fun result =>
            { system with
              collector :=
                { shards := system.collector.shards.set task.shard result.1
                  window := result.2.1 }
              tasks := system.tasks.set index { task with pc := result.2.2 } }
  | .reset =>
      some { system with
        collector := system.collector.reset
        tasks := system.tasks.filter fun task => task.pc ≠ .returned }

def calls (system : System) : List Sample :=
  system.tasks.map Task.sample

/-- No call is in progress. -/
def Quiescent (system : System) : Prop :=
  ∀ task ∈ system.tasks, task.pc = .returned

instance (system : System) : Decidable system.Quiescent :=
  inferInstanceAs (Decidable (∀ task ∈ system.tasks, task.pc = .returned))

/-- `reset` is only called while no call is in progress. -/
def ResetsIdle (system : System) : Action → Prop
  | .reset => system.Quiescent
  | _ => True

instance (system : System) (action : Action) : Decidable (system.ResetsIdle action) := by
  cases action <;> unfold ResetsIdle <;> infer_instance

end System

/-! ### The plain fold -/

/-- What a call adds to a counter. -/
def amount (counter : ShardCounter) (sample : Sample) : ℕ :=
  match counter with
  | .requests => 1
  | .successful => if 200 ≤ sample.statusCode ∧ sample.statusCode < 400 then 1 else 0
  | .failed => if 200 ≤ sample.statusCode ∧ sample.statusCode < 400 then 0 else 1
  | .bytesSent => sample.bytesSent
  | .bytesReceived => sample.bytesReceived

/-- The numbers of the calls so far.  The counters are unsigned, the sum of the
latencies is exact. -/
structure Tally where
  counters : ShardCounter → ℕ
  latencySum : ℕ
  minimum : Option ℕ
  maximum : Option ℕ

namespace Tally

def empty : Tally where
  counters := fun _ => 0
  latencySum := 0
  minimum := none
  maximum := none

def record (tally : Tally) (sample : Sample) : Tally where
  counters := fun counter => (tally.counters counter + amount counter sample) % 2 ^ 64
  latencySum := tally.latencySum + (max 0 sample.latency).toNat
  minimum := some (tally.minimum.elim (max 0 sample.latency).toNat
    fun least => min least (max 0 sample.latency).toNat)
  maximum := some (tally.maximum.elim (max 0 sample.latency).toNat
    fun greatest => max greatest (max 0 sample.latency).toNat)

def ofCalls (calls : List Sample) : Tally :=
  calls.foldl record empty

def summary {Double : Type*} [Zero Double] (quotient : ℕ → ℕ → Double) (tally : Tally) :
    Summary Double where
  totalRequests := tally.counters .requests
  successfulRequests := tally.counters .successful
  failedRequests := tally.counters .failed
  totalBytesSent := tally.counters .bytesSent
  totalBytesReceived := tally.counters .bytesReceived
  meanLatencyUs :=
    if tally.counters .requests > 0 then quotient tally.latencySum (tally.counters .requests)
    else 0
  minLatencyUs := tally.minimum.getD 0
  maxLatencyUs := tally.maximum.getD 0

end Tally

end Cppload.Metrics.Sharded

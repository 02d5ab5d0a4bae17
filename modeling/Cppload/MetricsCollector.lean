import Cppload.TransitionSystem

/-!
# The metrics collector

`MetricsCollector` counts finished requests in relaxed atomics and keeps the
latest latencies in a lock-free ring.  A call in progress is a task with a
program counter, and a move of a task is one atomic load, store, `fetch_add` or
`compare_exchange_weak`, together with the local computation up to the next
one.  Unsigned counters are natural numbers with explicit reduction modulo
`2 ^ 64`.
-/

namespace Cppload.Metrics

def kRingCapacity : ℕ :=
  1 <<< 20

def kRingMask : ℕ :=
  kRingCapacity - 1

def kMaxSnapshotSamples : ℕ :=
  100000

/-- `std::chrono::microseconds::max().count()`. -/
def microsecondsMax : ℤ :=
  2 ^ 63 - 1

/-- `std::chrono::microseconds::min().count()`. -/
def microsecondsMin : ℤ :=
  -2 ^ 63

/-- Unsigned increment. -/
def increment (value : ℕ) : ℕ :=
  (value + 1) % 2 ^ 64

/-- Unsigned difference, which wraps when the second number is larger. -/
def difference (first second : ℕ) : ℕ :=
  (first + (2 ^ 64 - second)) % 2 ^ 64

/-- The cell of a ticket. -/
def slot (ticket : ℕ) : ℕ :=
  ticket &&& kRingMask

@[ext]
structure Cell where
  seq : ℕ
  value : ℤ
  deriving DecidableEq, Repr

/-- `ring_`, `head_` and `tail_`. -/
structure Ring where
  cells : ℕ → Cell
  head : ℕ
  tail : ℕ

/-- The arguments of `record_request`, within the ranges of their types. -/
structure Sample where
  statusCode : ℕ
  latency : ℤ
  bytesSent : ℕ
  bytesReceived : ℕ
  statusCode_lt : statusCode < 2 ^ 16
  latency_ge : microsecondsMin ≤ latency
  latency_le : latency ≤ microsecondsMax
  bytesSent_lt : bytesSent < 2 ^ 64
  bytesReceived_lt : bytesReceived < 2 ^ 64

inductive Counter where
  | totalRequests
  | successfulRequests
  | failedRequests
  | totalBytesSent
  | totalBytesReceived
  | cumulativeLatencyUs
  deriving DecidableEq, Repr

/-- `snapshotMtx` is the task that holds the mutex. -/
structure MetricsCollector where
  counters : Counter → ℕ
  minLatencyUs : ℤ
  maxLatencyUs : ℤ
  startTime : ℤ
  ring : Ring
  snapshotMtx : Option ℕ

def Ring.new : Ring where
  cells index := { seq := index, value := 0 }
  head := 0
  tail := 0

def MetricsCollector.new (now : ℤ) : MetricsCollector where
  counters _ := 0
  minLatencyUs := microsecondsMax
  maxLatencyUs := microsecondsMin
  startTime := now
  ring := .new
  snapshotMtx := none

/-- What the scheduler and the clock decide about a move. -/
structure Choice where
  spurious : Bool
  now : ℤ

/-! ### `record_request` -/

/-- The counter of the status test. -/
def Sample.outcome (sample : Sample) : Counter :=
  if 200 ≤ sample.statusCode ∧ sample.statusCode < 400 then .successfulRequests
  else .failedRequests

/-- The `fetch_add`s of `record_request` in program order; the latency is
converted to an unsigned number. -/
def Sample.fetchAdds (sample : Sample) : List (Counter × ℕ) :=
  [(.totalRequests, 1), (.totalBytesSent, sample.bytesSent),
    (.totalBytesReceived, sample.bytesReceived),
    (.cumulativeLatencyUs, (sample.latency % 2 ^ 64).toNat), (sample.outcome, 1)]

/-- The loops that keep the minimum and the maximum. -/
inductive Contend where
  | load
  | cas (current : ℤ)
  deriving DecidableEq, Repr

/-- `while (better(latency, current) && !cas(current, latency))`, entered with
the value just read. -/
def Contend.test (better : ℤ → ℤ → Bool) (latency current : ℤ) : Option Contend :=
  if better latency current then some (.cas current) else none

/-- One move of the loop, which is left when no program counter remains. -/
def Contend.move (better : ℤ → ℤ → Bool) (latency : ℤ) (spurious : Bool)
    (register : ℤ) : Contend → ℤ × Option Contend
  | .load => (register, Contend.test better latency register)
  | .cas current =>
      if register = current ∧ spurious = false then (latency, none)
      else (register, Contend.test better latency register)

/-- The ring push; `t` and `h` are the copies of `tail_` and `head_`. -/
inductive Push where
  | loadTail
  | loadHead (t : ℕ)
  | loadOldest (h : ℕ)
  | casHead (h : ℕ)
  | casTail (t : ℕ)
  | storeValue (t : ℕ)
  | storeSeq (t : ℕ)
  | returned (t : ℕ)
  deriving DecidableEq, Repr

def Ring.setValue (ring : Ring) (index : ℕ) (value : ℤ) : Ring :=
  { ring with
    cells := Function.update ring.cells index { ring.cells index with value := value } }

def Ring.setSeq (ring : Ring) (index seq : ℕ) : Ring :=
  { ring with
    cells := Function.update ring.cells index { ring.cells index with seq := seq } }

/-- One move of the push.  Every branch of the full ring ends in a reload of
`tail_`, and a failed claim has already reloaded it. -/
def Push.move (latency : ℤ) (spurious : Bool) (ring : Ring) :
    Push → Option (Ring × Push)
  | .loadTail => some (ring, .loadHead ring.tail)
  | .loadHead t =>
      if kRingCapacity ≤ difference t ring.head then some (ring, .loadOldest ring.head)
      else some (ring, .casTail t)
  | .loadOldest h =>
      if (ring.cells (slot h)).seq = increment h then some (ring, .casHead h)
      else some (ring, .loadTail)
  | .casHead h =>
      if ring.head = h ∧ spurious = false then
        some ({ ring with head := increment h }, .loadTail)
      else some (ring, .loadTail)
  | .casTail t =>
      if ring.tail = t ∧ spurious = false then
        some ({ ring with tail := increment t }, .storeValue t)
      else some (ring, .loadHead ring.tail)
  | .storeValue t => some (ring.setValue (slot t) latency, .storeSeq t)
  | .storeSeq t => some (ring.setSeq (slot t) (increment t), .returned t)
  | .returned _ => none

inductive RecordPc where
  | adding (next : Counter × ℕ) (rest : List (Counter × ℕ))
  | minimum (loop : Contend)
  | maximum (loop : Contend)
  | pushing (push : Push)
  deriving DecidableEq, Repr

def RecordPc.addRemaining : List (Counter × ℕ) → RecordPc
  | [] => .minimum .load
  | next :: rest => .adding next rest

def RecordPc.afterMinimum : Option Contend → RecordPc
  | some loop => .minimum loop
  | none => .maximum .load

def RecordPc.afterMaximum : Option Contend → RecordPc
  | some loop => .maximum loop
  | none => .pushing .loadTail

def MetricsCollector.fetchAdd (collector : MetricsCollector) (counter : Counter)
    (amount : ℕ) : MetricsCollector :=
  { collector with
    counters := Function.update collector.counters counter
      ((collector.counters counter + amount) % 2 ^ 64) }

def RecordPc.move (sample : Sample) (choice : Choice) (collector : MetricsCollector) :
    RecordPc → Option (MetricsCollector × RecordPc)
  | .adding next rest => some (collector.fetchAdd next.1 next.2, addRemaining rest)
  | .minimum loop =>
      let result := loop.move (fun latency current => latency < current) sample.latency
        choice.spurious collector.minLatencyUs
      some ({ collector with minLatencyUs := result.1 }, afterMinimum result.2)
  | .maximum loop =>
      let result := loop.move (fun latency current => latency > current) sample.latency
        choice.spurious collector.maxLatencyUs
      some ({ collector with maxLatencyUs := result.1 }, afterMaximum result.2)
  | .pushing push =>
      (push.move sample.latency choice.spurious collector.ring).map fun result =>
        ({ collector with ring := result.1 }, .pushing result.2)

/-! ### `reset` -/

inductive ResetPc where
  | lock
  | clearing (next : Counter) (rest : List Counter)
  | storeMin
  | storeMax
  | storeStart
  | loadHead
  | loadTail (h : ℕ)
  | rewrite (i t : ℕ)
  | storeHead (t : ℕ)
  | unlock
  | returned
  deriving DecidableEq, Repr

def ResetPc.clearRemaining : List Counter → ResetPc
  | [] => .storeMin
  | next :: rest => .clearing next rest

/-- The test of the `for` loop over the buffered tickets. -/
def ResetPc.rewriteFrom (i t : ℕ) : ResetPc :=
  if i < t then .rewrite i t else .storeHead t

def ResetPc.move (caller : ℕ) (now : ℤ) (collector : MetricsCollector) :
    ResetPc → Option (MetricsCollector × ResetPc)
  | .lock =>
      if collector.snapshotMtx = none then
        some ({ collector with snapshotMtx := some caller },
          clearRemaining [.totalRequests, .successfulRequests, .failedRequests,
            .totalBytesSent, .totalBytesReceived, .cumulativeLatencyUs])
      else none
  | .clearing next rest =>
      some ({ collector with counters := Function.update collector.counters next 0 },
        clearRemaining rest)
  | .storeMin => some ({ collector with minLatencyUs := microsecondsMax }, .storeMax)
  | .storeMax => some ({ collector with maxLatencyUs := microsecondsMin }, .storeStart)
  | .storeStart => some ({ collector with startTime := now }, .loadHead)
  | .loadHead => some (collector, .loadTail collector.ring.head)
  | .loadTail h => some (collector, rewriteFrom h collector.ring.tail)
  | .rewrite i t =>
      some ({ collector with
          ring := collector.ring.setSeq (slot i) ((i + kRingCapacity) % 2 ^ 64) },
        rewriteFrom (increment i) t)
  | .storeHead t => some ({ collector with ring.head := t }, .unlock)
  | .unlock => some ({ collector with snapshotMtx := none }, .returned)
  | .returned => none

/-! ### `collect_ring_samples` -/

inductive CollectPc where
  | lock
  | loadHead
  | loadTail (h : ℕ)
  | unlock (h t : ℕ)
  | loadSeq (i t : ℕ) (samples : List ℤ)
  | loadValue (i t : ℕ) (samples : List ℤ)
  | returned (samples : List ℤ)
  deriving DecidableEq, Repr

/-- The test of the scan loop. -/
def CollectPc.scan (i t : ℕ) (samples : List ℤ) : CollectPc :=
  if i < t then .loadSeq i t samples else .returned samples

/-- The first ticket of the scan. -/
def scanStart (h t : ℕ) : ℕ :=
  if t - h > kMaxSnapshotSamples then t - kMaxSnapshotSamples else h

def CollectPc.move (caller : ℕ) (collector : MetricsCollector) :
    CollectPc → Option (MetricsCollector × CollectPc)
  | .lock =>
      if collector.snapshotMtx = none then
        some ({ collector with snapshotMtx := some caller }, .loadHead)
      else none
  | .loadHead => some (collector, .loadTail collector.ring.head)
  | .loadTail h => some (collector, .unlock h collector.ring.tail)
  | .unlock h t =>
      some ({ collector with snapshotMtx := none },
        if t > h then scan (scanStart h t) t [] else .returned [])
  | .loadSeq i t samples =>
      if (collector.ring.cells (slot i)).seq = increment i then
        some (collector, .loadValue i t samples)
      else some (collector, .returned samples)
  | .loadValue i t samples =>
      some (collector, scan (increment i) t
        (samples ++ [(collector.ring.cells (slot i)).value]))
  | .returned _ => none

/-! ### Interleaved calls -/

inductive Call where
  | record (sample : Sample)
  | reset
  | collect

/-- A call in progress or returned. -/
inductive Task where
  | record (sample : Sample) (pc : RecordPc)
  | reset (pc : ResetPc)
  | collect (pc : CollectPc)

def Call.start : Call → Task
  | .record sample => .record sample (.addRemaining sample.fetchAdds)
  | .reset => .reset .lock
  | .collect => .collect .lock

def Task.move (caller : ℕ) (choice : Choice) (collector : MetricsCollector) :
    Task → Option (MetricsCollector × Task)
  | .record sample pc =>
      (pc.move sample choice collector).map fun result =>
        (result.1, .record sample result.2)
  | .reset pc =>
      (pc.move caller choice.now collector).map fun result => (result.1, .reset result.2)
  | .collect pc =>
      (pc.move caller collector).map fun result => (result.1, .collect result.2)

def Task.isReturned : Task → Bool
  | .record _ (.pushing (.returned _)) => true
  | .reset .returned => true
  | .collect (.returned _) => true
  | _ => false

/-- A collector with all calls ever made on it, in the order of their start. -/
structure System where
  collector : MetricsCollector
  tasks : List Task

inductive Action where
  | call (call : Call)
  | move (index : ℕ) (choice : Choice)

def System.new (now : ℤ) : System where
  collector := .new now
  tasks := []

def System.step (system : System) : Action → Option System
  | .call call => some { system with tasks := system.tasks ++ [call.start] }
  | .move index choice =>
      (system.tasks[index]?).bind fun task =>
        (task.move index choice system.collector).map fun result =>
          { collector := result.1
            tasks := system.tasks.set index result.2 }

/-- No call is in progress. -/
def System.Quiescent (system : System) : Prop :=
  ∀ task ∈ system.tasks, task.isReturned = true

end Cppload.Metrics

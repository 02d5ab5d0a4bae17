import Cppload.MetricsCollectorSnapshot

/-!
# The metrics collector of the Python SDK

`MetricsCollector` of the SDK works under a lock and keeps latencies in a list, which it
cuts down to its last half when it grows too long.  Its figures are compared with those
of the lock-free collector: for the same requests, in whatever order either of them saw
them, both report the same, as long as neither has forgotten a latency.

Numbers of type `float` are taken as exact; the two percentile positions are products
that both languages compute and truncate in the same way.
-/

namespace Cppload.Python

open Transition OrderStatistic

structure MetricsCollector where
  totalRequests : ℕ
  successfulRequests : ℕ
  failedRequests : ℕ
  totalBytesSent : ℤ
  totalBytesReceived : ℤ
  latencies : List ℤ
  startTime : ℚ
  deriving DecidableEq, Repr

structure Snapshot where
  totalRequests : ℕ
  successfulRequests : ℕ
  failedRequests : ℕ
  totalBytesSent : ℤ
  totalBytesReceived : ℤ
  meanLatencyUs : ℚ
  minLatencyUs : ℤ
  maxLatencyUs : ℤ
  p95LatencyUs : ℤ
  p99LatencyUs : ℤ
  requestsPerSecond : ℚ
  errorRate : ℚ
  deriving DecidableEq, Repr

/-- The arguments of `record_request`. -/
structure Request where
  statusCode : ℤ
  latencyUs : ℤ
  bytesSent : ℤ
  bytesReceived : ℤ
  deriving DecidableEq, Repr

/-- `sorted(latencies)[min(int(len(latencies) * p), len(latencies) - 1)]`, and 0 without
latencies. -/
def percentile (latencies : List ℤ) (p : ℚ) : ℤ :=
  let sorted := latencies.mergeSort fun first second => first ≤ second
  if sorted = [] then 0
  else sorted.getD (min ⌊sorted.length * p⌋₊ (sorted.length - 1)) 0

namespace MetricsCollector

def new (now : ℚ) : MetricsCollector where
  totalRequests := 0
  successfulRequests := 0
  failedRequests := 0
  totalBytesSent := 0
  totalBytesReceived := 0
  latencies := []
  startTime := now

/-- `append`, and `latencies[-50000:]` when there are more than 100000. -/
def push (latencies : List ℤ) (latency : ℤ) : List ℤ :=
  let grown := latencies ++ [latency]
  if 100000 < grown.length then grown.rtake 50000 else grown

def recordRequest (collector : MetricsCollector) (request : Request) : MetricsCollector :=
  let succeeds := 200 ≤ request.statusCode ∧ request.statusCode < 400
  { collector with
    totalRequests := collector.totalRequests + 1
    totalBytesSent := collector.totalBytesSent + request.bytesSent
    totalBytesReceived := collector.totalBytesReceived + request.bytesReceived
    successfulRequests := collector.successfulRequests + if succeeds then 1 else 0
    failedRequests := collector.failedRequests + if succeeds then 0 else 1
    latencies := push collector.latencies request.latencyUs }

def reset (now : ℚ) : MetricsCollector :=
  new now

def snapshot (collector : MetricsCollector) (now : ℚ) : Snapshot :=
  let elapsed := now - collector.startTime
  let latencies := collector.latencies
  { totalRequests := collector.totalRequests
    successfulRequests := collector.successfulRequests
    failedRequests := collector.failedRequests
    totalBytesSent := collector.totalBytesSent
    totalBytesReceived := collector.totalBytesReceived
    meanLatencyUs := if latencies = [] then 0 else latencies.sum / latencies.length
    minLatencyUs := latencies.min?.getD 0
    maxLatencyUs := latencies.max?.getD 0
    p95LatencyUs := percentile latencies Metrics.kP95
    p99LatencyUs := percentile latencies Metrics.kP99
    requestsPerSecond :=
      if 1 / 1000 ≤ elapsed then collector.totalRequests / elapsed else 0
    errorRate :=
      if collector.totalRequests = 0 then 0
      else collector.failedRequests / collector.totalRequests * 100 }

end MetricsCollector

/-! ## The window of latencies -/

inductive Call where
  | record (request : Request)
  | reset (now : ℚ)
  deriving DecidableEq, Repr

def Call.perform (collector : MetricsCollector) : Call → MetricsCollector
  | .record request => collector.recordRequest request
  | .reset now => .reset now

/-- The latencies that were recorded since the last reset. -/
def Call.extend (history : List ℤ) : Call → List ℤ
  | .record request => history ++ [request.latencyUs]
  | .reset _ => []

def recordedSinceReset (calls : List Call) : List ℤ :=
  calls.foldl Call.extend []

/-- How many of the latencies are kept. -/
def window (recorded : ℕ) : ℕ :=
  if recorded ≤ 100000 then recorded else 50000 + (recorded - 100001) % 50001

theorem window_le (recorded : ℕ) : window recorded ≤ recorded := by
  unfold window
  split <;> omega

theorem window_succ (recorded : ℕ) :
    window (recorded + 1) =
      if 100000 < window recorded + 1 then 50000 else window recorded + 1 := by
  unfold window
  split_ifs <;> omega

theorem length_rtake {history : List ℤ} {count : ℕ} (within : count ≤ history.length) :
    (history.rtake count).length = count := by
  rw [List.rtake, List.length_drop]
  omega

theorem rtake_rtake {history : List ℤ} {fewer count : ℕ} (less : fewer ≤ count)
    (within : count ≤ history.length) :
    (history.rtake count).rtake fewer = history.rtake fewer := by
  rw [List.rtake, length_rtake within, List.rtake, List.drop_drop, List.rtake]
  congr 1
  omega

theorem push_rtake (history : List ℤ) (latency : ℤ) :
    MetricsCollector.push (history.rtake (window history.length)) latency =
      (history ++ [latency]).rtake (window (history ++ [latency]).length) := by
  have within := window_le history.length
  have length : (history ++ [latency]).length = history.length + 1 := by simp
  have count : ((history ++ [latency]).rtake (window history.length + 1)).length =
      window history.length + 1 := length_rtake (by omega)
  unfold MetricsCollector.push
  rw [← List.rtake_concat_succ]
  dsimp only
  rw [count, length, window_succ]
  split
  · exact rtake_rtake (by omega) (by omega)
  · rfl

/-- The collector keeps the most recent latencies: all of them up to 100000, and from then
on never fewer than 50000. -/
theorem latencies_exact (calls : List Call) (now : ℚ) :
    (calls.foldl Call.perform (.new now)).latencies =
        (recordedSinceReset calls).rtake (window (recordedSinceReset calls).length) ∧
      min (recordedSinceReset calls).length 50000 ≤ window (recordedSinceReset calls).length ∧
      window (recordedSinceReset calls).length ≤ 100000 := by
  refine ⟨?_, ?_, ?_⟩
  · induction calls using List.reverseRecOn with
    | nil => rfl
    | append_singleton calls call ih =>
        rw [List.foldl_append, recordedSinceReset, List.foldl_append]
        cases call with
        | record request =>
            change MetricsCollector.push _ _ = _
            rw [ih]
            exact push_rtake _ _
        | reset now => rfl
  · unfold window
    split <;> omega
  · unfold window
    split <;> omega

/-! ## The same figures as the lock-free collector -/

/-- The sample of the other collector as the SDK would record it. -/
def Request.ofSample (sample : Metrics.Sample) : Request where
  statusCode := sample.statusCode
  latencyUs := sample.latency
  bytesSent := sample.bytesSent
  bytesReceived := sample.bytesReceived

/-- The SDK records the samples one after the other. -/
def recordAll (now : ℚ) (samples : List Metrics.Sample) : MetricsCollector :=
  (samples.map Request.ofSample).foldl MetricsCollector.recordRequest (.new now)

/-- The figures that both collectors report. -/
structure Agree (metrics : Metrics.RequestMetrics) (snapshot : Snapshot) : Prop where
  totalRequests : metrics.totalRequests = snapshot.totalRequests
  successfulRequests : metrics.successfulRequests = snapshot.successfulRequests
  failedRequests : metrics.failedRequests = snapshot.failedRequests
  totalBytesSent : (metrics.totalBytesSent : ℤ) = snapshot.totalBytesSent
  totalBytesReceived : (metrics.totalBytesReceived : ℤ) = snapshot.totalBytesReceived
  meanLatencyUs : metrics.meanLatencyUs = snapshot.meanLatencyUs
  minLatency : metrics.minLatency = snapshot.minLatencyUs
  maxLatency : metrics.maxLatency = snapshot.maxLatencyUs
  p95LatencyUs : (metrics.p95LatencyUs : ℤ) = snapshot.p95LatencyUs
  p99LatencyUs : (metrics.p99LatencyUs : ℤ) = snapshot.p99LatencyUs

section Recording

variable {samples others : List Metrics.Sample} {now : ℚ}

/-- What the SDK holds after recording the samples. -/
structure Holds (collector : MetricsCollector) (samples : List Metrics.Sample) : Prop where
  total : collector.totalRequests = samples.length
  successful : collector.successfulRequests =
    (samples.map fun sample => sample.amount .successfulRequests).sum
  failed : collector.failedRequests =
    (samples.map fun sample => sample.amount .failedRequests).sum
  bytesSent : collector.totalBytesSent = ((samples.map Metrics.Sample.bytesSent).sum : ℕ)
  bytesReceived :
    collector.totalBytesReceived = ((samples.map Metrics.Sample.bytesReceived).sum : ℕ)

theorem amount_successful (sample : Metrics.Sample) :
    sample.amount .successfulRequests =
      if 200 ≤ sample.statusCode ∧ sample.statusCode < 400 then 1 else 0 := by
  unfold Metrics.Sample.amount Metrics.Sample.fetchAdds Metrics.Sample.outcome
  split <;> simp

theorem amount_failed (sample : Metrics.Sample) :
    sample.amount .failedRequests =
      if 200 ≤ sample.statusCode ∧ sample.statusCode < 400 then 0 else 1 := by
  unfold Metrics.Sample.amount Metrics.Sample.fetchAdds Metrics.Sample.outcome
  split <;> simp

theorem recordAll_concat (sample : Metrics.Sample) :
    recordAll now (samples ++ [sample]) =
      (recordAll now samples).recordRequest (.ofSample sample) := by
  simp [recordAll]

theorem holds_recordAll (now : ℚ) (samples : List Metrics.Sample) :
    Holds (recordAll now samples) samples := by
  induction samples using List.reverseRecOn with
  | nil => exact ⟨rfl, rfl, rfl, rfl, rfl⟩
  | append_singleton samples sample ih =>
      have ranges : (200 ≤ (Request.ofSample sample).statusCode ∧
          (Request.ofSample sample).statusCode < 400) ↔
            (200 ≤ sample.statusCode ∧ sample.statusCode < 400) := by
        simp only [Request.ofSample]
        omega
      rw [recordAll_concat]
      refine ⟨?_, ?_, ?_, ?_, ?_⟩
      · simp [MetricsCollector.recordRequest, ih.total]
      · simp only [MetricsCollector.recordRequest, ranges, ih.successful, List.map_append,
          List.sum_append, List.map_cons, List.map_nil, List.sum_cons, List.sum_nil,
          amount_successful, Nat.add_zero]
      · simp only [MetricsCollector.recordRequest, ranges, ih.failed, List.map_append,
          List.sum_append, List.map_cons, List.map_nil, List.sum_cons, List.sum_nil,
          amount_failed, Nat.add_zero]
      · simp [MetricsCollector.recordRequest, ih.bytesSent, Request.ofSample]
      · simp [MetricsCollector.recordRequest, ih.bytesReceived, Request.ofSample]

/-- Up to 100000 latencies none is dropped. -/
theorem latencies_recordAll (few : samples.length ≤ 100000) :
    (recordAll now samples).latencies = samples.map Metrics.Sample.latency := by
  induction samples using List.reverseRecOn with
  | nil => rfl
  | append_singleton samples sample ih =>
      rw [List.length_append, List.length_singleton] at few
      have short : ¬100000 <
          (samples.map Metrics.Sample.latency ++ [sample.latency]).length := by
        simp
        omega
      have pushed : MetricsCollector.push (samples.map Metrics.Sample.latency) sample.latency =
          samples.map Metrics.Sample.latency ++ [sample.latency] := if_neg short
      rw [recordAll_concat]
      change MetricsCollector.push (recordAll now samples).latencies sample.latency = _
      rw [ih (by omega), pushed, List.map_append]
      rfl

theorem percentile_eq_sampleAt {latencies : List ℤ} (recorded : latencies ≠ []) (p : ℚ) :
    percentile latencies p = Metrics.sampleAt latencies p := by
  have some_sorted : ascending latencies ≠ [] := by
    rw [← List.length_pos_iff, length_ascending]
    exact List.length_pos_iff.mpr recorded
  simp only [percentile, mergeSort_eq_ascending, if_neg some_sorted, length_ascending]
  rfl

theorem sampleAt_perm {first second : List ℤ} (same : first.Perm second) (p : ℚ) :
    Metrics.sampleAt first p = Metrics.sampleAt second p := by
  have sorted : ascending first = ascending second :=
    eq_ascending ((ascending_perm first).trans same) (ascending_pairwise first)
  rw [Metrics.sampleAt, Metrics.sampleAt, sorted, same.length_eq]

end Recording

section Agreement

variable {system : Metrics.System} {samples : List ℤ} {recorded : List Metrics.Sample}
  {first second : NthElement ℤ} {now start : ℚ}

/-- A percentile of the lock-free collector is the one of the SDK. -/
theorem toUnsigned_sampleAt {latencies : List ℤ} (scanned : samples.Perm latencies)
    (some_recorded : latencies ≠ [])
    (nonneg : ∀ latency ∈ latencies, 0 ≤ latency ∧ latency ≤ Metrics.microsecondsMax) (p : ℚ) :
    (Metrics.toUnsigned (Metrics.sampleAt samples p) : ℤ) = percentile latencies p := by
  have member := Metrics.sampleAt_mem some_recorded p
  rw [sampleAt_perm scanned, percentile_eq_sampleAt some_recorded]
  exact Metrics.toUnsigned_of_nonneg (nonneg _ member).1 (nonneg _ member).2

theorem min_getD {latencies : List ℤ} {least : ℤ} (member : least ∈ latencies)
    (lower : ∀ latency ∈ latencies, least ≤ latency) : latencies.min?.getD 0 = least := by
  rw [List.min?_eq_some_iff.mpr ⟨member, lower⟩, Option.getD_some]

theorem max_getD {latencies : List ℤ} {greatest : ℤ} (member : greatest ∈ latencies)
    (upper : ∀ latency ∈ latencies, latency ≤ greatest) :
    latencies.max?.getD 0 = greatest := by
  rw [List.max?_eq_some_iff.mpr ⟨member, upper⟩, Option.getD_some]

/-- A collector at rest reports what the SDK reports for the same requests. -/
theorem agree_of_recorded (exactly : system.Exact) (quiescent : system.Quiescent)
    (holds : system.Recorded) (small : system.records.length ≤ 100000)
    (same : recorded.Perm system.records)
    (scanned : samples.Perm (system.records.map Metrics.Sample.latency))
    (nonempty : system.records ≠ []) :
    Agree (system.collector.snapshot first second samples)
      ((recordAll start recorded).snapshot now) := by
  have python := holds_recordAll start recorded
  have latencies := same.map Metrics.Sample.latency
  have kept : (recordAll start recorded).latencies = recorded.map Metrics.Sample.latency :=
    latencies_recordAll (same.length_eq.trans_le small)
  have some_recorded : recorded.map Metrics.Sample.latency ≠ [] := by
    rw [Ne, List.map_eq_nil_iff]
    rintro rfl
    exact nonempty same.symm.eq_nil
  have some_scanned : samples ≠ [] := by
    rintro rfl
    exact nonempty (List.map_eq_nil_iff.mp scanned.symm.eq_nil)
  have count (counter : Metrics.Counter) := (same.map fun sample => sample.amount counter).sum_eq
  have outcomes := Metrics.System.sum_outcomes system.records
  have counted := holds.total
  have ranged : ∀ latency ∈ recorded.map Metrics.Sample.latency,
      0 ≤ latency ∧ latency ≤ Metrics.microsecondsMax := by
    intro latency member
    obtain ⟨sample, known, rfl⟩ := List.mem_map.mp member
    exact ⟨exactly.nonneg sample (same.mem_iff.mp known), sample.latency_le⟩
  have percentiles := Metrics.snapshotPercentiles_eq first second some_scanned
  have reported (p : ℚ) := toUnsigned_sampleAt (scanned.trans latencies.symm) some_recorded
    ranged p
  have found (latency : ℤ) : latency ∈ recorded.map Metrics.Sample.latency ↔
      ∃ sample ∈ system.records, sample.latency = latency := by
    rw [latencies.mem_iff, List.mem_map]
  refine ⟨?_, ?_, ?_, ?_, ?_, ?_, ?_, ?_, ?_, ?_⟩
  · exact holds.total.trans (same.length_eq.symm.trans python.total.symm)
  · change system.collector.counters _ = (recordAll start recorded).successfulRequests
    rw [exactly.counter_eq quiescent (by omega), python.successful, count]
  · change system.collector.counters _ = (recordAll start recorded).failedRequests
    rw [exactly.counter_eq quiescent (by omega), python.failed, count]
  · change (system.collector.counters _ : ℤ) = (recordAll start recorded).totalBytesSent
    rw [holds.bytesSent, python.bytesSent, (same.map _).sum_eq]
  · change (system.collector.counters _ : ℤ) = (recordAll start recorded).totalBytesReceived
    rw [holds.bytesReceived, python.bytesReceived, (same.map _).sum_eq]
  · have positive : 0 < system.records.length := List.length_pos_iff.mpr nonempty
    have sums : (system.collector.counters .cumulativeLatencyUs : ℚ) =
        ((recorded.map Metrics.Sample.latency).sum : ℤ) := by
      rw [latencies.sum_eq, ← holds.latencies]
      rfl
    simp only [Metrics.MetricsCollector.snapshot, MetricsCollector.snapshot, kept,
      if_pos positive, if_neg some_recorded, sums, List.length_map, same.length_eq, counted]
  · obtain ⟨attained, lower⟩ := holds.minimum nonempty
    simp only [Metrics.MetricsCollector.snapshot, MetricsCollector.snapshot, kept]
    exact (min_getD ((found _).mpr attained) fun latency member =>
      lower ((found latency).mp member)).symm
  · obtain ⟨attained, upper⟩ := holds.maximum nonempty
    simp only [Metrics.MetricsCollector.snapshot, MetricsCollector.snapshot, kept]
    exact (max_getD ((found _).mpr attained) fun latency member =>
      upper ((found latency).mp member)).symm
  · simp only [Metrics.MetricsCollector.snapshot, MetricsCollector.snapshot, kept, percentiles,
      reported]
  · simp only [Metrics.MetricsCollector.snapshot, MetricsCollector.snapshot, kept, percentiles,
      reported]

/-- A new lock-free collector reports the largest number as its minimum. -/
theorem not_agree_of_nil (exactly : system.Exact) (nothing : system.records = [])
    (same : recorded.Perm system.records) :
    ¬Agree (system.collector.snapshot first second samples)
      ((recordAll start recorded).snapshot now) := by
  intro agree
  have unset : system.collector.minLatencyUs = Metrics.microsecondsMax := by
    rcases exactly.extremes.minimum.attained with initial | ⟨sample, member, -⟩
    · exact initial
    · have known : sample ∈ system.records := member
      rw [nothing] at known
      cases known
  have empty : recorded = [] := (nothing ▸ same).eq_nil
  have reported := agree.minLatency
  subst empty
  change system.collector.minLatencyUs = 0 at reported
  rw [unset] at reported
  cases reported

/-- Any number of threads record into the lock-free collector, and the SDK records the same
requests in any order.  Once all calls have returned a scan returns as well, and the two
snapshots agree in all figures exactly if there was a request at all. -/
theorem snapshots_agree_iff {clock : ℤ}
    (reaches : Reaches Metrics.System.step (fun _ action => action.recordsOnly)
      (.new clock) system)
    (few : system.tasks.length < 2 ^ 63) (quiescent : system.Quiescent)
    (fits : system.SumsFit) (small : system.records.length ≤ 100000)
    (same : recorded.Perm system.records) (start : ℚ) :
    ∃ samples moves,
      (∀ choices : List Metrics.Choice, choices.length = moves →
        run Metrics.System.step system (.call .collect ::
            choices.map fun choice => .move system.tasks.length choice) =
          some { system with tasks := system.tasks ++ [.collect (.returned samples)] }) ∧
      ∀ first second now,
        Agree (system.collector.snapshot first second samples)
            ((recordAll start recorded).snapshot now) ↔
          system.records ≠ [] := by
  obtain ⟨booked, calm⟩ := Metrics.System.calm_of_reaches reaches few
  obtain ⟨samples, moves, scanned, returns⟩ := calm.scan booked quiescent small
  have holds := calm.exactly.recorded booked few quiescent fits
  refine ⟨samples, moves, returns, ?_⟩
  intro first second now
  constructor
  · intro agree nothing
    exact not_agree_of_nil calm.exactly nothing same agree
  · exact agree_of_recorded calm.exactly quiescent holds small same scanned

/-- Two threads record at the same time; the SDK sees their requests the other way round. -/
theorem snapshots_agree_iff_two_writers :
    ∃ system samples, Reaches Metrics.System.step (fun _ action => action.recordsOnly)
        (.new 0) system ∧ system.records.length = 2 ∧
      Agree (system.collector.snapshot .sorting .sorting samples)
        ((recordAll 0 system.records.reverse).snapshot 1) := by
  obtain ⟨system, reaches, few, two, returned, fits⟩ := Metrics.System.exists_two_writers
  have nonempty : system.records ≠ [] := by
    rw [← List.length_pos_iff, two]
    decide
  obtain ⟨samples, moves, -, agrees⟩ := snapshots_agree_iff reaches (by omega) returned fits
    (by omega) (List.reverse_perm _) 0
  exact ⟨system, samples, reaches, two, (agrees .sorting .sorting 1).mpr nonempty⟩

end Agreement

end Cppload.Python

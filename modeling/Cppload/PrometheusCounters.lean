import Cppload.CounterDeltas
import Cppload.MetricsCollectorLedger
import Cppload.MetricsCollectorSolo

/-!
# The counters of the Prometheus exporter

`update_metrics` of the exporter that is built on prometheus-cpp takes a snapshot of
the collector, whose counters it loads one after the other while other threads record
and reset, and adds to each exported counter what `delta_or_reset` makes of the
loaded value.  Every `start` registers new counters at zero, but the values of the
last update stay.  The values of prometheus-cpp are doubles; sums below `2 ^ 53` are
exact, and here they are natural numbers.
-/

namespace Cppload.Prometheus

open Transition CounterDeltas
open Metrics (Counter Sample MetricsCollector Task RecordPc ResetPc CollectPc amountOf)

/-- The counters that `snapshot` loads, in its order. -/
def snapshotCounters : List Counter :=
  [.totalRequests, .successfulRequests, .failedRequests, .totalBytesSent,
    .totalBytesReceived, .cumulativeLatencyUs]

/-- The counters that `update_metrics` exports, in its order. -/
def exportedCounters : List Counter :=
  [.totalRequests, .successfulRequests, .failedRequests, .totalBytesSent,
    .totalBytesReceived]

/-- The increment, and the value to compare with the next time. -/
def deltaOrReset (curr last : ℕ) : ℕ × ℕ :=
  if last ≤ curr then (curr - last, curr) else (curr, curr)

/-- What `start` registers. -/
structure Registry where
  counters : Counter → ℕ
  requestsPerSecond : ℚ
  errorRate : ℚ
  requestDurationSeconds : List ℚ

def Registry.new : Registry where
  counters _ := 0
  requestsPerSecond := 0
  errorRate := 0
  requestDurationSeconds := []

structure PrometheusExporter where
  registry : Option Registry
  last : Counter → ℕ

def PrometheusExporter.new : PrometheusExporter where
  registry := none
  last _ := 0

/-- Where the call of `update_metrics` is that holds the mutex of the exporter.
`metrics` is the snapshot, as far as it is taken. -/
inductive UpdatePc where
  | idle
  | loading (next : Counter) (rest : List Counter) (metrics : Counter → ℕ)
  | incrementing (next : Counter) (rest : List Counter) (metrics : Counter → ℕ)
  | loadStart (metrics : Counter → ℕ)
  | loadTotal (elapsed : ℚ) (metrics : Counter → ℕ)
  | rateTotal (metrics : Counter → ℕ)
  | rateFailed (total : ℕ) (metrics : Counter → ℕ)
  | observing (metrics : Counter → ℕ)

def UpdatePc.loadRemaining (metrics : Counter → ℕ) : List Counter → UpdatePc
  | next :: rest => .loading next rest metrics
  | [] => .incrementing .totalRequests exportedCounters.tail metrics

def UpdatePc.incrementRemaining (metrics : Counter → ℕ) : List Counter → UpdatePc
  | next :: rest => .incrementing next rest metrics
  | [] => .loadStart metrics

def kMinElapsedSeconds : ℚ :=
  1 / 1000

/-- `mean_latency_us`, which stays zero when there is no request. -/
def meanLatencyUs (metrics : Counter → ℕ) : ℚ :=
  if 0 < metrics .totalRequests then
    metrics .cumulativeLatencyUs / metrics .totalRequests
  else 0

namespace PrometheusExporter

variable (exporter : PrometheusExporter)

def modify (change : Registry → Registry) : PrometheusExporter :=
  { exporter with registry := exporter.registry.map change }

def increment (counter : Counter) (curr : ℕ) : PrometheusExporter where
  registry := exporter.registry.map fun registry =>
    { registry with
      counters := Function.update registry.counters counter
        (registry.counters counter + (deltaOrReset curr (exporter.last counter)).1) }
  last := Function.update exporter.last counter (deltaOrReset curr (exporter.last counter)).2

/-- The value of an exported counter, zero when nothing is registered. -/
def value (counter : Counter) : ℕ :=
  exporter.registry.elim 0 fun registry => registry.counters counter

end PrometheusExporter

/-- One move of `update_metrics`: a load, or the change of one metric. -/
def UpdatePc.move (collector : MetricsCollector) (now : ℤ) (exporter : PrometheusExporter) :
    UpdatePc → Option (PrometheusExporter × UpdatePc)
  | .idle => none
  | .loading next rest metrics =>
      some (exporter,
        .loadRemaining (Function.update metrics next (collector.counters next)) rest)
  | .incrementing next rest metrics =>
      some (exporter.increment next (metrics next), .incrementRemaining metrics rest)
  | .loadStart metrics =>
      let elapsed : ℚ := (now - collector.startTime : ℤ) / 10 ^ 9
      if elapsed < kMinElapsedSeconds then
        some (exporter.modify fun registry => { registry with requestsPerSecond := 0 },
          .rateTotal metrics)
      else some (exporter, .loadTotal elapsed metrics)
  | .loadTotal elapsed metrics =>
      some (exporter.modify fun registry =>
          { registry with requestsPerSecond := collector.counters .totalRequests / elapsed },
        .rateTotal metrics)
  | .rateTotal metrics =>
      if collector.counters .totalRequests = 0 then
        some (exporter.modify fun registry => { registry with errorRate := 0 },
          .observing metrics)
      else some (exporter, .rateFailed (collector.counters .totalRequests) metrics)
  | .rateFailed total metrics =>
      some (exporter.modify fun registry =>
          { registry with errorRate := collector.counters .failedRequests / total * 100 },
        .observing metrics)
  | .observing metrics =>
      some (exporter.modify fun registry =>
          { registry with
            requestDurationSeconds :=
              registry.requestDurationSeconds ++ [meanLatencyUs metrics / 10 ^ 6] },
        .idle)

/-- The collector with all calls on it, and the exporter with the call of
`update_metrics` that holds its mutex. -/
structure System where
  metrics : Metrics.System
  exporter : PrometheusExporter
  update : UpdatePc

/-- `bound` says whether the exposer could be made. -/
inductive Action where
  | collector (action : Metrics.Action)
  | start (bound : Bool)
  | stop
  | update
  | move (now : ℤ)

namespace System

def new (now : ℤ) : System where
  metrics := .new now
  exporter := .new
  update := .idle

def step (system : System) : Action → Option System
  | .collector action =>
      (system.metrics.step action).map fun metrics => { system with metrics := metrics }
  | .start bound =>
      match system.update with
      | .idle =>
          if bound then some { system with exporter.registry := some .new } else some system
      | _ => none
  | .stop =>
      match system.update with
      | .idle => some { system with exporter.registry := none }
      | _ => none
  | .update =>
      match system.update with
      | .idle =>
          -- Without registered counters the call returns before the snapshot.
          if system.exporter.registry.isSome then
            some { system with update := .loadRemaining (fun _ => 0) snapshotCounters }
          else some system
      | _ => none
  | .move now =>
      (system.update.move system.metrics.collector now system.exporter).map fun result =>
        { system with exporter := result.1, update := result.2 }

end System

/-! ### What an action is for one counter -/

/-- What the next move of a call does to a counter. -/
def changeOf (counter : Counter) : Task → Event
  | .record _ (.adding next _) => if next.1 = counter then .add next.2 else .rest
  | .reset (.clearing next _) => if next = counter then .clear else .rest
  | _ => .rest

def collectorEvent (counter : Counter) (metrics : Metrics.System) : Metrics.Action → Event
  | .call _ => .rest
  | .move index _ => (metrics.tasks[index]?).elim .rest (changeOf counter)

def UpdatePc.event (counter : Counter) : UpdatePc → Event
  | .loading next _ _ => if next = counter then .read else .rest
  | _ => .rest

def System.event (counter : Counter) (system : System) : Action → Event
  | .collector action => collectorEvent counter system.metrics action
  | .move _ => system.update.event counter
  | _ => .rest

/-- The counters that are registered lose their values. -/
def Action.retires : Action → Bool
  | .start bound => bound
  | .stop => true
  | _ => false

/-- The exporter together with a meter for each counter and the sum of the values that
earlier registrations of the counter had at their end. -/
structure Metered where
  system : System
  meter : Counter → Meter
  retired : Counter → ℕ

namespace Metered

def new (now : ℤ) : Metered where
  system := .new now
  meter _ := .new
  retired _ := 0

def step (metered : Metered) (action : Action) : Option Metered :=
  (metered.system.step action).map fun next =>
    { system := next
      meter := fun counter =>
        (metered.meter counter).step 64 (metered.system.event counter action)
      retired := fun counter =>
        if action.retires then
          metered.retired counter + metered.system.exporter.value counter
        else metered.retired counter }

/-- The action loses nothing of the counter. -/
def Keeps (counter : Counter) (metered : Metered) (action : Action) : Prop :=
  (metered.meter counter).Keeps 64 (metered.system.event counter action)

instance (counter : Counter) (metered : Metered) (action : Action) :
    Decidable (metered.Keeps counter action) :=
  inferInstanceAs (Decidable (Meter.Keeps _ _ _))

/-- All values that the counter has published, over all its registrations. -/
def published (metered : Metered) (counter : Counter) : ℕ :=
  metered.retired counter + metered.system.exporter.value counter

/-- The meters only watch: every run of the exporter is one with meters. -/
theorem run_of_run_system {metered : Metered} {last : System} {actions : List Action}
    (executes : run System.step metered.system actions = some last) :
    ∃ final, run step metered actions = some final ∧ final.system = last := by
  induction actions generalizing metered with
  | nil =>
      cases executes
      exact ⟨metered, rfl, rfl⟩
  | cons action rest ih =>
      rw [run_cons, Option.bind_eq_some_iff] at executes
      obtain ⟨next, taken, remaining⟩ := executes
      rw [run_cons, step, taken]
      exact ih remaining

end Metered

/-! ### Moves of the collector -/

section Collector

variable {collector later : MetricsCollector} {caller : ℕ} {choice : Metrics.Choice}
variable {task nextTask : Task} {counter : Counter} {meter : Meter}

theorem changeOf_ne_read (task : Task) : changeOf counter task ≠ .read := by
  unfold changeOf
  split
  · split <;> simp
  · split <;> simp
  · simp

/-- The source of a meter moves like the counter, and a record call has as much less to
add as the meter has recorded more. -/
theorem move_changeOf (counter : Counter)
    (moved : task.move caller choice collector = some (later, nextTask))
    (sourceEq : meter.source = collector.counters counter) :
    (meter.step 64 (changeOf counter task)).source = later.counters counter ∧
      (meter.step 64 (changeOf counter task)).recorded + nextTask.pending counter =
        meter.recorded + task.pending counter ∧
      nextTask.planned counter = task.planned counter := by
  cases task with
  | record sample pc =>
      obtain ⟨⟨later', nextPc⟩, movedPc, resultEq⟩ := Option.map_eq_some_iff.mp moved
      cases resultEq
      cases pc with
      | adding next rest =>
          cases movedPc
          rw [Metrics.pending_addRemaining]
          by_cases same : next.1 = counter
          · subst same
            simp [changeOf, Meter.step, MetricsCollector.fetchAdd, sourceEq, Task.pending,
              Task.planned, Nat.add_assoc]
          · simp [changeOf, Meter.step, MetricsCollector.fetchAdd, sourceEq, Task.pending,
              Task.planned, same, Function.update_of_ne (Ne.symm same)]
      | minimum loop =>
          cases movedPc
          refine ⟨sourceEq, congrArg (meter.recorded + ·) ?_, rfl⟩
          generalize (loop.move _ _ _ _).2 = left
          cases left <;> rfl
      | maximum loop =>
          cases movedPc
          refine ⟨sourceEq, congrArg (meter.recorded + ·) ?_, rfl⟩
          generalize (loop.move _ _ _ _).2 = left
          cases left <;> rfl
      | pushing push =>
          obtain ⟨result, -, resultEq⟩ := Option.map_eq_some_iff.mp movedPc
          cases resultEq
          exact ⟨sourceEq, rfl, rfl⟩
  | reset pc =>
      obtain ⟨⟨later', nextPc⟩, movedPc, resultEq⟩ := Option.map_eq_some_iff.mp moved
      cases resultEq
      refine ⟨?_, ?_, rfl⟩
      · cases pc with
        | clearing next rest =>
            cases movedPc
            by_cases same : next = counter
            · simp [changeOf, Meter.step, same]
            · simp [changeOf, Meter.step, sourceEq, same, Function.update_of_ne (Ne.symm same)]
        | lock =>
            simp only [ResetPc.move] at movedPc
            split at movedPc
            · cases movedPc
              exact sourceEq
            · cases movedPc
        | returned => cases movedPc
        | _ =>
            cases movedPc
            exact sourceEq
      · cases pc with
        | clearing next rest =>
            by_cases same : next = counter <;> simp [changeOf, Meter.step, Task.pending, same]
        | _ => rfl
  | collect pc =>
      obtain ⟨⟨later', nextPc⟩, movedPc, resultEq⟩ := Option.map_eq_some_iff.mp moved
      cases resultEq
      rw [Metrics.CollectPc.move_eq movedPc]
      exact ⟨sourceEq, rfl, rfl⟩

end Collector

/-! ### Moves of the update -/

theorem deltaOrReset_eq (curr last : ℕ) : deltaOrReset curr last = (delta curr last, curr) := by
  unfold deltaOrReset delta
  split <;> rfl

theorem value_modify (exporter : PrometheusExporter) {change : Registry → Registry}
    (sameCounters : ∀ registry, (change registry).counters = registry.counters)
    (counter : Counter) : (exporter.modify change).value counter = exporter.value counter := by
  cases registered : exporter.registry with
  | none => simp [PrometheusExporter.value, PrometheusExporter.modify, registered]
  | some registry =>
      simp [PrometheusExporter.value, PrometheusExporter.modify, registered, sameCounters]

theorem value_increment_self {exporter : PrometheusExporter} (counter : Counter) (curr : ℕ)
    (registered : exporter.registry.isSome = true) :
    (exporter.increment counter curr).value counter =
      exporter.value counter + delta curr (exporter.last counter) := by
  obtain ⟨registry, registryEq⟩ := Option.isSome_iff_exists.mp registered
  simp [PrometheusExporter.value, PrometheusExporter.increment, registryEq, deltaOrReset_eq]

theorem value_increment_of_ne (exporter : PrometheusExporter) {counter other : Counter}
    (distinct : counter ≠ other) (curr : ℕ) :
    (exporter.increment other curr).value counter = exporter.value counter := by
  cases registered : exporter.registry with
  | none => simp [PrometheusExporter.value, PrometheusExporter.increment, registered]
  | some registry =>
      simp [PrometheusExporter.value, PrometheusExporter.increment, registered,
        Function.update_of_ne distinct]

namespace UpdatePc

/-- The value of the counter that is loaded but not yet exported. -/
def loaded? (counter : Counter) : UpdatePc → Option ℕ
  | .loading next rest metrics =>
      if counter ∈ next :: rest then none else some (metrics counter)
  | .incrementing next rest metrics =>
      if counter ∈ next :: rest then some (metrics counter) else none
  | _ => none

@[simp]
theorem loaded?_loading (next : Counter) (rest : List Counter) (metrics : Counter → ℕ)
    (counter : Counter) :
    (loading next rest metrics).loaded? counter =
      if counter ∈ next :: rest then none else some (metrics counter) :=
  rfl

@[simp]
theorem loaded?_incrementing (next : Counter) (rest : List Counter) (metrics : Counter → ℕ)
    (counter : Counter) :
    (incrementing next rest metrics).loaded? counter =
      if counter ∈ next :: rest then some (metrics counter) else none :=
  rfl

/-- The loops over the counters are where the source has them. -/
def InLoop : UpdatePc → Prop
  | .loading next rest _ => (next :: rest).IsSuffix snapshotCounters
  | .incrementing next rest _ => (next :: rest).IsSuffix exportedCounters
  | _ => True

def isIdle : UpdatePc → Bool
  | .idle => true
  | _ => false

theorem eq_idle {pc : UpdatePc} (idle : pc.isIdle = true) : pc = .idle := by
  cases pc <;> first | rfl | cases idle

theorem not_mem_of_suffix {counters rest : List Counter} {next : Counter}
    (distinct : counters.Nodup) (suffix : (next :: rest).IsSuffix counters) : next ∉ rest :=
  (List.nodup_cons.mp (distinct.sublist suffix.sublist)).1

theorem nodup_snapshotCounters : snapshotCounters.Nodup := by decide

theorem nodup_exportedCounters : exportedCounters.Nodup := by decide

theorem inLoop_incrementRemaining {metrics : Counter → ℕ} {next : Counter}
    {rest : List Counter} (inLoop : (incrementing next rest metrics).InLoop) :
    (incrementRemaining metrics rest).InLoop := by
  cases rest with
  | nil => exact trivial
  | cons following rest => exact (List.suffix_cons next _).trans inLoop

theorem inLoop_loadRemaining {metrics later : Counter → ℕ} {next : Counter}
    {rest : List Counter} (inLoop : (loading next rest metrics).InLoop) :
    (loadRemaining later rest).InLoop := by
  cases rest with
  | nil => exact List.suffix_refl _
  | cons following rest => exact (List.suffix_cons next _).trans inLoop

theorem loaded?_incrementRemaining (metrics : Counter → ℕ) (rest : List Counter)
    (counter : Counter) :
    (incrementRemaining metrics rest).loaded? counter =
      if counter ∈ rest then some (metrics counter) else none := by
  cases rest with
  | nil => rfl
  | cons next rest => rfl

/-- When all counters are loaded, the exported ones wait for their increment. -/
theorem loaded?_loadRemaining (metrics : Counter → ℕ) (rest : List Counter)
    {counter : Counter} (exported : counter ∈ exportedCounters) :
    (loadRemaining metrics rest).loaded? counter =
      if counter ∈ rest then none else some (metrics counter) := by
  cases rest with
  | nil => exact (if_pos exported).trans (if_neg List.not_mem_nil).symm
  | cons next rest => rfl

end UpdatePc

/-- The meter of a counter agrees with the collector and the exporter. -/
structure Metered.Tracks (metered : Metered) (counter : Counter) : Prop where
  source : (metered.meter counter).source =
    metered.system.metrics.collector.counters counter
  last : (metered.meter counter).last =
    (metered.system.update.loaded? counter).getD (metered.system.exporter.last counter)
  published : (metered.meter counter).published = metered.published counter +
    (metered.system.update.loaded? counter).elim 0
      fun curr => delta curr (metered.system.exporter.last counter)
  recorded : (metered.meter counter).recorded +
      (metered.system.metrics.tasks.map (Task.pending counter)).sum =
    (metered.system.metrics.tasks.map (Task.planned counter)).sum
  inLoop : metered.system.update.InLoop
  registered : metered.system.update = .idle ∨ metered.system.exporter.registry.isSome = true

namespace Metered

variable {metered after : Metered} {counter : Counter}

theorem new_tracks (now : ℤ) (counter : Counter) : (new now).Tracks counter :=
  ⟨rfl, rfl, rfl, rfl, trivial, .inl rfl⟩

theorem Tracks.collector {action : Metrics.Action} (tracks : metered.Tracks counter)
    (taken : metered.step (.collector action) = some after) : after.Tracks counter := by
  obtain ⟨next, systemStep, rfl⟩ := Option.map_eq_some_iff.mp taken
  obtain ⟨metrics, metricsStep, rfl⟩ := Option.map_eq_some_iff.mp systemStep
  cases action with
  | call call =>
      cases metricsStep
      refine ⟨tracks.source, tracks.last, tracks.published, ?_, tracks.inLoop,
        tracks.registered⟩
      have fresh : call.start.pending counter = call.start.planned counter := by
        cases call <;> rfl
      have recorded := tracks.recorded
      simp only [List.map_append, List.map_cons, List.map_nil, List.sum_append,
        List.sum_cons, List.sum_nil, Nat.add_zero, fresh]
      change (metered.meter counter).recorded + _ = _
      omega
  | move index choice =>
      obtain ⟨task, nextTask, found, moved, tasksEq⟩ := Metrics.System.step_move metricsStep
      have eventEq : metered.system.event counter (.collector (.move index choice)) =
          changeOf counter task := by
        simp [System.event, collectorEvent, found]
      obtain ⟨sourceEq, recordedEq, plannedEq⟩ := move_changeOf counter moved tracks.source
      have pendingSum := Roster.sum_map_set (Task.pending counter) found nextTask
      have plannedSum := Roster.sum_map_set (Task.planned counter) found nextTask
      rw [← tasksEq] at pendingSum plannedSum
      have recorded := tracks.recorded
      refine ⟨?_, ?_, ?_, ?_, tracks.inLoop, tracks.registered⟩
      · simp only [eventEq]
        exact sourceEq
      · simp only [eventEq]
        rw [Meter.step_last_of_ne_read (changeOf_ne_read task)]
        exact tracks.last
      · simp only [eventEq]
        rw [Meter.step_published_of_ne_read (changeOf_ne_read task)]
        exact tracks.published
      · simp only [eventEq]
        omega

/-- A move of the update behind the increments: only gauges and the histogram change. -/
theorem Tracks.gauge {exporter : PrometheusExporter} {pc : UpdatePc}
    (tracks : metered.Tracks counter)
    (noneLoaded : metered.system.update.loaded? counter = none)
    (noneLater : pc.loaded? counter = none) (noLoop : pc.InLoop)
    (lastEq : exporter.last = metered.system.exporter.last)
    (valueEq : exporter.value counter = metered.system.exporter.value counter)
    (registered : exporter.registry.isSome = true) :
    ({ metered with
        system := { metered.system with exporter := exporter, update := pc } } :
      Metered).Tracks counter := by
  have last := tracks.last
  have published := tracks.published
  rw [noneLoaded] at last published
  refine ⟨tracks.source, ?_, ?_, tracks.recorded, noLoop, .inr registered⟩
  · change _ = (pc.loaded? counter).getD (exporter.last counter)
    rw [noneLater, lastEq]
    exact last
  · change _ = metered.retired counter + exporter.value counter + (pc.loaded? counter).elim 0 _
    rw [noneLater, valueEq]
    exact published

theorem Tracks.modify {change : Registry → Registry} {pc : UpdatePc}
    (tracks : metered.Tracks counter)
    (noneLoaded : metered.system.update.loaded? counter = none)
    (noneLater : pc.loaded? counter = none) (noLoop : pc.InLoop)
    (registered : metered.system.exporter.registry.isSome = true)
    (sameCounters : ∀ registry, (change registry).counters = registry.counters) :
    ({ metered with
        system := { metered.system with
          exporter := metered.system.exporter.modify change, update := pc } } :
      Metered).Tracks counter :=
  tracks.gauge noneLoaded noneLater noLoop rfl (value_modify _ sameCounters counter)
    (by simpa [PrometheusExporter.modify] using registered)

section Loops

variable {metrics : Metrics.System} {exporter : PrometheusExporter} {next : Counter}
variable {rest : List Counter} {loaded : Counter → ℕ} {meter : Counter → Meter}
variable {retired : Counter → ℕ}

theorem Tracks.load
    (tracks : Tracks ⟨⟨metrics, exporter, .loading next rest loaded⟩, meter, retired⟩ counter)
    (exported : counter ∈ exportedCounters) (registered : exporter.registry.isSome = true) :
    Tracks
      ⟨⟨metrics, exporter,
          .loadRemaining (Function.update loaded next (metrics.collector.counters next)) rest⟩,
        fun counter => (meter counter).step 64 (if next = counter then .read else .rest),
        retired⟩ counter := by
  have source : (meter counter).source = metrics.collector.counters counter := tracks.source
  have last : (meter counter).last = _ := tracks.last
  have published : (meter counter).published = retired counter + exporter.value counter + _ :=
    tracks.published
  have inLoop := tracks.inLoop
  have fresh := UpdatePc.not_mem_of_suffix UpdatePc.nodup_snapshotCounters inLoop
  by_cases same : counter = next
  · subst same
    rw [UpdatePc.loaded?_loading, if_pos List.mem_cons_self] at last published
    refine ⟨?_, ?_, ?_, ?_, UpdatePc.inLoop_loadRemaining inLoop, .inr registered⟩
    all_goals simp only [if_true, UpdatePc.loaded?_loadRemaining _ _ exported, fresh, if_false]
    · exact source
    · change (meter counter).source = _
      simpa using source
    · change (meter counter).published + delta (meter counter).source (meter counter).last =
        retired counter + exporter.value counter + _
      simp only [Option.elim_none, Option.getD_none, Nat.add_zero] at last published
      simp [published, last, source]
    · exact tracks.recorded
  · have other : next ≠ counter := Ne.symm same
    simp only [UpdatePc.loaded?_loading, List.mem_cons, same, false_or] at last published
    refine ⟨?_, ?_, ?_, ?_, UpdatePc.inLoop_loadRemaining inLoop, .inr registered⟩
    all_goals simp only [other, if_false, UpdatePc.loaded?_loadRemaining _ _ exported,
      Function.update_of_ne same]
    · exact source
    · exact last
    · exact published
    · exact tracks.recorded

theorem Tracks.increment
    (tracks : Tracks ⟨⟨metrics, exporter, .incrementing next rest loaded⟩, meter, retired⟩
      counter)
    (registered : exporter.registry.isSome = true) :
    Tracks
      ⟨⟨metrics, exporter.increment next (loaded next), .incrementRemaining loaded rest⟩,
        meter, retired⟩ counter := by
  have last : (meter counter).last = _ := tracks.last
  have published : (meter counter).published = retired counter + exporter.value counter + _ :=
    tracks.published
  have inLoop := tracks.inLoop
  have fresh := UpdatePc.not_mem_of_suffix UpdatePc.nodup_exportedCounters inLoop
  have stillRegistered : (exporter.increment next (loaded next)).registry.isSome = true := by
    simpa [PrometheusExporter.increment] using registered
  refine ⟨tracks.source, ?_, ?_, tracks.recorded,
    UpdatePc.inLoop_incrementRemaining inLoop, .inr stillRegistered⟩
  · change (meter counter).last = _
    rw [UpdatePc.loaded?_incrementRemaining]
    by_cases same : counter = next
    · subst same
      simpa [fresh, PrometheusExporter.increment, deltaOrReset_eq] using last
    · simpa [same, PrometheusExporter.increment, Function.update_of_ne same] using last
  · change (meter counter).published = retired counter +
      (exporter.increment next (loaded next)).value counter + _
    rw [UpdatePc.loaded?_incrementRemaining]
    by_cases same : counter = next
    · subst same
      rw [value_increment_self _ _ registered]
      simpa [fresh, Nat.add_assoc] using published
    · rw [value_increment_of_ne _ same]
      simpa [same, PrometheusExporter.increment, Function.update_of_ne same] using published

end Loops

theorem Tracks.move {now : ℤ} (tracks : metered.Tracks counter)
    (exported : counter ∈ exportedCounters)
    (taken : metered.step (.move now) = some after) : after.Tracks counter := by
  obtain ⟨next, systemStep, rfl⟩ := Option.map_eq_some_iff.mp taken
  obtain ⟨⟨exporter, later⟩, moved, rfl⟩ := Option.map_eq_some_iff.mp systemStep
  obtain ⟨⟨metrics, before, pc⟩, meter, retired⟩ := metered
  have registered : before.registry.isSome = true :=
    tracks.registered.resolve_left fun idle => by
      cases idle
      cases moved
  cases pc with
  | idle => cases moved
  | loading next rest loaded =>
      cases moved
      exact tracks.load exported registered
  | incrementing next rest loaded =>
      cases moved
      exact tracks.increment registered
  | loadStart loaded =>
      simp only [UpdatePc.move] at moved
      split at moved
      · cases moved
        exact tracks.modify rfl rfl trivial registered (by intro registry; rfl)
      · cases moved
        exact tracks.gauge rfl rfl trivial rfl rfl registered
  | loadTotal elapsed loaded =>
      cases moved
      exact tracks.modify rfl rfl trivial registered (by intro registry; rfl)
  | rateTotal loaded =>
      simp only [UpdatePc.move] at moved
      split at moved
      · cases moved
        exact tracks.modify rfl rfl trivial registered (by intro registry; rfl)
      · cases moved
        exact tracks.gauge rfl rfl trivial rfl rfl registered
  | rateFailed total loaded =>
      cases moved
      exact tracks.modify rfl rfl trivial registered (by intro registry; rfl)
  | observing loaded =>
      cases moved
      exact tracks.modify rfl rfl trivial registered (by intro registry; rfl)

/-- `start` and `stop` retire the values, and a call of `update_metrics` begins with
nothing loaded. -/
theorem Tracks.control {action : Action} (tracks : metered.Tracks counter)
    (exported : counter ∈ exportedCounters) (taken : metered.step action = some after)
    (isControl : action = .stop ∨ action = .update ∨ ∃ bound, action = .start bound) :
    after.Tracks counter := by
  obtain ⟨next, systemStep, rfl⟩ := Option.map_eq_some_iff.mp taken
  obtain ⟨⟨metrics, exporter, pc⟩, meter, retired⟩ := metered
  have last := tracks.last
  have published := tracks.published
  rcases isControl with rfl | rfl | ⟨bound, rfl⟩
  all_goals
    cases pc with
    | idle => ?_
    | _ => cases systemStep
  · cases systemStep
    exact ⟨tracks.source, last, published, tracks.recorded, trivial, .inl rfl⟩
  · simp only [System.step] at systemStep
    split at systemStep
    · rename_i registered
      cases systemStep
      refine ⟨tracks.source, ?_, ?_, tracks.recorded, List.suffix_refl _, .inr registered⟩
      all_goals
        have waiting : counter ∈ snapshotCounters := by
          exact List.mem_append_left [.cumulativeLatencyUs] exported
        simp only [UpdatePc.loaded?_loadRemaining _ _ exported, waiting, if_true]
      · exact last
      · exact published
    · cases systemStep
      exact tracks
  · cases bound with
    | false =>
        cases systemStep
        exact tracks
    | true =>
        cases systemStep
        exact ⟨tracks.source, last, published, tracks.recorded, trivial, .inl rfl⟩

theorem Tracks.step {action : Action} (tracks : metered.Tracks counter)
    (exported : counter ∈ exportedCounters) (taken : metered.step action = some after) :
    after.Tracks counter := by
  cases action with
  | collector action => exact tracks.collector taken
  | start bound => exact tracks.control exported taken (.inr (.inr ⟨bound, rfl⟩))
  | stop => exact tracks.control exported taken (.inl rfl)
  | update => exact tracks.control exported taken (.inr (.inl rfl))
  | move now => exact tracks.move exported taken

/-- The meter of the counter keeps its ledger. -/
def Bounded (counter : Counter) (metered : Metered) : Prop :=
  (metered.meter counter).Ledger 64

/-- Nothing of the counter is lost so far. -/
def Lossless (counter : Counter) (metered : Metered) : Prop :=
  (metered.meter counter).Exact

theorem meter_step {action : Action} (taken : metered.step action = some after) :
    after.meter counter =
      (metered.meter counter).step 64 (metered.system.event counter action) := by
  obtain ⟨next, -, rfl⟩ := Option.map_eq_some_iff.mp taken
  rfl

theorem Bounded.step {action : Action} (bounded : Bounded counter metered)
    (taken : metered.step action = some after) : Bounded counter after := by
  rw [Bounded, meter_step taken]
  exact (Meter.Ledger.step bounded _).1

theorem Bounded.lossless_step_iff {action : Action} (bounded : Bounded counter metered)
    (taken : metered.step action = some after) :
    Lossless counter after ↔ Lossless counter metered ∧ metered.Keeps counter action := by
  rw [Lossless, meter_step taken]
  exact (Meter.Ledger.step bounded _).2

/-- Whenever no update is in progress, what an exported counter has published over all
its registrations and what the collector still holds unread for it are at most what was
recorded, which is what the record calls were to add, up to what they still have to
add.  They are all of it exactly when no addition wrapped, the collector was cleared
only when everything was published, and the first update after a clearing found less
than the update before it, or that one had found nothing. -/
theorem published_eq_recorded_iff {now : ℤ} {actions : List Action} {last : Metered}
    {counter : Counter} (executes : run step (new now) actions = some last)
    (exported : counter ∈ exportedCounters) (idle : last.system.update = .idle) :
    (last.meter counter).recorded +
        (last.system.metrics.tasks.map (Task.pending counter)).sum =
      (last.system.metrics.tasks.map (Task.planned counter)).sum ∧
    last.published counter + (last.meter counter).unread ≤ (last.meter counter).recorded ∧
    (last.published counter + (last.meter counter).unread = (last.meter counter).recorded ↔
      guardedRun step (Keeps counter) (new now) actions = some last) := by
  have tracks : last.Tracks counter :=
    (reaches_of_run executes).invariant (Tracks · counter) (new_tracks now counter)
      fun before action after holds _ taken => holds.step exported taken
  have initial : Bounded counter (new now) := Meter.new_ledger 64
  have bounded : Bounded counter last :=
    (reaches_of_run executes).invariant (Bounded counter) initial
      fun before action after holds _ taken => holds.step taken
  have losslessIff := guardedRun_iff executes initial
    (fun before action after holds taken => holds.step taken)
    (fun before action after holds taken => holds.lossless_step_iff taken)
  have publishedEq : (last.meter counter).published = last.published counter := by
    rw [tracks.published, idle]
    rfl
  rw [← publishedEq]
  refine ⟨tracks.recorded, bounded.bounded, ?_⟩
  exact losslessIff.trans (and_iff_right Meter.new_exact)

/-- One call of `update_metrics`, at once after the collector was made. -/
def promptUpdate : List Action :=
  Action.update :: List.replicate 15 (Action.move 0)

/-- A request is counted and exported; a reset clears its count, and the next request
brings the counter back to where the last update has seen it. -/
def unnoticedReset : List Action :=
  [Action.start true, Action.collector (.call (.record .instant)),
    Action.collector (.move 0 ⟨false, 0⟩)] ++ promptUpdate ++
  [Action.collector (.call .reset), Action.collector (.move 1 ⟨false, 0⟩),
    Action.collector (.move 1 ⟨false, 0⟩), Action.collector (.call (.record .instant)),
    Action.collector (.move 2 ⟨false, 0⟩)] ++ promptUpdate

theorem published_eq_recorded_iff_unnoticedReset :
    ∃ last, run step (new 0) unnoticedReset = some last ∧
      last.published .totalRequests = 1 ∧ (last.meter .totalRequests).recorded = 2 ∧
      guardedRun step (Keeps .totalRequests) (new 0) unnoticedReset ≠ some last := by
  have figures : (run step (new 0) unnoticedReset).map (fun last =>
      (last.system.update.isIdle, last.published .totalRequests,
        (last.meter .totalRequests).unread, (last.meter .totalRequests).recorded)) =
      some (true, 1, 0, 2) := by
    decide +kernel
  obtain ⟨last, executes, figuresEq⟩ := Option.map_eq_some_iff.mp figures
  simp only [Prod.mk.injEq] at figuresEq
  obtain ⟨idle, published, unread, recorded⟩ := figuresEq
  refine ⟨last, executes, published, recorded, fun kept => ?_⟩
  have counted := (published_eq_recorded_iff executes (by decide) (UpdatePc.eq_idle idle)).2.2.mpr
    kept
  omega

end Metered

end Cppload.Prometheus

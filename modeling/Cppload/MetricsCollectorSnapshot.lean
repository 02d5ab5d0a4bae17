import Cppload.MetricsCollectorSequential
import Cppload.MetricsCollectorTotals
import Cppload.MetricsCollectorPercentiles

/-!
# A snapshot of a collector at rest

Records that ran concurrently leave their latencies in the ring in the order of their
tickets, which need not be the order of the calls.  As long as the ring has never been
full nothing has been evicted, so a scan of a collector at rest returns a permutation of
what was recorded, and percentiles do not depend on the order.
-/

namespace Cppload.Metrics

open Transition TicketRing OrderStatistic

structure RequestMetrics where
  totalRequests : ℕ
  successfulRequests : ℕ
  failedRequests : ℕ
  totalBytesSent : ℕ
  totalBytesReceived : ℕ
  minLatency : ℤ
  maxLatency : ℤ
  meanLatencyUs : ℚ
  p95LatencyUs : ℕ
  p99LatencyUs : ℕ
  deriving DecidableEq, Repr

/-- `snapshot` of a collector at rest, given the samples that its scan returns. -/
def MetricsCollector.snapshot (collector : MetricsCollector) (first second : NthElement ℤ)
    (samples : List ℤ) : RequestMetrics :=
  let total := collector.counters .totalRequests
  let percentiles := snapshotPercentiles first second samples
  { totalRequests := total
    successfulRequests := collector.counters .successfulRequests
    failedRequests := collector.counters .failedRequests
    totalBytesSent := collector.counters .totalBytesSent
    totalBytesReceived := collector.counters .totalBytesReceived
    minLatency := collector.minLatencyUs
    maxLatency := collector.maxLatencyUs
    meanLatencyUs :=
      if 0 < total then collector.counters .cumulativeLatencyUs / total else 0
    p95LatencyUs := percentiles.p95LatencyUs
    p99LatencyUs := percentiles.p99LatencyUs }

/-! ### Nothing is evicted before the ring is full -/

/-- The call has found the ring full. -/
def Role.evicts : Role → Bool
  | .pushing _ (.loadOldest _) | .pushing _ (.casHead _) => true
  | _ => false

/-- As long as fewer tickets are claimed than there are cells, `head_` is where it
started. -/
def Undrained (ring : Ring) (roles : List Role) : Prop :=
  ring.tail < kRingCapacity → ring.head = 0 ∧ ∀ role ∈ roles, role.evicts = false

theorem Advance.undrained {ring after : Ring} {role next : Role} {roles : List Role}
    {index : ℕ} (advance : Advance ring role after next)
    (found : roles[index]? = some role) (within : role.Within ring)
    (noReset : role.resets = false) (undrained : Undrained ring roles) :
    Undrained after (roles.set index next) := by
  intro room
  obtain ⟨unmoved, undisturbed⟩ := undrained (advance.tail_le.trans_lt room)
  have calm := undisturbed role (List.mem_of_getElem? found)
  have others (quiet : next.evicts = false) :
      ∀ other ∈ roles.set index next, other.evicts = false := by
    intro other member
    rcases List.mem_or_eq_of_mem_set member with old | rfl
    · exact undisturbed other old
    · exact quiet
  cases advance with
  | foundFull full =>
      have behind : _ ≤ ring.tail := within
      rw [unmoved] at full
      omega
  | oldestPublished | oldestPending | evicted | evictionLost => cases calm
  | measuredTail | measuredEmpty | rewroteMore | rewroteLast | reopened => cases noReset
  | elsewhere | enter | readTail | foundRoom | claimed | claimLost | wroteValue | published
  | measuredHead => exact ⟨unmoved, others rfl⟩

/-! ### The mutex of the scans -/

/-- The call is between the taking and the release of `snapshot_mtx_`. -/
def Task.holdsMutex : Task → Bool
  | .collect .loadHead | .collect (.loadTail _) | .collect (.unlock _ _) => true
  | _ => false

/-- Who has the mutex is still going to release it. -/
def System.Guarded (system : System) : Prop :=
  ∀ holder, system.collector.snapshotMtx = some holder →
    ∃ task, system.tasks[holder]? = some task ∧ task.holdsMutex = true

section Mutex

variable {caller : ℕ} {choice : Choice} {collector later : MetricsCollector}

theorem RecordPc.move_mutex {sample : Sample} {pc next : RecordPc}
    (moved : pc.move sample choice collector = some (later, next)) :
    later.snapshotMtx = collector.snapshotMtx := by
  cases pc with
  | adding amount rest => cases moved; rfl
  | minimum loop => cases moved; rfl
  | maximum loop => cases moved; rfl
  | pushing push =>
      obtain ⟨⟨after, nextPush⟩, -, resultEq⟩ := Option.map_eq_some_iff.mp moved
      cases resultEq
      rfl

/-- A move of a scan takes the mutex, releases it, or leaves it alone. -/
theorem CollectPc.move_mutex {pc next : CollectPc}
    (moved : pc.move caller collector = some (later, next)) :
    (later.snapshotMtx = some caller ∧ (Task.collect next).holdsMutex = true) ∨
      later.snapshotMtx = none ∨
      later.snapshotMtx = collector.snapshotMtx ∧
        ((Task.collect pc).holdsMutex = true → (Task.collect next).holdsMutex = true) := by
  cases pc with
  | lock =>
      simp only [CollectPc.move] at moved
      split at moved
      · cases moved
        exact .inl ⟨rfl, rfl⟩
      · cases moved
  | unlock h t =>
      cases moved
      exact .inr (.inl rfl)
  | loadSeq i t samples =>
      simp only [CollectPc.move] at moved
      split at moved
      · cases moved
        exact .inr (.inr ⟨rfl, by simp [Task.holdsMutex]⟩)
      · cases moved
        exact .inr (.inr ⟨rfl, by simp [Task.holdsMutex]⟩)
  | loadHead =>
      cases moved
      exact .inr (.inr ⟨rfl, by simp [Task.holdsMutex]⟩)
  | loadTail h =>
      cases moved
      exact .inr (.inr ⟨rfl, by simp [Task.holdsMutex]⟩)
  | loadValue i t samples =>
      cases moved
      exact .inr (.inr ⟨rfl, by simp [Task.holdsMutex]⟩)
  | returned samples => cases moved

end Mutex

namespace System

variable {system next : System}

theorem Guarded.call {call : Call} (guarded : system.Guarded)
    (taken : system.step (.call call) = some next) : next.Guarded := by
  cases taken
  intro holder held
  obtain ⟨task, found, holds⟩ := guarded holder held
  obtain ⟨within, -⟩ := List.getElem?_eq_some_iff.mp found
  exact ⟨task, by rw [List.getElem?_append_left within]; exact found, holds⟩

theorem Guarded.move {index : ℕ} {choice : Choice} (guarded : system.Guarded)
    (noReset : ∀ task ∈ system.tasks, task.isReset = false)
    (taken : system.step (.move index choice) = some next) : next.Guarded := by
  simp only [step, Option.bind_eq_some_iff, Option.map_eq_some_iff] at taken
  obtain ⟨task, found, ⟨later, nextTask⟩, moved, rfl⟩ := taken
  obtain ⟨within, -⟩ := List.getElem?_eq_some_iff.mp found
  have set (position : ℕ) : (system.tasks.set index nextTask)[position]? =
      if index = position then some nextTask else system.tasks[position]? := by
    rw [List.getElem?_set, if_pos within]
  -- a move that leaves the mutex alone keeps its holder holding
  have kept (same : later.snapshotMtx = system.collector.snapshotMtx)
      (holding : task.holdsMutex = true → nextTask.holdsMutex = true) :
      Guarded ⟨later, system.tasks.set index nextTask⟩ := by
    intro holder held
    obtain ⟨holderTask, holderFound, holds⟩ := guarded holder (same ▸ held)
    rw [set]
    split
    · rename_i here
      subst here
      rw [found] at holderFound
      cases holderFound
      exact ⟨nextTask, rfl, holding holds⟩
    · exact ⟨holderTask, holderFound, holds⟩
  cases task with
  | record sample pc =>
      obtain ⟨result, recorded, resultEq⟩ := Option.map_eq_some_iff.mp moved
      cases resultEq
      exact kept (RecordPc.move_mutex recorded) (by simp [Task.holdsMutex])
  | reset pc => cases noReset _ (List.mem_of_getElem? found)
  | collect pc =>
      obtain ⟨result, collected, resultEq⟩ := Option.map_eq_some_iff.mp moved
      cases resultEq
      rcases CollectPc.move_mutex collected with ⟨taken, holds⟩ | released | ⟨same, holding⟩
      · intro holder held
        obtain rfl : index = holder := Option.some.inj (taken.symm.trans held)
        exact ⟨_, by rw [set, if_pos rfl], holds⟩
      · intro holder held
        rw [released] at held
        cases held
      · exact kept same holding

theorem Guarded.free (guarded : system.Guarded) (quiescent : system.Quiescent) :
    system.collector.snapshotMtx = none := by
  cases held : system.collector.snapshotMtx with
  | none => rfl
  | some holder =>
      obtain ⟨task, found, holds⟩ := guarded holder held
      have returned := quiescent task (List.mem_of_getElem? found)
      unfold Task.isReturned at returned
      split at returned <;> first | cases holds | cases returned

/-! ### The samples of a collector at rest -/

/-- What holds along runs without reset, with what a scan needs. -/
structure Calm (system : System) : Prop where
  exactly : system.Exact
  undrained : Undrained system.collector.ring system.roles
  guarded : system.Guarded

theorem calm_of_reaches {now : ℤ}
    (reaches : Reaches step (fun _ action => action.recordsOnly) (new now) system)
    (few : system.tasks.length < 2 ^ 63) :
    Booked system.collector.ring system.roles ∧ system.Calm := by
  refine booked_invariant reaches few Calm
    ⟨new_exact now, fun _ => ⟨rfl, by simp [roles, new]⟩, by simp [Guarded, new,
      MetricsCollector.new]⟩ ?_
  intro before action after booked small calm allowed taken
  cases action with
  | call call =>
      refine ⟨calm.exactly.call allowed taken, ?_, calm.guarded.call taken⟩
      obtain ⟨collectorEq, rolesEq⟩ := call_roles taken
      rw [collectorEq, rolesEq]
      intro room
      obtain ⟨unmoved, undisturbed⟩ := calm.undrained room
      refine ⟨unmoved, ?_⟩
      intro role member
      rcases List.mem_append.mp member with old | new
      · exact undisturbed role old
      · rw [List.mem_singleton.mp new]
        rfl
  | move index choice =>
      refine ⟨calm.exactly.move booked small taken, ?_,
        calm.guarded.move calm.exactly.noReset taken⟩
      obtain ⟨role, nextRole, found, advance, rolesEq⟩ := move_advance booked small taken
      have member := List.mem_of_getElem? found
      rw [rolesEq]
      exact advance.undrained found (booked.within role member)
        (calm.exactly.owed role member).noReset calm.undrained

/-- The latencies in the cells, by ticket. -/
def buffered (system : System) : List ℤ :=
  (List.range system.collector.ring.tail).map fun ticket =>
    (system.collector.ring.cells (ticket % kRingCapacity)).value

/-- What the returned records have stored, in the order of the calls. -/
theorem stored_of_returned {tasks : List Task}
    (returned : ∀ task ∈ tasks, task.isReturned = true) :
    ((tasks.map Task.role).filterMap Role.stored).map Prod.fst =
        (tasks.map Task.role).filterMap Role.ticket ∧
      ((tasks.map Task.role).filterMap Role.stored).map Prod.snd =
        (tasks.filterMap Task.sample).map Sample.latency := by
  induction tasks with
  | nil => exact ⟨rfl, rfl⟩
  | cons task rest ih =>
      have first := returned task List.mem_cons_self
      obtain ⟨tickets, latencies⟩ :=
        ih fun other member => returned other (List.mem_cons_of_mem task member)
      unfold Task.isReturned at first
      split at first
      · exact ⟨congrArg (List.cons _) tickets, congrArg (List.cons _) latencies⟩
      · exact ⟨tickets, latencies⟩
      · exact ⟨tickets, latencies⟩
      · cases first

theorem Calm.buffered_perm (calm : system.Calm)
    (booked : Booked system.collector.ring system.roles) (quiescent : system.Quiescent)
    (room : system.collector.ring.tail < kRingCapacity) :
    system.buffered.Perm (system.records.map Sample.latency) := by
  obtain ⟨unmoved, -⟩ := calm.undrained room
  have tickets : (system.roles.filterMap Role.stored).map Prod.fst =
      system.roles.filterMap Role.ticket := (stored_of_returned quiescent).1
  have latencies : (system.roles.filterMap Role.stored).map Prod.snd =
      system.records.map Sample.latency := (stored_of_returned quiescent).2
  have inCells : (system.roles.filterMap Role.stored).map Prod.snd =
      ((system.roles.filterMap Role.stored).map Prod.fst).map fun ticket =>
        (system.collector.ring.cells (ticket % kRingCapacity)).value := by
    rw [List.map_map]
    apply List.map_congr_left
    intro entry member
    obtain ⟨role, known, stored⟩ := List.mem_filterMap.mp member
    exact ((calm.exactly.owed role known).value entry stored (by omega)).symm
  have claims := booked.claims.map fun ticket =>
    (system.collector.ring.cells (ticket % kRingCapacity)).value
  rw [← tickets, ← inCells] at claims
  exact claims.symm.trans (.of_eq latencies)

theorem Calm.keeps (calm : system.Calm)
    (booked : Booked system.collector.ring system.roles) (quiescent : system.Quiescent)
    (room : system.collector.ring.tail < kRingCapacity) :
    system.collector.ring.Keeps 0 system.buffered := by
  obtain ⟨unmoved, -⟩ := calm.undrained room
  have length : system.buffered.length = system.collector.ring.tail := by simp [buffered]
  refine ⟨by rw [length, Nat.zero_add], ⟨Nat.zero_le _, by omega, by omega, ?_⟩, by omega⟩
  intro ticket value above found
  have below : ticket < system.collector.ring.tail := by
    obtain ⟨within, -⟩ := List.getElem?_eq_some_iff.mp found
    omega
  obtain ⟨index, sample, -, cell⟩ :=
    calm.exactly.samples_eq booked quiescent above below
  simp only [buffered, Nat.sub_zero, List.getElem?_map, List.getElem?_range below,
    Option.map_some, Option.some.injEq] at found
  rw [slot_eq] at cell
  rw [cell] at found ⊢
  rw [← found]
  rfl

/-- A scan of a collector at rest returns what was recorded, in some order. -/
theorem Calm.scan (calm : system.Calm) (booked : Booked system.collector.ring system.roles)
    (quiescent : system.Quiescent) (few : system.records.length ≤ kMaxSnapshotSamples) :
    ∃ samples moves, samples.Perm (system.records.map Sample.latency) ∧
      ∀ choices : List Choice, choices.length = moves →
        run step system (.call .collect ::
            choices.map fun choice => .move system.tasks.length choice) =
          some { system with tasks := system.tasks ++ [.collect (.returned samples)] } := by
  have capacityEq := kRingCapacity_eq
  have tailEq := Exact.tail_eq booked quiescent
  have limit : kMaxSnapshotSamples = 100000 := rfl
  have room : system.collector.ring.tail < kRingCapacity := by omega
  have keeps := calm.keeps booked quiescent room
  have all : latest system.buffered = system.buffered := by
    have length : system.buffered.length = system.collector.ring.tail := by simp [buffered]
    have none_before : system.buffered.length - kMaxSnapshotSamples = 0 := by omega
    rw [latest, List.rtake, none_before, List.drop_zero]
  obtain ⟨moves, finishes⟩ :=
    collect_finishes keeps (calm.guarded.free quiescent) (by omega)
  rw [all] at finishes
  exact ⟨system.buffered, moves, calm.buffered_perm booked quiescent room,
    fun choices enough => finishes.run enough⟩

end System

end Cppload.Metrics

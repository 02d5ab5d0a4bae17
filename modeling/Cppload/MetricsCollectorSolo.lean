import Cppload.MetricsCollectorTickets

/-!
# Calls that run without interference

While no other task moves, `record_request` returns after finitely many moves
with one more published ticket, after evicting the oldest one from a full ring,
and `reset` reaches its loop over the buffered tickets without touching the
ring.
-/

namespace Cppload.Metrics

open Transition Relation

/-- The next move compares no copy of `tail_` that is behind `head_`, stores no
label into a recycled cell and does not move `head_` backwards. -/
def Role.calm (ring : Ring) : Role → Bool
  | .pushing _ (.loadHead t) => ring.head ≤ t
  | .pushing _ (.storeSeq t) => ring.tail ≤ t + kRingCapacity
  | .rewriting i _ => ring.tail ≤ i + kRingCapacity
  | .closing t => ring.head ≤ t
  | _ => true

def System.calm (system : System) : Action → Bool
  | .call _ => true
  | .move index _ => (system.roles[index]?).all (Role.calm system.collector.ring)

/-- Calm runs. -/
def System.CalmlyReaches : System → System → Prop :=
  Reaches System.step fun system action => system.calm action = true

/-- Some calm moves of one task in a row. -/
def Solo (caller : ℕ) : MetricsCollector × Task → MetricsCollector × Task → Prop :=
  ReflTransGen fun before after =>
    before.2.role.calm before.1.ring = true ∧
      ∃ choice, before.2.move caller choice before.1 = some after

/-- The choice by which nothing interferes. -/
def smooth : Choice where
  spurious := false
  now := 0

theorem Solo.move {caller : ℕ} {first last : MetricsCollector × Task}
    (middle : MetricsCollector × Task) (calm : first.2.role.calm first.1.ring = true)
    (moved : first.2.move caller smooth first.1 = some middle)
    (rest : Solo caller middle last) : Solo caller first last :=
  ReflTransGen.head ⟨calm, smooth, moved⟩ rest

/-- Moves of one task are moves of the system. -/
theorem Solo.reaches {caller : ℕ} {first last : MetricsCollector × Task}
    (solo : Solo caller first last) (tasks : List Task)
    (found : tasks[caller]? = some first.2) :
    System.CalmlyReaches ⟨first.1, tasks⟩ ⟨last.1, tasks.set caller last.2⟩ := by
  induction solo with
  | refl =>
      rw [Roster.set_eq_self found]
      exact Reaches.refl _
  | @tail middle last _ moved reached =>
      obtain ⟨calm, choice, moved⟩ := moved
      have foundMiddle : (tasks.set caller middle.2)[caller]? = some middle.2 :=
        Roster.getElem?_set_self found
      refine ReflTransGen.tail reached ⟨.move caller choice, ?_, ?_⟩
      · have roleFound : (System.roles ⟨middle.1, tasks.set caller middle.2⟩)[caller]? =
            some middle.2.role :=
          System.roles_getElem? foundMiddle
        simp [System.calm, roleFound, calm]
      · simpa using System.step_of_move foundMiddle moved

/-- A successful request that took no time. -/
def Sample.instant : Sample where
  statusCode := 200
  latency := 0
  bytesSent := 0
  bytesReceived := 0
  statusCode_lt := by decide
  latency_ge := by decide
  latency_le := by decide
  bytesSent_lt := by decide
  bytesReceived_lt := by decide

section Record

variable (caller : ℕ) (sample : Sample)

theorem solo_adds (next : Counter × ℕ) (rest : List (Counter × ℕ))
    (collector : MetricsCollector) :
    ∃ later, Solo caller (collector, .record sample (.adding next rest))
        (later, .record sample (.minimum .load)) ∧
      later.ring = collector.ring ∧ later.snapshotMtx = collector.snapshotMtx := by
  induction rest generalizing next collector with
  | nil => exact ⟨_, .move _ rfl rfl .refl, rfl, rfl⟩
  | cons following rest ih =>
      obtain ⟨later, reached, ringEq⟩ := ih following (collector.fetchAdd next.1 next.2)
      exact ⟨later, .move _ rfl rfl reached, ringEq⟩

theorem solo_minimum (collector : MetricsCollector) :
    ∃ later, Solo caller (collector, .record sample (.minimum .load))
        (later, .record sample (.maximum .load)) ∧
      later.ring = collector.ring ∧ later.snapshotMtx = collector.snapshotMtx := by
  by_cases lower : sample.latency < collector.minLatencyUs
  · refine ⟨{ collector with minLatencyUs := sample.latency },
      .move (collector, .record sample (.minimum (.cas collector.minLatencyUs))) rfl ?_
        (.move _ rfl ?_ .refl), rfl, rfl⟩
    · simp [Task.move, RecordPc.move, Contend.move, Contend.test, lower,
        RecordPc.afterMinimum]
    · simp [Task.move, RecordPc.move, Contend.move, smooth, RecordPc.afterMinimum]
  · refine ⟨collector, .move _ rfl ?_ .refl, rfl, rfl⟩
    simp [Task.move, RecordPc.move, Contend.move, Contend.test, lower,
      RecordPc.afterMinimum]

theorem solo_maximum (collector : MetricsCollector) :
    ∃ later, Solo caller (collector, .record sample (.maximum .load))
        (later, .record sample (.pushing .loadTail)) ∧
      later.ring = collector.ring ∧ later.snapshotMtx = collector.snapshotMtx := by
  by_cases higher : collector.maxLatencyUs < sample.latency
  · refine ⟨{ collector with maxLatencyUs := sample.latency },
      .move (collector, .record sample (.maximum (.cas collector.maxLatencyUs))) rfl ?_
        (.move _ rfl ?_ .refl), rfl, rfl⟩
    · simp [Task.move, RecordPc.move, Contend.move, Contend.test, higher,
        RecordPc.afterMaximum]
    · simp [Task.move, RecordPc.move, Contend.move, smooth, RecordPc.afterMaximum]
  · refine ⟨collector, .move _ rfl ?_ .refl, rfl, rfl⟩
    simp [Task.move, RecordPc.move, Contend.move, Contend.test, higher,
      RecordPc.afterMaximum]

theorem solo_enter (collector : MetricsCollector) :
    ∃ later, Solo caller (collector, (Call.record sample).start)
        (later, .record sample (.pushing .loadTail)) ∧
      later.ring = collector.ring ∧ later.snapshotMtx = collector.snapshotMtx := by
  obtain ⟨added, toMinimum, addedRing, addedMtx⟩ := solo_adds caller sample _ _ collector
  obtain ⟨lowered, toMaximum, loweredRing, loweredMtx⟩ := solo_minimum caller sample added
  obtain ⟨raised, toPush, raisedRing, raisedMtx⟩ := solo_maximum caller sample lowered
  exact ⟨raised, (toMinimum.trans toMaximum).trans toPush,
    raisedRing.trans (loweredRing.trans addedRing),
    raisedMtx.trans (loweredMtx.trans addedMtx)⟩

/-- The ring with one more published ticket. -/
def Ring.append (ring : Ring) (latency : ℤ) : Ring :=
  { (ring.setValue (slot ring.tail) latency).setSeq (slot ring.tail) (ring.tail + 1) with
    tail := ring.tail + 1 }

theorem solo_push (collector : MetricsCollector)
    (ordered : collector.ring.head ≤ collector.ring.tail)
    (room : collector.ring.tail < collector.ring.head + kRingCapacity)
    (small : collector.ring.tail < 2 ^ 63) :
    Solo caller (collector, .record sample (.pushing .loadTail))
      ({ collector with ring := collector.ring.append sample.latency },
        .record sample (.pushing (.returned collector.ring.tail))) := by
  have free := (le_difference_iff small (ordered.trans_lt small)).not.mpr (by omega)
  refine .move (collector, .record sample (.pushing (.loadHead collector.ring.tail))) rfl rfl ?_
  refine .move (collector, .record sample (.pushing (.casTail collector.ring.tail)))
    (decide_eq_true ordered) ?_ ?_
  · simp [Task.move, RecordPc.move, Push.move, free]
  refine .move ({ collector with ring.tail := collector.ring.tail + 1 },
    .record sample (.pushing (.storeValue collector.ring.tail))) rfl ?_ ?_
  · simp [Task.move, RecordPc.move, Push.move, smooth, increment_eq small]
  refine .move _ rfl rfl (.move _ (decide_eq_true (by dsimp only [Ring.setValue]; omega)) ?_ .refl)
  simp only [Task.move, RecordPc.move, Push.move, increment_eq small, Option.map_some]
  rfl

/-- A writer that finds the ring full gets ready to evict the oldest sample. -/
theorem solo_oldest (collector : MetricsCollector)
    (full : collector.ring.head + kRingCapacity ≤ collector.ring.tail)
    (published : (collector.ring.cells (slot collector.ring.head)).seq =
      collector.ring.head + 1)
    (small : collector.ring.tail < 2 ^ 63) :
    Solo caller (collector, .record sample (.pushing .loadTail))
      (collector, .record sample (.pushing (.casHead collector.ring.head))) := by
  have headSmall : collector.ring.head < 2 ^ 63 := by omega
  have tested := (le_difference_iff small headSmall).mpr (.inr full)
  refine .move (collector, .record sample (.pushing (.loadHead collector.ring.tail))) rfl rfl ?_
  refine .move (collector, .record sample (.pushing (.loadOldest collector.ring.head)))
    (decide_eq_true (by dsimp only; omega)) ?_ ?_
  · simp [Task.move, RecordPc.move, Push.move, tested]
  refine .move _ rfl ?_ .refl
  simp [Task.move, RecordPc.move, Push.move, published, increment_eq headSmall]

theorem evict_move (collector : MetricsCollector) (small : collector.ring.head < 2 ^ 63) :
    (Task.record sample (.pushing (.casHead collector.ring.head))).move caller smooth collector =
      some ({ collector with ring.head := collector.ring.head + 1 },
        .record sample (.pushing .loadTail)) := by
  simp [Task.move, RecordPc.move, Push.move, smooth, increment_eq small]

/-- It then evicts this sample and pushes its own. -/
theorem solo_replace (collector : MetricsCollector)
    (full : collector.ring.tail = collector.ring.head + kRingCapacity)
    (small : collector.ring.tail < 2 ^ 63) :
    Solo caller (collector, .record sample (.pushing (.casHead collector.ring.head)))
      ({ collector with
          ring := { collector.ring with head := collector.ring.head + 1 }.append
            sample.latency },
        .record sample (.pushing (.returned collector.ring.tail))) := by
  have capacityEq := kRingCapacity_eq
  refine .move _ rfl (evict_move caller sample collector (by omega)) ?_
  exact solo_push caller sample { collector with ring.head := collector.ring.head + 1 }
    (by dsimp only; omega) (by dsimp only; omega) small

end Record

section Reset

variable (caller : ℕ)

theorem solo_clears (next : Counter) (rest : List Counter) (collector : MetricsCollector) :
    ∃ later, Solo caller (collector, .reset (.clearing next rest))
        (later, .reset .storeMin) ∧ later.ring = collector.ring := by
  induction rest generalizing next collector with
  | nil => exact ⟨_, .move _ rfl rfl .refl, rfl⟩
  | cons following rest ih =>
      obtain ⟨later, reached, ringEq⟩ :=
        ih following { collector with counters := Function.update collector.counters next 0 }
      exact ⟨later, .move _ rfl rfl reached, ringEq⟩

theorem solo_measure {collector : MetricsCollector} (free : collector.snapshotMtx = none) :
    ∃ later, Solo caller (collector, .reset .lock)
        (later, .reset (.rewriteFrom collector.ring.head collector.ring.tail)) ∧
      later.ring = collector.ring := by
  obtain ⟨cleared, toStores, clearedRing⟩ :=
    solo_clears caller .totalRequests
      [.successfulRequests, .failedRequests, .totalBytesSent, .totalBytesReceived,
        .cumulativeLatencyUs] { collector with snapshotMtx := some caller }
  have ringEq : cleared.ring = collector.ring := clearedRing
  have stores : Solo caller (cleared, .reset .storeMin)
      ({ cleared with
          minLatencyUs := microsecondsMax
          maxLatencyUs := microsecondsMin
          startTime := smooth.now },
        .reset (.rewriteFrom cleared.ring.head cleared.ring.tail)) :=
    .move _ rfl rfl (.move _ rfl rfl (.move _ rfl rfl (.move _ rfl rfl
      (.move _ rfl rfl .refl))))
  rw [ringEq] at stores
  refine ⟨_, .move _ rfl ?_ (toStores.trans stores), rfl⟩
  simp only [Task.move, ResetPc.move, free, if_true, Option.map_some]
  rfl

end Reset

namespace System

variable (collector : MetricsCollector) (tasks : List Task)

/-- A call that runs alone. -/
theorem reaches_of_solo (call : Call) {later : MetricsCollector} {next : Task}
    (solo : Solo tasks.length (collector, call.start) (later, next)) :
    CalmlyReaches ⟨collector, tasks⟩ ⟨later, tasks ++ [next]⟩ := by
  have called : CalmlyReaches ⟨collector, tasks⟩ ⟨collector, tasks ++ [call.start]⟩ :=
    ReflTransGen.single ⟨.call call, rfl, rfl⟩
  have found : (tasks ++ [call.start])[tasks.length]? = some call.start := by simp
  simpa [CalmlyReaches] using Reaches.trans called (solo.reaches _ found)

/-- Recording into a ring with room. -/
theorem record_reaches (sample : Sample) (ordered : collector.ring.head ≤ collector.ring.tail)
    (room : collector.ring.tail < collector.ring.head + kRingCapacity)
    (small : collector.ring.tail < 2 ^ 63) :
    ∃ later, CalmlyReaches ⟨collector, tasks⟩
        ⟨later, tasks ++ [.record sample (.pushing (.returned collector.ring.tail))]⟩ ∧
      later.ring = collector.ring.append sample.latency ∧
      later.snapshotMtx = collector.snapshotMtx := by
  obtain ⟨entered, toPush, ringEq, mtxEq⟩ := solo_enter tasks.length sample collector
  rw [← ringEq] at ordered room small ⊢
  have pushed := solo_push tasks.length sample entered ordered room small
  exact ⟨_, reaches_of_solo _ _ (.record sample) (toPush.trans pushed), rfl, mtxEq⟩

/-- Recording into a full ring whose oldest sample is complete, up to the eviction. -/
theorem record_evicting_reaches (sample : Sample)
    (full : collector.ring.head + kRingCapacity ≤ collector.ring.tail)
    (published : (collector.ring.cells (slot collector.ring.head)).seq =
      collector.ring.head + 1)
    (small : collector.ring.tail < 2 ^ 63) :
    ∃ later, CalmlyReaches ⟨collector, tasks⟩
        ⟨later, tasks ++ [.record sample (.pushing (.casHead collector.ring.head))]⟩ ∧
      later.ring = collector.ring := by
  obtain ⟨entered, toPush, ringEq, -⟩ := solo_enter tasks.length sample collector
  rw [← ringEq] at full published small ⊢
  have ready := solo_oldest tasks.length sample entered full published small
  exact ⟨_, reaches_of_solo _ _ (.record sample) (toPush.trans ready), rfl⟩

/-- Recording into a full ring whose oldest sample is complete. -/
theorem record_full_reaches (sample : Sample)
    (full : collector.ring.tail = collector.ring.head + kRingCapacity)
    (published : (collector.ring.cells (slot collector.ring.head)).seq =
      collector.ring.head + 1)
    (small : collector.ring.tail < 2 ^ 63) :
    ∃ later, CalmlyReaches ⟨collector, tasks⟩
        ⟨later, tasks ++ [.record sample (.pushing (.returned collector.ring.tail))]⟩ ∧
      later.ring =
        { collector.ring with head := collector.ring.head + 1 }.append sample.latency := by
  obtain ⟨entered, toPush, ringEq, -⟩ := solo_enter tasks.length sample collector
  rw [← ringEq] at full published small ⊢
  have ready := solo_oldest tasks.length sample entered full.ge published small
  have replaced := solo_replace tasks.length sample entered full small
  exact ⟨_, reaches_of_solo _ _ (.record sample) ((toPush.trans ready).trans replaced), rfl⟩

/-- A reset that has read `head_` and `tail_` behind the first ticket and is about
to relabel it, in a ring with `n` tickets. -/
structure Stalled (n : ℕ) (system : System) : Prop where
  headEq : system.collector.ring.head = 0
  tailEq : system.collector.ring.tail = n
  oldest : (system.collector.ring.cells 0).seq = 1
  tasksEq : ∃ rest, (∀ task ∈ rest, task.isReturned = true) ∧ rest.length + 1 = n ∧
    system.tasks =
      .record .instant (.pushing (.returned 0)) :: .reset (.rewrite 0 1) :: rest

theorem slot_of_lt {ticket : ℕ} (below : ticket < kRingCapacity) : slot ticket = ticket := by
  rw [slot_eq, Nat.mod_eq_of_lt below]

/-- The ring can fill while a reset stalls. -/
theorem stalled_reachable (n : ℕ) (below : n < kRingCapacity) :
    ∃ system, CalmlyReaches (new 0) system ∧ Stalled (n + 1) system := by
  induction n with
  | zero =>
      obtain ⟨recorded, toRecorded, ringEq, mtxEq⟩ :=
        record_reaches (.new 0) [] .instant le_rfl below (by decide)
      obtain ⟨measured, toMeasured, measuredRing⟩ := solo_measure 1 mtxEq
      refine ⟨_, Reaches.trans toRecorded (reaches_of_solo _ _ .reset toMeasured), ?_⟩
      rw [ringEq] at measuredRing
      refine ⟨?_, ?_, ?_, [], by simp, rfl, ?_⟩
      · simp only [measuredRing]
        rfl
      · simp only [measuredRing]
        rfl
      · simp only [measuredRing]
        rfl
      · simp only [ringEq]
        rfl
  | succ n ih =>
      obtain ⟨⟨collector, tasks⟩, reaches, headEq, tailEq, oldest, rest, returned, lengthEq,
        rfl⟩ := ih (by omega)
      dsimp only at headEq tailEq oldest
      have capacityEq := kRingCapacity_eq
      obtain ⟨recorded, toRecorded, ringEq, -⟩ :=
        record_reaches collector _ .instant (by omega) (by omega) (by omega)
      refine ⟨_, Reaches.trans reaches toRecorded, ?_⟩
      have otherCell : slot collector.ring.tail ≠ 0 := by
        rw [tailEq, slot_of_lt below]
        omega
      refine ⟨?_, ?_, ?_, rest ++ [_], ?_, ?_, rfl⟩
      · simp only [ringEq]
        exact headEq
      · simp only [ringEq, Ring.append]
        omega
      · simpa [ringEq, Ring.append, Ring.setSeq, Ring.setValue,
          Function.update_of_ne otherCell.symm] using oldest
      · intro task member
        rcases List.mem_append.mp member with old | new
        · exact returned task old
        · obtain rfl := List.mem_singleton.mp new
          rfl
      · simp [lengthEq]

end System

end Cppload.Metrics

import Cppload.MetricsCollectorSolo
import Cppload.TicketRing

/-!
# Calls one after the other

When every call returns before the next one starts, the ring holds the latest
latencies recorded since the last reset in the order of their tickets.  A scan
therefore returns them exactly, and it leaves the collector as it found it.
-/

namespace Cppload.Metrics

open Transition TicketRing

instance (system : System) : Decidable system.Quiescent :=
  inferInstanceAs (Decidable (∀ task ∈ system.tasks, task.isReturned = true))

/-- A call starts only when no call is in progress. -/
def System.Sequential (system : System) : Action → Prop
  | .call _ => system.Quiescent
  | .move _ _ => True

instance (system : System) : (action : Action) → Decidable (system.Sequential action)
  | .call _ => inferInstanceAs (Decidable system.Quiescent)
  | .move _ _ => inferInstanceAs (Decidable True)

/-- What a call makes of the latencies recorded since the last reset. -/
def Task.extend (history : List ℤ) : Task → List ℤ
  | .record sample _ => history ++ [sample.latency]
  | .reset _ => []
  | .collect _ => history

/-- The latencies recorded since the last reset, oldest first. -/
def recordedSinceReset (tasks : List Task) : List ℤ :=
  tasks.foldl Task.extend []

def Task.isRecord : Task → Bool
  | .record _ _ => true
  | _ => false

/-- The latest latencies, as many as a scan returns. -/
def latest (history : List ℤ) : List ℤ :=
  history.rtake kMaxSnapshotSamples

/-! ### The ring between two calls -/

/-- The cell is published for the ticket with this payload. -/
def Cell.Holds (ticket : ℕ) (value : ℤ) (cell : Cell) : Prop :=
  cell = ⟨ticket + 1, value⟩

/-- The tickets from `base` on carry the history, and no more of its latest
entries are evicted than the capacity asks for. -/
structure Ring.Keeps (ring : Ring) (base : ℕ) (history : List ℤ) : Prop where
  tail : ring.tail = base + history.length
  recent : Recent kRingCapacity ring.cells Cell.Holds base ring.head history
  full : ring.head + min history.length (kRingCapacity - 1) ≤ base + history.length

section Ring

variable {ring : Ring} {base : ℕ} {history : List ℤ}

theorem Ring.new_keeps : Ring.new.Keeps 0 [] where
  tail := rfl
  recent := Recent.empty _ _ _ 0
  full := le_rfl

/-- Storing `tail_` into `head_` forgets the history. -/
theorem Ring.keeps_nil (ring : Ring) : { ring with head := ring.tail }.Keeps ring.tail [] where
  tail := rfl
  recent := Recent.empty _ _ _ ring.tail
  full := le_rfl

theorem Ring.Keeps.ordered (keeps : ring.Keeps base history) : ring.head ≤ ring.tail :=
  keeps.recent.below.trans keeps.tail.ge

/-- Evicting from a full ring. -/
theorem Ring.Keeps.evict (keeps : ring.Keeps base history)
    (full : ring.tail = ring.head + kRingCapacity) :
    { ring with head := ring.head + 1 }.Keeps base history where
  tail := keeps.tail
  recent := by
    have capacityEq := kRingCapacity_eq
    have tailEq := keeps.tail
    exact keeps.recent.evict (by omega)
  full := by
    have capacityEq := kRingCapacity_eq
    have tailEq := keeps.tail
    have bound := min_le_right history.length (kRingCapacity - 1)
    dsimp only
    omega

/-- The payload of a ticket that is not published yet. -/
theorem Ring.Keeps.setValue {t : ℕ} {latency : ℤ}
    (keeps : { ring with tail := t }.Keeps base history)
    (room : t < ring.head + kRingCapacity) :
    { ring.setValue (t % kRingCapacity) latency with tail := t }.Keeps base history where
  tail := keeps.tail
  recent := by
    refine keeps.recent.congr ?_
    intro ticket above below
    have tailEq : t = base + history.length := keeps.tail
    have within : ring.head ≤ ticket := above
    exact Function.update_of_ne (mod_ne_of_lt (by omega) (by omega)) _ _
  full := keeps.full

/-- Publishing the ticket adds its payload to the history. -/
theorem Ring.Keeps.publish {t : ℕ} {latency : ℤ}
    (keeps : { ring with tail := t }.Keeps base history)
    (claimed : ring.tail = t + 1) (room : t < ring.head + kRingCapacity)
    (stored : (ring.cells (t % kRingCapacity)).value = latency) :
    (ring.setSeq (t % kRingCapacity) (t + 1)).Keeps base (history ++ [latency]) := by
  obtain rfl : t = base + history.length := keeps.tail
  have full : ring.head + min history.length (kRingCapacity - 1) ≤ base + history.length :=
    keeps.full
  refine ⟨?_, ?_, ?_⟩
  · rw [List.length_append]
    exact claimed
  · subst stored
    exact keeps.recent.push room rfl
  · rw [List.length_append, List.length_singleton]
    dsimp only [Ring.setSeq]
    omega

/-- A scan starts at the first of the latest entries. -/
theorem Ring.Keeps.drop_scanStart (keeps : ring.Keeps base history) :
    history.drop (scanStart ring.head ring.tail - base) = latest history := by
  have capacityEq := kRingCapacity_eq
  have tailEq := keeps.tail
  have above := keeps.recent.above
  have full := keeps.full
  have startEq :
      scanStart ring.head ring.tail - base = history.length - kMaxSnapshotSamples := by
    unfold scanStart kMaxSnapshotSamples
    split <;> omega
  rw [startEq]
  rfl

theorem le_scanStart (h t : ℕ) : h ≤ scanStart h t := by
  unfold scanStart
  split <;> omega

theorem scanStart_le {h t : ℕ} (ordered : h ≤ t) : scanStart h t ≤ t := by
  unfold scanStart
  split <;> omega

theorem Ring.Keeps.eq_nil (keeps : ring.Keeps base history) (empty : ring.tail ≤ ring.head) :
    history = [] := by
  have capacityEq := kRingCapacity_eq
  have full := keeps.full
  have tailEq := keeps.tail
  exact List.length_eq_zero_iff.mp (by omega)

/-- The entry of a buffered ticket. -/
theorem Ring.Keeps.cell {i : ℕ} (keeps : ring.Keeps base history) (above : ring.head ≤ i)
    (below : i < ring.tail) :
    ∃ value, history.drop (i - base) = value :: history.drop (i + 1 - base) ∧
      ring.cells (slot i) = ⟨i + 1, value⟩ := by
  have tailEq := keeps.tail
  have aboveBase := keeps.recent.above.trans above
  have within : i - base < history.length := by omega
  refine ⟨history[i - base], ?_, ?_⟩
  · rw [Nat.sub_add_comm aboveBase]
    exact List.drop_eq_getElem_cons within
  · rw [slot_eq]
    exact keeps.recent.held i _ above (List.getElem?_eq_getElem within)

end Ring

/-! ### The call in progress -/

section Phase

variable (base : ℕ) (history : List ℤ)

def Push.Phase (latency : ℤ) (ring : Ring) : Push → Prop
  | .loadTail => ring.Keeps base history
  | .loadHead t => ring.Keeps base history ∧ t = ring.tail
  | .loadOldest h | .casHead h =>
      ring.Keeps base history ∧ h = ring.head ∧ ring.tail = ring.head + kRingCapacity
  | .casTail t => ring.Keeps base history ∧ t = ring.tail ∧ t < ring.head + kRingCapacity
  | .storeValue t =>
      { ring with tail := t }.Keeps base history ∧ ring.tail = t + 1 ∧
        t < ring.head + kRingCapacity
  | .storeSeq t =>
      { ring with tail := t }.Keeps base history ∧ ring.tail = t + 1 ∧
        t < ring.head + kRingCapacity ∧ (ring.cells (t % kRingCapacity)).value = latency
  | .returned _ => ring.Keeps base (history ++ [latency])

def RecordPc.Phase (sample : Sample) (ring : Ring) : RecordPc → Prop
  | .pushing push => push.Phase base history sample.latency ring
  | _ => ring.Keeps base history

/-- While the cells are relabelled only `tail_` matters. -/
def ResetPc.Phase (collector : MetricsCollector) : ResetPc → Prop
  | .lock => collector.ring.Keeps base history ∧ collector.snapshotMtx = none
  | .rewrite _ t | .storeHead t =>
      collector.ring.tail = base + history.length ∧ t = collector.ring.tail
  | .unlock => collector.ring.Keeps (base + history.length) []
  | .returned =>
      collector.ring.Keeps (base + history.length) [] ∧ collector.snapshotMtx = none
  | _ => collector.ring.Keeps base history

/-- A scan has taken the entries up to its ticket. -/
def CollectPc.Phase (collector : MetricsCollector) : CollectPc → Prop
  | .lock => collector.ring.Keeps base history ∧ collector.snapshotMtx = none
  | .loadHead => collector.ring.Keeps base history
  | .loadTail h => collector.ring.Keeps base history ∧ h = collector.ring.head
  | .unlock h t =>
      collector.ring.Keeps base history ∧ h = collector.ring.head ∧ t = collector.ring.tail
  | .loadSeq i t samples | .loadValue i t samples =>
      (collector.ring.Keeps base history ∧ collector.snapshotMtx = none) ∧
        t = collector.ring.tail ∧ (collector.ring.head ≤ i ∧ i < t) ∧
        samples ++ history.drop (i - base) = latest history
  | .returned samples =>
      (collector.ring.Keeps base history ∧ collector.snapshotMtx = none) ∧
        samples = latest history

def Task.Phase (collector : MetricsCollector) : Task → Prop
  | .record sample pc =>
      pc.Phase base history sample collector.ring ∧ collector.snapshotMtx = none
  | .reset pc => pc.Phase base history collector
  | .collect pc => pc.Phase base history collector

end Phase

section Moves

variable {base : ℕ} {history : List ℤ} {ring after : Ring} {caller : ℕ}
variable {collector later : MetricsCollector}

theorem Push.Phase.within {latency : ℤ} {push : Push}
    (phase : push.Phase base history latency ring) :
    Role.Within ring (.pushing latency push) := by
  have capacityEq := kRingCapacity_eq
  cases push with
  | loadTail | returned => trivial
  | loadHead t => exact phase.2.le
  | loadOldest h => exact phase.2.1.le.trans phase.1.ordered
  | casHead h =>
      obtain ⟨-, rfl, full⟩ := phase
      change ring.head < ring.tail
      omega
  | casTail t => exact phase.2.1.le
  | storeValue t | storeSeq t => exact Nat.lt_of_lt_of_eq t.lt_succ_self phase.2.1.symm

theorem Push.Phase.ordered {latency : ℤ} {push : Push}
    (phase : push.Phase base history latency ring) : ring.head ≤ ring.tail := by
  cases push with
  | loadTail | returned => exact Ring.Keeps.ordered phase
  | loadHead | loadOldest | casHead | casTail => exact phase.1.ordered
  | storeValue t | storeSeq t =>
      exact phase.1.ordered.trans (Nat.le_of_lt (Nat.lt_of_lt_of_eq t.lt_succ_self phase.2.1.symm))

theorem Push.Phase.tail_le {latency : ℤ} {push : Push}
    (phase : push.Phase base history latency ring) :
    ring.tail ≤ base + history.length + 1 := by
  cases push with
  | loadTail => exact (Ring.Keeps.tail phase).le.trans (Nat.le_succ _)
  | returned =>
      have tailEq := Ring.Keeps.tail phase
      rw [List.length_append, List.length_singleton] at tailEq
      exact tailEq.le
  | loadHead | loadOldest | casHead | casTail =>
      exact phase.1.tail.le.trans (Nat.le_succ _)
  | storeValue t | storeSeq t =>
      have tailEq : t = base + history.length := phase.1.tail
      exact (tailEq ▸ phase.2.1).le

theorem Push.Phase.move {latency : ℤ} {spurious : Bool} {push next : Push}
    (phase : push.Phase base history latency ring)
    (small : base + history.length + 1 < 2 ^ 63)
    (moved : push.move latency spurious ring = some (after, next)) :
    next.Phase base history latency after := by
  have advance := Push.move_advance moved phase.within phase.ordered
    (phase.tail_le.trans_lt small)
  cases advance with
  | readTail => exact ⟨phase, rfl⟩
  | foundFull full =>
      obtain ⟨keeps, rfl⟩ := phase
      have ordered := keeps.ordered
      have window := keeps.recent.window
      have tailEq := keeps.tail
      exact ⟨keeps, rfl, by omega⟩
  | foundRoom behind room =>
      obtain ⟨keeps, rfl⟩ := phase
      exact ⟨keeps, rfl, room⟩
  | oldestPublished => exact phase
  | oldestPending => exact phase.1
  | evicted current =>
      subst current
      exact phase.1.evict phase.2.2
  | evictionLost => exact phase.1
  | claimed current =>
      obtain ⟨keeps, rfl, room⟩ := phase
      exact ⟨keeps, rfl, room⟩
  | claimLost => exact ⟨phase.1, rfl⟩
  | wroteValue =>
      obtain ⟨keeps, claimed, room⟩ := phase
      refine ⟨keeps.setValue room, claimed, room, ?_⟩
      simp [Ring.setValue]
  | published =>
      obtain ⟨keeps, claimed, room, stored⟩ := phase
      exact keeps.publish claimed room stored

theorem RecordPc.Phase.move {sample : Sample} {choice : Choice} {pc next : RecordPc}
    (phase : pc.Phase base history sample collector.ring)
    (small : base + history.length + 1 < 2 ^ 63)
    (moved : pc.move sample choice collector = some (later, next)) :
    next.Phase base history sample later.ring ∧ later.snapshotMtx = collector.snapshotMtx := by
  cases pc with
  | adding amount rest =>
      cases moved
      refine ⟨?_, rfl⟩
      cases rest <;> exact phase
  | minimum loop =>
      cases moved
      refine ⟨?_, rfl⟩
      unfold RecordPc.afterMinimum
      split <;> exact phase
  | maximum loop =>
      cases moved
      refine ⟨?_, rfl⟩
      unfold RecordPc.afterMaximum
      split <;> exact phase
  | pushing push =>
      obtain ⟨⟨after, nextPush⟩, pushed, resultEq⟩ := Option.map_eq_some_iff.mp moved
      cases resultEq
      exact ⟨Push.Phase.move phase small pushed, rfl⟩

theorem ResetPc.Phase.move {now : ℤ} {pc next : ResetPc}
    (phase : pc.Phase base history collector)
    (moved : pc.move caller now collector = some (later, next)) :
    next.Phase base history later := by
  have rewriting {i t : ℕ} {state : MetricsCollector}
      (tailEq : state.ring.tail = base + history.length) (copied : t = state.ring.tail) :
      (ResetPc.rewriteFrom i t).Phase base history state := by
    unfold ResetPc.rewriteFrom
    split <;> exact ⟨tailEq, copied⟩
  cases pc with
  | lock =>
      simp only [ResetPc.move] at moved
      split at moved <;> cases moved
      exact phase.1
  | clearing counter rest =>
      cases moved
      cases rest <;> exact phase
  | storeMin | storeMax | storeStart | loadHead =>
      cases moved
      exact phase
  | loadTail h =>
      cases moved
      exact rewriting (Ring.Keeps.tail phase) rfl
  | rewrite i t =>
      cases moved
      exact rewriting phase.1 phase.2
  | storeHead t =>
      cases moved
      obtain ⟨tailEq, rfl⟩ := phase
      change Ring.Keeps _ _ _
      rw [← tailEq]
      exact collector.ring.keeps_nil
  | unlock =>
      cases moved
      exact ⟨phase, rfl⟩
  | returned => cases moved

/-- The scan goes on or has all it needs. -/
theorem CollectPc.scan_phase {i : ℕ} {samples : List ℤ}
    (keeps : collector.ring.Keeps base history) (free : collector.snapshotMtx = none)
    (above : collector.ring.head ≤ i)
    (complete : samples ++ history.drop (i - base) = latest history) :
    (CollectPc.scan i collector.ring.tail samples).Phase base history collector := by
  unfold CollectPc.scan
  split
  · rename_i below
    exact ⟨⟨keeps, free⟩, rfl, ⟨above, below⟩, complete⟩
  · rename_i beyond
    have tailEq := keeps.tail
    rw [List.drop_eq_nil_of_le (by omega), List.append_nil] at complete
    exact ⟨⟨keeps, free⟩, complete⟩

theorem CollectPc.Phase.move {pc next : CollectPc} (phase : pc.Phase base history collector)
    (small : base + history.length < 2 ^ 63)
    (moved : pc.move caller collector = some (later, next)) :
    next.Phase base history later := by
  cases pc with
  | lock =>
      simp only [CollectPc.move] at moved
      split at moved <;> cases moved
      exact phase.1
  | loadHead =>
      cases moved
      exact ⟨phase, rfl⟩
  | loadTail h =>
      cases moved
      exact ⟨phase.1, phase.2, rfl⟩
  | unlock h t =>
      cases moved
      obtain ⟨keeps, rfl, rfl⟩ := phase
      split
      · have released : { collector with snapshotMtx := none }.ring.Keeps base history := keeps
        exact scan_phase released rfl (le_scanStart _ _) keeps.drop_scanStart
      · rename_i empty
        obtain rfl := keeps.eq_nil (Nat.le_of_not_lt empty)
        exact ⟨⟨keeps, rfl⟩, rfl⟩
  | loadSeq i t samples =>
      obtain ⟨⟨keeps, free⟩, rfl, ⟨above, below⟩, complete⟩ := phase
      obtain ⟨value, dropEq, cellEq⟩ := keeps.cell above below
      have tailEq := keeps.tail
      simp only [CollectPc.move, cellEq, increment_eq (show i < 2 ^ 63 by omega), if_true]
        at moved
      cases moved
      exact ⟨⟨keeps, free⟩, rfl, ⟨above, below⟩, complete⟩
  | loadValue i t samples =>
      obtain ⟨⟨keeps, free⟩, rfl, ⟨above, below⟩, complete⟩ := phase
      obtain ⟨value, dropEq, cellEq⟩ := keeps.cell above below
      have tailEq := keeps.tail
      simp only [CollectPc.move, cellEq, increment_eq (show i < 2 ^ 63 by omega)] at moved
      cases moved
      refine scan_phase keeps free (above.trans (Nat.le_succ i)) ?_
      rw [List.append_assoc, List.singleton_append, ← dropEq]
      exact complete
  | returned samples => cases moved

/-- A move keeps what the call has reached. -/
theorem Task.Phase.move {choice : Choice} {task next : Task}
    (phase : task.Phase base history collector)
    (small : base + history.length + task.isRecord.toNat < 2 ^ 63)
    (moved : task.move caller choice collector = some (later, next)) :
    next.Phase base history later := by
  cases task with
  | record sample pc =>
      obtain ⟨result, recorded, resultEq⟩ := Option.map_eq_some_iff.mp moved
      cases resultEq
      obtain ⟨kept, mutexEq⟩ := RecordPc.Phase.move phase.1 small recorded
      exact ⟨kept, mutexEq.trans phase.2⟩
  | reset pc =>
      obtain ⟨result, proceeded, resultEq⟩ := Option.map_eq_some_iff.mp moved
      cases resultEq
      exact ResetPc.Phase.move phase proceeded
  | collect pc =>
      obtain ⟨result, collected, resultEq⟩ := Option.map_eq_some_iff.mp moved
      cases resultEq
      exact CollectPc.Phase.move phase small collected

theorem Task.move_isRecord {choice : Choice} {task next : Task}
    (moved : task.move caller choice collector = some (later, next)) :
    next.isRecord = task.isRecord := by
  cases task with
  | record | reset | collect =>
      obtain ⟨result, -, resultEq⟩ := Option.map_eq_some_iff.mp moved
      cases resultEq
      rfl

theorem Call.start_phase (call : Call) (keeps : collector.ring.Keeps base history)
    (free : collector.snapshotMtx = none) : call.start.Phase base history collector := by
  cases call with
  | record sample => exact ⟨keeps, free⟩
  | reset => exact ⟨keeps, free⟩
  | collect => exact ⟨keeps, free⟩

/-- A returned call leaves the ring with its own history. -/
theorem Task.Phase.returned {task : Task} (phase : task.Phase base history collector)
    (returned : task.isReturned = true) :
    ∃ nextBase, collector.ring.Keeps nextBase (task.extend history) ∧
      nextBase + (task.extend history).length =
        base + history.length + task.isRecord.toNat ∧
      collector.snapshotMtx = none := by
  unfold Task.isReturned at returned
  split at returned
  · refine ⟨base, phase.1, ?_, phase.2⟩
    rw [Task.extend, List.length_append, List.length_singleton]
    rfl
  · exact ⟨base + history.length, phase.1, rfl, phase.2⟩
  · exact ⟨base, phase.1.1, rfl, phase.1.2⟩
  · cases returned

end Moves

/-! ### A scan returns -/

/-- A task reaches its last state after this many moves, whatever the scheduler
and the clock choose. -/
inductive Finishes (caller : ℕ) (last : MetricsCollector × Task) :
    ℕ → MetricsCollector × Task → Prop
  | done : Finishes caller last 0 last
  | move {moves : ℕ} {first : MetricsCollector × Task} (middle : MetricsCollector × Task)
      (moved : ∀ choice, first.2.move caller choice first.1 = some middle)
      (rest : Finishes caller last moves middle) : Finishes caller last (moves + 1) first

theorem Finishes.run {tasks : List Task} {first last : MetricsCollector × Task} {moves : ℕ}
    (finishes : Finishes tasks.length last moves first) {choices : List Choice}
    (enough : choices.length = moves) :
    run System.step ⟨first.1, tasks ++ [first.2]⟩
        (choices.map fun choice => .move tasks.length choice) =
      some ⟨last.1, tasks ++ [last.2]⟩ := by
  induction finishes generalizing choices with
  | done =>
      rw [List.length_eq_zero_iff.mp enough]
      rfl
  | @move moves first middle moved rest ih =>
      obtain ⟨choice, others, rfl⟩ := List.exists_cons_of_length_eq_add_one enough
      have found : (tasks ++ [first.2])[tasks.length]? = some first.2 := by simp
      have stepEq := System.step_of_move found (moved choice)
      rw [List.map_cons, run_cons, stepEq, Option.bind_some]
      simpa using ih (Nat.succ.inj enough)

section Scan

variable {base : ℕ} {history : List ℤ} {caller : ℕ} {collector : MetricsCollector}

/-- The scan loop, by the number of tickets that remain. -/
theorem scan_finishes (keeps : collector.ring.Keeps base history)
    (small : collector.ring.tail < 2 ^ 63) (remaining : ℕ) {i : ℕ} {samples : List ℤ}
    (above : collector.ring.head ≤ i) (rest : i + remaining = collector.ring.tail) :
    Finishes caller (collector, .collect (.returned (samples ++ history.drop (i - base))))
      (2 * remaining) (collector, .collect (.scan i collector.ring.tail samples)) := by
  have tailEq := keeps.tail
  induction remaining generalizing i samples with
  | zero =>
      have finished : ¬ i < collector.ring.tail := by omega
      rw [CollectPc.scan, if_neg finished, List.drop_eq_nil_of_le (by omega),
        List.append_nil]
      exact .done
  | succ remaining ih =>
      have below : i < collector.ring.tail := by omega
      obtain ⟨value, dropEq, cellEq⟩ := keeps.cell above below
      have label : increment i = i + 1 := increment_eq (below.trans small)
      rw [CollectPc.scan, if_pos below, dropEq, ← List.singleton_append,
        ← List.append_assoc]
      refine .move (collector, .collect (.loadValue i collector.ring.tail samples)) ?_
        (.move _ ?_ (ih (above.trans (Nat.le_succ i)) (by omega)))
      · intro choice
        simp [Task.move, CollectPc.move, cellEq, label]
      · intro choice
        simp [Task.move, CollectPc.move, cellEq, label]

/-- A scan without interference returns the latest entries and leaves the
collector as it was. -/
theorem collect_finishes (keeps : collector.ring.Keeps base history)
    (free : collector.snapshotMtx = none) (small : collector.ring.tail < 2 ^ 63) :
    ∃ moves, Finishes caller (collector, .collect (.returned (latest history))) moves
      (collector, .collect .lock) := by
  have locked (choice : Choice) : (Task.collect .lock).move caller choice collector =
      some ({ collector with snapshotMtx := some caller }, .collect .loadHead) := by
    simp [Task.move, CollectPc.move, free]
  have unlocked (choice : Choice) :
      (Task.collect (.unlock collector.ring.head collector.ring.tail)).move caller choice
        { collector with snapshotMtx := some caller } =
      some (collector, .collect (if collector.ring.tail > collector.ring.head then
        .scan (scanStart collector.ring.head collector.ring.tail) collector.ring.tail []
        else .returned [])) := by
    have released : { collector with snapshotMtx := none } = collector := by
      rw [← free]
    simp [Task.move, CollectPc.move, released]
  suffices scanned : ∃ moves,
      Finishes caller (collector, .collect (.returned (latest history))) moves
        (collector, .collect (if collector.ring.tail > collector.ring.head then
          .scan (scanStart collector.ring.head collector.ring.tail) collector.ring.tail []
          else .returned [])) by
    obtain ⟨moves, finishes⟩ := scanned
    exact ⟨_, .move _ locked (.move _ (fun _ => rfl) (.move _ (fun _ => rfl)
      (.move _ unlocked finishes)))⟩
  by_cases more : collector.ring.tail > collector.ring.head
  · rw [if_pos more, ← keeps.drop_scanStart, ← List.nil_append (List.drop _ _)]
    exact ⟨_, scan_finishes keeps small _ (le_scanStart _ _)
      (Nat.add_sub_cancel' (scanStart_le more.le))⟩
  · rw [if_neg more]
    obtain rfl := keeps.eq_nil (Nat.le_of_not_lt more)
    exact ⟨0, .done⟩

end Scan

/-! ### Whole runs -/

/-- Every scan that has returned holds the latest latencies recorded before it. -/
def Windowed (tasks : List Task) : Prop :=
  ∀ index samples, tasks[index]? = some (.collect (.returned samples)) →
    samples = latest (recordedSinceReset (tasks.take index))

theorem recordedSinceReset_concat (tasks : List Task) (task : Task) :
    recordedSinceReset (tasks ++ [task]) = task.extend (recordedSinceReset tasks) := by
  simp [recordedSinceReset]

theorem countP_concat (tasks : List Task) (task : Task) :
    (tasks ++ [task]).countP Task.isRecord =
      tasks.countP Task.isRecord + task.isRecord.toNat := by
  rw [List.countP_append, List.countP_singleton]
  cases task.isRecord <;> rfl

theorem Windowed.concat {tasks : List Task} (windowed : Windowed tasks) {task : Task}
    (last : ∀ samples, task = .collect (.returned samples) →
      samples = latest (recordedSinceReset tasks)) : Windowed (tasks ++ [task]) := by
  intro index samples found
  rcases Roster.getElem?_concat_cases found with old | ⟨rfl, taskEq⟩
  · obtain ⟨within, -⟩ := List.getElem?_eq_some_iff.mp old
    rw [List.take_append_of_le_length within.le]
    exact windowed index samples old
  · rw [List.take_left]
    exact last samples taskEq.symm

/-- All calls but possibly the last one have returned, and the ring is where the
last one left it. -/
inductive Serial : System → Prop
  | idle {collector : MetricsCollector} {tasks : List Task} {base : ℕ}
      (returned : ∀ task ∈ tasks, task.isReturned = true)
      (keeps : collector.ring.Keeps base (recordedSinceReset tasks))
      (counted : base + (recordedSinceReset tasks).length = tasks.countP Task.isRecord)
      (free : collector.snapshotMtx = none)
      (windowed : Windowed tasks) : Serial ⟨collector, tasks⟩
  | busy {collector : MetricsCollector} {finished : List Task} {task : Task} {base : ℕ}
      (returned : ∀ task ∈ finished, task.isReturned = true)
      (phase : task.Phase base (recordedSinceReset finished) collector)
      (counted : base + (recordedSinceReset finished).length =
        finished.countP Task.isRecord)
      (windowed : Windowed finished) : Serial ⟨collector, finished ++ [task]⟩

theorem Serial.windowed {system : System} (serial : Serial system) :
    Windowed system.tasks := by
  cases serial with
  | idle returned keeps counted free windowed => exact windowed
  | busy returned phase counted windowed =>
      refine windowed.concat ?_
      rintro samples rfl
      exact phase.2

namespace System

variable {system next : System}

/-- Between two calls. -/
theorem serial_idle (serial : Serial system) (quiescent : system.Quiescent) :
    system.collector.snapshotMtx = none ∧
      ∃ base, system.collector.ring.Keeps base (recordedSinceReset system.tasks) ∧
        base + (recordedSinceReset system.tasks).length =
          system.tasks.countP Task.isRecord := by
  cases serial with
  | idle returned keeps counted free windowed => exact ⟨free, _, keeps, counted⟩
  | @busy collector finished task base returned phase counted windowed =>
      have last : task.isReturned = true := quiescent task (by simp)
      obtain ⟨nextBase, keeps, lengthEq, free⟩ := phase.returned last
      refine ⟨free, nextBase, ?_, ?_⟩
      · rw [recordedSinceReset_concat]
        exact keeps
      · rw [recordedSinceReset_concat, lengthEq, counted, countP_concat]

theorem step_serial {action : Action} (serial : Serial system)
    (few : next.tasks.countP Task.isRecord < 2 ^ 63)
    (allowed : system.Sequential action) (taken : system.step action = some next) :
    Serial next := by
  cases action with
  | call call =>
      cases taken
      obtain ⟨free, base, keeps, counted⟩ := serial_idle serial allowed
      exact .busy allowed (call.start_phase keeps free) counted serial.windowed
  | move index choice =>
      obtain ⟨task, nextTask, found, moved, tasksEq⟩ := step_move taken
      have running := Bool.eq_false_iff.mp (Task.running_of_move moved)
      cases serial with
      | idle returned => exact absurd (returned task (List.mem_of_getElem? found)) running
      | @busy collector finished last base returned phase counted windowed =>
          obtain ⟨rfl, rfl⟩ := Roster.last_of_running returned found running
          obtain ⟨nextCollector, nextTasks⟩ := next
          obtain rfl : nextTasks = finished ++ [nextTask] :=
            tasksEq.trans (Roster.set_concat finished task nextTask)
          have sameKind := Task.move_isRecord moved
          rw [countP_concat, sameKind, ← counted] at few
          exact .busy returned (phase.move few moved) counted windowed

theorem step_records {action : Action} (taken : system.step action = some next) :
    system.tasks.countP Task.isRecord ≤ next.tasks.countP Task.isRecord := by
  cases action with
  | call call =>
      cases taken
      rw [countP_concat]
      exact Nat.le_add_right _ _
  | move index choice =>
      obtain ⟨task, nextTask, found, moved, tasksEq⟩ := step_move taken
      rw [tasksEq, Roster.countP_set_of_eq found (Task.move_isRecord moved)]

theorem new_serial (now : ℤ) : Serial (new now) :=
  .idle (by simp) Ring.new_keeps rfl rfl (by simp [Windowed])

theorem reaches_serial {now : ℤ} (reaches : Reaches step Sequential (new now) system)
    (few : system.tasks.countP Task.isRecord < 2 ^ 63) : Serial system := by
  refine reaches.invariant
    (fun state => state.tasks.countP Task.isRecord < 2 ^ 63 → Serial state)
    (fun _ => new_serial now) ?_ few
  intro before action after serial allowed taken afterFew
  exact step_serial (serial ((step_records taken).trans_lt afterFew)) afterFew allowed taken

/-- Scans return exactly the latest latencies recorded since the last reset, in
their order, and a scan changes nothing. -/
theorem reachable_window_exact {now : ℤ}
    (reaches : Reaches step Sequential (new now) system)
    (few : system.tasks.countP Task.isRecord < 2 ^ 63) :
    (∀ index samples, system.tasks[index]? = some (.collect (.returned samples)) →
      samples =
        (recordedSinceReset (system.tasks.take index)).rtake kMaxSnapshotSamples) ∧
    (system.Quiescent → ∃ moves, ∀ choices : List Choice, choices.length = moves →
      run step system (.call .collect ::
          choices.map fun choice => .move system.tasks.length choice) =
        some { system with
          tasks := system.tasks ++ [.collect (.returned
            ((recordedSinceReset system.tasks).rtake kMaxSnapshotSamples))] }) := by
  have serial := reaches_serial reaches few
  refine ⟨serial.windowed, ?_⟩
  intro quiescent
  obtain ⟨free, base, keeps, counted⟩ := serial_idle serial quiescent
  have small : system.collector.ring.tail < 2 ^ 63 := by
    rw [keeps.tail, counted]
    exact few
  obtain ⟨moves, finishes⟩ := collect_finishes keeps free small
  exact ⟨moves, fun choices enough => finishes.run enough⟩

theorem lasting_ge (latency : Fin 1000) : microsecondsMin ≤ (latency : ℕ) := by
  unfold microsecondsMin
  omega

theorem lasting_le (latency : Fin 1000) : (latency : ℕ) ≤ microsecondsMax := by
  unfold microsecondsMax
  omega

/-- A successful request that took less than a millisecond. -/
def lasting (latency : Fin 1000) : Sample :=
  { Sample.instant with
    latency := (latency : ℕ)
    latency_ge := lasting_ge latency
    latency_le := lasting_le latency }

/-- Two samples, a reset, two more samples and a scan. -/
theorem window_after_reset :
    ∃ system, Reaches step Sequential (new 0) system ∧
      system.tasks.countP Task.isRecord < 2 ^ 63 ∧
      ∃ moves, ∀ choices : List Choice, choices.length = moves →
        run step system (.call .collect ::
            choices.map fun choice => .move system.tasks.length choice) =
          some { system with
            tasks := system.tasks ++ [.collect (.returned [30, 40])] } := by
  have evaluated :
      (guardedRun step Sequential (new 0) (List.flatten
        [.call (.record (lasting 10)) :: List.replicate 14 (.move 0 smooth),
          .call (.record (lasting 20)) :: List.replicate 13 (.move 1 smooth),
          .call .reset :: List.replicate 16 (.move 2 smooth),
          .call (.record (lasting 30)) :: List.replicate 14 (.move 3 smooth),
          .call (.record (lasting 40)) :: List.replicate 13 (.move 4 smooth)])).map
        (fun system => (recordedSinceReset system.tasks,
          system.tasks.countP Task.isRecord, system.tasks.all Task.isReturned)) =
      some ([30, 40], 4, true) := by
    decide +kernel
  obtain ⟨system, executes, fields⟩ := Option.map_eq_some_iff.mp evaluated
  simp only [Prod.mk.injEq] at fields
  obtain ⟨historyEq, recordsEq, returned⟩ := fields
  have reaches := reaches_of_guardedRun executes
  have few : system.tasks.countP Task.isRecord < 2 ^ 63 := by
    rw [recordsEq]
    decide
  obtain ⟨moves, scanned⟩ :=
    (reachable_window_exact reaches few).2 (List.all_eq_true.mp returned)
  rw [historyEq] at scanned
  exact ⟨system, reaches, few, moves, scanned⟩

end System

end Cppload.Metrics

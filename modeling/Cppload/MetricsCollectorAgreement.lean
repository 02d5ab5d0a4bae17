import Cppload.MetricsCollectorTotals

/-!
# Collectors with the same records hold the same totals

Without a reset the counters of a collector are the sums of its records modulo
`2 ^ 64`, and its extremes are those of the latencies, whatever the order in which
the calls were executed and however many there were.  Two collectors that have
been given the same records in any order agree once all their records have
returned.
-/

namespace Cppload.Metrics

open Transition

def Call.isReset : Call → Bool
  | .reset => true
  | _ => false

/-- The totals of a collector, without its ring. -/
structure MetricsCollector.SameTotals (first second : MetricsCollector) : Prop where
  counters : first.counters = second.counters
  minLatencyUs : first.minLatencyUs = second.minLatencyUs
  maxLatencyUs : first.maxLatencyUs = second.maxLatencyUs

/-! ### One register -/

section Registers

variable {better : ℤ → ℤ → Bool} {initial register other : ℤ} {stageOf : Task → Stage}
variable {tasks others : List Task}

/-- No register beats another one that is past all the calls which set the first. -/
theorem Extremal.unbeaten (irreflexive : ∀ latency, better latency latency = false)
    (weakest : ∀ sample : Sample, better initial sample.latency = false)
    (extremal : Extremal better initial register stageOf tasks)
    (past : ∀ task ∈ tasks, ∀ sample ∈ task.sample, stageOf task = .past)
    (reached : Extremal better initial other stageOf others)
    (same : (others.filterMap Task.sample).Perm (tasks.filterMap Task.sample)) :
    better other register = false := by
  rcases reached.attained with rfl | ⟨sample, member, rfl⟩
  · rcases extremal.attained with rfl | ⟨sample, -, rfl⟩
    · exact irreflexive _
    · exact weakest sample
  · obtain ⟨task, taskMember, sampleEq⟩ := List.mem_filterMap.mp (same.mem_iff.mp member)
    have settled := extremal.settled task taskMember sample sampleEq
    rw [past task taskMember sample sampleEq] at settled
    exact settled

end Registers

namespace System

variable {system next other : System}

/-- All records have returned. -/
def RecordsReturned (system : System) : Prop :=
  ∀ task ∈ system.tasks, ∀ sample ∈ task.sample, task.isReturned = true

theorem records_record {sample : Sample}
    (taken : system.step (.call (.record sample)) = some next) :
    next.records = system.records ++ [sample] := by
  cases taken
  simp [records, Call.start, Task.sample]

theorem records_collect (taken : system.step (.call .collect) = some next) :
    next.records = system.records := by
  cases taken
  simp [records, Call.start, Task.sample]

theorem records_move {index : ℕ} {choice : Choice}
    (taken : system.step (.move index choice) = some next) :
    next.records.Perm system.records := by
  obtain ⟨task, nextTask, found, moved, tasksEq⟩ := step_move taken
  rw [records, tasksEq]
  exact Roster.filterMap_set_perm_of_eq found (Task.move_kind moved).2

/-- Everything that holds of the totals along runs without reset. -/
structure Tallied (system : System) : Prop where
  noReset : ∀ task ∈ system.tasks, task.isReset = false
  balanced : ∀ counter, system.Balanced counter
  extremes : system.Extremes

theorem new_tallied (now : ℤ) : (new now).Tallied where
  noReset := by simp [new]
  balanced := new_balanced now
  extremes := new_extremes now

theorem Tallied.call {call : Call} (tallied : system.Tallied) (allowed : call.isReset = false)
    (taken : system.step (.call call) = some next) : next.Tallied := by
  refine ⟨?_, fun counter => (tallied.balanced counter).call taken,
    tallied.extremes.step tallied.noReset taken⟩
  refine noReset_call tallied.noReset ?_ taken
  cases call with
  | reset => cases allowed
  | _ => rfl

theorem Tallied.move {index : ℕ} {choice : Choice} (tallied : system.Tallied)
    (taken : system.step (.move index choice) = some next) : next.Tallied where
  noReset := noReset_move tallied.noReset taken
  balanced := fun counter => (tallied.balanced counter).move tallied.noReset taken
  extremes := tallied.extremes.step tallied.noReset taken

/-- The counters are the sums of the records. -/
theorem Tallied.counter_eq (tallied : system.Tallied) (recorded : system.RecordsReturned)
    (counter : Counter) :
    system.collector.counters counter =
      (system.records.map fun sample => sample.amount counter).sum % 2 ^ 64 := by
  obtain ⟨reduced, total⟩ := tallied.balanced counter
  have nothing : (system.tasks.map (Task.pending counter)).sum = 0 := by
    refine List.sum_eq_zero fun amount member => ?_
    obtain ⟨task, taskMember, rfl⟩ := List.mem_map.mp member
    cases task with
    | record sample pc => exact pending_of_returned (recorded _ taskMember sample rfl) counter
    | reset | collect => rfl
  rw [nothing, Nat.add_zero, sum_planned] at total
  exact (Nat.mod_eq_of_lt reduced).symm.trans total

theorem Tallied.sameTotals (tallied : system.Tallied) (recorded : system.RecordsReturned)
    (otherTallied : other.Tallied) (otherRecorded : other.RecordsReturned)
    (same : system.records.Perm other.records) :
    system.collector.SameTotals other.collector := by
  have past : ∀ (system : System), system.RecordsReturned → ∀ task ∈ system.tasks,
      ∀ sample ∈ task.sample, task.minimumStage = .past ∧ task.maximumStage = .past :=
    fun system recorded task member sample sampleEq =>
      stages_of_returned (recorded task member sample sampleEq) sampleEq
  have least : ∀ sample : Sample, decide (microsecondsMax < sample.latency) = false :=
    fun sample => decide_eq_false sample.latency_le.not_gt
  have greatest : ∀ sample : Sample, decide (microsecondsMin > sample.latency) = false :=
    fun sample => decide_eq_false sample.latency_ge.not_gt
  constructor
  · funext counter
    rw [tallied.counter_eq recorded, otherTallied.counter_eq otherRecorded,
      (same.map fun sample => sample.amount counter).sum_eq]
  -- neither register beats the other, since each is past the other's calls
  · have above := tallied.extremes.minimum.unbeaten (by simp) least
      (fun task member sample sampleEq => (past system recorded task member sample sampleEq).1)
      otherTallied.extremes.minimum same.symm
    have below := otherTallied.extremes.minimum.unbeaten (by simp) least
      (fun task member sample sampleEq => (past other otherRecorded task member sample sampleEq).1)
      tallied.extremes.minimum same
    exact le_antisymm (not_lt.mp (of_decide_eq_false above)) (not_lt.mp (of_decide_eq_false below))
  · have above := tallied.extremes.maximum.unbeaten (by simp) greatest
      (fun task member sample sampleEq => (past system recorded task member sample sampleEq).2)
      otherTallied.extremes.maximum same.symm
    have below := otherTallied.extremes.maximum.unbeaten (by simp) greatest
      (fun task member sample sampleEq => (past other otherRecorded task member sample sampleEq).2)
      tallied.extremes.maximum same
    exact le_antisymm (not_lt.mp (of_decide_eq_false below)) (not_lt.mp (of_decide_eq_false above))

end System

end Cppload.Metrics

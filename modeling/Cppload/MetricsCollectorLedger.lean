import Cppload.MetricsCollectorTickets

/-!
# Counters and extremes without reset

The `fetch_add`s of a call are a fixed plan, of which a task still has to execute
the rest.  What the counters hold and what is still to be added sum up to the
plans of all calls.  The compare-and-swap loops for the minimum and the maximum
are one loop for an arbitrary strict order.
-/

namespace Cppload.Metrics

open Transition

def Task.isReset : Task → Bool
  | .reset _ => true
  | _ => false

/-- What a list of `fetch_add`s adds to a counter. -/
def amountOf (counter : Counter) (entries : List (Counter × ℕ)) : ℕ :=
  (entries.map fun entry => if entry.1 = counter then entry.2 else 0).sum

@[simp]
theorem amountOf_nil (counter : Counter) : amountOf counter [] = 0 := rfl

@[simp]
theorem amountOf_cons (counter : Counter) (entry : Counter × ℕ)
    (rest : List (Counter × ℕ)) :
    amountOf counter (entry :: rest) =
      (if entry.1 = counter then entry.2 else 0) + amountOf counter rest :=
  List.sum_cons

def Task.planned (counter : Counter) : Task → ℕ
  | .record sample _ => amountOf counter sample.fetchAdds
  | _ => 0

def Task.pending (counter : Counter) : Task → ℕ
  | .record _ (.adding next rest) => amountOf counter (next :: rest)
  | _ => 0

section Counters

variable {collector later : MetricsCollector} {caller : ℕ} {choice : Choice}
variable {task nextTask : Task} {counter : Counter}

theorem pending_addRemaining (sample : Sample) (entries : List (Counter × ℕ)) :
    (Task.record sample (.addRemaining entries)).pending counter =
      amountOf counter entries := by
  cases entries <;> rfl

theorem RecordPc.move_counters {sample : Sample} {pc nextPc : RecordPc}
    (moved : pc.move sample choice collector = some (later, nextPc)) :
    ∃ amount, (Task.record sample pc).pending counter =
        (Task.record sample nextPc).pending counter + amount ∧
      (later.counters counter = collector.counters counter ∧ amount = 0 ∨
        later.counters counter = (collector.counters counter + amount) % 2 ^ 64) := by
  cases pc with
  | adding next rest =>
      cases moved
      rw [pending_addRemaining]
      by_cases same : next.1 = counter
      · refine ⟨next.2, ?_, .inr ?_⟩
        · simp [Task.pending, same, Nat.add_comm]
        · simp [MetricsCollector.fetchAdd, same]
      · refine ⟨0, ?_, .inl ⟨?_, rfl⟩⟩
        · simp [Task.pending, same]
        · simp [MetricsCollector.fetchAdd, Function.update_of_ne (Ne.symm same)]
  | minimum loop =>
      cases moved
      refine ⟨0, ?_, .inl ⟨rfl, rfl⟩⟩
      generalize (loop.move _ _ _ _).2 = left
      cases left <;> rfl
  | maximum loop =>
      cases moved
      refine ⟨0, ?_, .inl ⟨rfl, rfl⟩⟩
      generalize (loop.move _ _ _ _).2 = left
      cases left <;> rfl
  | pushing push =>
      obtain ⟨result, -, resultEq⟩ := Option.map_eq_some_iff.mp moved
      cases resultEq
      exact ⟨0, rfl, .inl ⟨rfl, rfl⟩⟩

/-- What a move adds to a counter is no longer to be added. -/
theorem Task.move_counters (counter : Counter)
    (moved : task.move caller choice collector = some (later, nextTask))
    (noReset : task.isReset = false) :
    nextTask.planned counter = task.planned counter ∧
      ∃ amount, task.pending counter = nextTask.pending counter + amount ∧
        (later.counters counter = collector.counters counter ∧ amount = 0 ∨
          later.counters counter = (collector.counters counter + amount) % 2 ^ 64) := by
  cases task with
  | record sample pc =>
      obtain ⟨result, recorded, resultEq⟩ := Option.map_eq_some_iff.mp moved
      cases resultEq
      exact ⟨rfl, RecordPc.move_counters recorded⟩
  | reset pc => cases noReset
  | collect pc =>
      obtain ⟨result, collected, resultEq⟩ := Option.map_eq_some_iff.mp moved
      cases resultEq
      refine ⟨rfl, 0, rfl, .inl ⟨?_, rfl⟩⟩
      rw [CollectPc.move_eq collected]

end Counters

/-- A counter is short of the plans of all calls by what is still to be added. -/
structure System.Balanced (system : System) (counter : Counter) : Prop where
  reduced : system.collector.counters counter < 2 ^ 64
  total : system.collector.counters counter + (system.tasks.map (Task.pending counter)).sum ≡
    (system.tasks.map (Task.planned counter)).sum [MOD 2 ^ 64]

namespace System

variable {system next : System} {counter : Counter}

theorem new_balanced (now : ℤ) (counter : Counter) : (new now).Balanced counter :=
  ⟨Nat.two_pow_pos 64, rfl⟩

theorem Balanced.call {call : Call} (balanced : system.Balanced counter)
    (taken : system.step (.call call) = some next) : next.Balanced counter := by
  cases taken
  refine ⟨balanced.reduced, ?_⟩
  have fresh : call.start.pending counter = call.start.planned counter := by
    cases call <;> rfl
  simp only [List.map_append, List.map_cons, List.map_nil, List.sum_append, List.sum_cons,
    List.sum_nil, Nat.add_zero, ← Nat.add_assoc, fresh]
  exact balanced.total.add_right _

theorem Balanced.move {index : ℕ} {choice : Choice} (balanced : system.Balanced counter)
    (noReset : ∀ task ∈ system.tasks, task.isReset = false)
    (taken : system.step (.move index choice) = some next) : next.Balanced counter := by
  obtain ⟨task, nextTask, found, moved, tasksEq⟩ := step_move taken
  obtain ⟨plannedEq, amount, pendingEq, added⟩ :=
    Task.move_counters counter moved (noReset task (List.mem_of_getElem? found))
  have pendingSum := Roster.sum_map_set (Task.pending counter) found nextTask
  have plannedSum := Roster.sum_map_set (Task.planned counter) found nextTask
  rw [← tasksEq] at pendingSum plannedSum
  have plannedSame : (next.tasks.map (Task.planned counter)).sum =
      (system.tasks.map (Task.planned counter)).sum := by omega
  have pendingLess : (next.tasks.map (Task.pending counter)).sum + amount =
      (system.tasks.map (Task.pending counter)).sum := by omega
  have total := balanced.total
  rw [← pendingLess] at total
  rcases added with ⟨same, rfl⟩ | sum
  · exact ⟨same ▸ balanced.reduced, by rwa [same, plannedSame]⟩
  · refine ⟨sum ▸ Nat.mod_lt _ (Nat.two_pow_pos 64), ?_⟩
    rw [sum, plannedSame]
    calc (system.collector.counters counter + amount) % 2 ^ 64 +
          (next.tasks.map (Task.pending counter)).sum
        ≡ system.collector.counters counter + amount +
          (next.tasks.map (Task.pending counter)).sum [MOD 2 ^ 64] :=
          (Nat.mod_modEq _ _).add_right _
      _ = system.collector.counters counter +
          ((next.tasks.map (Task.pending counter)).sum + amount) := by omega
      _ ≡ _ [MOD 2 ^ 64] := total

end System

/-! ### Minimum and maximum -/

/-- How far a task is with one of the two loops. -/
inductive Stage where
  | ahead
  | racing (loop : Contend)
  | past

def Stage.after : Option Contend → Stage
  | some loop => .racing loop
  | none => .past

def Task.minimumStage : Task → Stage
  | .record _ (.minimum loop) => .racing loop
  | .record _ (.maximum _) | .record _ (.pushing _) => .past
  | _ => .ahead

def Task.maximumStage : Task → Stage
  | .record _ (.maximum loop) => .racing loop
  | .record _ (.pushing _) => .past
  | _ => .ahead

/-- A task past the loop is beaten by the register; one that is about to swap
beats the value it expects. -/
def Stage.Settled (better : ℤ → ℤ → Bool) (register latency : ℤ) : Stage → Prop
  | .racing (.cas current) => better latency current = true
  | .past => better latency register = false
  | _ => True

/-- What a move can do to the register and the stage of its task. -/
inductive Stage.Moves (better : ℤ → ℤ → Bool) (latency register : ℤ) :
    Stage → ℤ → Stage → Prop
  | rest (stage : Stage) : Moves better latency register stage register stage
  | enter : Moves better latency register .ahead register (.racing .load)
  | race (loop : Contend) (spurious : Bool) :
      Moves better latency register (.racing loop)
        (loop.move better latency spurious register).1
        (.after (loop.move better latency spurious register).2)

section Extremes

variable {better : ℤ → ℤ → Bool} {latency register later : ℤ} {stage next : Stage}

/-- The register is replaced by a better latency or stays. -/
theorem Stage.Moves.replaces (moves : Stage.Moves better latency register stage later next)
    (settled : stage.Settled better register latency) :
    later = register ∨ (later = latency ∧ better latency register = true) := by
  cases moves with
  | rest | enter => exact .inl rfl
  | race loop spurious =>
      cases loop with
      | load => exact .inl rfl
      | cas current =>
          simp only [Contend.move]
          split
          · rename_i swapped
            exact .inr ⟨rfl, swapped.1 ▸ settled⟩
          · exact .inl rfl

theorem Contend.test_settled :
    (Stage.after (Contend.test better latency register)).Settled better register latency := by
  unfold Contend.test
  split
  · rename_i wins
    exact wins
  · rename_i loses
    exact Bool.eq_false_iff.mpr loses

theorem Stage.Moves.settled (irreflexive : better latency latency = false)
    (moves : Stage.Moves better latency register stage later next)
    (settled : stage.Settled better register latency) :
    next.Settled better later latency := by
  cases moves with
  | rest => exact settled
  | enter => trivial
  | race loop spurious =>
      cases loop with
      | load => exact Contend.test_settled
      | cas current =>
          simp only [Contend.move]
          split
          · exact irreflexive
          · exact Contend.test_settled

/-- A task that was settled stays so when a better latency arrives. -/
theorem Stage.Settled.replace
    (transitive : ∀ first second third, better first second = true →
      better second third = true → better first third = true)
    {winner : ℤ} (settled : stage.Settled better register latency)
    (wins : better winner register = true) : stage.Settled better winner latency := by
  cases stage with
  | ahead => trivial
  | racing loop =>
      cases loop with
      | load => trivial
      | cas current => exact settled
  | past =>
      refine Bool.eq_false_iff.mpr fun beats => ?_
      rw [Stage.Settled, transitive _ _ _ beats wins] at settled
      cases settled

end Extremes

def Task.sample : Task → Option Sample
  | .record sample _ => some sample
  | _ => none

def System.records (system : System) : List Sample :=
  system.tasks.filterMap Task.sample

/-- Everything about one loop: the register beats every call past the loop, and
holds the latency of a call once it was changed. -/
structure Extremal (better : ℤ → ℤ → Bool) (initial register : ℤ) (stageOf : Task → Stage)
    (tasks : List Task) : Prop where
  settled : ∀ task ∈ tasks, ∀ sample ∈ task.sample,
    (stageOf task).Settled better register sample.latency
  attained : register = initial ∨
    ∃ sample ∈ tasks.filterMap Task.sample, sample.latency = register

section Extremal

variable {better : ℤ → ℤ → Bool} {initial register later : ℤ} {stageOf : Task → Stage}
variable {tasks : List Task} {index : ℕ} {task nextTask : Task}

theorem Extremal.call (extremal : Extremal better initial register stageOf tasks)
    (call : Call) (ahead : stageOf call.start = .ahead) :
    Extremal better initial register stageOf (tasks ++ [call.start]) where
  settled := by
    intro task member sample sampleEq
    rcases List.mem_append.mp member with old | new
    · exact extremal.settled task old sample sampleEq
    · obtain rfl := List.mem_singleton.mp new
      rw [ahead]
      trivial
  attained := by
    refine extremal.attained.imp_right fun ⟨sample, member, latencyEq⟩ => ?_
    exact ⟨sample, by simp [List.filterMap_append, member], latencyEq⟩

/-- A task that is no record leaves the register alone. -/
theorem Extremal.other (extremal : Extremal better initial register stageOf tasks)
    (found : tasks[index]? = some task) (silent : task.sample = none)
    (nextSilent : nextTask.sample = none) :
    Extremal better initial register stageOf (tasks.set index nextTask) where
  settled := by
    intro other member sample sampleEq
    rcases List.mem_or_eq_of_mem_set member with old | rfl
    · exact extremal.settled other old sample sampleEq
    · rw [nextSilent] at sampleEq
      cases sampleEq
  attained := by
    refine extremal.attained.imp_right fun ⟨sample, member, latencyEq⟩ => ?_
    have same : nextTask.sample = task.sample := nextSilent.trans silent.symm
    exact ⟨sample, (Roster.filterMap_set_perm_of_eq found same).mem_iff.mpr member, latencyEq⟩

theorem Extremal.record {sample : Sample}
    (irreflexive : ∀ latency, better latency latency = false)
    (transitive : ∀ first second third, better first second = true →
      better second third = true → better first third = true)
    (extremal : Extremal better initial register stageOf tasks)
    (found : tasks[index]? = some task) (sampleEq : task.sample = some sample)
    (nextSampleEq : nextTask.sample = some sample)
    (moves : Stage.Moves better sample.latency register (stageOf task) later
      (stageOf nextTask)) :
    Extremal better initial later stageOf (tasks.set index nextTask) := by
  have settled := extremal.settled task (List.mem_of_getElem? found) sample sampleEq
  have same : nextTask.sample = task.sample := nextSampleEq.trans sampleEq.symm
  have records := Roster.filterMap_set_perm_of_eq found same
  constructor
  · intro other member otherSample otherEq
    rcases List.mem_or_eq_of_mem_set member with old | rfl
    · have before := extremal.settled other old otherSample otherEq
      rcases moves.replaces settled with rfl | ⟨rfl, wins⟩
      · exact before
      · exact Stage.Settled.replace transitive before wins
    · obtain rfl : sample = otherSample := Option.some.inj (nextSampleEq.symm.trans otherEq)
      exact moves.settled (irreflexive _) settled
  · rcases moves.replaces settled with rfl | ⟨rfl, -⟩
    · refine extremal.attained.imp_right fun ⟨winner, member, latencyEq⟩ => ?_
      exact ⟨winner, records.mem_iff.mpr member, latencyEq⟩
    · refine .inr ⟨sample, records.mem_iff.mpr ?_, rfl⟩
      exact List.mem_filterMap.mpr ⟨task, List.mem_of_getElem? found, sampleEq⟩

end Extremal

section Loops

variable {collector later : MetricsCollector} {choice : Choice} {sample : Sample}
variable {pc nextPc : RecordPc}

theorem minimumStage_afterMinimum (left : Option Contend) :
    (Task.record sample (.afterMinimum left)).minimumStage = .after left := by
  cases left <;> rfl

theorem maximumStage_afterMaximum (left : Option Contend) :
    (Task.record sample (.afterMaximum left)).maximumStage = .after left := by
  cases left <;> rfl

theorem RecordPc.move_minimum
    (moved : pc.move sample choice collector = some (later, nextPc)) :
    Stage.Moves (fun latency current => latency < current) sample.latency
      collector.minLatencyUs (Task.record sample pc).minimumStage later.minLatencyUs
      (Task.record sample nextPc).minimumStage := by
  cases pc with
  | adding next rest =>
      cases moved
      cases rest with
      | nil => exact .enter
      | cons => exact .rest .ahead
  | minimum loop =>
      cases moved
      rw [minimumStage_afterMinimum]
      exact .race loop choice.spurious
  | maximum loop =>
      cases moved
      generalize (loop.move _ _ _ _).2 = left
      cases left <;> exact .rest .past
  | pushing push =>
      obtain ⟨result, -, resultEq⟩ := Option.map_eq_some_iff.mp moved
      cases resultEq
      exact .rest .past

theorem RecordPc.move_maximum
    (moved : pc.move sample choice collector = some (later, nextPc)) :
    Stage.Moves (fun latency current => latency > current) sample.latency
      collector.maxLatencyUs (Task.record sample pc).maximumStage later.maxLatencyUs
      (Task.record sample nextPc).maximumStage := by
  cases pc with
  | adding next rest =>
      cases moved
      cases rest <;> exact .rest .ahead
  | minimum loop =>
      cases moved
      generalize (loop.move _ _ _ _).2 = left
      cases left with
      | none => exact .enter
      | some loop => exact .rest .ahead
  | maximum loop =>
      cases moved
      rw [maximumStage_afterMaximum]
      exact .race loop choice.spurious
  | pushing push =>
      obtain ⟨result, -, resultEq⟩ := Option.map_eq_some_iff.mp moved
      cases resultEq
      exact .rest .past

end Loops

namespace System

variable {system next : System}

/-- The minimum and the maximum are kept by their loops. -/
structure Extremes (system : System) : Prop where
  minimum : Extremal (fun latency current => latency < current) microsecondsMax
    system.collector.minLatencyUs Task.minimumStage system.tasks
  maximum : Extremal (fun latency current => latency > current) microsecondsMin
    system.collector.maxLatencyUs Task.maximumStage system.tasks

theorem new_extremes (now : ℤ) : (new now).Extremes where
  minimum := ⟨by simp [new], .inl rfl⟩
  maximum := ⟨by simp [new], .inl rfl⟩

theorem Extremes.step {action : Action} (extremes : system.Extremes)
    (noReset : ∀ task ∈ system.tasks, task.isReset = false)
    (taken : system.step action = some next) : next.Extremes := by
  cases action with
  | call call =>
      cases taken
      have aheadMinimum : call.start.minimumStage = .ahead := by cases call <;> rfl
      have aheadMaximum : call.start.maximumStage = .ahead := by cases call <;> rfl
      exact ⟨extremes.minimum.call call aheadMinimum, extremes.maximum.call call aheadMaximum⟩
  | move index choice =>
      obtain ⟨task, nextTask, found, moved, tasksEq⟩ := step_move taken
      obtain ⟨minimum, maximum⟩ := extremes
      cases task with
      | record sample pc =>
          obtain ⟨result, recorded, resultEq⟩ := Option.map_eq_some_iff.mp moved
          obtain ⟨collectorEq, rfl⟩ := Prod.mk.inj resultEq
          constructor
          · rw [tasksEq, ← collectorEq]
            exact minimum.record (by simp)
              (fun _ _ _ below above => decide_eq_true
                (lt_trans (of_decide_eq_true below) (of_decide_eq_true above)))
              found rfl rfl (RecordPc.move_minimum recorded)
          · rw [tasksEq, ← collectorEq]
            exact maximum.record (by simp)
              (fun _ _ _ above below => decide_eq_true
                (gt_trans (of_decide_eq_true above) (of_decide_eq_true below)))
              found rfl rfl (RecordPc.move_maximum recorded)
      | reset pc => cases noReset _ (List.mem_of_getElem? found)
      | collect pc =>
          obtain ⟨result, collected, resultEq⟩ := Option.map_eq_some_iff.mp moved
          obtain ⟨collectorEq, rfl⟩ := Prod.mk.inj resultEq
          have unchanged := CollectPc.move_eq collected
          constructor
          · rw [tasksEq, ← collectorEq, unchanged]
            exact minimum.other found rfl rfl
          · rw [tasksEq, ← collectorEq, unchanged]
            exact maximum.other found rfl rfl

end System

end Cppload.Metrics

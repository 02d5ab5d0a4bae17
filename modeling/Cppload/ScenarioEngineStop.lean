import Cppload.ScenarioEngineStages

/-!
# What becomes of a stop

`stopped_` serves both as the answer to `stop()` and as the main thread's own
signal that a stage is over, and the main thread clears it before the next
stage.  A stop survives when it lands while the main thread will still sample
`stopped_` into `externally_stopped`, or when no stage is left to clear it for.
After the sample it is indistinguishable from the end of the stage, and the
clear discards it.
-/

namespace Cppload.Engine

open Transition

/-- `run` has executed its initial `stopped_ = false`. -/
def Main.started : Main → Bool
  | .starting => false
  | _ => true

/-- The main thread has taken its last sample of `stopped_` in this stage, has
not seen a stop, and has another stage to clear `stopped_` for. -/
def Main.pastSample (plan : Plan) : Main → Bool
  | .staging run .entering | .staging run .stopping | .staging run .stoppingIoc
  | .staging run (.joining _) | .staging run .deciding =>
      !run.externallyStopped && decide (run.index + 1 < plan.stages.length)
  | .staging run .samplingFailures => decide (run.index + 1 < plan.stages.length)
  | .staging _ .restarting | .staging _ .clearing => true
  | _ => false

namespace System

variable {plan : Plan} {system after : System} {bound : ℕ}

/-- The stop is noted and no stage from `bound` on can begin any more. -/
structure Halting (plan : Plan) (bound : ℕ) (system : System) : Prop where
  stopped : system.stopped = true
  started : system.main.started = true
  begun : system.main.begun ≤ bound
  sampled : system.main.pastSample plan = false

theorem Halting.stageMoves {run : StageRun} {pc : StagePc}
    (halting : Halting plan bound system) (at_ : system.main = .staging run pc)
    (moved : StageMoves plan system run pc after) : Halting plan bound after := by
  obtain ⟨stopped, started, begun, sampled⟩ := halting
  rw [at_] at begun sampled
  cases moved with
  | spawned | allSpawned => exact ⟨stopped, rfl, begun, rfl⟩
  | sampled =>
      refine ⟨stopped, rfl, begun, ?_⟩
      simp [goto, Main.pastSample, stopped]
  | awaits running | sampledRunning running => simp [running] at stopped
  | unawaited | stoppedIoc | joined | allJoined => exact ⟨stopped, rfl, begun, sampled⟩
  | waited attends onward =>
      refine ⟨stopped, rfl, begun, ?_⟩
      rename_i next
      cases next <;> first | rfl | simp [StagePc.attends] at onward
  | sampledStopped => exact ⟨stopped, rfl, begun, rfl⟩
  | sampledFailures =>
      refine ⟨stopped, rfl, begun, ?_⟩
      simp only [Main.pastSample, decide_eq_false_iff_not] at sampled
      simp [goto, Main.pastSample, sampled]
  | stopped => exact ⟨rfl, rfl, begun, sampled⟩
  -- The clear is out of reach: it takes an unset sample and a stage to come.
  | continues more unstopped => simp [Main.pastSample, more, unstopped] at sampled
  | concludes => exact ⟨stopped, rfl, begun, rfl⟩
  | restarted | cleared => simp [Main.pastSample] at sampled

theorem Halting.mainMoves (halting : Halting plan bound system)
    (moved : MainMoves plan system system.main after) : Halting plan bound after := by
  generalize at_ : system.main = main at moved
  cases moved with
  | staged moved => exact halting.stageMoves at_ moved
  | cleared =>
      have started := halting.started
      simp [at_, Main.started] at started
  | tested more running =>
      have stopped := halting.stopped
      simp [running] at stopped
  | proceeded | rated | begun =>
      have begun := halting.begun
      rw [at_] at begun
      exact ⟨halting.stopped, rfl, begun, rfl⟩
  | stoppedCap => exact ⟨rfl, rfl, Nat.zero_le _, rfl⟩
  | _ => exact ⟨halting.stopped, rfl, Nat.zero_le _, rfl⟩

theorem Halting.step {action : Action} (halting : Halting plan bound system)
    (taken : system.step plan action = some after) : Halting plan bound after := by
  obtain ⟨stopped, started, begun, sampled⟩ := halting
  cases step_moves taken with
  | main moved => exact Halting.mainMoves ⟨stopped, started, begun, sampled⟩ moved
  | worker found moved =>
      have framed := moved.framed
      exact ⟨framed.stopped ▸ stopped, framed.main ▸ started, framed.main ▸ begun,
        framed.main ▸ sampled⟩
  | stop => exact ⟨rfl, started, begun, sampled⟩
  | stopIoc | tick => exact ⟨stopped, started, begun, sampled⟩

/-- A stop that lands before the last sample of the stage, or in the last stage,
is final: whatever the threads do afterwards, they start no worker of a stage
that had not begun when the stop was stored. -/
theorem stop_ends_run {stopped last : System} (started : system.main.started = true)
    (unsampled : system.main.pastSample plan = false)
    (called : system.step plan .stop = some stopped)
    (later : Reaches (step plan) Unrestricted stopped last) (index : ℕ) (worker : Worker)
    (new : system.workers.length ≤ index) (found : last.workers[index]? = some worker) :
    worker.stage < system.main.begun := by
  cases called
  have both := later.invariant
    (fun state => Halting plan system.main.begun state ∧
      NewWorkersBelow system.workers.length system.main.begun state)
    ⟨⟨rfl, started, le_rfl, unsampled⟩, newWorkersBelow_length _ _⟩
    (fun before action after holds _ taken =>
      ⟨holds.1.step taken, holds.2.step holds.1.begun taken⟩)
  exact both.2 index worker new found

/-- A worker's way from its start to its end when it finds `stopped_` set. -/
def leaveStopped (index : ℕ) : List Action :=
  List.replicate 6 (.worker index {})

/-- A stop that lands just before the sample, up to the return of `run`. -/
theorem stop_ends_run_before_sample :
    ∃ system stopped last,
      Reaches (step endlessStages) Unrestricted (initial .new) system ∧
      system.step endlessStages .stop = some stopped ∧
      Reaches (step endlessStages) Unrestricted stopped last ∧
      last.main = .returned ∧
      ∀ index worker, system.workers.length ≤ index →
        last.workers[index]? = some worker → worker.stage < system.main.begun := by
  have evaluated :
      (run (step endlessStages) (initial .new) (List.replicate 10 .main)).bind
        (fun system => (system.step endlessStages .stop).bind fun stopped =>
          (run (step endlessStages) stopped (List.flatten
            [leaveStopped 0, List.replicate 7 .main])).map fun last =>
            (system.main, last.main)) =
      some (.staging ⟨0, timePointMax, 1, 0, false⟩ .sampling, .returned) := by
    decide +kernel
  obtain ⟨system, executes, fromStop⟩ := Option.bind_eq_some_iff.mp evaluated
  obtain ⟨stopped, called, fromCall⟩ := Option.bind_eq_some_iff.mp fromStop
  obtain ⟨last, continues, fields⟩ := Option.map_eq_some_iff.mp fromCall
  simp only [Prod.mk.injEq] at fields
  have later := reaches_of_run continues
  exact ⟨system, stopped, last, reaches_of_run executes, called, later, fields.2,
    stop_ends_run (by simp [fields.1, Main.started]) (by simp [fields.1, Main.pastSample]) called
      later⟩

/-- The stop lands after the sample: the stage without a deadline is joined, its
stop is cleared, and the second stage starts. -/
theorem stop_lost :
    ∃ system stopped last worker,
      Reaches (step endlessStages) Unrestricted (initial .new) system ∧
      system.main.started = true ∧
      system.step endlessStages .stop = some stopped ∧
      Reaches (step endlessStages) Unrestricted stopped last ∧
      last.workerFailures = 0 ∧
      last.workers[system.workers.length]? = some worker ∧
      system.main.begun ≤ worker.stage := by
  have evaluated :
      (run (step endlessStages) (initial .new) (List.replicate 11 .main)).bind
        (fun system => (system.step endlessStages .stop).bind fun stopped =>
          (run (step endlessStages) stopped (List.flatten
            [[.main], leaveStopped 0, List.replicate 10 .main])).map fun last =>
            (system.main, last.workerFailures,
              last.workers[system.workers.length]?.map Worker.stage)) =
      some (.staging ⟨0, timePointMax, 1, 0, false⟩ .entering, 0, some 1) := by
    decide +kernel
  obtain ⟨system, executes, fromStop⟩ := Option.bind_eq_some_iff.mp evaluated
  obtain ⟨stopped, called, fromCall⟩ := Option.bind_eq_some_iff.mp fromStop
  obtain ⟨last, continues, fields⟩ := Option.map_eq_some_iff.mp fromCall
  simp only [Prod.mk.injEq] at fields
  obtain ⟨mainEq, healthy, started⟩ := fields
  obtain ⟨worker, found, stageEq⟩ := Option.map_eq_some_iff.mp started
  refine ⟨system, stopped, last, worker, reaches_of_run executes, by simp [mainEq, Main.started],
    called, reaches_of_run continues, healthy, found, ?_⟩
  rw [mainEq, stageEq]
  rfl

end System

end Cppload.Engine

import Cppload.ScenarioEngineMoves
import Cppload.Roster

/-!
# Stages and their workers

The main thread joins all workers of a stage before it leaves the stage.  So a
worker that has not ended belongs to the current stage, and between stages no
worker runs.
-/

namespace Cppload.Engine

open Transition

namespace Worker

variable {plan : Plan} {system after : System} {choice : Choice} {worker next : Worker}

theorem ended_iff : worker.ended = true ↔ ∃ failed, worker.pc = .finished failed := by
  unfold ended
  split <;> simp_all

theorem Moves.unended (moved : Moves plan system choice worker after next) :
    worker.ended = false := by
  by_contra contrary
  obtain ⟨failed, at_⟩ := ended_iff.mp (Bool.not_eq_false _ ▸ contrary)
  cases moved with
  | flowed flow =>
      have inside := flow.inside.1
      simp [at_, WorkerPc.exits] at inside
  | _ => simp_all

end Worker

/-- The number of stages whose loop test the main thread has passed, as long as
it may still pass another one. -/
def Main.begun : Main → ℕ
  | .testing index => index
  | .checkingCap index | .rating index | .beginning index => index + 1
  | .staging run _ => run.index + 1
  | _ => 0

/-- The main thread has reset the failure count and opened the pool of this run. -/
def Main.prepared : Main → Bool
  | .starting | .publishing | .resetting => false
  | _ => true

/-- How many of a stage's workers have been spawned. -/
def StagePc.spawned (concurrency : ℕ) : StagePc → ℕ
  | .spawning count => count
  | _ => concurrency

/-- How many of a stage's workers have been joined. -/
def StagePc.joined (concurrency : ℕ) : StagePc → ℕ
  | .joining count => count
  | .deciding | .restarting | .clearing => concurrency
  | _ => 0

theorem StagePc.counts_attends {pc : StagePc} (attends : pc.attends) (concurrency : ℕ) :
    pc.spawned concurrency = concurrency ∧ pc.joined concurrency = 0 := by
  cases pc <;> first | exact ⟨rfl, rfl⟩ | simp [StagePc.attends] at attends

/-- The workers of a run that is in a stage: those of earlier stages and those
already joined have ended, and the others are what the stage has spawned. -/
structure StageRun.Staffed (run : StageRun) (pc : StagePc) (workers : List Worker) :
    Prop where
  bounded : run.concurrency ≤ 100000
  within : pc.spawned run.concurrency ≤ run.concurrency
  total : workers.length = run.first + pc.spawned run.concurrency
  deadline : ∀ index worker, run.first ≤ index → workers[index]? = some worker →
    worker.stageEnd = run.stageEnd
  ended : ∀ index worker, index < run.first + pc.joined run.concurrency →
    workers[index]? = some worker → worker.ended = true

/-- Between stages no worker runs. -/
def Main.Staffed (workers : List Worker) : Main → Prop
  | .starting | .publishing | .resetting => workers = []
  | .staging run pc => run.Staffed pc workers
  | _ => ∀ worker ∈ workers, worker.ended = true

def System.Staffed (system : System) : Prop :=
  system.main.Staffed system.workers

namespace StageRun.Staffed

variable {run : StageRun} {pc next : StagePc} {workers : List Worker}

theorem all_ended (staffed : run.Staffed pc workers)
    (spawned : pc.spawned run.concurrency = run.concurrency)
    (joined : pc.joined run.concurrency = run.concurrency) :
    ∀ worker ∈ workers, worker.ended = true := by
  intro worker member
  obtain ⟨index, found⟩ := List.mem_iff_getElem?.mp member
  obtain ⟨within, -⟩ := List.getElem?_eq_some_iff.mp found
  have total := staffed.total
  exact staffed.ended index worker (by omega) found

/-- Only the counts of spawned and joined workers matter. -/
theorem goto (staffed : run.Staffed pc workers)
    (spawned : next.spawned run.concurrency = pc.spawned run.concurrency)
    (joined : next.joined run.concurrency = pc.joined run.concurrency) :
    run.Staffed next workers where
  bounded := staffed.bounded
  within := spawned ▸ staffed.within
  total := spawned ▸ staffed.total
  deadline := staffed.deadline
  ended := joined ▸ staffed.ended

theorem spawn {count : ℕ} {worker : Worker} (staffed : run.Staffed (.spawning count) workers)
    (more : count < run.concurrency) (deadlineEq : worker.stageEnd = run.stageEnd) :
    run.Staffed (.spawning (count + 1)) (workers ++ [worker]) where
  bounded := staffed.bounded
  within := more
  total := by
    rw [List.length_append, staffed.total]
    rfl
  deadline := by
    intro index entry current found
    rcases Roster.getElem?_concat_cases found with old | ⟨-, rfl⟩
    · exact staffed.deadline index entry current old
    · exact deadlineEq
  ended := by
    intro index entry joined found
    have total := staffed.total
    have below : index < run.first := joined
    rcases Roster.getElem?_concat_cases found with old | ⟨rfl, -⟩
    · exact staffed.ended index entry joined old
    · omega

theorem join {count : ℕ} {worker : Worker} (staffed : run.Staffed (.joining count) workers)
    (found : workers[run.first + count]? = some worker) (ended : worker.ended = true) :
    run.Staffed (.joining (count + 1)) workers where
  bounded := staffed.bounded
  within := staffed.within
  total := staffed.total
  deadline := staffed.deadline
  ended := by
    intro index entry joined located
    have below : index < run.first + (count + 1) := joined
    by_cases same : index = run.first + count
    · subst same
      rw [found] at located
      cases located
      exact ended
    · exact staffed.ended index entry (show index < run.first + count by omega) located

theorem move {index : ℕ} {worker after : Worker} (staffed : run.Staffed pc workers)
    (found : workers[index]? = some worker) (unended : worker.ended = false)
    (deadlineEq : after.stageEnd = worker.stageEnd) :
    run.Staffed pc (workers.set index after) where
  bounded := staffed.bounded
  within := staffed.within
  total := List.length_set.trans staffed.total
  deadline := by
    intro position entry current located
    rcases Roster.getElem?_set_cases located with ⟨rfl, rfl⟩ | ⟨-, other⟩
    · exact deadlineEq.trans (staffed.deadline _ _ current found)
    · exact staffed.deadline position entry current other
  ended := by
    intro position entry joined located
    rcases Roster.getElem?_set_cases located with ⟨rfl, rfl⟩ | ⟨-, other⟩
    · exact absurd (staffed.ended _ _ joined found) (by simp [unended])
    · exact staffed.ended position entry joined other

end StageRun.Staffed

namespace System

variable {plan : Plan} {system after : System}

theorem stageConcurrency_le (plan : Plan) (stage : Stage) :
    plan.stageConcurrency stage ≤ 100000 := by
  unfold Plan.stageConcurrency clampUsers
  exact min_le_right _ _

theorem Staffed.stageMoves {run : StageRun} {pc : StagePc}
    (staffed : run.Staffed pc system.workers)
    (moved : StageMoves plan system run pc after) : after.Staffed := by
  cases moved with
  | spawned more => exact staffed.spawn more rfl
  | allSpawned complete =>
      refine ⟨staffed.bounded, le_rfl, ?_, staffed.deadline, staffed.ended⟩
      have exactly : run.concurrency = _ := Nat.le_antisymm complete staffed.within
      exact exactly ▸ staffed.total
  | joined more found ended => exact staffed.join found ended
  | allJoined complete =>
      refine ⟨staffed.bounded, le_rfl, staffed.total, staffed.deadline, ?_⟩
      intro index worker joined found
      exact staffed.ended index worker
        (joined.trans_le (Nat.add_le_add_left complete run.first)) found
  | concludes | cleared => exact staffed.all_ended rfl rfl
  | waited attends onward =>
      have old := StagePc.counts_attends attends run.concurrency
      have new := StagePc.counts_attends onward run.concurrency
      exact staffed.goto (new.1.trans old.1.symm) (new.2.trans old.2.symm)
  | _ =>
      exact ⟨staffed.bounded, staffed.within, staffed.total, staffed.deadline, staffed.ended⟩

theorem Staffed.mainMoves (staffed : system.Staffed)
    (moved : MainMoves plan system system.main after) : after.Staffed := by
  unfold System.Staffed at staffed
  generalize system.main = main at staffed moved
  cases moved with
  | staged moved => exact Staffed.stageMoves staffed moved
  | begun found =>
      refine ⟨stageConcurrency_le plan _, Nat.zero_le _, rfl, ?_, ?_⟩
      · intro index worker current located
        obtain ⟨within, -⟩ := List.getElem?_eq_some_iff.mp located
        exact absurd within (Nat.not_lt_of_le current)
      · intro index worker _ located
        exact staffed worker (List.mem_of_getElem? located)
  | reset =>
      have unstaffed : system.workers = [] := staffed
      simp [System.Staffed, Main.Staffed, unstaffed]
  | _ => exact staffed

theorem Staffed.stage {run : StageRun} {pc : StagePc} (staffed : system.Staffed)
    (at_ : system.main = .staging run pc) : run.Staffed pc system.workers := by
  unfold System.Staffed at staffed
  rw [at_] at staffed
  exact staffed

/-- Outside the stages no worker runs. -/
theorem Staffed.outside (staffed : system.Staffed)
    (outside : ∀ run pc, system.main ≠ .staging run pc) :
    ∀ worker ∈ system.workers, worker.ended = true := by
  unfold System.Staffed at staffed
  cases at_ : system.main with
  | staging run pc => exact absurd at_ (outside run pc)
  | starting | publishing | resetting =>
      rw [at_] at staffed
      have unstaffed : system.workers = [] := staffed
      simp [unstaffed]
  | _ =>
      rw [at_] at staffed
      exact staffed

/-- A worker that has not ended has been spawned and not joined. -/
theorem Staffed.active {index : ℕ} {worker : Worker} (staffed : system.Staffed)
    (found : system.workers[index]? = some worker) (unended : worker.ended = false) :
    ∃ run pc, system.main = .staging run pc ∧ run.Staffed pc system.workers ∧
      run.first ≤ index ∧ pc.joined run.concurrency < pc.spawned run.concurrency := by
  by_cases inside : ∃ run pc, system.main = .staging run pc
  · obtain ⟨run, pc, at_⟩ := inside
    have stage := staffed.stage at_
    -- After the joins every position below the total has been joined.
    have unjoined : ¬index < run.first + pc.joined run.concurrency := fun joined => by
      simp [stage.ended index worker joined found] at unended
    obtain ⟨within, -⟩ := List.getElem?_eq_some_iff.mp found
    have total := stage.total
    exact ⟨run, pc, at_, stage, by omega, by omega⟩
  · push Not at inside
    simp [staffed.outside inside worker (List.mem_of_getElem? found)] at unended

theorem Staffed.step {action : Action} (staffed : system.Staffed)
    (taken : system.step plan action = some after) : after.Staffed := by
  cases step_moves taken with
  | main moved => exact staffed.mainMoves moved
  | worker found moved =>
      have framed := moved.framed
      obtain ⟨run, pc, at_, stage, -, -⟩ := staffed.active found moved.unended
      unfold System.Staffed
      dsimp only
      rw [framed.main, framed.workers, at_]
      exact stage.move found moved.unended moved.stageEnd
  | stop | stopIoc | tick => exact staffed

theorem initial_staffed (outset : Outset) : (initial outset).Staffed :=
  rfl

/-- Every worker after the first `count` belongs to a stage before `bound`. -/
def NewWorkersBelow (count bound : ℕ) (system : System) : Prop :=
  ∀ index worker, count ≤ index → system.workers[index]? = some worker → worker.stage < bound

theorem newWorkersBelow_length (system : System) (bound : ℕ) :
    NewWorkersBelow system.workers.length bound system := by
  intro index worker beyond found
  obtain ⟨within, -⟩ := List.getElem?_eq_some_iff.mp found
  exact absurd beyond (Nat.not_le_of_lt within)

theorem NewWorkersBelow.step {count bound : ℕ} {action : Action}
    (below : NewWorkersBelow count bound system) (begun : system.main.begun ≤ bound)
    (taken : system.step plan action = some after) : NewWorkersBelow count bound after := by
  cases step_moves taken with
  | main moved =>
      generalize at_ : system.main = main at moved
      cases moved with
      | staged moved =>
          cases moved with
          | spawned more =>
              intro index worker new found
              rcases Roster.getElem?_concat_cases found with old | ⟨-, rfl⟩
              · exact below index worker new old
              · rw [at_] at begun
                exact begun
          | _ => exact below
      | _ => exact below
  | worker found moved =>
      intro index worker new located
      rw [moved.framed.workers] at located
      rcases Roster.getElem?_set_cases located with ⟨rfl, rfl⟩ | ⟨-, other⟩
      · exact moved.stage ▸ below _ _ new found
      · exact below index worker new other
  | stop | stopIoc | tick => exact below

/-- Two stages without deadlines, one worker each. -/
def endlessStages : Plan :=
  (Config.probe [⟨0, 0, 1⟩, ⟨0, 0, 1⟩]).plan 0 100

/-- Two stages of one second, one worker each. -/
def timedStages : Plan :=
  (Config.probe [⟨1000, 0, 1⟩, ⟨1000, 0, 1⟩]).plan 0 100

end System

end Cppload.Engine

import Cppload.ScenarioEngineStages

/-!
# What becomes of a failed worker

A failed worker is counted in `worker_failures_`.  In a stage with a deadline the
main thread sees the count in its wait loop.  In a stage without one it goes
straight to the joins, and afterwards a positive count only keeps it from
clearing `stopped_`; if nothing has set `stopped_` the loop test passes and the
next stage starts.  That takes a stage whose workers have all failed, because a
worker that leaves such a stage without failing has seen `stopped_` set.
-/

namespace Cppload.Engine

open Transition

/-- The worker left its loop without failing. -/
def WorkerPc.left : WorkerPc → Bool
  | .leaving | .closing false | .finished false => true
  | _ => false

/-- The worker has been counted in `worker_failures_`. -/
def WorkerPc.counted : WorkerPc → Bool
  | .closing true | .finished true => true
  | _ => false

theorem WorkerPc.uncounted_of_inside {pc : WorkerPc} (inside : pc.exits = false) :
    pc.counted = false := by
  cases pc <;> first | rfl | simp [exits] at inside

namespace Worker

variable {plan : Plan} {system after : System} {choice : Choice} {worker next : Worker}

def left (worker : Worker) : Bool :=
  worker.pc.left

def counted (worker : Worker) : Bool :=
  worker.pc.counted

theorem left_of_ended (ended : worker.ended = true) (uncounted : worker.counted = false) :
    worker.left = true := by
  obtain ⟨failed, at_⟩ := ended_iff.mp ended
  cases failed with
  | false => simp [left, at_, WorkerPc.left]
  | true => simp [counted, at_, WorkerPc.counted] at uncounted

theorem spawned_left (run : StageRun) (number : ℕ) (pooled : Bool) :
    (spawned run number pooled).left = false := by
  cases pooled <;> rfl

theorem spawned_counted (run : StageRun) (number : ℕ) (pooled : Bool) :
    (spawned run number pooled).counted = false := by
  cases pooled <;> rfl

theorem opened_left (plan : Plan) : (opened plan).left = false :=
  opened_cases plan (fun pc => pc.left = false) rfl fun _ => rfl

theorem opened_counted (plan : Plan) : (opened plan).counted = false :=
  opened_cases plan (fun pc => pc.counted = false) rfl fun _ => rfl

/-- A worker leaves its loop on a stop or at the deadline. -/
theorem Flow.left {pc onward : WorkerPc} (flow : Flow system choice worker pc onward)
    (leaves : onward.left = true) :
    system.stopped = true ∨ worker.stageEnd ≤ system.now := by
  cases flow with
  | expired paces late => exact .inr late
  | halted stopped => exact .inl stopped
  | paced paces nextPaces => cases onward <;> simp_all [WorkerPc.paces, WorkerPc.left]
  | _ => simp [WorkerPc.left] at leaves

theorem Moves.left (moved : Moves plan system choice worker after next)
    (leaves : next.left = true) :
    worker.left = true ∨ system.stopped = true ∨ worker.stageEnd ≤ system.now := by
  unfold Worker.left at leaves ⊢
  cases moved with
  | flowed flow => exact .inr (flow.left leaves)
  | acquired => simp [opened_left] at leaves
  | refused at_ found answer onward =>
      rcases onward with rfl | rfl <;> simp [goto, WorkerPc.left] at leaves
  | issued =>
      cases immediate : choice.immediate <;>
        simp [issue, immediate, WorkerPc.left] at leaves
  | judged at_ => exact .inl (by rw [at_]; rfl)
  | counted message at_ =>
      rcases at_ with ⟨-, rfl⟩ | ⟨-, rfl⟩ <;> simp [goto, WorkerPc.left] at leaves
  | closed at_ =>
      rcases at_ with ⟨failed, at_, rfl⟩ | ⟨what, -, rfl⟩
      · cases failed with
        | false => exact .inl (by rw [at_]; rfl)
        | true => simp [WorkerPc.left] at leaves
      · simp [WorkerPc.left] at leaves
  | _ => simp [goto, WorkerPc.left] at leaves

/-- A step counts its worker as failed, or leaves both counts as they are. -/
theorem Moves.counts (moved : Moves plan system choice worker after next) :
    (after.workerFailures = system.workerFailures ∧ next.counted = worker.counted) ∨
      (after.workerFailures = (system.workerFailures + 1) % 2 ^ 32 ∧
        worker.counted = false ∧ next.counted = true) := by
  unfold Worker.counted
  cases moved with
  | flowed flow =>
      have source := WorkerPc.uncounted_of_inside flow.inside.1
      have target := WorkerPc.uncounted_of_inside flow.inside.2
      exact .inl ⟨rfl, target.trans source.symm⟩
  | acquired at_ => exact .inl ⟨rfl, by rw [at_]; exact opened_counted plan⟩
  | refused at_ found answer onward =>
      refine .inl ⟨rfl, ?_⟩
      rcases onward with rfl | rfl <;> simp [at_, goto, WorkerPc.counted]
  | issued at_ =>
      refine .inl ⟨rfl, ?_⟩
      cases immediate : choice.immediate <;> simp [at_, issue, immediate, WorkerPc.counted]
  | counted message at_ =>
      rcases at_ with ⟨⟨text, at_⟩, rfl⟩ | ⟨⟨what, at_⟩, rfl⟩ <;>
        exact .inr ⟨rfl, by simp [at_, WorkerPc.counted], rfl⟩
  | closed at_ =>
      obtain ⟨pool, closedEq⟩ := closeGuard_eq plan system worker
      refine .inl ⟨by rw [closedEq], ?_⟩
      rcases at_ with ⟨failed, at_, rfl⟩ | ⟨what, at_, rfl⟩
      · cases failed <;> simp [at_, WorkerPc.counted]
      · simp [at_, WorkerPc.counted]
  | answered at_ | stored at_ | judged at_ =>
      exact .inl ⟨rfl, by simp [at_, goto, WorkerPc.counted]⟩

end Worker

/-- From here on the main thread no longer waits for the stage's deadline. -/
def StagePc.awaited : StagePc → Bool
  | .stoppingIoc | .joining _ | .deciding | .restarting | .clearing => true
  | _ => false

/-- Why a stage ends: with a deadline the main thread sets `stopped_` before it
joins, and without one a worker leaves its loop only when `stopped_` is set. -/
structure StageRun.Noted (run : StageRun) (pc : StagePc) (stopped : Bool)
    (workers : List Worker) : Prop where
  signalled : pc.awaited = false ∨ run.stageEnd = timePointMax ∨ stopped = true
  left : ∀ index worker, run.first ≤ index → workers[index]? = some worker →
    worker.left = true → run.stageEnd = timePointMax → stopped = true

namespace StageRun.Noted

variable {run : StageRun} {pc next : StagePc} {stopped : Bool} {workers : List Worker}

theorem of_stopped : run.Noted pc true workers :=
  ⟨.inr (.inr rfl), fun _ _ _ _ _ _ => rfl⟩

theorem spawn {worker : Worker} (noted : run.Noted pc stopped workers)
    (unawaited : next.awaited = false) (present : worker.left = false) :
    run.Noted next stopped (workers ++ [worker]) where
  signalled := .inl unawaited
  left := by
    intro index entry current found leaves endless
    rcases Roster.getElem?_concat_cases found with old | ⟨-, rfl⟩
    · exact noted.left index entry current old leaves endless
    · simp [present] at leaves

theorem move {index : ℕ} {worker after : Worker} (noted : run.Noted pc stopped workers)
    (found : workers[index]? = some worker)
    (leaving : after.left = true →
      worker.left = true ∨ stopped = true ∨ run.stageEnd ≠ timePointMax) :
    run.Noted pc stopped (workers.set index after) where
  signalled := noted.signalled
  left := by
    intro position entry current located leaves endless
    rcases Roster.getElem?_set_cases located with ⟨rfl, rfl⟩ | ⟨-, other⟩
    · rcases leaving leaves with before | stop | bounded
      · exact noted.left _ _ current found before endless
      · exact stop
      · exact absurd endless bounded
    · exact noted.left position entry current other leaves endless

end StageRun.Noted

def Main.Noted (stopped : Bool) (workers : List Worker) : Main → Prop
  | .staging run pc => run.Noted pc stopped workers
  | _ => True

namespace System

variable {plan : Plan} {system after : System}

structure Noted (system : System) : Prop where
  staffed : system.Staffed
  clock : system.now < timePointMax
  noted : system.main.Noted system.stopped system.workers

theorem initial_noted (outset : Outset) : (initial outset).Noted :=
  ⟨initial_staffed outset, outset.now_lt, trivial⟩

theorem noted_stageMoves {run : StageRun} {pc : StagePc}
    (noted : run.Noted pc system.stopped system.workers)
    (moved : StageMoves plan system run pc after) :
    after.main.Noted after.stopped after.workers := by
  cases moved with
  | spawned => exact noted.spawn rfl (Worker.spawned_left _ _ _)
  | unawaited unbounded => exact ⟨.inr unbounded, noted.left⟩
  | stopped => exact .of_stopped
  | stoppedIoc | joined | allJoined | continues | restarted => exact ⟨noted.signalled, noted.left⟩
  | concludes | cleared => trivial
  | waited attends onward =>
      refine ⟨.inl ?_, noted.left⟩
      rename_i next
      cases next <;> simp_all [StagePc.attends, StagePc.awaited]
  | _ => exact ⟨.inl rfl, noted.left⟩

theorem noted_mainMoves (noted : system.main.Noted system.stopped system.workers)
    (moved : MainMoves plan system system.main after) :
    after.main.Noted after.stopped after.workers := by
  generalize system.main = main at noted moved
  cases moved with
  | staged moved => exact noted_stageMoves noted moved
  | begun =>
      refine ⟨.inl rfl, fun index worker current found => ?_⟩
      obtain ⟨within, -⟩ := List.getElem?_eq_some_iff.mp found
      exact absurd within (Nat.not_lt_of_le current)
  | _ => trivial

theorem MainMoves.now {main : Main} (moved : MainMoves plan system main after) :
    after.now = system.now := by
  cases moved with
  | staged moved => cases moved <;> rfl
  | _ => rfl

theorem Noted.worker {index : ℕ} {choice : Choice} {worker next : Worker}
    (holds : system.Noted) (found : system.workers[index]? = some worker)
    (moved : worker.Moves plan system choice after next) :
    system.main.Noted system.stopped (system.workers.set index next) := by
  obtain ⟨staffed, clock, noted⟩ := holds
  obtain ⟨run, pc, at_, stage, current, -⟩ := staffed.active found moved.unended
  rw [at_] at noted ⊢
  refine StageRun.Noted.move noted found fun leaves => ?_
  rcases moved.left leaves with before | stopped | late
  · exact .inl before
  · exact .inr (.inl stopped)
  · have deadlineEq := stage.deadline index worker current found
    exact .inr (.inr (by omega))

theorem Noted.step {action : Action} (holds : system.Noted)
    (taken : system.step plan action = some after) : after.Noted := by
  refine ⟨holds.staffed.step taken, ?_, ?_⟩
  · cases step_moves taken with
    | main moved => exact moved.now ▸ holds.clock
    | worker found moved => exact moved.framed.now ▸ holds.clock
    | stop | stopIoc => exact holds.clock
    | tick bounded => exact bounded
  · cases step_moves taken with
    | main moved => exact noted_mainMoves holds.noted moved
    | worker found moved =>
        have framed := moved.framed
        dsimp only
        rw [framed.main, framed.stopped, framed.workers]
        exact holds.worker found moved
    | stop =>
        dsimp only
        cases system.main with
        | staging run pc => exact .of_stopped
        | _ => trivial
    | stopIoc | tick => exact holds.noted

end System

/-- The main thread has decided that another stage follows. -/
def StagePc.resumes : StagePc → Bool
  | .restarting | .clearing => true
  | _ => false

def Tallied (failures : ℕ) (workers : List Worker) : Prop :=
  failures = workers.countP Worker.counted ∧ failures ≤ 100000

structure StageRun.Accounted (run : StageRun) (pc : StagePc) (failures : ℕ)
    (workers : List Worker) : Prop where
  tallied : Tallied failures workers
  earlier : ∀ index worker, index < run.first → workers[index]? = some worker →
    worker.counted = false
  resumes : pc.resumes = false ∨ failures = 0

/-- The count is that of the failed workers, who are all in the current stage, and
once it is positive the loop test cannot pass. -/
def Main.Accounted (plan : Plan) (stopped : Bool) (failures : ℕ) (workers : List Worker) :
    Main → Prop
  | .starting | .publishing | .resetting => True
  | .testing index =>
      Tallied failures workers ∧
        (failures = 0 ∨ stopped = true ∨ plan.stages.length ≤ index)
  | .readingCap | .checkingCap _ | .rating _ | .beginning _ =>
      Tallied failures workers ∧ failures = 0
  | .staging run pc => run.Accounted pc failures workers
  | _ => Tallied failures workers

namespace System

variable {plan : Plan} {system after : System}

def Accounted (plan : Plan) (system : System) : Prop :=
  system.main.Accounted plan system.stopped system.workerFailures system.workers

/-- When the main thread decides after a stage without a deadline that is not the
last one, some worker of the stage has not failed. -/
def notAllFailed (plan : Plan) (system : System) : Action → Bool
  | .main =>
      match system.main with
      | .staging run .deciding =>
          decide (run.stageEnd ≠ timePointMax) ||
            decide (plan.stages.length ≤ run.index + 1) ||
            (system.workers.drop run.first).any fun worker => !worker.counted
      | _ => true
  | _ => true

theorem concludes_stopped {run : StageRun} (noted : system.Noted)
    (at_ : system.main = .staging run .deciding)
    (allowed : system.notAllFailed plan .main = true) :
    system.stopped = true ∨ plan.stages.length ≤ run.index + 1 := by
  obtain ⟨staffed, -, noted⟩ := noted
  rw [at_] at noted
  have signalled : run.stageEnd ≠ timePointMax → system.stopped = true := fun bounded =>
    ((StageRun.Noted.signalled noted).resolve_left (by simp [StagePc.awaited])).resolve_left
      bounded
  simp only [notAllFailed, at_, Bool.or_eq_true, decide_eq_true_eq, List.any_eq_true,
    Bool.not_eq_true'] at allowed
  rcases allowed with (bounded | last) | ⟨worker, member, uncounted⟩
  · exact .inl (signalled bounded)
  · exact .inr last
  -- All workers have been joined, so one that has not failed has left its loop.
  · have ended := (staffed.stage at_).all_ended rfl rfl worker (List.mem_of_mem_drop member)
    obtain ⟨offset, found⟩ := List.mem_iff_getElem?.mp member
    rw [List.getElem?_drop] at found
    by_cases bounded : run.stageEnd = timePointMax
    · exact .inl (StageRun.Noted.left noted _ worker (Nat.le_add_right _ _) found
        (Worker.left_of_ended ended uncounted) bounded)
    · exact .inl (signalled bounded)

theorem accounted_stageMoves {run : StageRun} {pc : StagePc} (noted : system.Noted)
    (at_ : system.main = .staging run pc)
    (accounted : run.Accounted pc system.workerFailures system.workers)
    (allowed : system.notAllFailed plan .main = true)
    (moved : StageMoves plan system run pc after) : after.Accounted plan := by
  obtain ⟨tallied, earlier, resumes⟩ := accounted
  cases moved with
  | spawned =>
      have uncounted := Worker.spawned_counted
      refine ⟨⟨?_, tallied.2⟩, ?_, .inl rfl⟩
      · rw [List.countP_append, List.countP_singleton, uncounted]
        exact tallied.1
      · intro index worker old found
        rcases Roster.getElem?_concat_cases found with before | ⟨-, rfl⟩
        · exact earlier index worker old before
        · exact uncounted _ _ _
  | continues more unstopped healthy => exact ⟨tallied, earlier, .inr healthy⟩
  | concludes =>
      have final := concludes_stopped noted at_ allowed
      exact ⟨tallied, .inr final⟩
  | restarted => exact ⟨tallied, earlier, resumes⟩
  | cleared => exact ⟨tallied, .inl (resumes.resolve_left (by simp [StagePc.resumes]))⟩
  | waited attends onward =>
      refine ⟨tallied, earlier, .inl ?_⟩
      rename_i next
      cases next <;> simp_all [StagePc.attends, StagePc.resumes]
  | _ => exact ⟨tallied, earlier, .inl rfl⟩

theorem accounted_mainMoves (noted : system.Noted) (accounted : system.Accounted plan)
    (allowed : system.notAllFailed plan .main = true)
    (moved : MainMoves plan system system.main after) : after.Accounted plan := by
  unfold Accounted at accounted
  generalize at_ : system.main = main at accounted moved
  cases moved with
  | staged moved => exact accounted_stageMoves noted at_ accounted allowed moved
  | cleared | published => exact accounted
  | reset =>
      have staffed := noted.staffed
      unfold System.Staffed at staffed
      rw [at_] at staffed
      have unstaffed : system.workers = [] := staffed
      refine ⟨⟨?_, Nat.zero_le _⟩, rfl⟩
      simp [unstaffed]
  | capped => exact ⟨accounted.1, .inl accounted.2⟩
  | tested more running =>
      refine ⟨accounted.1, accounted.2.resolve_right ?_⟩
      rintro (stopped | last)
      · simp [running] at stopped
      · exact absurd more (Nat.not_lt_of_le last)
  | proceeded | rated => exact accounted
  | ended | overran => exact accounted.1
  | stoppedCap | stoppedCapIoc | finished => exact accounted
  | begun found =>
      obtain ⟨tallied, healthy⟩ := accounted
      refine ⟨tallied, fun index worker _ located => ?_, .inl rfl⟩
      have unfailed := tallied.1.symm.trans healthy
      exact Bool.eq_false_iff.mpr
        (List.countP_eq_zero.mp unfailed worker (List.mem_of_getElem? located))

theorem accounted_worker {index : ℕ} {choice : Choice} {worker next : Worker}
    (staffed : system.Staffed) (accounted : system.Accounted plan)
    (found : system.workers[index]? = some worker)
    (moved : worker.Moves plan system choice after next) :
    system.main.Accounted plan system.stopped after.workerFailures
      (system.workers.set index next) := by
  obtain ⟨run, pc, at_, stage, current, running⟩ := staffed.active found moved.unended
  unfold Accounted at accounted
  rw [at_] at accounted ⊢
  obtain ⟨⟨tally, few⟩, earlier, resumes⟩ := accounted
  have earlierStill : ∀ position entry, position < run.first →
      (system.workers.set index next)[position]? = some entry → entry.counted = false := by
    intro position entry old located
    rcases Roster.getElem?_set_cases located with ⟨rfl, -⟩ | ⟨-, other⟩
    · omega
    · exact earlier position entry old other
  have unresumed : pc.resumes = false := by
    cases pc <;> simp_all [StagePc.resumes, StagePc.joined, StagePc.spawned]
  rcases moved.counts with ⟨failuresEq, countedEq⟩ | ⟨failuresEq, uncounted, counted⟩
  · refine ⟨⟨?_, failuresEq ▸ few⟩, earlierStill, .inl unresumed⟩
    rw [failuresEq, Roster.countP_set_of_eq found countedEq]
    exact tally
  -- Only workers of this stage have failed, too few for the counter to wrap.
  · have more := Roster.countP_set_of_ne found uncounted counted
    have most := Roster.countP_le_of_uncounted run.first earlierStill
    have total := stage.total
    have within := stage.within
    have bounded := stage.bounded
    rw [List.length_set] at most
    have exactly : after.workerFailures = system.workerFailures + 1 := by
      rw [failuresEq]
      exact Nat.mod_eq_of_lt (by omega)
    exact ⟨⟨by omega, by omega⟩, earlierStill, .inl unresumed⟩

theorem accounted_step {action : Action} (noted : system.Noted)
    (accounted : system.Accounted plan) (allowed : system.notAllFailed plan action = true)
    (taken : system.step plan action = some after) : after.Accounted plan := by
  cases step_moves taken with
  | main moved => exact accounted_mainMoves noted accounted allowed moved
  | worker found moved =>
      have framed := moved.framed
      unfold Accounted
      dsimp only
      rw [framed.main, framed.stopped, framed.workers]
      exact accounted_worker noted.staffed accounted found moved
  | stop =>
      unfold Accounted at accounted ⊢
      dsimp only
      cases at_ : system.main with
      | testing index =>
          rw [at_] at accounted
          exact ⟨accounted.1, .inr (.inl rfl)⟩
      | _ =>
          rw [at_] at accounted
          exact accounted
  | stopIoc | tick => exact accounted

theorem Accounted.tallied (accounted : system.Accounted plan)
    (prepared : system.main.prepared = true) :
    Tallied system.workerFailures system.workers := by
  unfold Accounted at accounted
  generalize system.main = main at accounted prepared
  cases main with
  | starting | publishing | resetting => simp [Main.prepared] at prepared
  | testing | checkingCap | rating | beginning | readingCap => exact accounted.1
  | staging => exact StageRun.Accounted.tallied accounted
  | stoppingCap | stoppingCapIoc | finishing | returned => exact accounted

/-- Only the loop test begins a stage. -/
theorem begun_mainMoves (moved : MainMoves plan system system.main after)
    (barred : ∀ index, system.main = .testing index → index < plan.stages.length →
      system.stopped = false → False) :
    after.main.begun ≤ system.main.begun := by
  generalize system.main = main at moved barred
  cases moved with
  | tested more running => exact (barred _ rfl more running).elim
  | staged moved => cases moved <;> exact le_rfl
  | proceeded | rated | begun => exact le_rfl
  | _ => exact Nat.zero_le _

/-- A worker of this run has failed, and no stage from `bound` on can begin. -/
structure Aborting (plan : Plan) (bound : ℕ) (system : System) : Prop where
  noted : system.Noted
  accounted : system.Accounted plan
  prepared : system.main.prepared = true
  failed : 0 < system.workerFailures
  begun : system.main.begun ≤ bound

theorem Aborting.barred {bound : ℕ} (aborting : Aborting plan bound system) (index : ℕ)
    (at_ : system.main = .testing index) (more : index < plan.stages.length)
    (running : system.stopped = false) : False := by
  have accounted := aborting.accounted
  have failed := aborting.failed
  unfold Accounted at accounted
  rw [at_] at accounted
  rcases accounted.2 with healthy | stopped | last
  · omega
  · simp [running] at stopped
  · omega

theorem Aborting.step {bound : ℕ} {action : Action} (aborting : Aborting plan bound system)
    (allowed : system.notAllFailed plan action = true)
    (taken : system.step plan action = some after) : Aborting plan bound after := by
  have noted := aborting.noted.step taken
  have accounted := accounted_step aborting.noted aborting.accounted allowed taken
  have prepared := aborting.prepared
  have failed := aborting.failed
  cases step_moves taken with
  | main moved =>
      have begun := begun_mainMoves moved aborting.barred
      refine ⟨noted, accounted, ?_, ?_, begun.trans aborting.begun⟩
      · generalize system.main = main at moved prepared
        cases moved with
        | staged moved => cases moved <;> rfl
        | cleared | published => simp [Main.prepared] at prepared
        | _ => rfl
      · generalize system.main = main at moved prepared
        cases moved with
        | staged moved => cases moved <;> exact failed
        | reset => simp [Main.prepared] at prepared
        | _ => exact failed
  | worker found moved =>
      have framed := moved.framed
      refine ⟨noted, accounted, framed.main ▸ prepared, ?_, framed.main ▸ aborting.begun⟩
      rcases moved.counts with ⟨same, -⟩ | ⟨counted, -, -⟩
      · exact same ▸ failed
      · have few := (aborting.accounted.tallied prepared).2
        dsimp only
        rw [counted, Nat.mod_eq_of_lt (by omega)]
        exact Nat.succ_pos _
  | stop | stopIoc | tick => exact ⟨noted, accounted, prepared, failed, aborting.begun⟩

/-- In a run in which no stage without a deadline loses all its workers to
failures while another stage is to come, a failure is final: the run starts no
worker of a stage that had not begun, and `run_failed()` stays true. -/
theorem failure_ends_run {outset : Outset} {last : System}
    (reached : Reaches (step plan) (fun state action => state.notAllFailed plan action)
      (initial outset) system)
    (prepared : system.main.prepared = true) (failed : 0 < system.workerFailures)
    (later : Reaches (step plan) (fun state action => state.notAllFailed plan action)
      system last) :
    last.runFailed = true ∧
      ∀ index worker, system.workers.length ≤ index →
        last.workers[index]? = some worker → worker.stage < system.main.begun := by
  have sound := reached.invariant (fun state => state.Noted ∧ state.Accounted plan)
    ⟨initial_noted outset, trivial⟩
    (fun before action after holds allowed taken =>
      ⟨holds.1.step taken, accounted_step holds.1 holds.2 allowed taken⟩)
  have final := later.invariant
    (fun state => Aborting plan system.main.begun state ∧
      NewWorkersBelow system.workers.length system.main.begun state)
    ⟨⟨sound.1, sound.2, prepared, failed, le_rfl⟩, newWorkersBelow_length _ _⟩
    (fun before action after holds allowed taken =>
      ⟨holds.1.step allowed taken, holds.2.step holds.1.begun taken⟩)
  exact ⟨decide_eq_true final.1.failed, final.2⟩

/-- A worker that prepares its first request and is thrown out of it. -/
def failPreparing (index : ℕ) : List Action :=
  List.flatten
    [List.replicate 6 (.worker index {}), [.worker index { throws := some "token endpoint" }],
      List.replicate 2 (.worker index {})]

/-- The only worker of a stage with a deadline fails, and `run` returns. -/
theorem failure_ends_run_timed :
    ∃ system last,
      Reaches (step timedStages) (fun state action => state.notAllFailed timedStages action)
        (initial .new) system ∧
      Reaches (step timedStages) (fun state action => state.notAllFailed timedStages action)
        system last ∧
      last.main = .returned ∧ last.runFailed = true ∧
      ∀ index worker, system.workers.length ≤ index →
        last.workers[index]? = some worker → worker.stage < system.main.begun := by
  have evaluated :
      (guardedRun (step timedStages)
        (fun state action => state.notAllFailed timedStages action) (initial .new)
        (List.flatten [List.replicate 12 .main, failPreparing 0])).bind
        (fun system => (guardedRun (step timedStages)
          (fun state action => state.notAllFailed timedStages action) system
          (List.replicate 12 .main)).map fun last =>
          (system.main, system.workerFailures, last.main)) =
      some (.staging ⟨0, 1000000000, 1, 0, false⟩ .waitClock, 1, .returned) := by
    decide +kernel
  obtain ⟨system, executes, onward⟩ := Option.bind_eq_some_iff.mp evaluated
  obtain ⟨last, continues, fields⟩ := Option.map_eq_some_iff.mp onward
  simp only [Prod.mk.injEq] at fields
  obtain ⟨mainEq, failedEq, returned⟩ := fields
  have reached := reaches_of_guardedRun executes
  have later := reaches_of_guardedRun continues
  exact ⟨system, last, reached, later, returned,
    failure_ends_run reached (by rw [mainEq]; rfl) (by omega) later⟩

/-- The only worker of a stage without a deadline fails, and the next stage
starts. -/
theorem failure_passed_over :
    ∃ system last worker,
      Reaches (step endlessStages) Unrestricted (initial .new) system ∧
      system.main.prepared = true ∧ 0 < system.workerFailures ∧
      Reaches (step endlessStages) Unrestricted system last ∧
      last.workers[system.workers.length]? = some worker ∧
      system.main.begun ≤ worker.stage := by
  have evaluated :
      (run (step endlessStages) (initial .new)
        (List.flatten [List.replicate 12 .main, failPreparing 0])).bind
        (fun system => (run (step endlessStages) system (List.replicate 8 .main)).map
          fun last =>
          (system.main, system.workerFailures,
            last.workers[system.workers.length]?.map Worker.stage)) =
      some (.staging ⟨0, timePointMax, 1, 0, false⟩ (.joining 0), 1, some 1) := by
    decide +kernel
  obtain ⟨system, executes, onward⟩ := Option.bind_eq_some_iff.mp evaluated
  obtain ⟨last, continues, fields⟩ := Option.map_eq_some_iff.mp onward
  simp only [Prod.mk.injEq] at fields
  obtain ⟨mainEq, failedEq, started⟩ := fields
  obtain ⟨worker, found, stageEq⟩ := Option.map_eq_some_iff.mp started
  refine ⟨system, last, worker, reaches_of_run executes, by rw [mainEq]; rfl, by omega,
    reaches_of_run continues, found, ?_⟩
  rw [mainEq, stageEq]
  rfl

end System

end Cppload.Engine

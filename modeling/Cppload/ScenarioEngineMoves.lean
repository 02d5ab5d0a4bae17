import Cppload.ScenarioEngine

/-!
# What the engine's threads can do

The steps of the scenario engine sorted by their effect.  Most steps of a worker
only move it through its own code (`Flow`); the others touch the pool, the
requests or the failure count (`Worker.Moves`).  `System.MainMoves` does the same
for the main thread.  The invariants of the engine are proved over these relations
and not over the step functions.
-/

namespace Cppload.Engine

/-- The region of the worker's loop between its two tests of `stopped_`, in which
it waits for its slot and prepares its next request. -/
def WorkerPc.paces : WorkerPc → Bool
  | .pacing | .deadlineTest | .sleepClock | .sleepStopped | .spinClock | .spinStopped
  | .slotDeadline | .consuming | .choosing | .issuing _ => true
  | _ => false

/-- The points at which code that is not the engine's own may throw. -/
def WorkerPc.throws : WorkerPc → Bool
  | .creating | .choosing | .issuing _ | .handling _ => true
  | _ => false

/-- The loop in which the main thread waits for the stage to end, and the sample
that follows it. -/
def StagePc.attends : StagePc → Bool
  | .waitClock | .waitStopped | .waitFailures | .samplingStopped => true
  | _ => false

/-- The worker is past its loop, on its way out of its thread. -/
def WorkerPc.exits : WorkerPc → Bool
  | .closing _ | .catching _ | .finished _ => true
  | _ => false

namespace Worker

/-- Control flow of a worker that leaves its client and its requests alone. -/
inductive Flow (system : System) (choice : Choice) (worker : Worker) : WorkerPc → WorkerPc → Prop
  | resolved : Flow system choice worker .resolving (.acquiring 0)
  | created : Flow system choice worker .creating .pacing
  | unusable (message : String) : Flow system choice worker .creating (.failing message)
  | threw {pc : WorkerPc} (throws : pc.throws) (what : String)
      (thrown : choice.throws = some what) :
      Flow system choice worker pc (.unwinding what)
  | paced {pc next : WorkerPc} (paces : pc.paces) (nextPaces : next.paces) :
      Flow system choice worker pc next
  | lapped {pc : WorkerPc} (paces : pc.paces) : Flow system choice worker pc .loopTest
  | expired {pc : WorkerPc} (paces : pc.paces) (late : worker.stageEnd ≤ system.now) :
      Flow system choice worker pc .leaving
  | entered (running : system.stopped = false) : Flow system choice worker .loopTest .deadlineTest
  | halted (stopped : system.stopped = true) : Flow system choice worker .loopTest .leaving
  | awaited (done : worker.lastUndone system = false) :
      Flow system choice worker .doneTest .loopTest
  | waited : Flow system choice worker .doneTest .stopTest
  | interrupted (stopped : system.stopped = true) : Flow system choice worker .stopTest .loopTest
  | continued : Flow system choice worker .stopTest .serving
  | returned : Flow system choice worker .serving .doneTest

/-- Nothing changes that outlives the worker's own control flow. -/
structure Keeps (before after : Worker) : Prop where
  stage : after.stage = before.stage
  stageEnd : after.stageEnd = before.stageEnd
  client : after.client = before.client
  pool : after.pool = before.pool
  drop : after.drop = before.drop
  acquired : after.acquired = before.acquired
  last : after.last = before.last

inductive Moves (plan : Plan) (system : System) (choice : Choice) (worker : Worker) :
    System → Worker → Prop
  | flowed {after : Worker} (flow : Flow system choice worker worker.pc after.pc)
      (keeps : Keeps worker after) (lastError : String) (bucket : TokenBucket) :
      Moves plan system choice worker
        { system with lastError := lastError, bucket := bucket } after
  | acquired {attempts : ℕ} {pool : ConnectionPool} {client : ℕ}
      (at_ : worker.pc = .acquiring attempts) (found : system.pool = some pool)
      (answer : (pool.acquire plan.endpoint.host plan.endpoint.port).1 = some client) :
      Moves plan system choice worker
        { system with
          pool := some (pool.acquire plan.endpoint.host plan.endpoint.port).2 }
        { worker with client := some client, acquired := true, pc := opened plan }
  | refused {attempts : ℕ} {pool : ConnectionPool} {next : WorkerPc}
      (at_ : worker.pc = .acquiring attempts) (found : system.pool = some pool)
      (answer : (pool.acquire plan.endpoint.host plan.endpoint.port).1 = none)
      (onward : next = .acquiring (attempts + 1) ∨
        next = .failing ("connection pool exhausted for " ++ plan.endpoint.host)) :
      Moves plan system choice worker
        { system with
          pool := some (pool.acquire plan.endpoint.host plan.endpoint.port).2 }
        (worker.goto next)
  | issued {request : Http11.Request} (at_ : worker.pc = .issuing request) :
      Moves plan system choice worker
        (worker.issue system choice request).1 (worker.issue system choice request).2
  | answered {index : ℕ} {issued : Issued} (at_ : worker.pc = .serving)
      (found : system.requests[index]? = some issued) :
      Moves plan system choice worker
        { system with
          requests := system.requests.set index { issued with answered := true } }
        (worker.goto (.handling index))
  | stored {index : ℕ} (at_ : worker.pc = .handling index) :
      Moves plan system choice worker
        { system with
          requests := system.requests.modify index fun issued => { issued with done := true } }
        (worker.goto .doneTest)
  | judged (at_ : worker.pc = .leaving) :
      Moves plan system choice worker system
        { worker with drop := worker.lastUndone system, pc := .closing false }
  | counted {next : WorkerPc} (message : String)
      (at_ : (∃ text, worker.pc = .failing text) ∧ next = .closing true ∨
        (∃ what, worker.pc = .catching what) ∧ next = .finished true) :
      Moves plan system choice worker (system.countFailure message) (worker.goto next)
  | closed {next : WorkerPc}
      (at_ : (∃ failed, worker.pc = .closing failed ∧ next = .finished failed) ∨
        ∃ what, worker.pc = .unwinding what ∧ next = .catching what) :
      Moves plan system choice worker (worker.closeGuard plan system)
        { worker with client := none, pc := next }

section Inversion

variable {plan : Plan} {system after : System} {choice : Choice} {worker next : Worker}

theorem Flow.inside {pc onward : WorkerPc} (flow : Flow system choice worker pc onward) :
    pc.exits = false ∧ onward.exits = false := by
  have paced : ∀ {pc : WorkerPc}, pc.paces = true → pc.exits = false := by
    intro pc paces
    cases pc <;> first | rfl | simp [WorkerPc.paces] at paces
  cases flow with
  | threw throws =>
      refine ⟨?_, rfl⟩
      cases pc <;> first | rfl | simp [WorkerPc.throws] at throws
  | paced paces nextPaces => exact ⟨paced paces, paced nextPaces⟩
  | lapped paces | expired paces => exact ⟨paced paces, rfl⟩
  | _ => exact ⟨rfl, rfl⟩

theorem Moves.of_keeps (flow : Flow system choice worker worker.pc next.pc)
    (keeps : Keeps worker next) : Moves plan system choice worker system next :=
  .flowed flow keeps system.lastError system.bucket

theorem Moves.of_flow {pc : WorkerPc} (flow : Flow system choice worker worker.pc pc) :
    Moves plan system choice worker system (worker.goto pc) :=
  .of_keeps flow ⟨rfl, rfl, rfl, rfl, rfl, rfl, rfl⟩

theorem Moves.of_noteError (error : Option String)
    (flow : Flow system choice worker worker.pc next.pc) (keeps : Keeps worker next) :
    Moves plan system choice worker (system.noteError error) next := by
  cases error with
  | none => exact .flowed flow keeps system.lastError system.bucket
  | some message => exact .flowed flow keeps message system.bucket

/-- With its client a worker goes on to its loop or to `fail_worker`. -/
theorem opened_cases (plan : Plan) (motive : WorkerPc → Prop) (usable : motive .pacing)
    (empty : ∀ message, motive (.failing message)) : motive (opened plan) := by
  unfold opened
  split
  · exact usable
  · exact empty _

theorem acquire_moves {attempts : ℕ} (at_ : worker.pc = .acquiring attempts)
    (moved : worker.acquire plan system attempts = some (after, next)) :
    Moves plan system choice worker after next := by
  obtain ⟨pool, found, result⟩ := Option.map_eq_some_iff.mp moved
  cases answer : (pool.acquire plan.endpoint.host plan.endpoint.port).1 with
  | some client =>
      simp only [answer] at result
      cases result
      exact .acquired at_ found answer
  | none =>
      simp only [answer] at result
      cases result
      split
      · exact .refused at_ found answer (.inl rfl)
      · exact .refused at_ found answer (.inr rfl)

theorem takeSlot_moves (at_ : worker.pc = .deadlineTest) :
    Moves plan system choice worker system (worker.takeSlot system) := by
  unfold takeSlot
  split
  · rename_i late
    exact .of_flow (.expired (by rw [at_]; rfl) late)
  split
  · refine .of_keeps ?_ ⟨rfl, rfl, rfl, rfl, rfl, rfl, rfl⟩
    exact .paced (by rw [at_]; rfl) rfl
  · refine .of_keeps ?_ ⟨rfl, rfl, rfl, rfl, rfl, rfl, rfl⟩
    refine .paced (by rw [at_]; rfl) ?_
    dsimp only
    split
    · split <;> rfl
    · rfl

theorem choose_moves (at_ : worker.pc = .choosing)
    (moved : worker.choose plan system choice = (after, next)) :
    Moves plan system choice worker after next := by
  unfold choose at moved
  split at moved
  · cases moved
    exact .of_flow (.lapped (by rw [at_]; rfl))
  split at moved
  · cases moved
    exact .of_flow (.lapped (by rw [at_]; rfl))
  · cases moved
    refine .of_noteError _ ?_ ⟨rfl, rfl, rfl, rfl, rfl, rfl, rfl⟩
    dsimp only
    split
    · rename_i thrown
      exact .threw (by rw [at_]; rfl) _ thrown
    · exact .paced (by rw [at_]; rfl) rfl

theorem serve_moves (at_ : worker.pc = .serving)
    (moved : worker.serve system choice = some (after, next)) :
    Moves plan system choice worker after next := by
  unfold serve at moved
  split at moved
  · cases moved
    exact .of_flow (at_ ▸ .returned)
  · obtain ⟨issued, found, result⟩ := Option.bind_eq_some_iff.mp moved
    split at result <;> cases result
    exact .answered at_ found

theorem handle_moves {index : ℕ} (at_ : worker.pc = .handling index)
    (moved : worker.handle system choice index = (after, next)) :
    Moves plan system choice worker after next := by
  unfold handle at moved
  split at moved <;> cases moved
  · rename_i thrown
    exact .of_flow (.threw (by rw [at_]; rfl) _ thrown)
  · exact .stored at_

theorem create_moves (at_ : worker.pc = .creating) :
    Moves plan system choice worker system (worker.goto
      (match choice.throws with
        | some what => .unwinding what
        | none =>
            if choice.client then opened plan
            else .failing ("unsupported protocol: " ++ plan.protocol))) := by
  refine .of_flow ?_
  split
  · rename_i thrown
    exact .threw (by rw [at_]; rfl) _ thrown
  rw [at_]
  split
  · exact opened_cases plan _ .created .unusable
  · exact .unusable _

theorem move_moves (moved : worker.move plan system choice = some (after, next)) :
    Moves plan system choice worker after next := by
  cases at_ : worker.pc with
  | acquiring attempts =>
      simp only [move, at_] at moved
      exact acquire_moves at_ moved
  | serving =>
      simp only [move, at_] at moved
      exact serve_moves at_ moved
  | finished => simp only [move, at_, reduceCtorEq] at moved
  | choosing =>
      simp only [move, at_] at moved
      exact choose_moves at_ (Option.some.inj moved)
  | handling index =>
      simp only [move, at_] at moved
      exact handle_moves at_ (Option.some.inj moved)
  | resolving =>
      simp only [move, at_] at moved
      cases moved
      exact .of_noteError _ (at_ ▸ .resolved) ⟨rfl, rfl, rfl, rfl, rfl, rfl, rfl⟩
  | creating =>
      simp only [move, at_] at moved
      cases moved
      exact create_moves at_
  | failing message =>
      simp only [move, at_] at moved
      cases moved
      exact .counted _ (.inl ⟨⟨message, at_⟩, rfl⟩)
  | pacing =>
      simp only [move, at_] at moved
      cases moved
      refine .of_keeps ?_ ⟨rfl, rfl, rfl, rfl, rfl, rfl, rfl⟩
      exact .lapped (by rw [at_]; rfl)
  | loopTest =>
      simp only [move, at_] at moved
      cases moved
      refine .of_flow (at_ ▸ ?_)
      split
      · rename_i stopped
        exact .halted stopped
      · rename_i running
        exact .entered (Bool.eq_false_iff.mpr running)
  | deadlineTest =>
      simp only [move, at_] at moved
      cases moved
      exact takeSlot_moves at_
  | sleepClock | sleepStopped | spinClock | spinStopped =>
      simp only [move, at_] at moved
      cases moved
      refine .of_flow (.paced (by rw [at_]; rfl) ?_)
      split <;> rfl
  | slotDeadline =>
      simp only [move, at_] at moved
      cases moved
      refine .of_flow (at_ ▸ ?_)
      split
      · rename_i late
        exact .expired rfl late
      · exact .paced rfl rfl
  | consuming =>
      simp only [move, at_] at moved
      cases moved
      refine .flowed ?_ ?_ system.lastError _
      · rw [at_]
        dsimp only [goto]
        split
        · exact .paced rfl rfl
        · exact .lapped rfl
      · exact ⟨rfl, rfl, rfl, rfl, rfl, rfl, rfl⟩
  | issuing request =>
      simp only [move, at_] at moved
      split at moved <;> cases moved
      · rename_i thrown
        exact .of_flow (.threw (by rw [at_]; rfl) _ thrown)
      · exact .issued at_
  | doneTest =>
      simp only [move, at_] at moved
      cases moved
      refine .of_flow (at_ ▸ ?_)
      split
      · exact .waited
      · rename_i done
        exact .awaited (Bool.eq_false_iff.mpr done)
  | stopTest =>
      simp only [move, at_] at moved
      cases moved
      refine .of_flow (at_ ▸ ?_)
      split
      · rename_i stopped
        exact .interrupted stopped
      · exact .continued
  | leaving =>
      simp only [move, at_] at moved
      cases moved
      exact .judged at_
  | closing failed =>
      simp only [move, at_] at moved
      cases moved
      exact .closed (.inl ⟨failed, at_, rfl⟩)
  | unwinding what =>
      simp only [move, at_] at moved
      cases moved
      exact .closed (.inr ⟨what, at_, rfl⟩)
  | catching what =>
      simp only [move, at_] at moved
      cases moved
      exact .counted _ (.inr ⟨⟨what, at_⟩, rfl⟩)

end Inversion

end Worker

namespace System

/-- The main thread inside a stage. -/
inductive StageMoves (plan : Plan) (system : System) (run : StageRun) :
    StagePc → System → Prop
  | spawned {count : ℕ} (more : count < run.concurrency) :
      StageMoves plan system run (.spawning count)
        { system with
          workers := system.workers ++ [.spawned run count system.pool.isSome]
          main := .staging run (.spawning (count + 1)) }
  | allSpawned {count : ℕ} (complete : run.concurrency ≤ count) :
      StageMoves plan system run (.spawning count) (system.goto (.staging run .sampling))
  | sampled :
      StageMoves plan system run .sampling
        (system.goto (.staging { run with externallyStopped := system.stopped } .entering))
  | awaits (running : system.stopped = false) :
      StageMoves plan system run .entering (system.goto (.staging run .waitClock))
  | unawaited (unbounded : run.stageEnd = timePointMax ∨ system.stopped = true) :
      StageMoves plan system run .entering (system.goto (.staging run (.joining 0)))
  | waited {pc next : StagePc} (attends : pc.attends) (onward : next.attends) :
      StageMoves plan system run pc (system.goto (.staging run next))
  | sampledStopped (stopped : system.stopped = true) :
      StageMoves plan system run .samplingStopped
        (system.goto (.staging { run with externallyStopped := true } .stopping))
  | sampledRunning (running : system.stopped = false) :
      StageMoves plan system run .samplingStopped
        (system.goto (.staging run .samplingFailures))
  | sampledFailures :
      StageMoves plan system run .samplingFailures
        (system.goto (.staging
          { run with externallyStopped := decide (0 < system.workerFailures) } .stopping))
  | stopped :
      StageMoves plan system run .stopping
        { system with stopped := true, main := .staging run .stoppingIoc }
  | stoppedIoc :
      StageMoves plan system run .stoppingIoc
        (system.stopIoc.goto (.staging run (.joining 0)))
  | joined {count : ℕ} {worker : Worker} (more : count < run.concurrency)
      (found : system.workers[run.first + count]? = some worker)
      (ended : worker.ended = true) :
      StageMoves plan system run (.joining count)
        (system.goto (.staging run (.joining (count + 1))))
  | allJoined {count : ℕ} (complete : run.concurrency ≤ count) :
      StageMoves plan system run (.joining count) (system.goto (.staging run .deciding))
  | continues (more : run.index + 1 < plan.stages.length)
      (unstopped : run.externallyStopped = false) (healthy : system.workerFailures = 0) :
      StageMoves plan system run .deciding (system.goto (.staging run .restarting))
  | concludes (final : plan.stages.length ≤ run.index + 1 ∨
        run.externallyStopped = true ∨ system.workerFailures ≠ 0) :
      StageMoves plan system run .deciding (system.goto (.testing (run.index + 1)))
  | restarted :
      StageMoves plan system run .restarting
        { system with iocStopped := false, main := .staging run .clearing }
  | cleared :
      StageMoves plan system run .clearing
        { system with stopped := false, main := .testing (run.index + 1) }

/-- The main thread outside the stages. -/
inductive MainMoves (plan : Plan) (system : System) : Main → System → Prop
  | cleared :
      MainMoves plan system .starting { system with stopped := false, main := .publishing }
  | published :
      MainMoves plan system .publishing
        { system with activeIoc := true, iocStopped := false, main := .resetting }
  | reset :
      MainMoves plan system .resetting
        { system with workerFailures := 0, pool := plan.newPool, main := .readingCap }
  | capped :
      MainMoves plan system .readingCap
        { system with globalEnd := plan.globalEnd system.now, main := .testing 0 }
  | tested {index : ℕ} (more : index < plan.stages.length)
      (running : system.stopped = false) :
      MainMoves plan system (.testing index) (system.goto (.checkingCap index))
  | ended {index : ℕ} : MainMoves plan system (.testing index) (system.goto .finishing)
  | overran {index : ℕ} :
      MainMoves plan system (.checkingCap index) (system.goto .stoppingCap)
  | proceeded {index : ℕ} :
      MainMoves plan system (.checkingCap index) (system.goto (.rating index))
  | stoppedCap :
      MainMoves plan system .stoppingCap
        { system with stopped := true, main := .stoppingCapIoc }
  | stoppedCapIoc :
      MainMoves plan system .stoppingCapIoc (system.stopIoc.goto .finishing)
  | rated {index : ℕ} (targetRps : ℕ) (bucket : TokenBucket) :
      MainMoves plan system (.rating index)
        { system with targetRps := targetRps, bucket := bucket, main := .beginning index }
  | begun {index : ℕ} {stage : Stage} (found : plan.stages[index]? = some stage) :
      MainMoves plan system (.beginning index)
        (system.goto (.staging
          { index := index
            stageEnd := stage.endAt system.now system.globalEnd
            concurrency := plan.stageConcurrency stage
            first := system.workers.length
            externallyStopped := false } (.spawning 0)))
  | staged {run : StageRun} {pc : StagePc} {after : System}
      (moved : StageMoves plan system run pc after) :
      MainMoves plan system (.staging run pc) after
  | finished :
      MainMoves plan system .finishing
        { system with activeIoc := false, main := .returned }

section Inversion

variable {plan : Plan} {system after : System} {run : StageRun}

theorem stageStep_moves {pc : StagePc} (moved : system.stageStep plan run pc = some after) :
    StageMoves plan system run pc after := by
  cases pc with
  | spawning count =>
      simp only [stageStep] at moved
      split at moved <;> cases moved
      · rename_i more
        exact .spawned more
      · rename_i complete
        exact .allSpawned (Nat.le_of_not_lt complete)
  | sampling =>
      cases moved
      exact .sampled
  | entering =>
      cases moved
      split
      · rename_i bounded
        exact .awaits (Bool.eq_false_iff.mpr bounded.2)
      · rename_i unbounded
        refine .unawaited ?_
        by_contra neither
        push Not at neither
        exact unbounded neither
  | waitClock | waitStopped | waitFailures =>
      cases moved
      split <;> exact .waited rfl rfl
  | samplingStopped =>
      cases moved
      split
      · rename_i stopped
        exact .sampledStopped stopped
      · rename_i running
        exact .sampledRunning (Bool.eq_false_iff.mpr running)
  | samplingFailures =>
      cases moved
      exact .sampledFailures
  | stopping =>
      cases moved
      exact .stopped
  | stoppingIoc =>
      cases moved
      exact .stoppedIoc
  | joining count =>
      simp only [stageStep] at moved
      split at moved
      · rename_i more
        split at moved <;> cases moved
        rename_i ended
        obtain ⟨worker, found, finished⟩ := (Option.any_eq_true _ _).mp ended
        exact .joined more found finished
      · rename_i complete
        cases moved
        exact .allJoined (Nat.le_of_not_lt complete)
  | deciding =>
      cases moved
      split
      · rename_i onward
        exact .continues onward.1 (Bool.eq_false_iff.mpr onward.2.1) onward.2.2
      · rename_i final
        refine .concludes ?_
        by_contra neither
        push Not at neither
        exact final neither
  | restarting =>
      cases moved
      exact .restarted
  | clearing =>
      cases moved
      exact .cleared

theorem mainStep_moves (moved : system.mainStep plan = some after) :
    MainMoves plan system system.main after := by
  unfold mainStep at moved
  cases at_ : system.main with
  | testing index =>
      simp only [at_] at moved
      cases moved
      split
      · rename_i onward
        exact .tested onward.1 (Bool.eq_false_iff.mpr onward.2)
      · exact .ended
  | checkingCap index =>
      simp only [at_] at moved
      cases moved
      split
      · exact .overran
      · exact .proceeded
  | rating index =>
      simp only [at_] at moved
      obtain ⟨stage, found, result⟩ := Option.map_eq_some_iff.mp moved
      subst result
      split
      · exact .rated _ _
      · exact .rated system.targetRps system.bucket
  | beginning index =>
      simp only [at_] at moved
      obtain ⟨stage, found, result⟩ := Option.map_eq_some_iff.mp moved
      subst result
      exact .begun found
  | staging run pc =>
      simp only [at_] at moved
      exact .staged (stageStep_moves moved)
  | returned => simp only [at_, reduceCtorEq] at moved
  | _ =>
      simp only [at_] at moved
      cases moved
      constructor

/-- One step of the system, sorted by its effect. -/
inductive Moves (plan : Plan) (system : System) : Action → System → Prop
  | main {after : System} (moved : MainMoves plan system system.main after) :
      Moves plan system .main after
  | worker {index : ℕ} {choice : Choice} {worker next : Worker} {after : System}
      (found : system.workers[index]? = some worker)
      (moved : worker.Moves plan system choice after next) :
      Moves plan system (.worker index choice)
        { after with workers := after.workers.set index next }
  | stop :
      Moves plan system .stop
        { system with stopped := true, stopCalls := system.stopCalls + 1 }
  | stopIoc :
      Moves plan system .stopIoc { system.stopIoc with stopCalls := system.stopCalls - 1 }
  | tick {now : ℤ} (bounded : now < timePointMax) :
      Moves plan system (.tick now) { system with now := now }

theorem step_moves {action : Action} (taken : system.step plan action = some after) :
    Moves plan system action after := by
  cases action with
  | main => exact .main (mainStep_moves taken)
  | worker index choice =>
      obtain ⟨worker, found, moved⟩ := Option.bind_eq_some_iff.mp taken
      obtain ⟨result, stepped, rfl⟩ := Option.map_eq_some_iff.mp moved
      exact .worker found (Worker.move_moves stepped)
  | stop =>
      cases taken
      exact .stop
  | stopIoc =>
      simp only [step] at taken
      split at taken <;> cases taken
      exact .stopIoc
  | tick now =>
      simp only [step] at taken
      split at taken <;> cases taken
      rename_i onward
      exact .tick onward.2

end Inversion

end System

/-- What no step of a worker changes outside the worker. -/
structure System.Framed (before after : System) : Prop where
  stopped : after.stopped = before.stopped
  main : after.main = before.main
  workers : after.workers = before.workers
  now : after.now = before.now

namespace Worker

variable {plan : Plan} {system after : System} {choice : Choice} {worker next : Worker}

/-- `~ClientGuard` touches nothing but the pool. -/
theorem closeGuard_eq (plan : Plan) (system : System) (worker : Worker) :
    ∃ pool, worker.closeGuard plan system = { system with pool := pool } := by
  unfold closeGuard
  split
  · exact ⟨system.pool, rfl⟩
  · split
    · exact ⟨_, rfl⟩
    · exact ⟨system.pool, rfl⟩

theorem Moves.framed (moved : Moves plan system choice worker after next) :
    system.Framed after := by
  cases moved with
  | closed =>
      obtain ⟨pool, closedEq⟩ := closeGuard_eq plan system worker
      rw [closedEq]
      exact ⟨rfl, rfl, rfl, rfl⟩
  | _ => exact ⟨rfl, rfl, rfl, rfl⟩

theorem Moves.stage (moved : Moves plan system choice worker after next) :
    next.stage = worker.stage := by
  cases moved with
  | flowed flow keeps => exact keeps.stage
  | _ => rfl

theorem Moves.stageEnd (moved : Moves plan system choice worker after next) :
    next.stageEnd = worker.stageEnd := by
  cases moved with
  | flowed flow keeps => exact keeps.stageEnd
  | _ => rfl

end Worker

end Cppload.Engine

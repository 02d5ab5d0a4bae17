import Cppload.TokenBucket
import Cppload.Http11Client
import Cppload.ScenarioPlan

/-!
# The scenario engine

`ScenarioEngine::Impl::run` takes the load stages one after the other.  For each
stage its main thread spawns workers, waits for the stage's deadline, a stop or
a worker failure, joins the workers and decides whether another stage follows.
All threads share `stopped_`, `worker_failures_`, the connection pool, the token
bucket and one `io_context`, on which any worker may run the completion of any
other worker's request.  `stop` may be called by other threads at any time.

Each read or write of an atomic, each locked section and each clock reading is
one step; `target_rps_` and the bucket's settings, which only the main thread
changes and only while no worker runs, are read and written together with their
neighbours.  Workers stay in the state after their thread has ended, so that the
state records which stages have been started.
-/

namespace Cppload.Engine

/-- The point a worker's thread has reached.  `failed` tells a worker that has
been counted in `worker_failures_` from one that left its loop. -/
inductive WorkerPc where
  | resolving
  | acquiring (attempts : ℕ)
  | creating
  | failing (message : String)
  | pacing
  | loopTest
  | deadlineTest
  | sleepClock
  | sleepStopped
  | spinClock
  | spinStopped
  | slotDeadline
  | consuming
  | choosing
  | issuing (request : Http11.Request)
  | doneTest
  | stopTest
  | serving
  | handling (index : ℕ)
  | leaving
  | closing (failed : Bool)
  | unwinding (what : String)
  | catching (what : String)
  | finished (failed : Bool)
  deriving DecidableEq, Repr

/-- A worker thread: what its lambda captured, its `ClientGuard` and its locals.
`client` and `pool` are the guard's pooled client and whether its pool pointer is
set, `last` is the request that `last_done` belongs to.  `acquired` is not in the
source: the worker has got a client from the pool. -/
structure Worker where
  stage : ℕ
  stageEnd : ℤ
  concurrency : ℕ
  number : ℕ
  pc : WorkerPc
  client : Option ℕ := none
  pool : Bool := false
  drop : Bool := false
  acquired : Bool := false
  last : Option ℕ := none
  stepIx : ℕ := 0
  slotPeriod : ℤ := 0
  nextSlot : ℤ := 0
  firstSlot : Bool := true
  deriving DecidableEq, Repr

/-- A request given to `async_request`.  It is answered when its handler is
called, and done when the handler has stored `done`. -/
structure Issued where
  client : Option ℕ
  request : Http11.Request
  answered : Bool
  done : Bool
  deriving DecidableEq, Repr

/-- The locals of one pass through the stage loop.  `first` is the position of
the stage's first worker among all workers of the run. -/
structure StageRun where
  index : ℕ
  stageEnd : ℤ
  concurrency : ℕ
  first : ℕ
  externallyStopped : Bool
  deriving DecidableEq, Repr

inductive StagePc where
  | spawning (spawned : ℕ)
  | sampling
  | entering
  | waitClock
  | waitStopped
  | waitFailures
  | samplingStopped
  | samplingFailures
  | stopping
  | stoppingIoc
  | joining (joined : ℕ)
  | deciding
  | restarting
  | clearing
  deriving DecidableEq, Repr

inductive Main where
  | starting
  | publishing
  | resetting
  | readingCap
  | testing (index : ℕ)
  | checkingCap (index : ℕ)
  | stoppingCap
  | stoppingCapIoc
  | rating (index : ℕ)
  | beginning (index : ℕ)
  | staging (stage : StageRun) (pc : StagePc)
  | finishing
  | returned
  deriving DecidableEq, Repr

structure System where
  stopped : Bool
  activeIoc : Bool
  iocStopped : Bool
  /-- `stop` calls that have stored `stopped_` but not yet reached the lock. -/
  stopCalls : ℕ
  workerFailures : ℕ
  lastError : String
  targetRps : ℕ
  bucket : TokenBucket
  pool : Option ConnectionPool
  requests : List Issued
  now : ℤ
  globalEnd : ℤ
  main : Main
  workers : List Worker

/-- The members of an engine on which `run` is about to be called. -/
structure Outset where
  stopped : Bool
  workerFailures : ℕ
  lastError : String
  targetRps : ℕ
  bucket : TokenBucket
  now : ℤ
  now_lt : now < timePointMax

/-- A newly constructed engine. -/
def Outset.new : Outset where
  stopped := false
  workerFailures := 0
  lastError := ""
  targetRps := 100
  bucket := { rate := 100, burst := 100, tokens := 100, lastRefill := 0 }
  now := 0
  now_lt := by decide

def System.initial (outset : Outset) : System where
  stopped := outset.stopped
  activeIoc := false
  iocStopped := false
  stopCalls := 0
  workerFailures := outset.workerFailures
  lastError := outset.lastError
  targetRps := outset.targetRps
  bucket := outset.bucket
  pool := none
  requests := []
  now := outset.now
  globalEnd := timePointMax
  main := .starting
  workers := []

/-- What the outside world decides in a worker's step: whether the code it calls
throws, what the protocol factory and the auth provider give, the random draw,
whether the client calls the handler before `async_request` returns, and which
request's completion `run_one` executes. -/
structure Choice where
  throws : Option String := none
  client : Bool := true
  pick : ℕ := 0
  headers : Option (List (String × String)) := none
  immediate : Bool := false
  completes : Option ℕ := none
  deriving DecidableEq, Repr

/-! ## Workers -/

/-- `worker_failures_.fetch_add(1)`. -/
def System.countFailure (system : System) (message : String) : System :=
  { system with
    workerFailures := (system.workerFailures + 1) % 2 ^ 32
    lastError := message }

def System.noteError (system : System) : Option String → System
  | none => system
  | some message => { system with lastError := message }

/-- `fail_worker` keeps the first error. -/
def System.failWorker (system : System) (message : String) : System :=
  system.countFailure (if system.lastError.isEmpty then message else system.lastError)

namespace Worker

/-- A new worker of a stage; it takes its client from the pool if there is one. -/
def spawned (run : StageRun) (number : ℕ) (pooled : Bool) : Worker where
  stage := run.index
  stageEnd := run.stageEnd
  concurrency := run.concurrency
  number := number
  pc := if pooled then .resolving else .creating

def goto (worker : Worker) (pc : WorkerPc) : Worker :=
  { worker with pc := pc }

/-- The thread has ended and can be joined. -/
def ended (worker : Worker) : Bool :=
  match worker.pc with
  | .finished _ => true
  | _ => false

/-- Where a worker goes once it has a client. -/
def opened (plan : Plan) : WorkerPc :=
  if plan.anySteps then .pacing
  else .failing "scenario configuration has no steps to execute"

/-- One attempt of the acquire loop; `kAcquireAttempts` is 200. -/
def acquire (plan : Plan) (system : System) (worker : Worker) (attempts : ℕ) :
    Option (System × Worker) :=
  system.pool.map fun pool =>
    let result := pool.acquire plan.endpoint.host plan.endpoint.port
    ({ system with pool := some result.2 },
      match result.1 with
      | some client =>
          -- The worker sets the guard's host and port, and not its pool.
          { worker with client := some client, acquired := true, pc := opened plan }
      | none =>
          if attempts + 1 < 200 then worker.goto (.acquiring (attempts + 1))
          else worker.goto
            (.failing ("connection pool exhausted for " ++ plan.endpoint.host)))

/-- The loop body from the clock reading to the first wait. -/
def takeSlot (system : System) (worker : Worker) : Worker :=
  if worker.stageEnd ≤ system.now then worker.goto .leaving
  else if worker.firstSlot then { worker with firstSlot := false, pc := .consuming }
  else
    let nextSlot := wrap64 (worker.nextSlot + worker.slotPeriod)
    { worker with
      nextSlot := nextSlot
      pc :=
        if system.now < nextSlot then
          if spinTime < nextSlot - system.now then .sleepClock else .spinClock
        else .consuming }

/-- The choice of the next step and the request made of it.  The auth provider
is asked last and may throw. -/
def choose (plan : Plan) (system : System) (choice : Choice) (worker : Worker) :
    System × Worker :=
  match pickWeightedScenario plan.scenarios choice.pick with
  | none => (system, worker.goto .loopTest)
  | some scenario =>
      match scenario.steps[worker.stepIx % scenario.steps.length]? with
      | none => (system, worker.goto .loopTest)
      | some step =>
          let resolved := resolveUrl plan.stoul plan.baseUrl step.useTls
          let request : Http11.Request :=
            { method := step.method, path := step.path, body := step.body
              headers := choice.headers.getD step.headers
              host := resolved.host, port := resolved.port, useTls := resolved.useTls }
          (system.noteError resolved.error,
            { worker with
              stepIx := (worker.stepIx + 1) % 2 ^ 64
              pc :=
                match choice.throws with
                | some what => .unwinding what
                | none => .issuing request })

/-- `async_request` that accepts its request, up to its return or to the handler it
calls itself. -/
def issue (system : System) (choice : Choice) (worker : Worker)
    (request : Http11.Request) : System × Worker :=
  ({ system with
      requests := system.requests ++
        [{ client := worker.client, request := request
           answered := choice.immediate, done := false }] },
    { worker with
      last := some system.requests.length
      pc := if choice.immediate then .handling system.requests.length else .doneTest })

/-- `last_done && !last_done->load()`. -/
def lastUndone (system : System) (worker : Worker) : Bool :=
  match worker.last with
  | none => false
  | some index => !(system.requests[index]?.any Issued.done)

/-- `run_one`: nothing on a stopped context, else one completion, which may or may
not be the last one of some request. -/
def serve (system : System) (choice : Choice) (worker : Worker) :
    Option (System × Worker) :=
  match choice.completes with
  | none => some (system, worker.goto .doneTest)
  | some index =>
      system.requests[index]?.bind fun issued =>
        if system.iocStopped || issued.answered then none
        else
          some
            ({ system with
                requests := system.requests.set index { issued with answered := true } },
              worker.goto (.handling index))

/-- The rest of the handler: its callback throws, or it stores `done`. -/
def handle (system : System) (choice : Choice) (worker : Worker) (index : ℕ) :
    System × Worker :=
  match choice.throws with
  | some what => (system, worker.goto (.unwinding what))
  | none =>
      ({ system with
          requests := system.requests.modify index fun issued => { issued with done := true } },
        worker.goto .doneTest)

/-- `~ClientGuard`: a client that is not released is destroyed. -/
def closeGuard (plan : Plan) (system : System) (worker : Worker) : System :=
  match worker.client with
  | none => system
  | some client =>
      if worker.pool && !worker.drop then
        { system with
          pool := system.pool.map fun pool =>
            pool.release client plan.endpoint.host plan.endpoint.port system.now }
      else system

/-- One step of a worker's thread. -/
def move (plan : Plan) (system : System) (choice : Choice) (worker : Worker) :
    Option (System × Worker) :=
  match worker.pc with
  | .resolving =>
      some (system.noteError plan.endpoint.error, worker.goto (.acquiring 0))
  | .acquiring attempts => worker.acquire plan system attempts
  | .creating =>
      some (system, worker.goto
        (match choice.throws with
          | some what => .unwinding what
          | none =>
              if choice.client then opened plan
              else .failing ("unsupported protocol: " ++ plan.protocol)))
  | .failing message => some (system.failWorker message, worker.goto (.closing true))
  | .pacing =>
      -- The load of `target_rps_` and the clock reading behind `next_slot`.
      let period := Engine.slotPeriod worker.concurrency system.targetRps
      some (system,
        { worker with
          slotPeriod := period
          nextSlot := firstSlotAt system.now period worker.number worker.concurrency
          pc := .loopTest })
  | .loopTest =>
      some (system, worker.goto (if system.stopped then .leaving else .deadlineTest))
  | .deadlineTest => some (system, worker.takeSlot system)
  | .sleepClock =>
      some (system, worker.goto
        (if system.now < worker.nextSlot - spinTime then .sleepStopped else .spinClock))
  | .sleepStopped =>
      some (system, worker.goto (if system.stopped then .spinClock else .sleepClock))
  | .spinClock =>
      some (system, worker.goto
        (if system.now < worker.nextSlot then .spinStopped else .slotDeadline))
  | .spinStopped =>
      some (system, worker.goto (if system.stopped then .slotDeadline else .spinClock))
  | .slotDeadline =>
      some (system, worker.goto
        (if worker.stageEnd ≤ system.now then .leaving else .consuming))
  | .consuming =>
      let result := system.bucket.tryConsume system.now
      some ({ system with bucket := result.2 },
        worker.goto (if result.1 then .choosing else .loopTest))
  | .choosing => some (worker.choose plan system choice)
  | .issuing request =>
      match choice.throws with
      | some what => some (system, worker.goto (.unwinding what))
      | none => some (worker.issue system choice request)
  | .doneTest =>
      some (system, worker.goto
        (if worker.lastUndone system then .stopTest else .loopTest))
  | .stopTest =>
      some (system, worker.goto (if system.stopped then .loopTest else .serving))
  | .serving => worker.serve system choice
  | .handling index => some (worker.handle system choice index)
  | .leaving =>
      some (system, { worker with drop := worker.lastUndone system, pc := .closing false })
  | .closing failed =>
      some (worker.closeGuard plan system,
        { worker with client := none, pc := .finished failed })
  | .unwinding what =>
      some (worker.closeGuard plan system,
        { worker with client := none, pc := .catching what })
  | .catching what =>
      some (system.countFailure ("worker thread error: " ++ what),
        worker.goto (.finished true))
  | .finished _ => none

end Worker

/-! ## The main thread -/

namespace System

def goto (system : System) (main : Main) : System :=
  { system with main := main }

/-- `if (active_ioc_) active_ioc_->stop()`. -/
def stopIoc (system : System) : System :=
  { system with iocStopped := system.activeIoc || system.iocStopped }

/-- `set_target_rps`. -/
def setTargetRps (system : System) (rps : ℕ) : System :=
  let rate : ℚ := if 0 < rps then rps else 100
  { system with
    targetRps := if 0 < rps then rps else 100
    bucket := (system.bucket.setRate system.now rate).setBurst system.now (max 100 rate) }

/-- The main thread's steps inside a stage. -/
def stageStep (plan : Plan) (system : System) (run : StageRun) : StagePc → Option System
  | .spawning spawned =>
      if spawned < run.concurrency then
        some
          { system with
            workers := system.workers ++ [.spawned run spawned system.pool.isSome]
            main := .staging run (.spawning (spawned + 1)) }
      else some (system.goto (.staging run .sampling))
  | .sampling =>
      some (system.goto (.staging { run with externallyStopped := system.stopped } .entering))
  | .entering =>
      -- A stage without a deadline is not waited for: its workers are joined.
      some (system.goto (.staging run
        (if run.stageEnd ≠ timePointMax ∧ ¬system.stopped then .waitClock else .joining 0)))
  | .waitClock =>
      some (system.goto (.staging run
        (if system.now < run.stageEnd then .waitStopped else .samplingStopped)))
  | .waitStopped =>
      some (system.goto (.staging run
        (if system.stopped then .samplingStopped else .waitFailures)))
  | .waitFailures =>
      some (system.goto (.staging run
        (if system.workerFailures = 0 then .waitClock else .samplingStopped)))
  | .samplingStopped =>
      some (system.goto
        (if system.stopped then .staging { run with externallyStopped := true } .stopping
          else .staging run .samplingFailures))
  | .samplingFailures =>
      some (system.goto
        (.staging { run with externallyStopped := decide (0 < system.workerFailures) } .stopping))
  | .stopping =>
      some { system with stopped := true, main := .staging run .stoppingIoc }
  | .stoppingIoc => some (system.stopIoc.goto (.staging run (.joining 0)))
  | .joining joined =>
      if joined < run.concurrency then
        if system.workers[run.first + joined]?.any Worker.ended then
          some (system.goto (.staging run (.joining (joined + 1))))
        else none
      else some (system.goto (.staging run .deciding))
  | .deciding =>
      some (system.goto
        (if run.index + 1 < plan.stages.length ∧ ¬run.externallyStopped ∧
            system.workerFailures = 0 then .staging run .restarting
          else .testing (run.index + 1)))
  | .restarting =>
      some { system with iocStopped := false, main := .staging run .clearing }
  | .clearing => some { system with stopped := false, main := .testing (run.index + 1) }

/-- One step of the thread that called `run`. -/
def mainStep (plan : Plan) (system : System) : Option System :=
  match system.main with
  | .starting => some { system with stopped := false, main := .publishing }
  | .publishing =>
      some { system with activeIoc := true, iocStopped := false, main := .resetting }
  | .resetting =>
      some { system with workerFailures := 0, pool := plan.newPool, main := .readingCap }
  | .readingCap =>
      some { system with globalEnd := plan.globalEnd system.now, main := .testing 0 }
  | .testing index =>
      some (system.goto
        (if index < plan.stages.length ∧ ¬system.stopped then .checkingCap index
          else .finishing))
  | .checkingCap index =>
      some (system.goto
        (if system.globalEnd ≤ system.now then .stoppingCap else .rating index))
  | .stoppingCap => some { system with stopped := true, main := .stoppingCapIoc }
  | .stoppingCapIoc => some (system.stopIoc.goto .finishing)
  | .rating index =>
      plan.stages[index]?.map fun stage =>
        (if 0 < stage.targetRps then system.setTargetRps stage.targetRps else system).goto
          (.beginning index)
  | .beginning index =>
      plan.stages[index]?.map fun stage =>
        system.goto (.staging
          { index := index
            stageEnd := stage.endAt system.now system.globalEnd
            concurrency := plan.stageConcurrency stage
            first := system.workers.length
            externallyStopped := false } (.spawning 0))
  | .staging run pc => system.stageStep plan run pc
  | .finishing => some { system with activeIoc := false, main := .returned }
  | .returned => none

/-- `run_failed`. -/
def runFailed (system : System) : Bool :=
  0 < system.workerFailures

/-! ## The system -/

/-- One step of one thread, or the clock moves on.  `stop` and `stopIoc` are the
two halves of `stop()` on some other thread. -/
inductive Action where
  | main
  | worker (index : ℕ) (choice : Choice)
  | stop
  | stopIoc
  | tick (now : ℤ)

def step (plan : Plan) (system : System) : Action → Option System
  | .main => system.mainStep plan
  | .worker index choice =>
      system.workers[index]?.bind fun worker =>
        (worker.move plan system choice).map fun result =>
          { result.1 with workers := result.1.workers.set index result.2 }
  | .stop => some { system with stopped := true, stopCalls := system.stopCalls + 1 }
  | .stopIoc =>
      if 0 < system.stopCalls then
        some { system.stopIoc with stopCalls := system.stopCalls - 1 }
      else none
  | .tick now =>
      if system.now ≤ now ∧ now < timePointMax then some { system with now := now } else none

end System

end Cppload.Engine

import Cppload.StageClock
import Cppload.TokenBucketRateBound
import Cppload.Roster

/-!
# Direct mode

Without a configuration file the command line tool runs its own load loop, `run_direct`.
Each of its threads has an `io_context` and a client, waits for its next slot, takes a
token and sends one request, whose completion it then runs itself.  The loop ends at the
deadline or when a signal has set `g_stop_requested`; a thread that left it gives up its
work guard and runs its context dry before it returns.

As in the engine each read or write of the flag, each clock reading and each locked section
is one step.  What only prints (the watcher, verbose output) is left out, and so are the
spans, whose calls appear as the part of the handler that may throw.
-/

namespace Cppload.Direct

open Transition
open Engine (wrap64 timePointMax slotPeriod firstSlotAt spinTime Fits64)

/-- The numbers of the command line, as `parse_args` accepts them. -/
structure Args where
  rps : ℕ
  duration : ℕ
  rps_pos : 1 ≤ rps
  rps_le : rps ≤ 1000000
  duration_le : duration ≤ 315360000

namespace Args

/-- The number of threads. -/
def concurrency (args : Args) : ℕ :=
  let shared := min (args.rps / 10) 64
  let raised := if shared = 0 then 1 else shared
  if 100000 < raised then 100000 else raised

/-- `end`, which is never reached when the duration is 0. -/
def endAt (args : Args) (now : ℤ) : ℤ :=
  if 0 < args.duration then wrap64 (now + args.duration * 1000000000) else timePointMax

def period (args : Args) : ℤ :=
  slotPeriod args.concurrency args.rps

end Args

/-- The point a thread has reached.  In `handling` it runs the rest of a completion
handler, inside `run_one` or, with `drains`, inside the last `run`. -/
inductive WorkerPc where
  | starting
  | loopTest
  | deadlineTest
  | sleepClock
  | sleepStopped
  | spinClock
  | spinStopped
  | slotDeadline
  | consuming
  | preparing
  | issuing
  | doneTest
  | stopTest
  | serving
  | handling (drains : Bool)
  | draining
  | catching
  | finished (failed : Bool)
  deriving DecidableEq, Repr

/-- A thread.  `done` is the flag of its last request.  Not in the source are `origin`, the
first value of `next_slot`, and the counts of the slots begun, the requests given to
`async_request` and the responses recorded. -/
structure Worker where
  number : ℕ
  pc : WorkerPc
  slotPeriod : ℤ
  nextSlot : ℤ
  firstSlot : Bool
  done : Bool
  origin : ℤ
  slots : ℕ
  issued : ℕ
  recorded : ℕ
  deriving DecidableEq, Repr

/-- The thread that called `run_direct`, from the first `join` on. -/
inductive Main where
  | joining (joined : ℕ)
  | stopping
  | returned
  deriving DecidableEq, Repr

structure System where
  stopped : Bool
  now : ℤ
  endAt : ℤ
  bucket : TokenBucket
  failures : ℕ
  workers : List Worker
  main : Main
  deriving DecidableEq, Repr

/-- What the outside world decides in a step of a thread: whether code that is not part
of the loop throws, and whether the handler of the request is called. -/
structure Choice where
  throws : Bool
  completes : Bool
  deriving DecidableEq, Repr

namespace Worker

def spawned (number : ℕ) : Worker where
  number := number
  pc := .starting
  slotPeriod := 0
  nextSlot := 0
  firstSlot := true
  done := true
  origin := 0
  slots := 0
  issued := 0
  recorded := 0

def goto (worker : Worker) (pc : WorkerPc) : Worker :=
  { worker with pc := pc }

def ended (worker : Worker) : Bool :=
  match worker.pc with
  | .finished _ => true
  | _ => false

/-- The first values of the locals. -/
def begin (args : Args) (now : ℤ) (worker : Worker) : Worker :=
  let first := firstSlotAt now args.period worker.number args.concurrency
  { worker with
    slotPeriod := args.period
    nextSlot := first
    origin := first
    pc := .loopTest }

/-- The loop body from its first clock reading to the wait. -/
def takeSlot (system : System) (worker : Worker) : Worker :=
  if system.endAt ≤ system.now then worker.goto .draining
  else if worker.firstSlot then
    { worker with firstSlot := false, slots := worker.slots + 1, pc := .consuming }
  else
    let nextSlot := wrap64 (worker.nextSlot + worker.slotPeriod)
    { worker with
      nextSlot := nextSlot
      slots := worker.slots + 1
      pc :=
        if system.now < nextSlot then
          if spinTime < nextSlot - system.now then .sleepClock else .spinClock
        else .consuming }

/-- The completion handler records the response first. -/
def complete (worker : Worker) (drains : Bool) : Worker :=
  { worker with recorded := worker.recorded + 1, pc := .handling drains }

/-- `async_request`, which may call the handler before it returns. -/
def issue (worker : Worker) (immediate : Bool) : Worker :=
  let given := { worker with issued := worker.issued + 1, done := false, pc := .doneTest }
  if immediate then given.complete false else given

/-- One step of a thread. -/
def move (args : Args) (system : System) (choice : Choice) (worker : Worker) :
    Option (System × Worker) :=
  match worker.pc with
  | .starting =>
      some (system,
        if choice.throws then worker.goto .catching else worker.begin args system.now)
  | .loopTest =>
      some (system, worker.goto (if system.stopped then .draining else .deadlineTest))
  | .deadlineTest => some (system, worker.takeSlot system)
  | .sleepClock =>
      some (system, worker.goto
        (if system.now < worker.nextSlot - spinTime then .sleepStopped else .spinClock))
  | .sleepStopped =>
      some (system, worker.goto (if system.stopped then .spinClock else .sleepClock))
  | .spinClock =>
      some (system, worker.goto
        (if system.now < worker.nextSlot then .spinStopped else .slotDeadline))
  | .spinStopped =>
      some (system, worker.goto (if system.stopped then .slotDeadline else .spinClock))
  | .slotDeadline =>
      some (system, worker.goto (if system.endAt ≤ system.now then .draining else .consuming))
  | .consuming =>
      let attempt := system.bucket.tryConsume system.now
      some ({ system with bucket := attempt.2 },
        worker.goto (if attempt.1 then .preparing else .loopTest))
  | .preparing =>
      -- the auth provider may throw
      some (system, worker.goto (if choice.throws then .catching else .issuing))
  | .issuing => some (system, worker.issue choice.completes)
  | .doneTest => some (system, worker.goto (if worker.done then .loopTest else .stopTest))
  | .stopTest =>
      some (system, worker.goto (if system.stopped then .loopTest else .serving))
  | .serving =>
      -- `run_one` returns after one handler, which may or may not be the last of the request
      if choice.throws then some (system, worker.goto .catching)
      else if choice.completes then
        if worker.recorded < worker.issued then some (system, worker.complete false) else none
      else some (system, worker.goto .doneTest)
  | .handling drains =>
      some (system,
        if choice.throws then worker.goto .catching
        else { worker with done := true, pc := if drains then .draining else .doneTest })
  | .draining =>
      -- without a work guard `run` returns when no operation is left
      if worker.recorded < worker.issued then
        if choice.throws then some (system, worker.goto .catching)
        else if choice.completes then some (system, worker.complete true)
        else some (system, worker)
      else some (system, worker.goto (.finished false))
  | .catching =>
      some ({ system with failures := system.failures + 1 }, worker.goto (.finished true))
  | .finished _ => none

end Worker

namespace System

/-- `run_direct` when its threads have been made.  The bucket holds a second's requests,
and a hundred at least. -/
def start (args : Args) (now : ℤ) : Option System :=
  (TokenBucket.create args.rps (max 100 args.rps) now).map fun bucket =>
    { stopped := false
      now := now
      endAt := args.endAt now
      bucket := bucket
      failures := 0
      workers := (List.range args.concurrency).map Worker.spawned
      main := .joining 0 }

/-- One step of one thread, a signal, or the clock moves on. -/
inductive Action where
  | main
  | worker (index : ℕ) (choice : Choice)
  | signal
  | tick (now : ℤ)
  deriving DecidableEq, Repr

def mainStep (system : System) : Option System :=
  match system.main with
  | .joining joined =>
      if joined < system.workers.length then
        if system.workers[joined]?.any Worker.ended then
          some { system with main := .joining (joined + 1) }
        else none
      else some { system with main := .stopping }
  | .stopping => some { system with stopped := true, main := .returned }
  | .returned => none

def step (args : Args) (system : System) : Action → Option System
  | .main => system.mainStep
  | .worker index choice =>
      system.workers[index]?.bind fun worker =>
        (worker.move args system choice).map fun result =>
          { result.1 with workers := result.1.workers.set index result.2 }
  | .signal => some { system with stopped := true }
  | .tick now =>
      if system.now ≤ now ∧ now < timePointMax then some { system with now := now } else none

end System

/-! ## What a thread can do -/

namespace WorkerPc

/-- The thread waits for its slot. -/
def waits : WorkerPc → Bool
  | .sleepClock | .sleepStopped | .spinClock | .spinStopped => true
  | _ => false

/-- Code that is not part of the loop runs and may throw. -/
def throws : WorkerPc → Bool
  | .starting | .preparing | .serving | .handling _ | .draining => true
  | _ => false

end WorkerPc

namespace Worker

variable {args : Args} {system next : System} {worker after : Worker}

/-- The steps of a thread by their effect. -/
inductive Moves (args : Args) (system : System) (worker : Worker) : System → Worker → Prop
  | began (located : worker.pc = .starting) :
      Moves args system worker system (worker.begin args system.now)
  | threw (throws : worker.pc.throws) : Moves args system worker system (worker.goto .catching)
  | counted (located : worker.pc = .catching) :
      Moves args system worker { system with failures := system.failures + 1 }
        (worker.goto (.finished true))
  | entered (located : worker.pc = .loopTest) (running : system.stopped = false) :
      Moves args system worker system (worker.goto .deadlineTest)
  | halted (located : worker.pc = .loopTest) (stopped : system.stopped = true) :
      Moves args system worker system (worker.goto .draining)
  | expired (located : worker.pc = .deadlineTest ∨ worker.pc = .slotDeadline) :
      Moves args system worker system (worker.goto .draining)
  | opened (located : worker.pc = .deadlineTest) (first : worker.firstSlot = true) :
      Moves args system worker system
        { worker with firstSlot := false, slots := worker.slots + 1, pc := .consuming }
  | advanced {pc : WorkerPc} (located : worker.pc = .deadlineTest)
      (later : worker.firstSlot = false)
      (reached : pc.waits ∨
        pc = .consuming ∧ wrap64 (worker.nextSlot + worker.slotPeriod) ≤ system.now) :
      Moves args system worker system
        { worker with
          nextSlot := wrap64 (worker.nextSlot + worker.slotPeriod)
          slots := worker.slots + 1
          pc := pc }
  | waited {pc : WorkerPc} (waits : worker.pc.waits) (reached : pc.waits) :
      Moves args system worker system (worker.goto pc)
  | woke (waits : worker.pc.waits) (due : worker.nextSlot ≤ system.now ∨ system.stopped = true) :
      Moves args system worker system (worker.goto .slotDeadline)
  | punctual (located : worker.pc = .slotDeadline) :
      Moves args system worker system (worker.goto .consuming)
  | granted (located : worker.pc = .consuming)
      (enough : 1 ≤ (system.bucket.refill system.now).tokens) :
      Moves args system worker
        { system with bucket := (system.bucket.refill system.now).take }
        (worker.goto .preparing)
  | denied (located : worker.pc = .consuming) :
      Moves args system worker { system with bucket := system.bucket.refill system.now }
        (worker.goto .loopTest)
  | prepared (located : worker.pc = .preparing) :
      Moves args system worker system (worker.goto .issuing)
  | issued (immediate : Bool) (located : worker.pc = .issuing) :
      Moves args system worker system (worker.issue immediate)
  | answered (located : worker.pc = .doneTest) (done : worker.done = true) :
      Moves args system worker system (worker.goto .loopTest)
  | unanswered (located : worker.pc = .doneTest) :
      Moves args system worker system (worker.goto .stopTest)
  | interrupted (located : worker.pc = .stopTest) (stopped : system.stopped = true) :
      Moves args system worker system (worker.goto .loopTest)
  | continued (located : worker.pc = .stopTest) (running : system.stopped = false) :
      Moves args system worker system (worker.goto .serving)
  | served (located : worker.pc = .serving) :
      Moves args system worker system (worker.goto .doneTest)
  | completed {drains : Bool}
      (located : worker.pc = if drains then .draining else .serving)
      (outstanding : worker.recorded < worker.issued) :
      Moves args system worker system (worker.complete drains)
  | handled {drains : Bool} (located : worker.pc = .handling drains) :
      Moves args system worker system
        { worker with done := true, pc := if drains then .draining else .doneTest }
  | pumped (located : worker.pc = .draining) : Moves args system worker system worker
  | drained (located : worker.pc = .draining) (idle : worker.issued ≤ worker.recorded) :
      Moves args system worker system (worker.goto (.finished false))

theorem takeSlot_moves (located : worker.pc = .deadlineTest) :
    Moves args system worker system (worker.takeSlot system) := by
  unfold takeSlot
  split
  · exact .expired (.inl located)
  · split
    · rename_i first
      exact .opened located first
    · rename_i later
      refine .advanced located (by simpa using later) ?_
      by_cases early : system.now < wrap64 (worker.nextSlot + worker.slotPeriod)
      · rw [if_pos early]
        exact .inl (by split <;> rfl)
      · rw [if_neg early]
        exact .inr ⟨rfl, not_lt.mp early⟩

theorem consuming_moves (located : worker.pc = .consuming) :
    Moves args system worker
      { system with bucket := (system.bucket.tryConsume system.now).2 }
      (worker.goto
        (if (system.bucket.tryConsume system.now).1 then .preparing else .loopTest)) := by
  by_cases short : (system.bucket.refill system.now).tokens < 1
  · simp only [TokenBucket.tryConsume, if_pos short, Bool.false_eq_true, if_false]
    exact .denied located
  · simp only [TokenBucket.tryConsume, if_neg short, if_true]
    exact .granted located (not_lt.mp short)

/-- Every step of a thread has one of these effects. -/
theorem moves_of_move {choice : Choice}
    (moved : worker.move args system choice = some (next, after)) :
    Moves args system worker next after := by
  have throwing (throws : worker.pc.throws) :
      Moves args system worker system (worker.goto .catching) := .threw throws
  have waiting {pc : WorkerPc} (waits : worker.pc.waits) (reached : pc.waits) :
      Moves args system worker system (worker.goto pc) := .waited waits reached
  cases located : worker.pc with
  | starting =>
      simp only [move, located] at moved
      cases moved
      split
      · exact throwing (by rw [located]; rfl)
      · exact .began located
  | loopTest =>
      simp only [move, located] at moved
      cases moved
      cases stopped : system.stopped with
      | true => exact .halted located stopped
      | false => exact .entered located stopped
  | deadlineTest =>
      simp only [move, located] at moved
      cases moved
      exact takeSlot_moves located
  | sleepClock | sleepStopped =>
      simp only [move, located] at moved
      cases moved
      exact waiting (by rw [located]; rfl) (by split <;> rfl)
  | spinClock =>
      simp only [move, located] at moved
      cases moved
      by_cases early : system.now < worker.nextSlot
      · rw [if_pos early]
        exact waiting (by rw [located]; rfl) rfl
      · rw [if_neg early]
        exact .woke (by rw [located]; rfl) (.inl (not_lt.mp early))
  | spinStopped =>
      simp only [move, located] at moved
      cases moved
      cases stopped : system.stopped with
      | true => exact .woke (by rw [located]; rfl) (.inr stopped)
      | false => exact waiting (by rw [located]; rfl) rfl
  | slotDeadline =>
      simp only [move, located] at moved
      cases moved
      split
      · exact .expired (.inr located)
      · exact .punctual located
  | consuming =>
      simp only [move, located] at moved
      cases moved
      exact consuming_moves located
  | preparing =>
      simp only [move, located] at moved
      cases moved
      split
      · exact throwing (by rw [located]; rfl)
      · exact .prepared located
  | issuing =>
      simp only [move, located] at moved
      cases moved
      exact .issued _ located
  | doneTest =>
      simp only [move, located] at moved
      cases moved
      cases done : worker.done with
      | true => exact .answered located done
      | false => exact .unanswered located
  | stopTest =>
      simp only [move, located] at moved
      cases moved
      cases stopped : system.stopped with
      | true => exact .interrupted located stopped
      | false => exact .continued located stopped
  | serving =>
      simp only [move, located] at moved
      split at moved
      · cases moved
        exact throwing (by rw [located]; rfl)
      · split at moved
        · obtain ⟨outstanding, moved⟩ := Option.ite_none_right_eq_some.mp moved
          cases moved
          exact .completed located outstanding
        · cases moved
          exact .served located
  | handling drains =>
      simp only [move, located] at moved
      cases moved
      split
      · exact throwing (by rw [located]; rfl)
      · exact .handled located
  | draining =>
      simp only [move, located] at moved
      split at moved
      · rename_i outstanding
        split at moved
        · cases moved
          exact throwing (by rw [located]; rfl)
        · split at moved
          · cases moved
            exact .completed located outstanding
          · cases moved
            exact .pumped located
      · rename_i idle
        cases moved
        exact .drained located (not_lt.mp idle)
  | catching =>
      simp only [move, located] at moved
      cases moved
      exact .counted located
  | finished failed =>
      simp only [move, located] at moved
      cases moved

/-- A thread changes nothing of the system but the bucket and the failures. -/
theorem Moves.frame (moves : Moves args system worker next after) :
    next.stopped = system.stopped ∧ next.now = system.now ∧ next.endAt = system.endAt ∧
      next.workers = system.workers ∧ next.main = system.main ∧ after.number = worker.number := by
  cases moves with
  | issued immediate => cases immediate <;> exact ⟨rfl, rfl, rfl, rfl, rfl, rfl⟩
  | _ => exact ⟨rfl, rfl, rfl, rfl, rfl, rfl⟩

end Worker

namespace System

variable {args : Args} {system after : System}

/-- A step of the system is one of the main thread, of one other thread, a signal or a
tick. -/
inductive Steps (args : Args) (system : System) : System → Prop
  | joins {joined : ℕ} {worker : Worker} (main : system.main = .joining joined)
      (found : system.workers[joined]? = some worker) (ended : worker.ended = true) :
      Steps args system { system with main := .joining (joined + 1) }
  | joinedAll {joined : ℕ} (main : system.main = .joining joined)
      (all : system.workers.length ≤ joined) : Steps args system { system with main := .stopping }
  | returns (main : system.main = .stopping) :
      Steps args system { system with stopped := true, main := .returned }
  | moves {index : ℕ} {worker next : Worker} {shared : System}
      (found : system.workers[index]? = some worker)
      (moves : worker.Moves args system shared next) :
      Steps args system { shared with workers := system.workers.set index next }
  | signals : Steps args system { system with stopped := true }
  | ticks {now : ℤ} (later : system.now ≤ now) : Steps args system { system with now := now }

theorem steps_of_step {action : Action} (taken : system.step args action = some after) :
    Steps args system after := by
  cases action with
  | main =>
      simp only [step, mainStep] at taken
      split at taken
      · rename_i joined main
        split at taken
        · obtain ⟨any, taken⟩ := Option.ite_none_right_eq_some.mp taken
          obtain ⟨worker, found, ended⟩ := (Option.any_eq_true _ _).mp any
          cases taken
          exact .joins main found ended
        · rename_i all
          cases taken
          exact .joinedAll main (not_lt.mp all)
      · rename_i main
        cases taken
        exact .returns main
      · cases taken
  | worker index choice =>
      obtain ⟨worker, found, taken⟩ := Option.bind_eq_some_iff.mp taken
      obtain ⟨⟨shared, next⟩, moved, rfl⟩ := Option.map_eq_some_iff.mp taken
      have moves := Worker.moves_of_move moved
      rw [moves.frame.2.2.2.1]
      exact .moves found moves
  | signal =>
      cases taken
      exact .signals
  | tick now =>
      obtain ⟨⟨later, -⟩, taken⟩ := Option.ite_none_right_eq_some.mp taken
      cases taken
      exact .ticks later

end System

end Cppload.Direct

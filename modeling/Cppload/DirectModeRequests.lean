import Cppload.DirectMode

/-!
# Requests in direct mode

A thread of `run_direct` leaves its waiting loop when the flag is set, also with a request
under way, but it then runs its context until the handler has been called.  Here is what
this gives for the requests and the recorded responses of a whole run, with the exceptions
that end a thread.
-/

namespace Cppload.Direct

open Transition

/-! ## Requests and responses -/

namespace WorkerPc

/-- No request of the thread is under way here. -/
def quiet : WorkerPc → Bool
  | .doneTest | .stopTest | .serving | .loopTest | .draining | .catching | .finished true => false
  | _ => true

theorem quiet_of_waits {pc : WorkerPc} (waits : pc.waits) : pc.quiet := by
  cases pc <;> first | rfl | cases waits

end WorkerPc

namespace Worker

variable {args : Args} {system next : System} {worker after : Worker} {stopped : Bool}

/-- A thread has one request under way at most, and goes on to another one only when the
last was answered. -/
structure Answered (stopped : Bool) (worker : Worker) : Prop where
  recorded_le : worker.recorded ≤ worker.issued
  issued_le : worker.issued ≤ worker.recorded + 1
  done_eq : worker.done = true → worker.issued = worker.recorded
  quiet_eq : worker.pc.quiet → worker.issued = worker.recorded
  looping : worker.pc = .loopTest → worker.issued = worker.recorded ∨ stopped = true

namespace Answered

theorem spawned (number : ℕ) : Answered stopped (Worker.spawned number) where
  recorded_le := le_rfl
  issued_le := Nat.zero_le _
  done_eq _ := rfl
  quiet_eq _ := rfl
  looping _ := .inl rfl

variable (answered : worker.Answered stopped)
include answered

theorem stop : worker.Answered true :=
  { answered with looping := fun _ => .inr rfl }

/-- Control flow that leads to a place where the thread may be. -/
theorem goto {pc : WorkerPc} (quiet : pc.quiet → worker.issued = worker.recorded)
    (looping : pc = .loopTest → worker.issued = worker.recorded ∨ stopped = true) :
    (worker.goto pc).Answered stopped :=
  ⟨answered.recorded_le, answered.issued_le, answered.done_eq, quiet, looping⟩

/-- Control flow from a place where no request is under way. -/
theorem pass (quiet : worker.pc.quiet) (pc : WorkerPc) : (worker.goto pc).Answered stopped :=
  answered.goto (fun _ => answered.quiet_eq quiet) fun _ => .inl (answered.quiet_eq quiet)

theorem complete (outstanding : worker.recorded < worker.issued) (drains : Bool) :
    (worker.complete drains).Answered stopped := by
  have all : worker.issued = worker.recorded + 1 := by
    have most := answered.issued_le
    omega
  exact ⟨all.ge, all.le.trans (Nat.le_succ _), fun _ => all, fun _ => all, fun _ => .inl all⟩

theorem issue (located : worker.pc = .issuing) (immediate : Bool) :
    (worker.issue immediate).Answered stopped := by
  have equal := answered.quiet_eq (by rw [located]; rfl)
  have given : Answered stopped
      { worker with issued := worker.issued + 1, done := false, pc := .doneTest } := by
    refine ⟨?_, ?_, ?_, ?_, ?_⟩
    · exact equal.ge.trans (Nat.le_succ _)
    · exact (Nat.succ_le_succ equal.le)
    · rintro ⟨⟩
    · rintro ⟨⟩
    · rintro ⟨⟩
  cases immediate with
  | true => exact given.complete (Nat.lt_succ_of_le equal.ge) false
  | false => exact given

end Answered

theorem Moves.keeps_answered (moves : Moves args system worker next after)
    (holds : worker.Answered system.stopped) : after.Answered system.stopped := by
  cases moves with
  | began located =>
      have equal := holds.quiet_eq (by rw [located]; rfl)
      exact ⟨holds.recorded_le, holds.issued_le, holds.done_eq, fun _ => equal,
        fun _ => .inl equal⟩
  | threw => exact holds.goto (by rintro ⟨⟩) (by rintro ⟨⟩)
  | counted => exact holds.goto (by rintro ⟨⟩) (by rintro ⟨⟩)
  | entered located running =>
      have equal : worker.issued = worker.recorded :=
        (holds.looping located).resolve_right (by simp [running])
      exact holds.goto (fun _ => equal) fun _ => .inl equal
  | halted => exact holds.goto (by rintro ⟨⟩) (by rintro ⟨⟩)
  | expired => exact holds.goto (by rintro ⟨⟩) (by rintro ⟨⟩)
  | opened located =>
      have equal := holds.quiet_eq (by rw [located]; rfl)
      exact ⟨holds.recorded_le, holds.issued_le, holds.done_eq, fun _ => equal, by rintro ⟨⟩⟩
  | advanced located =>
      have equal := holds.quiet_eq (by rw [located]; rfl)
      exact ⟨holds.recorded_le, holds.issued_le, holds.done_eq, fun _ => equal,
        fun _ => .inl equal⟩
  | waited waits => exact holds.pass (WorkerPc.quiet_of_waits waits) _
  | woke waits => exact holds.pass (WorkerPc.quiet_of_waits waits) _
  | punctual located | granted located | denied located | prepared located =>
      exact holds.pass (by rw [located]; rfl) _
  | issued immediate located => exact holds.issue located immediate
  | answered _ done =>
      have equal := holds.done_eq done
      exact holds.goto (fun _ => equal) fun _ => .inl equal
  | unanswered => exact holds.goto (by rintro ⟨⟩) (by rintro ⟨⟩)
  | interrupted _ stopped => exact holds.goto (by rintro ⟨⟩) fun _ => .inr stopped
  | continued => exact holds.goto (by rintro ⟨⟩) (by rintro ⟨⟩)
  | served => exact holds.goto (by rintro ⟨⟩) (by rintro ⟨⟩)
  | completed _ outstanding => exact holds.complete outstanding _
  | @handled drains located =>
      have equal := holds.quiet_eq (by rw [located]; rfl)
      exact ⟨holds.recorded_le, holds.issued_le, fun _ => equal, fun _ => equal,
        fun _ => .inl equal⟩
  | pumped => exact holds
  | drained _ idle =>
      have equal := le_antisymm idle holds.recorded_le
      exact holds.goto (fun _ => equal) fun _ => .inl equal

end Worker

namespace Worker

/-- The thread ended by an exception that was counted. -/
def failed (worker : Worker) : Bool :=
  worker.pc = .finished true

variable {args : Args} {system next : System} {worker after : Worker}

/-- A thread that has ended makes no step. -/
theorem Moves.running (moves : Moves args system worker next after) : worker.ended = false := by
  cases moves with
  | threw throws =>
      unfold ended
      cases located : worker.pc <;> first | rfl | simp [located, WorkerPc.throws] at throws
  | waited waits | woke waits =>
      unfold ended
      cases located : worker.pc <;> first | rfl | simp [located, WorkerPc.waits] at waits
  | expired located =>
      rcases located with located | located <;> simp [ended, located]
  | @completed drains located => cases drains <;> simp [ended, located]
  | began located | counted located | entered located | halted located | opened located
  | advanced located | punctual located | granted located | denied located | prepared located
  | issued _ located | answered located | unanswered located | interrupted located
  | continued located | served located | handled located | pumped located | drained located =>
      simp [ended, located]

theorem failed_of_waits {pc : WorkerPc} (waits : pc.waits) (located : worker.pc = pc) :
    worker.failed = false := by
  subst located
  unfold failed
  cases located : worker.pc <;> first | rfl | simp [located, WorkerPc.waits] at waits

/-- A failure is counted when its thread ends. -/
theorem Moves.failures_eq (moves : Moves args system worker next after) :
    next.failures = system.failures + if after.failed then 1 else 0 := by
  have unchanged (unfailed : after.failed = false) :
      system.failures = system.failures + if after.failed then 1 else 0 := by
    rw [unfailed]
    rfl
  cases moves with
  | counted => rfl
  | issued immediate => cases immediate <;> exact unchanged rfl
  | waited _ reached => exact unchanged (failed_of_waits reached rfl)
  | advanced _ _ reached =>
      rcases reached with waits | ⟨rfl, -⟩
      · exact unchanged (failed_of_waits waits rfl)
      · exact unchanged rfl
  | pumped located => exact unchanged (by simp [failed, located])
  | @handled drains => cases drains <;> exact unchanged rfl
  | _ => exact unchanged rfl

end Worker

namespace System

variable {args : Args} {system after : System}

/-- How many threads the main thread has joined. -/
def joined (system : System) : ℕ :=
  match system.main with
  | .joining joined => joined
  | _ => system.workers.length

/-- The requests of all threads are accounted for, the failures are those of ended threads,
and the joined threads have ended. -/
structure Sound (system : System) : Prop where
  answered : ∀ worker ∈ system.workers, worker.Answered system.stopped
  failures_eq : system.failures = system.workers.countP Worker.failed
  ended : ∀ index worker, index < system.joined → system.workers[index]? = some worker →
    worker.ended = true

theorem start_sound {now : ℤ} (started : start args now = some system) : system.Sound := by
  obtain ⟨bucket, -, rfl⟩ := Option.map_eq_some_iff.mp started
  have spawned {worker : Worker}
      (member : worker ∈ (List.range args.concurrency).map Worker.spawned) :
      ∃ number, worker = .spawned number := by
    obtain ⟨number, -, rfl⟩ := List.mem_map.mp member
    exact ⟨number, rfl⟩
  refine ⟨fun worker member => ?_, ?_, fun index worker below => ?_⟩
  · obtain ⟨number, rfl⟩ := spawned member
    exact .spawned number
  · symm
    refine List.countP_eq_zero.mpr fun worker member => ?_
    obtain ⟨number, rfl⟩ := spawned member
    simp [Worker.failed, Worker.spawned]
  · exact absurd below (Nat.not_lt_zero index)

/-- A thread moves: the others are not touched, and it was none of those that ended. -/
theorem Sound.moves (sound : system.Sound) {index : ℕ} {worker next : Worker} {shared : System}
    (found : system.workers[index]? = some worker)
    (moves : worker.Moves args system shared next) :
    Sound { shared with workers := system.workers.set index next } := by
  obtain ⟨stoppedEq, -, -, -, mainEq, -⟩ := moves.frame
  have running := moves.running
  have unfailed : worker.failed = false := by
    unfold Worker.ended at running
    unfold Worker.failed
    cases located : worker.pc <;> simp_all
  refine ⟨fun entry member => ?_, ?_, fun other entry below foundEntry => ?_⟩
  · dsimp only
    rw [stoppedEq]
    rcases Roster.mem_set_cases member with rfl | ⟨other, -, old⟩
    · exact moves.keeps_answered (sound.answered worker (List.mem_of_getElem? found))
    · exact sound.answered entry (List.mem_of_getElem? old)
  · dsimp only
    rw [moves.failures_eq, sound.failures_eq]
    cases ends : next.failed with
    | true => rw [Roster.countP_set_of_ne found unfailed ends]; rfl
    | false => rw [Roster.countP_set_of_eq found (ends.trans unfailed.symm)]; rfl
  · have joinedEq : joined { shared with workers := system.workers.set index next } =
        system.joined := by
      simp only [joined, mainEq, List.length_set]
    rw [joinedEq] at below
    rcases Roster.getElem?_set_cases foundEntry with ⟨rfl, -⟩ | ⟨-, old⟩
    · rw [sound.ended other worker below found] at running
      cases running
    · exact sound.ended other entry below old

theorem Sound.step (sound : system.Sound) (steps : Steps args system after) : after.Sound := by
  cases steps with
  | @joins count worker main found ended =>
      refine ⟨sound.answered, sound.failures_eq, fun index entry below foundEntry => ?_⟩
      rcases Nat.lt_succ_iff_lt_or_eq.mp below with earlier | rfl
      · exact sound.ended index entry (by simpa only [joined, main] using earlier) foundEntry
      · rwa [← Option.some.inj (found.symm.trans foundEntry)]
  | @joinedAll count main all =>
      refine ⟨sound.answered, sound.failures_eq, fun index entry below foundEntry => ?_⟩
      exact sound.ended index entry
        (by simpa only [joined, main] using lt_of_lt_of_le below all) foundEntry
  | returns main =>
      refine ⟨fun worker member => (sound.answered worker member).stop, sound.failures_eq,
        fun index entry below foundEntry => ?_⟩
      exact sound.ended index entry (by simpa only [joined, main] using below) foundEntry
  | moves found moves => exact sound.moves found moves
  | signals =>
      exact ⟨fun worker member => (sound.answered worker member).stop, sound.failures_eq,
        sound.ended⟩
  | ticks => exact ⟨sound.answered, sound.failures_eq, sound.ended⟩

theorem sound_of_reaches {first : System} {now : ℤ} (started : start args now = some first)
    (reaches : Reaches (step args) Unrestricted first system) : system.Sound :=
  reaches.invariant _ (start_sound started) fun _ _ _ holds _ taken =>
    holds.step (steps_of_step taken)

/-- The total over the threads of a quantity that only failed threads can have, and those
at most once. -/
theorem sum_issued_le {workers : List Worker}
    (most : ∀ worker ∈ workers, worker.issued ≤ worker.recorded + if worker.failed then 1 else 0) :
    (workers.map Worker.issued).sum ≤
      (workers.map Worker.recorded).sum + workers.countP Worker.failed := by
  induction workers with
  | nil => rfl
  | cons worker rest ih =>
      have head := most worker List.mem_cons_self
      have others := ih fun entry member => most entry (List.mem_cons_of_mem worker member)
      simp only [List.map_cons, List.sum_cons, List.countP_cons]
      omega

/-- In direct mode no response is lost to a signal or the deadline.  Each thread has at most
one request under way, a thread that ends without an exception has recorded all of its
requests, and when `run_direct` has joined its threads at most one request for each failed
thread is missing. -/
theorem reachable_records {first : System} {now : ℤ} (started : start args now = some first)
    (reaches : Reaches (step args) Unrestricted first system) :
    (∀ worker ∈ system.workers, worker.recorded ≤ worker.issued ∧
      worker.issued ≤ worker.recorded + 1 ∧
      (worker.pc = .finished false → worker.issued = worker.recorded)) ∧
    (system.main = .returned →
      (system.workers.map Worker.issued).sum ≤
        (system.workers.map Worker.recorded).sum + system.failures ∧
      (system.failures = 0 → ∀ worker ∈ system.workers,
        worker.pc = .finished false ∧ worker.issued = worker.recorded)) := by
  have sound := sound_of_reaches started reaches
  have quiet {worker : Worker} (member : worker ∈ system.workers)
      (finished : worker.pc = .finished false) : worker.issued = worker.recorded :=
    (sound.answered worker member).quiet_eq (by rw [finished]; rfl)
  refine ⟨fun worker member => ?_, fun returned => ?_⟩
  · have answered := sound.answered worker member
    exact ⟨answered.recorded_le, answered.issued_le, quiet member⟩
  · have outcome {worker : Worker} (member : worker ∈ system.workers) :
        worker.failed = true ∨ worker.pc = .finished false := by
      obtain ⟨index, found⟩ := List.mem_iff_getElem?.mp member
      obtain ⟨below, -⟩ := List.getElem?_eq_some_iff.mp found
      have ended := sound.ended index worker (by simpa only [joined, returned] using below) found
      unfold Worker.ended at ended
      split at ended
      · rename_i failed finished
        cases failed with
        | true => exact .inl (by simp [Worker.failed, finished])
        | false => exact .inr finished
      · cases ended
    constructor
    · rw [sound.failures_eq]
      refine sum_issued_le fun worker member => ?_
      rcases outcome member with failed | finished
      · rw [failed]
        exact (sound.answered worker member).issued_le
      · rw [quiet member finished]
        exact Nat.le_add_right _ _
    · intro clean worker member
      rw [sound.failures_eq] at clean
      have unfailed := List.countP_eq_zero.mp clean worker member
      have finished := (outcome member).resolve_left unfailed
      exact ⟨finished, quiet member finished⟩

/-- Ten requests a second: one thread, with a tenth of a second between its slots. -/
def tenPerSecond : Args where
  rps := 10
  duration := 60
  rps_pos := Nat.one_le_of_lt (Nat.lt_succ_self 9)
  rps_le := Nat.le_of_ble_eq_true rfl
  duration_le := Nat.le_of_ble_eq_true rfl

/-- Steps of the thread in which nothing is thrown and no handler is called. -/
def turns (count : ℕ) : List Action :=
  List.replicate count (.worker 0 ⟨false, false⟩)

/-- The thread sends a request, is answered at once and waits for its second slot. -/
def untilSecondSlot : List Action :=
  turns 5 ++ Action.worker 0 ⟨false, true⟩ :: turns 4

/-- A signal comes in the wait.  The second request is answered when the thread has left
its loop. -/
def signalledInWait : List Action :=
  untilSecondSlot ++ Action.signal :: (turns 12 ++
    Action.worker 0 ⟨false, true⟩ :: (turns 2 ++ List.replicate 3 Action.main))

theorem reachable_records_signalled :
    ∃ (first last : System), start tenPerSecond 0 = some first ∧
      run (step tenPerSecond) first signalledInWait = some last ∧
      last.main = .returned ∧ (last.workers.map Worker.issued).sum = 2 ∧
      ∀ worker ∈ last.workers, worker.pc = .finished false ∧ worker.issued = worker.recorded := by
  have ran : ((start tenPerSecond 0).bind fun first =>
      (run (step tenPerSecond) first signalledInWait).map fun last =>
        (last.main, (last.workers.map Worker.issued).sum, last.failures)) =
      some (.returned, 2, 0) := by
    decide +kernel
  obtain ⟨first, started, ran⟩ := Option.bind_eq_some_iff.mp ran
  obtain ⟨last, executes, seen⟩ := Option.map_eq_some_iff.mp ran
  simp only [Prod.mk.injEq] at seen
  obtain ⟨returned, total, unfailed⟩ := seen
  have records := (reachable_records started (reaches_of_run executes)).2 returned
  exact ⟨first, last, started, executes, returned, total, records.2 unfailed⟩

end System

end Cppload.Direct

import Cppload.ScenarioEngineStages
import Cppload.ConnectionPoolConservation

/-!
# The engine's workers and their pool

A `ClientGuard` gives its client back only if its pool pointer is set, and no
worker sets it.  So every client is destroyed with its worker, and the pool is
not told: it never has an idle client, and its count of created clients only
grows.  Its cap is the peak concurrency over the stages, and all stages of a run
draw on it together.
-/

namespace Cppload.Engine

open Transition

namespace Worker

variable {plan : Plan} {system after : System} {choice : Choice} {worker next : Worker}

/-- A guard without a pool leaves the system alone. -/
theorem closeGuard_of_unset (unset : worker.pool = false) :
    worker.closeGuard plan system = system := by
  unfold closeGuard
  split
  · rfl
  · simp [unset]

theorem Moves.pool (moved : Moves plan system choice worker after next) :
    next.pool = worker.pool := by
  cases moved with
  | flowed flow keeps => exact keeps.pool
  | _ => rfl

end Worker

/-- The points a worker passes before it has its client. -/
def WorkerPc.asks : WorkerPc → Bool
  | .resolving | .acquiring _ | .creating => true
  | _ => false

namespace Worker

variable {plan : Plan} {system after : System} {choice : Choice} {worker next : Worker}

structure Sound (worker : Worker) : Prop where
  unset : worker.pool = false
  asks : worker.pc.asks = true → worker.acquired = false

theorem spawned_sound (run : StageRun) (number : ℕ) (pooled : Bool) :
    (spawned run number pooled).Sound :=
  ⟨rfl, fun _ => rfl⟩

theorem Flow.asks {pc onward : WorkerPc} (flow : Flow system choice worker pc onward)
    (target : onward.asks = true) : pc.asks = true := by
  cases flow with
  | resolved => rfl
  | paced paces nextPaces => cases onward <;> simp_all [WorkerPc.paces, WorkerPc.asks]
  | _ => simp [WorkerPc.asks] at target

theorem opened_asks (plan : Plan) : (opened plan).asks = false :=
  opened_cases plan (fun pc => pc.asks = false) rfl (fun _ => rfl)

theorem Moves.sound (sound : worker.Sound)
    (moved : Moves plan system choice worker after next) : next.Sound := by
  refine ⟨moved.pool.trans sound.unset, fun target => ?_⟩
  cases moved with
  | flowed flow keeps => exact keeps.acquired.trans (sound.asks (flow.asks target))
  | acquired => simp [opened_asks] at target
  | refused at_ => exact sound.asks (by rw [at_]; rfl)
  | issued =>
      cases immediate : choice.immediate <;> simp [issue, immediate, WorkerPc.asks] at target
  | answered | stored | judged => simp [goto, WorkerPc.asks] at target
  | counted message at_ =>
      rcases at_ with ⟨-, rfl⟩ | ⟨-, rfl⟩ <;> simp [goto, WorkerPc.asks] at target
  | closed at_ =>
      rcases at_ with ⟨failed, -, rfl⟩ | ⟨what, -, rfl⟩ <;> simp [WorkerPc.asks] at target

end Worker

/-- The pool has one created client for every worker that has got one, and none of
them is idle. -/
structure Books (plan : Plan) (workers : List Worker) (pool : ConnectionPool) : Prop where
  cap : pool.config.maxConnections = plan.poolMax
  idle : pool.idleClients = []
  counted : pool.totalCreated = workers.countP Worker.acquired

namespace Books

variable {plan : Plan} {workers : List Worker} {pool : ConnectionPool}
variable {index : ℕ} {worker next : Worker}

theorem of_new (config : PoolConfig) (sized : config.maxConnections = plan.poolMax) :
    Books plan [] (.new config) :=
  ⟨sized, rfl, rfl⟩

theorem spawn (books : Books plan workers pool) (new : worker.acquired = false) :
    Books plan (workers ++ [worker]) pool :=
  ⟨books.cap, books.idle, by simp [books.counted, new]⟩

theorem keep (books : Books plan workers pool) (found : workers[index]? = some worker)
    (same : next.acquired = worker.acquired) : Books plan (workers.set index next) pool :=
  ⟨books.cap, books.idle, books.counted.trans (Roster.countP_set_of_eq found same).symm⟩

/-- With nothing idle, an acquire creates a client as long as the count is below the
cap. -/
theorem acquire_ne_none_iff (books : Books plan workers pool) :
    (pool.acquire plan.endpoint.host plan.endpoint.port).1 ≠ none ↔
      workers.countP Worker.acquired < plan.poolMax := by
  rw [← books.counted, ← books.cap]
  have spec := ConnectionPool.acquire_spec pool plan.endpoint.host plan.endpoint.port
  generalize (pool.acquire plan.endpoint.host plan.endpoint.port).1 = answer at spec
  cases spec with
  | reused moved => simp [books.idle] at moved
  | created room => simp [room]
  | exhausted cap => simpa using cap

theorem refuse (books : Books plan workers pool)
    (refused : (pool.acquire plan.endpoint.host plan.endpoint.port).1 = none) :
    Books plan workers (pool.acquire plan.endpoint.host plan.endpoint.port).2 := by
  have spec := ConnectionPool.acquire_spec pool plan.endpoint.host plan.endpoint.port
  rw [refused] at spec
  cases spec with
  | exhausted cap idle total names config =>
      exact ⟨config ▸ books.cap, (books.idle ▸ idle).eq_nil, total.trans books.counted⟩

theorem acquire {client : ℕ} (books : Books plan workers pool)
    (found : workers[index]? = some worker) (new : worker.acquired = false)
    (answer : (pool.acquire plan.endpoint.host plan.endpoint.port).1 = some client)
    (takes : next.acquired = true) :
    Books plan (workers.set index next)
      (pool.acquire plan.endpoint.host plan.endpoint.port).2 := by
  have spec := ConnectionPool.acquire_spec pool plan.endpoint.host plan.endpoint.port
  rw [answer] at spec
  cases spec with
  | reused moved => simp [books.idle] at moved
  | created room idle total names config =>
      refine ⟨config ▸ books.cap, (books.idle ▸ idle).eq_nil, ?_⟩
      rw [total, books.counted, Roster.countP_set_of_ne found new takes]

theorem moves {system after : System} {choice : Choice} (sound : worker.Sound)
    (books : ∀ pool, system.pool = some pool → Books plan workers pool)
    (found : workers[index]? = some worker)
    (moved : worker.Moves plan system choice after next) :
    ∀ pool, after.pool = some pool → Books plan (workers.set index next) pool := by
  intro pool poolEq
  cases moved with
  | flowed flow keeps => exact (books pool poolEq).keep found keeps.acquired
  | acquired at_ located answer =>
      cases poolEq
      exact (books _ located).acquire found (sound.asks (by rw [at_]; rfl)) answer rfl
  | refused at_ located answer =>
      cases poolEq
      exact ((books _ located).refuse answer).keep found rfl
  | closed =>
      rw [Worker.closeGuard_of_unset sound.unset] at poolEq
      exact (books pool poolEq).keep found rfl
  | _ => exact (books pool poolEq).keep found rfl

end Books

namespace System

variable {plan : Plan} {system after : System}

structure Booked (plan : Plan) (system : System) : Prop where
  staffed : system.Staffed
  sound : ∀ worker ∈ system.workers, worker.Sound
  books : ∀ pool, system.pool = some pool → Books plan system.workers pool

theorem initial_booked (outset : Outset) : (initial outset).Booked plan :=
  ⟨initial_staffed outset, by simp [initial], by simp [initial]⟩

theorem Booked.mainMoves (booked : system.Booked plan) (staffed : after.Staffed)
    (moved : MainMoves plan system system.main after) : after.Booked plan := by
  obtain ⟨staffedBefore, sound, books⟩ := booked
  unfold System.Staffed at staffedBefore
  generalize system.main = main at staffedBefore moved
  cases moved with
  | reset =>
      have unstaffed : system.workers = [] := staffedBefore
      refine ⟨staffed, sound, fun pool opened => ?_⟩
      dsimp only at opened ⊢
      rw [unstaffed]
      unfold Plan.newPool at opened
      split at opened <;> cases opened
      exact .of_new _ rfl
  | staged moved =>
      cases moved with
      | spawned =>
          refine ⟨staffed, fun worker member => ?_, fun pool located => ?_⟩
          · rcases List.mem_append.mp member with old | new
            · exact sound worker old
            · rw [List.mem_singleton.mp new]
              exact Worker.spawned_sound _ _ _
          · exact (books pool located).spawn rfl
      | _ => exact ⟨staffed, sound, books⟩
  | _ => exact ⟨staffed, sound, books⟩

theorem Booked.step {action : Action} (booked : system.Booked plan)
    (taken : system.step plan action = some after) : after.Booked plan := by
  have staffed := booked.staffed.step taken
  cases step_moves taken with
  | main moved => exact booked.mainMoves staffed moved
  | worker found moved =>
      have before := booked.sound _ (List.mem_of_getElem? found)
      have framed := moved.framed
      refine ⟨staffed, fun worker member => ?_, ?_⟩
      · dsimp only at member
        rw [framed.workers] at member
        rcases Roster.mem_set_cases member with rfl | ⟨other, -, located⟩
        · exact moved.sound before
        · exact booked.sound worker (List.mem_of_getElem? located)
      · dsimp only
        rw [framed.workers]
        exact Books.moves before booked.books found moved
  | stop | stopIoc | tick => exact ⟨staffed, booked.sound, booked.books⟩

theorem reachable_booked {outset : Outset}
    (reached : Reaches (step plan) Unrestricted (initial outset) system) :
    system.Booked plan :=
  reached.invariant (fun state => state.Booked plan) (initial_booked outset)
    (fun _ _ _ booked _ taken => booked.step taken)

/-- An `acquire` of a worker returns a client exactly when fewer workers than the cap
have got one, in this stage and in all stages before; so it does as long as the stages
begun so far have no more workers than the cap. -/
theorem reachable_acquires_iff {outset : Outset}
    (reached : Reaches (step plan) Unrestricted (initial outset) system)
    {index attempts : ℕ} {worker : Worker} {pool : ConnectionPool}
    (found : system.workers[index]? = some worker) (at_ : worker.pc = .acquiring attempts)
    (located : system.pool = some pool) :
    ((pool.acquire plan.endpoint.host plan.endpoint.port).1 ≠ none ↔
        system.workers.countP Worker.acquired < plan.poolMax) ∧
      (system.workers.length ≤ plan.poolMax →
        (pool.acquire plan.endpoint.host plan.endpoint.port).1 ≠ none) := by
  have booked := reachable_booked reached
  have answers := (booked.books pool located).acquire_ne_none_iff
  refine ⟨answers, fun few => answers.mpr ?_⟩
  -- The worker itself has no client yet.
  have member := List.mem_of_getElem? found
  have asking := (booked.sound worker member).asks (by rw [at_]; rfl)
  have fewer : system.workers.countP Worker.acquired < system.workers.length :=
    List.countP_lt_length_iff.mpr ⟨worker, member, asking⟩
  exact fewer.trans_le few

/-- A worker's way from its start to its first request. -/
def issueFirst (index : ℕ) : List Action :=
  List.replicate 8 (.worker index {})

/-- The only worker of the first stage asks for the only client of the pool. -/
theorem reachable_acquires_iff_first_stage :
    ∃ system worker pool,
      Reaches (step timedStages) Unrestricted (initial .new) system ∧
      system.workers[0]? = some worker ∧ worker.pc = .acquiring 0 ∧
      system.pool = some pool ∧ system.workers.length ≤ timedStages.poolMax ∧
      (pool.acquire timedStages.endpoint.host timedStages.endpoint.port).1 ≠ none := by
  have evaluated :
      (run (step timedStages) (initial .new)
        (List.flatten [List.replicate 12 .main, [.worker 0 {}]])).map
        (fun system => (system.workers[0]?.map Worker.pc, system.pool.isSome,
          decide (system.workers.length ≤ timedStages.poolMax))) =
      some (some (.acquiring 0), true, true) := by
    decide +kernel
  obtain ⟨system, executes, fields⟩ := Option.map_eq_some_iff.mp evaluated
  simp only [Prod.mk.injEq, decide_eq_true_eq] at fields
  obtain ⟨worker, found, at_⟩ := Option.map_eq_some_iff.mp fields.1
  obtain ⟨pool, located⟩ := Option.isSome_iff_exists.mp fields.2.1
  have reached := reaches_of_run executes
  exact ⟨system, worker, pool, reached, found, at_, located, fields.2.2,
    (reachable_acquires_iff reached found at_ located).2 fields.2.2⟩

/-- The first stage's worker leaves at the deadline with its only request answered.
The cap is one, its client is destroyed and still counted, and the second stage's
worker gets none. -/
theorem acquire_refused_in_second_stage :
    ∃ system worker pool,
      Reaches (step timedStages) Unrestricted (initial .new) system ∧
      system.workers.map Worker.drop = [false, false] ∧
      (∀ issued ∈ system.requests, issued.done = true) ∧
      system.workers[1]? = some worker ∧ worker.pc = .acquiring 0 ∧
      system.pool = some pool ∧
      (pool.acquire timedStages.endpoint.host timedStages.endpoint.port).1 = none := by
  have evaluated :
      (run (step timedStages) (initial .new)
        (List.flatten
          [List.replicate 12 .main, issueFirst 0, List.replicate 2 (.worker 0 {}),
            [.worker 0 { completes := some 0 }], List.replicate 3 (.worker 0 {}),
            [.tick 1000000000], List.replicate 3 (.worker 0 {}), List.replicate 15 .main,
            [.worker 1 {}]])).map
        (fun system => (system.workers.map Worker.drop, system.requests.all Issued.done,
          system.workers[1]?.map Worker.pc,
          system.pool.map fun pool =>
            (pool.acquire timedStages.endpoint.host timedStages.endpoint.port).1)) =
      some ([false, false], true, some (.acquiring 0), some none) := by
    decide +kernel
  obtain ⟨system, executes, fields⟩ := Option.map_eq_some_iff.mp evaluated
  simp only [Prod.mk.injEq, List.all_eq_true] at fields
  obtain ⟨undropped, done, asks, answers⟩ := fields
  obtain ⟨worker, found, at_⟩ := Option.map_eq_some_iff.mp asks
  obtain ⟨pool, located, refused⟩ := Option.map_eq_some_iff.mp answers
  exact ⟨system, worker, pool, reaches_of_run executes, undropped, done, found, at_, located,
    refused⟩

/-- No client with an unanswered request is idle in the pool: no client is idle at
all, and no `ClientGuard` changes anything when it goes. -/
theorem reachable_idle_answered {outset : Outset}
    (reached : Reaches (step plan) Unrestricted (initial outset) system) :
    (∀ pool, system.pool = some pool →
      pool.idleClients = [] ∧
      ∀ issued ∈ system.requests, ∀ client ∈ pool.idleClients,
        issued.client = some client → issued.answered = true) ∧
      ∀ worker ∈ system.workers, worker.closeGuard plan system = system := by
  have booked := reachable_booked reached
  refine ⟨fun pool located => ?_, fun worker member => ?_⟩
  · have idle := (booked.books pool located).idle
    exact ⟨idle, by simp [idle]⟩
  · exact Worker.closeGuard_of_unset (booked.sound worker member).unset

/-- Two workers in one stage. -/
def sharedStage : Plan :=
  (Config.probe [⟨1000, 0, 2⟩]).plan 0 100

/-- The first worker runs the completion of the second one's request, the callback
throws, and the first worker has left with its own request in flight. -/
theorem reachable_idle_answered_after_throw :
    ∃ system pool,
      Reaches (step sharedStage) Unrestricted (initial .new) system ∧
      system.pool = some pool ∧ system.workers.map Worker.ended = [true, false] ∧
      system.requests.map (fun issued => (issued.client, issued.answered)) =
        [(some 0, false), (some 1, true)] ∧
      pool.idleClients = [] := by
  have evaluated :
      (run (step sharedStage) (initial .new) (List.flatten
          [List.replicate 10 .main, issueFirst 0, issueFirst 1,
            List.replicate 2 (.worker 0 {}), [.worker 0 { completes := some 1 }],
            [.worker 0 { throws := some "callback" }], List.replicate 2 (.worker 0 {})])).map
        (fun system => (system.pool.isSome, system.workers.map Worker.ended,
          system.requests.map fun issued => (issued.client, issued.answered))) =
      some (true, [true, false], [(some 0, false), (some 1, true)]) := by
    decide +kernel
  obtain ⟨system, executes, fields⟩ := Option.map_eq_some_iff.mp evaluated
  simp only [Prod.mk.injEq] at fields
  obtain ⟨pool, located⟩ := Option.isSome_iff_exists.mp fields.1
  have reached := reaches_of_run executes
  exact ⟨system, pool, reached, located, fields.2.1, fields.2.2,
    ((reachable_idle_answered reached).1 pool located).1⟩

end System

end Cppload.Engine

import Cppload.TokenBucketRateBound

/-!
# The HTTP worker

The stand-alone worker gives requests to one client from its main thread, as fast as the
bucket allows, and a second thread runs the `io_context` on which they complete.  The
context has no work guard: `run` returns as soon as no operation is left, and what is
started later is queued on a stopped context.  At the end the main thread stops the
context, joins and prints the totals.

Each read or write of `running`, each clock reading, each call of the client and each
handler is one step.  A handler counts as outstanding until it has returned.  The thread
that prints intermediate reports is left out.
-/

namespace Cppload.HttpWorker

open Transition

/-- The thread of `ioc.run()`. -/
inductive IoPc where
  | starting
  | polling
  | handling
  | returned
  deriving DecidableEq, Repr

inductive MainPc where
  | runningTest
  | clockTest
  | issuing
  | consuming
  | halting
  | stoppingIoc
  | joining
  | reporting
  | returned
  deriving DecidableEq, Repr

/-- `outstanding` is the work that the context counts, `report` the total that was printed.
Not in the source are the counts of the requests issued, the responses recorded and,
among these, those that `async_request` delivered before it returned. -/
structure Worker where
  running : Bool
  now : ℤ
  endTime : ℤ
  bucket : TokenBucket
  iocStopped : Bool
  outstanding : ℕ
  io : IoPc
  main : MainPc
  report : Option ℕ
  issued : ℕ
  recorded : ℕ
  immediate : ℕ
  deriving DecidableEq, Repr

namespace Worker

/-- The worker when its threads have been made.  A rate of 0 has been refused before. -/
def start (rps : ℕ) (duration : ℤ) (now : ℤ) : Option Worker :=
  (TokenBucket.create rps 0 now).map fun bucket =>
    { running := true
      now := now
      endTime := now + duration * 1000000000
      bucket := bucket
      iocStopped := false
      outstanding := 0
      io := .starting
      main := .runningTest
      report := none
      issued := 0
      recorded := 0
      immediate := 0 }

/-- In a step of the main thread the client may call the handler itself; in one of the
other thread a handler may be the last of its request. -/
inductive Action where
  | main (immediate : Bool)
  | io (completes : Bool)
  | signal
  | tick (now : ℤ)
  deriving DecidableEq, Repr

def goto (worker : Worker) (main : MainPc) : Worker :=
  { worker with main := main }

/-- `async_request`. -/
def issue (worker : Worker) (immediate : Bool) : Worker :=
  let given := { worker with issued := worker.issued + 1, main := .consuming }
  if immediate then
    { given with recorded := worker.recorded + 1, immediate := worker.immediate + 1 }
  else { given with outstanding := worker.outstanding + 1 }

def mainStep (worker : Worker) (immediate : Bool) : Option Worker :=
  match worker.main with
  | .runningTest => some (worker.goto (if worker.running then .clockTest else .halting))
  | .clockTest => some (worker.goto (if worker.now < worker.endTime then .issuing else .halting))
  | .issuing => some (worker.issue immediate)
  | .consuming =>
      -- one turn of `bucket.consume()`
      let attempt := worker.bucket.tryConsume worker.now
      some { worker with
        bucket := attempt.2
        main := if attempt.1 then .runningTest else .consuming }
  | .halting => some { worker with running := false, main := .stoppingIoc }
  | .stoppingIoc => some { worker with iocStopped := true, main := .joining }
  | .joining => if worker.io = .returned then some (worker.goto .reporting) else none
  | .reporting => some { worker with report := some worker.recorded, main := .returned }
  | .returned => none

/-- `run` stops the context when it finds no work, and when the last work is done. -/
def ioStep (worker : Worker) (completes : Bool) : Option Worker :=
  match worker.io with
  | .starting =>
      some (if worker.outstanding = 0 then { worker with iocStopped := true, io := .returned }
        else { worker with io := .polling })
  | .polling =>
      if worker.iocStopped then some { worker with io := .returned }
      else if worker.outstanding = 0 then none
      else if completes then
        some { worker with recorded := worker.recorded + 1, io := .handling }
      else some worker
  | .handling =>
      some { worker with
        outstanding := worker.outstanding - 1
        iocStopped := worker.iocStopped || worker.outstanding = 1
        io := .polling }
  | .returned => none

def step (worker : Worker) : Action → Option Worker
  | .main immediate => worker.mainStep immediate
  | .io completes => worker.ioStep completes
  | .signal => some { worker with running := false }
  | .tick now => if worker.now ≤ now then some { worker with now := now } else none

/-! ## What is recorded -/

/-- 1 while a handler that has recorded its response has not returned. -/
def returning (worker : Worker) : ℕ :=
  match worker.io with
  | .handling => 1
  | _ => 0

/-- Every request has been recorded or is still outstanding. -/
structure Balanced (worker : Worker) : Prop where
  balance : worker.issued + worker.returning = worker.recorded + worker.outstanding
  working : worker.io = .handling → 0 < worker.outstanding
  immediate_le : worker.immediate ≤ worker.recorded

variable {worker after : Worker} {action : Action}

theorem start_balanced {rps : ℕ} {duration now : ℤ}
    (started : start rps duration now = some worker) : worker.Balanced := by
  obtain ⟨bucket, -, rfl⟩ := Option.map_eq_some_iff.mp started
  exact ⟨rfl, by rintro ⟨⟩, le_rfl⟩

theorem Balanced.issue (balanced : worker.Balanced) (immediate : Bool) :
    (worker.issue immediate).Balanced := by
  obtain ⟨balance, working, most⟩ := balanced
  cases immediate with
  | true =>
      refine ⟨?_, working, Nat.succ_le_succ most⟩
      change worker.issued + 1 + worker.returning = worker.recorded + 1 + worker.outstanding
      omega
  | false =>
      refine ⟨?_, fun _ => Nat.succ_pos _, most⟩
      change worker.issued + 1 + worker.returning = worker.recorded + (worker.outstanding + 1)
      omega

/-- The main thread counts nothing but what it issues. -/
theorem mainStep_cases {immediate : Bool} (taken : worker.mainStep immediate = some after) :
    (worker.main = .issuing ∧ after = worker.issue immediate) ∨
      (after.io = worker.io ∧ after.outstanding = worker.outstanding ∧
        after.issued = worker.issued ∧ after.recorded = worker.recorded ∧
        after.immediate = worker.immediate) := by
  cases located : worker.main with
  | issuing =>
      simp only [mainStep, located, Option.some.injEq] at taken
      exact .inl ⟨rfl, taken.symm⟩
  | joining =>
      simp only [mainStep, located, Option.ite_none_right_eq_some] at taken
      obtain ⟨-, taken⟩ := taken
      cases taken
      exact .inr ⟨rfl, rfl, rfl, rfl, rfl⟩
  | returned =>
      simp only [mainStep, located] at taken
      cases taken
  | runningTest | clockTest | consuming | halting | stoppingIoc | reporting =>
      simp only [mainStep, located] at taken
      cases taken
      exact .inr ⟨rfl, rfl, rfl, rfl, rfl⟩

theorem Balanced.ioStep (balanced : worker.Balanced) {completes : Bool}
    (taken : worker.ioStep completes = some after) : after.Balanced := by
  obtain ⟨balance, working, most⟩ := balanced
  cases located : worker.io with
  | starting =>
      simp only [returning, located] at balance
      simp only [Worker.ioStep, located] at taken
      cases taken
      split
      · exact ⟨balance, by rintro ⟨⟩, most⟩
      · exact ⟨balance, by rintro ⟨⟩, most⟩
  | polling =>
      simp only [returning, located] at balance
      simp only [Worker.ioStep, located] at taken
      split at taken
      · cases taken
        exact ⟨balance, by rintro ⟨⟩, most⟩
      · split at taken
        · cases taken
        · rename_i busy
          split at taken
          · cases taken
            refine ⟨?_, fun _ => Nat.pos_of_ne_zero busy, Nat.le_succ_of_le most⟩
            simp only [returning]
            omega
          · cases taken
            exact ⟨by simpa only [returning, located] using balance, working, most⟩
  | handling =>
      have busy := working located
      simp only [returning, located] at balance
      simp only [Worker.ioStep, located] at taken
      cases taken
      refine ⟨?_, by rintro ⟨⟩, most⟩
      simp only [returning]
      omega
  | returned =>
      simp only [Worker.ioStep, located] at taken
      cases taken

theorem Balanced.step (balanced : worker.Balanced) (taken : worker.step action = some after) :
    after.Balanced := by
  cases action with
  | main immediate =>
      rcases mainStep_cases taken with ⟨-, rfl⟩ | ⟨io, outstanding, issued, recorded, inner⟩
      · exact balanced.issue immediate
      · obtain ⟨balance, working, most⟩ := balanced
        refine ⟨?_, by rwa [io, outstanding], by rwa [inner, recorded]⟩
        simp only [returning, io, issued, recorded, outstanding] at balance ⊢
        exact balance
  | io completes => exact balanced.ioStep taken
  | signal =>
      cases taken
      exact ⟨balanced.balance, balanced.working, balanced.immediate_le⟩
  | tick now =>
      obtain ⟨-, taken⟩ := Option.ite_none_right_eq_some.mp taken
      cases taken
      exact ⟨balanced.balance, balanced.working, balanced.immediate_le⟩

/-- The thread of the context has returned, and only the main thread has recorded
responses since `before`. -/
structure Deserted (before worker : Worker) : Prop where
  returned : worker.io = .returned
  recorded_eq : worker.recorded + before.immediate = before.recorded + worker.immediate
  outstanding_le : before.outstanding ≤ worker.outstanding

theorem Deserted.step {before : Worker} (deserted : Deserted before worker)
    (taken : worker.step action = some after) : Deserted before after := by
  obtain ⟨returned, recorded_eq, outstanding_le⟩ := deserted
  cases action with
  | main immediate =>
      rcases mainStep_cases taken with ⟨-, rfl⟩ | ⟨io, outstanding, -, recorded, inner⟩
      · cases immediate with
        | true =>
            refine ⟨returned, ?_, outstanding_le⟩
            change worker.recorded + 1 + before.immediate =
              before.recorded + (worker.immediate + 1)
            omega
        | false => exact ⟨returned, recorded_eq, Nat.le_succ_of_le outstanding_le⟩
      · exact ⟨io.trans returned, by rwa [recorded, inner], by rwa [outstanding]⟩
  | io completes =>
      simp only [Worker.step, ioStep, returned] at taken
      cases taken
  | signal =>
      cases taken
      exact ⟨returned, recorded_eq, outstanding_le⟩
  | tick now =>
      obtain ⟨-, taken⟩ := Option.ite_none_right_eq_some.mp taken
      cases taken
      exact ⟨returned, recorded_eq, outstanding_le⟩

/-- When `run` has returned, nothing that was or is given to the client completes any more
except what `async_request` answers itself: the other requests stay outstanding until the
end and are missing in the totals.  If the thread of the context is faster than the first
request, these are all requests. -/
theorem nothing_recorded_after_run {first later : Worker} {rps : ℕ} {duration now : ℤ}
    (started : start rps duration now = some first)
    (toWorker : Reaches step Unrestricted first worker) (returned : worker.io = .returned)
    (toLater : Reaches step Unrestricted worker later) :
    later.recorded + worker.immediate = worker.recorded + later.immediate ∧
      later.issued = later.recorded + later.outstanding ∧
      worker.outstanding ≤ later.outstanding ∧
      (worker.issued = 0 → later.recorded = later.immediate) := by
  have balanced : worker.Balanced :=
    toWorker.invariant _ (start_balanced started) fun _ _ _ holds _ taken => holds.step taken
  have laterBalanced : later.Balanced :=
    toLater.invariant _ balanced fun _ _ _ holds _ taken => holds.step taken
  have deserted : Deserted worker later :=
    toLater.invariant _ ⟨returned, rfl, le_rfl⟩ fun _ _ _ holds _ taken => holds.step taken
  have balance := balanced.balance
  have laterBalance := laterBalanced.balance
  have most := balanced.immediate_le
  have recorded := deserted.recorded_eq
  simp only [returning, returned] at balance
  simp only [returning, deserted.returned] at laterBalance
  exact ⟨recorded, laterBalance, deserted.outstanding_le, fun unsent => by omega⟩

/-- The thread of the context finds no work, and then two requests are sent. -/
def lateRequests : List Action :=
  [.main false, .main false, .main false, .main false, .main false, .main false, .main false,
    .signal, .main false, .main false, .main false, .main false, .main false, .main false]

theorem nothing_recorded_after_run_lateRequests :
    ∃ (first worker later : Worker), start 10 60 0 = some first ∧
      run step first [.io false] = some worker ∧ worker.io = .returned ∧
      run step worker lateRequests = some later ∧ later.report = some 0 ∧
      later.issued = 2 ∧ later.recorded = later.immediate := by
  have ran : ((start 10 60 0).bind fun first =>
      (run step first [.io false]).bind fun worker =>
        (run step worker lateRequests).map fun later =>
          (worker.io, worker.issued, later.report, later.issued)) =
      some (.returned, 0, some 0, 2) := by
    decide +kernel
  obtain ⟨first, started, ran⟩ := Option.bind_eq_some_iff.mp ran
  obtain ⟨worker, toWorker, ran⟩ := Option.bind_eq_some_iff.mp ran
  obtain ⟨later, toLater, seen⟩ := Option.map_eq_some_iff.mp ran
  simp only [Prod.mk.injEq] at seen
  obtain ⟨returned, unsent, report, two⟩ := seen
  have lost := nothing_recorded_after_run started (reaches_of_run toWorker) returned
    (reaches_of_run toLater)
  exact ⟨first, worker, later, started, toWorker, returned, toLater, report, two,
    lost.2.2.2 unsent⟩

end Worker

end Cppload.HttpWorker

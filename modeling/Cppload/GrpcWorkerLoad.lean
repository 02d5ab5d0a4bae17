import Cppload.TokenBucketRateBound
import Cppload.Roster

/-!
# The load loop of the gRPC worker

`run_load_test` starts a request in each pass of its loop and then lets its `io_context`
run at most one handler, of whichever request has one ready.  The callback of a request
stores into `done`, a variable of the pass in which the request was started, which it holds
by reference.  When the loop is over the context is restarted and run until no request is
left.

A request is followed by the number of its handlers that have run; which one is the last is
up to the client and the network.  As the context has no work guard it stops when its last
operation is done, and `run_one` then runs nothing.
-/

namespace Cppload.GrpcWorker

open Transition

inductive LoadPc where
  | runningTest
  | clockTest
  | issuing
  | doneTest
  | serving
  | consuming
  | restarting
  | draining
  | returned
  deriving DecidableEq, Repr

/-- A request has been started, and `run_one` has not been called since. -/
def LoadPc.awaits : LoadPc → Bool
  | .doneTest | .serving => true
  | _ => false

/-- A request under way, with the pass that started it. -/
structure Pending where
  pass : ℕ
  ran : ℕ
  deriving DecidableEq, Repr

/-- A request whose callback was called: its pass, the number of its handlers, and whether
the variable `done` of its pass still existed. -/
structure Completed where
  pass : ℕ
  handlers : ℕ
  alive : Bool
  deriving DecidableEq, Repr

/-- `passes` is the number of passes that have started a request, `done` the variable of
the latest one. -/
structure LoadTest where
  running : Bool
  now : ℤ
  endTime : ℤ
  bucket : TokenBucket
  iocStopped : Bool
  passes : ℕ
  done : Bool
  pending : List Pending
  completed : List Completed
  pc : LoadPc
  deriving DecidableEq, Repr

namespace LoadTest

/-- A task with its target rate and its duration in seconds. -/
def start (targetRps : ℕ) (duration now : ℤ) : Option LoadTest :=
  (TokenBucket.create targetRps 0 now).map fun bucket =>
    { running := true
      now := now
      endTime := now + duration * 1000000000
      bucket := bucket
      iocStopped := false
      passes := 0
      done := false
      pending := []
      completed := []
      pc := .runningTest }

/-- A step of the loop, in which the client may call the handler itself; a handler of the
request at `index`, which may be the last one; a signal; the clock. -/
inductive Action where
  | main (immediate : Bool)
  | handle (index : ℕ) (last : Bool)
  | signal
  | tick (now : ℤ)
  deriving DecidableEq, Repr

/-- `async_request` with a new `done`. -/
def issue (test : LoadTest) (immediate : Bool) : LoadTest :=
  let pass := test.passes + 1
  if immediate then
    { test with
      passes := pass
      done := true
      completed := test.completed ++ [⟨pass, 0, true⟩]
      pc := .doneTest }
  else
    { test with
      passes := pass
      done := false
      pending := test.pending ++ [⟨pass, 0⟩]
      pc := .doneTest }

/-- A handler of a request.  The last one calls the callback, and the last work of all
stops the context. -/
def handle (test : LoadTest) (index : ℕ) (request : Pending) (last inPass : Bool) : LoadTest :=
  if last then
    let alive := inPass && decide (request.pass = test.passes)
    let rest := test.pending.eraseIdx index
    { test with
      done := test.done || alive
      pending := rest
      completed := test.completed ++ [⟨request.pass, request.ran + 1, alive⟩]
      iocStopped := test.iocStopped || rest.isEmpty }
  else
    { test with pending := test.pending.set index { request with ran := request.ran + 1 } }

def mainStep (test : LoadTest) (immediate : Bool) : Option LoadTest :=
  match test.pc with
  | .runningTest => some { test with pc := if test.running then .clockTest else .restarting }
  | .clockTest =>
      some { test with pc := if test.now < test.endTime then .issuing else .restarting }
  | .issuing => some (test.issue immediate)
  | .doneTest => some { test with pc := if test.done then .consuming else .serving }
  | .serving =>
      -- `run_one` without work, or on a stopped context
      if test.pending = [] then some { test with iocStopped := true, pc := .consuming }
      else if test.iocStopped then some { test with pc := .consuming }
      else none
  | .consuming =>
      let attempt := test.bucket.tryConsume test.now
      some { test with
        bucket := attempt.2
        pc := if attempt.1 then .runningTest else .consuming }
  | .restarting => some { test with iocStopped := false, pc := .draining }
  | .draining => if test.pending = [] then some { test with pc := .returned } else none
  | .returned => none

def handleStep (test : LoadTest) (index : ℕ) (last : Bool) : Option LoadTest :=
  test.pending[index]?.bind fun request =>
    match test.pc with
    | .serving =>
        if test.iocStopped then none
        else some { test.handle index request last true with pc := .consuming }
    | .draining => some (test.handle index request last false)
    | _ => none

def step (test : LoadTest) : Action → Option LoadTest
  | .main immediate => test.mainStep immediate
  | .handle index last => test.handleStep index last
  | .signal => some { test with running := false }
  | .tick now => if test.now ≤ now then some { test with now := now } else none

/-! ## Callbacks and passes -/

/-- Every pass has one request, under way or completed.  Until `run_one` is called no
handler of the latest request has run, and so a callback that found its variable was the
first handler of its request. -/
structure Sound (test : LoadTest) : Prop where
  each : (test.completed.map Completed.pass ++ test.pending.map Pending.pass).Perm
    (List.range' 1 test.passes)
  untouched : test.pc.awaits →
    ∀ request ∈ test.pending, request.pass = test.passes → request.ran = 0
  first : ∀ request ∈ test.completed, request.alive = true → request.handlers ≤ 1
  empty : test.pc = .returned → test.pending = []

variable {test after : LoadTest} {action : Action}

theorem start_sound {targetRps : ℕ} {duration now : ℤ}
    (started : start targetRps duration now = some test) : test.Sound := by
  obtain ⟨bucket, -, rfl⟩ := Option.map_eq_some_iff.mp started
  refine ⟨.refl _, ?_, ?_, fun _ => rfl⟩ <;> simp

namespace Sound

variable (sound : test.Sound)
include sound

theorem pass_le {request : Pending} (member : request ∈ test.pending) :
    request.pass ≤ test.passes := by
  have listed : request.pass ∈ test.pending.map Pending.pass := List.mem_map_of_mem member
  have within := sound.each.mem_iff.mp (List.mem_append_right _ listed)
  rw [List.mem_range'_1] at within
  omega

/-- Steps that leave the requests alone. -/
theorem goto {next : LoadTest} (passes : next.passes = test.passes)
    (pending : next.pending = test.pending) (completed : next.completed = test.completed)
    (entered : next.pc.awaits → test.pc.awaits)
    (empty : next.pc = .returned → test.pending = []) : next.Sound := by
  refine ⟨?_, ?_, ?_, ?_⟩
  · rw [passes, pending, completed]
    exact sound.each
  · rw [passes, pending]
    exact fun located => sound.untouched (entered located)
  · rw [completed]
    exact sound.first
  · rw [pending]
    exact empty

theorem issue (immediate : Bool) : (test.issue immediate).Sound := by
  have older {request : Pending} (member : request ∈ test.pending) :
      request.pass ≠ test.passes + 1 :=
    (Nat.lt_succ_of_le (sound.pass_le member)).ne
  obtain ⟨each, -, first, -⟩ := sound
  have grown : List.range' 1 (test.passes + 1) =
      List.range' 1 test.passes ++ [test.passes + 1] := by
    rw [List.range'_1_concat, Nat.add_comm 1]
  cases immediate with
  | true =>
      refine ⟨?_, fun _ request member same => absurd same (older member), ?_, by rintro ⟨⟩⟩
      · simp only [LoadTest.issue, if_true, List.map_append, List.map_cons, List.map_nil, grown,
          List.append_assoc]
        refine (List.perm_append_comm.append_left _).trans ?_
        rw [← List.append_assoc]
        exact each.append_right _
      · intro request member alive
        rcases List.mem_append.mp member with old | new
        · exact first request old alive
        · rw [List.mem_singleton.mp new]
          exact Nat.zero_le 1
  | false =>
      refine ⟨?_, fun _ request member same => ?_, first, by rintro ⟨⟩⟩
      · simp only [LoadTest.issue, Bool.false_eq_true, if_false, List.map_append, List.map_cons,
          List.map_nil, grown, ← List.append_assoc]
        exact each.append_right _
      · rcases List.mem_append.mp member with old | new
        · exact absurd same (older old)
        · rw [List.mem_singleton.mp new]

/-- A handler runs, after which the thread is not before `run_one`. -/
theorem handle {index : ℕ} {request : Pending} (found : test.pending[index]? = some request)
    (last inPass : Bool) (within : inPass = true → test.pc = .serving) {pc : LoadPc}
    (goesOn : pc = .consuming ∨ pc = .draining) :
    Sound { test.handle index request last inPass with pc := pc } := by
  obtain ⟨each, untouched, first, -⟩ := sound
  obtain ⟨below, there⟩ := List.getElem?_eq_some_iff.mp found
  have member := List.mem_of_getElem? found
  have elsewhere : ¬pc.awaits ∧ pc ≠ .returned := by
    rcases goesOn with rfl | rfl <;> decide
  cases last with
  | true =>
      refine ⟨?_, fun located => absurd located elsewhere.1, fun entry kept alive => ?_,
        fun located => absurd located elsewhere.2⟩
      · have moved := (List.getElem_cons_eraseIdx_perm below).map Pending.pass
        rw [there, List.map_cons] at moved
        simp only [LoadTest.handle, if_true, List.map_append, List.map_cons, List.map_nil,
          List.append_assoc, List.singleton_append]
        exact (moved.append_left _).trans each
      · rcases List.mem_append.mp kept with old | new
        · exact first entry old alive
        · rw [List.mem_singleton.mp new] at alive ⊢
          simp only [Bool.and_eq_true, decide_eq_true_eq] at alive
          have fresh := untouched (by rw [within alive.1]; rfl) request member alive.2
          exact (congrArg (· + 1) fresh).le
  | false =>
      refine ⟨?_, fun located => absurd located elsewhere.1, first,
        fun located => absurd located elsewhere.2⟩
      have kept : (test.pending.set index { request with ran := request.ran + 1 }).map
          Pending.pass = test.pending.map Pending.pass := Roster.map_set_of_eq found rfl
      simpa only [LoadTest.handle, Bool.false_eq_true, if_false, kept] using each

theorem mainStep {immediate : Bool} (taken : test.mainStep immediate = some after) :
    after.Sound := by
  cases located : test.pc with
  | issuing =>
      simp only [LoadTest.mainStep, located] at taken
      cases taken
      exact sound.issue immediate
  | doneTest =>
      simp only [LoadTest.mainStep, located] at taken
      cases taken
      exact sound.goto rfl rfl rfl (fun _ => by rw [located]; rfl)
        (by dsimp only; split <;> rintro ⟨⟩)
  | serving =>
      simp only [LoadTest.mainStep, located] at taken
      split at taken
      · cases taken
        exact sound.goto rfl rfl rfl (by rintro ⟨⟩) (by rintro ⟨⟩)
      · obtain ⟨-, taken⟩ := Option.ite_none_right_eq_some.mp taken
        cases taken
        exact sound.goto rfl rfl rfl (by rintro ⟨⟩) (by rintro ⟨⟩)
  | draining =>
      simp only [LoadTest.mainStep, located] at taken
      obtain ⟨idle, taken⟩ := Option.ite_none_right_eq_some.mp taken
      cases taken
      exact sound.goto rfl rfl rfl (by rintro ⟨⟩) fun _ => idle
  | restarting =>
      simp only [LoadTest.mainStep, located] at taken
      cases taken
      exact sound.goto rfl rfl rfl (by rintro ⟨⟩) (by rintro ⟨⟩)
  | runningTest | clockTest | consuming =>
      simp only [LoadTest.mainStep, located] at taken
      cases taken
      exact sound.goto rfl rfl rfl (by dsimp only; split <;> rintro ⟨⟩)
        (by dsimp only; split <;> rintro ⟨⟩)
  | returned =>
      simp only [LoadTest.mainStep, located] at taken
      cases taken

theorem handleStep {index : ℕ} {last : Bool} (taken : test.handleStep index last = some after) :
    after.Sound := by
  obtain ⟨request, found, taken⟩ := Option.bind_eq_some_iff.mp taken
  split at taken
  · rename_i located
    split at taken
    · cases taken
    · cases taken
      exact sound.handle found last true (fun _ => located) (.inl rfl)
  · rename_i located
    cases taken
    have kept := sound.handle found last false (by rintro ⟨⟩) (.inr located)
    cases last <;> exact kept
  · cases taken

theorem step (taken : test.step action = some after) : after.Sound := by
  cases action with
  | main immediate => exact sound.mainStep taken
  | handle index last => exact sound.handleStep taken
  | signal =>
      cases taken
      exact sound.goto rfl rfl rfl id sound.empty
  | tick now =>
      obtain ⟨-, taken⟩ := Option.ite_none_right_eq_some.mp taken
      cases taken
      exact sound.goto rfl rfl rfl id sound.empty

end Sound

/-- Every pass has one request, under way or with its callback called, and when
`run_load_test` returns the callback of each pass has been called once.  But a request that
takes more than one handler is never completed in its own pass: its callback stores into a
variable that no longer exists. -/
theorem callbacks_come_late {first : LoadTest} {targetRps : ℕ} {duration now : ℤ}
    (started : start targetRps duration now = some first)
    (reaches : Reaches step Unrestricted first test) :
    (test.completed.map Completed.pass ++ test.pending.map Pending.pass).Perm
        (List.range' 1 test.passes) ∧
      (test.pc = .returned →
        (test.completed.map Completed.pass).Perm (List.range' 1 test.passes)) ∧
      ∀ request ∈ test.completed, 2 ≤ request.handlers → request.alive = false := by
  have sound : test.Sound :=
    reaches.invariant _ (start_sound started) fun _ _ _ holds _ taken => holds.step taken
  refine ⟨sound.each, fun returned => ?_, fun request member several => ?_⟩
  · have each := sound.each
    rwa [sound.empty returned, List.map_nil, List.append_nil] at each
  · by_contra alive
    have few := sound.first request member (by simpa using alive)
    omega

/-- The request of the first pass is completed by its second handler, in the second pass. -/
def secondHandler : List Action :=
  [.main false, .main false, .main false, .main false, .handle 0 false, .main false,
    .main false, .main false, .main false, .main false, .handle 0 true]

theorem callbacks_come_late_secondHandler :
    ∃ (first test : LoadTest), start 10 60 0 = some first ∧
      run step first secondHandler = some test ∧
      test.passes = 2 ∧ test.pending = [⟨2, 0⟩] ∧
      ∀ request ∈ test.completed, 2 ≤ request.handlers → request.alive = false := by
  have ran : ((start 10 60 0).bind fun first =>
      (run step first secondHandler).map fun test =>
        (test.passes, test.pending, test.completed)) =
      some (2, [⟨2, 0⟩], [⟨1, 2, false⟩]) := by
    decide +kernel
  obtain ⟨first, started, ran⟩ := Option.bind_eq_some_iff.mp ran
  obtain ⟨test, executes, seen⟩ := Option.map_eq_some_iff.mp ran
  simp only [Prod.mk.injEq] at seen
  obtain ⟨passes, pending, -⟩ := seen
  exact ⟨first, test, started, executes, passes, pending,
    (callbacks_come_late started (reaches_of_run executes)).2.2⟩

end LoadTest

end Cppload.GrpcWorker

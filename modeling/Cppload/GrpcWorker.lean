import Cppload.TransitionSystem

/-!
# Reports of the worker

The main thread of `grpc_worker` runs one task after the other; in each of them the
completion handlers run one at a time and add to three global counters.  A second thread
loads the counters, one after the other, and sends what it read.  A request that ends with
a transport error is counted as failed but not in the total, so the total and the error
rate of a report are right exactly as long as there has been none.
-/

namespace Cppload.GrpcWorker

open Transition

/-- What the handler of a request is called with. -/
inductive Completion where
  | transportError
  | response (status : UInt16)
  deriving DecidableEq, Repr

namespace Completion

def isResponse : Completion → Bool
  | .transportError => false
  | .response _ => true

def isSuccess : Completion → Bool
  | .transportError => false
  | .response status => 200 ≤ status && status < 400

def isFailure (completion : Completion) : Bool :=
  !completion.isSuccess

end Completion

/-- A handler is between its two additions when it has counted the response and not yet
scored it. -/
inductive Handler where
  | idle
  | counted (status : UInt16)
  deriving DecidableEq, Repr

/-- One for the response that is counted and not yet scored. -/
def Handler.ahead : Handler → ℕ
  | .idle => 0
  | .counted _ => 1

/-- The fields of a `MetricsReport` that come from the counters. -/
structure MetricsReport where
  totalRequests : ℤ
  successfulRequests : ℤ
  failedRequests : ℤ
  errorRate : ℚ
  deriving DecidableEq, Repr

/-- Where `report_metrics` is, with what it has loaded so far.  When it has loaded the
divisor of the error rate, `seen` are the completions up to then. -/
inductive Reporter where
  | sleeping
  | totalRead (total : ℤ)
  | successfulRead (total successful : ℤ)
  | failedRead (total successful failed : ℤ)
  | dividing (total successful failed divisor : ℤ) (seen : List Completion)
  deriving DecidableEq, Repr

def Reporter.isDividing : Reporter → Bool
  | .dividing .. => true
  | _ => false

/-- The counters, the two threads, the requests completed so far, and the reports that
were sent, each with the completions that it is about. -/
structure Worker where
  totalRequests : ℤ
  successfulRequests : ℤ
  failedRequests : ℤ
  handler : Handler
  reporter : Reporter
  completed : List Completion
  reports : List (MetricsReport × List Completion)
  deriving DecidableEq

/-- `fetch_add(1)` on an `int64_t`. -/
def fetchAdd (counter : ℤ) : ℤ :=
  (counter + 1).bmod (2 ^ 64)

def errorRate (failed divisor : ℤ) : ℚ :=
  if divisor > 0 then failed / divisor * 100 else 0

namespace Worker

def new : Worker where
  totalRequests := 0
  successfulRequests := 0
  failedRequests := 0
  handler := .idle
  reporter := .sleeping
  completed := []
  reports := []

inductive Action where
  /-- A handler begins.  With a transport error it is over at once. -/
  | complete (completion : Completion)
  /-- The handler of a response makes its second addition. -/
  | score
  | loadTotal
  | loadSuccessful
  | loadFailed
  | loadDivisor
  | send
  deriving DecidableEq, Repr

def step (worker : Worker) : Action → Option Worker
  | .complete completion =>
      match worker.handler, completion with
      | .idle, .transportError =>
          some { worker with
            failedRequests := fetchAdd worker.failedRequests
            completed := worker.completed ++ [.transportError] }
      | .idle, .response status =>
          some { worker with
            totalRequests := fetchAdd worker.totalRequests
            handler := .counted status }
      | .counted _, _ => none
  | .score =>
      match worker.handler with
      | .idle => none
      | .counted status =>
          let scored :=
            if 200 ≤ status && status < 400 then
              { worker with successfulRequests := fetchAdd worker.successfulRequests }
            else { worker with failedRequests := fetchAdd worker.failedRequests }
          some { scored with
            handler := .idle
            completed := worker.completed ++ [.response status] }
  | .loadTotal =>
      match worker.reporter with
      | .sleeping => some { worker with reporter := .totalRead worker.totalRequests }
      | _ => none
  | .loadSuccessful =>
      match worker.reporter with
      | .totalRead total =>
          some { worker with reporter := .successfulRead total worker.successfulRequests }
      | _ => none
  | .loadFailed =>
      match worker.reporter with
      | .successfulRead total successful =>
          some { worker with reporter := .failedRead total successful worker.failedRequests }
      | _ => none
  | .loadDivisor =>
      match worker.reporter with
      | .failedRead total successful failed =>
          some { worker with
            reporter := .dividing total successful failed worker.totalRequests
              worker.completed }
      | _ => none
  | .send =>
      match worker.reporter with
      | .dividing total successful failed divisor seen =>
          let report : MetricsReport :=
            ⟨total, successful, failed, errorRate worker.failedRequests divisor⟩
          some { worker with
            reporter := .sleeping
            reports := worker.reports ++ [(report, seen)] }
      | _ => none

/-- The two loads of an error rate are made together between two completions, and there
are fewer completions than an `int64_t` can count. -/
def Undisturbed (worker : Worker) : Action → Prop
  | .complete _ | .score =>
      worker.completed.length + 1 < 2 ^ 63 ∧ worker.reporter.isDividing = false
  | .loadDivisor => worker.handler = .idle
  | _ => True

instance (worker : Worker) : (action : Action) → Decidable (worker.Undisturbed action)
  | .complete _ | .score =>
      inferInstanceAs (Decidable
        (worker.completed.length + 1 < 2 ^ 63 ∧ worker.reporter.isDividing = false))
  | .loadDivisor => inferInstanceAs (Decidable (worker.handler = .idle))
  | .loadTotal | .loadSuccessful | .loadFailed | .send => .isTrue trivial

/-! ## Counters -/

/-- What the counters, the reporter and the reports have to do with the completions. -/
structure Tallied (worker : Worker) : Prop where
  bounded : worker.completed.length + worker.handler.ahead < 2 ^ 63
  total : worker.totalRequests =
    (worker.completed.countP Completion.isResponse + worker.handler.ahead : ℕ)
  successful : worker.successfulRequests = worker.completed.countP Completion.isSuccess
  failed : worker.failedRequests = worker.completed.countP Completion.isFailure
  dividing : ∀ total successful failed divisor seen,
    worker.reporter = .dividing total successful failed divisor seen →
      seen = worker.completed ∧ divisor = worker.completed.countP Completion.isResponse
  reports : ∀ sent ∈ worker.reports, sent.1.errorRate =
    errorRate (sent.2.countP Completion.isFailure) (sent.2.countP Completion.isResponse)

theorem fetchAdd_natCast {count : ℕ} (bounded : count + 1 < 2 ^ 63) :
    fetchAdd count = (count + 1 : ℕ) := by
  rw [fetchAdd, Nat.cast_add, Nat.cast_one]
  apply Int.bmod_eq_of_le <;> omega

theorem Tallied.new : Worker.new.Tallied := by
  constructor <;> simp [Worker.new, Handler.ahead]

variable {worker next : Worker}

theorem not_dividing (notDividing : worker.reporter.isDividing = false)
    {total successful failed divisor : ℤ} {seen : List Completion} :
    worker.reporter ≠ .dividing total successful failed divisor seen := by
  intro equal
  rw [equal] at notDividing
  cases notDividing

theorem Tallied.complete {completion : Completion} (tallied : worker.Tallied)
    (undisturbed : worker.Undisturbed (.complete completion))
    (taken : worker.step (.complete completion) = some next) : next.Tallied := by
  obtain ⟨bounded, notDividing⟩ := undisturbed
  have responses := List.countP_le_length (p := Completion.isResponse) (l := worker.completed)
  have failures := List.countP_le_length (p := Completion.isFailure) (l := worker.completed)
  simp only [step] at taken
  split at taken
  · rename_i idle
    cases taken
    refine ⟨?_, ?_, ?_, ?_, fun _ _ _ _ _ equal => absurd equal (not_dividing notDividing),
      tallied.reports⟩
    · simpa [idle, Handler.ahead] using bounded
    · simpa [List.countP_append, Completion.isResponse] using tallied.total
    · simpa [List.countP_append, Completion.isSuccess] using tallied.successful
    · simp only [tallied.failed, List.countP_append]
      rw [fetchAdd_natCast (by omega)]
      rfl
  · rename_i status idle
    cases taken
    refine ⟨bounded, ?_, tallied.successful, tallied.failed,
      fun _ _ _ _ _ equal => absurd equal (not_dividing notDividing), tallied.reports⟩
    simp only [tallied.total, idle, Handler.ahead]
    exact fetchAdd_natCast (by omega)
  · cases taken

theorem Tallied.score (tallied : worker.Tallied) (undisturbed : worker.Undisturbed .score)
    (taken : worker.step .score = some next) : next.Tallied := by
  obtain ⟨bounded, notDividing⟩ := undisturbed
  have successes := List.countP_le_length (p := Completion.isSuccess) (l := worker.completed)
  have failures := List.countP_le_length (p := Completion.isFailure) (l := worker.completed)
  simp only [step] at taken
  split at taken
  · cases taken
  · rename_i status counted
    have total : worker.totalRequests =
        ((worker.completed ++ [Completion.response status]).countP Completion.isResponse : ℕ) := by
      rw [tallied.total, counted, List.countP_append]
      rfl
    cases good : decide (200 ≤ status) && decide (status < 400) with
    | true =>
        rw [if_pos good] at taken
        cases taken
        refine ⟨by simpa [Handler.ahead] using bounded, total, ?_, ?_,
          fun _ _ _ _ _ equal => absurd equal (not_dividing notDividing), tallied.reports⟩
        · simp only [tallied.successful, List.countP_append]
          rw [fetchAdd_natCast (by omega)]
          simp [Completion.isSuccess, good]
        · simpa [List.countP_append, Completion.isFailure, Completion.isSuccess, good]
            using tallied.failed
    | false =>
        rw [if_neg (by simp [good])] at taken
        cases taken
        refine ⟨by simpa [Handler.ahead] using bounded, total, ?_, ?_,
          fun _ _ _ _ _ equal => absurd equal (not_dividing notDividing), tallied.reports⟩
        · simpa [List.countP_append, Completion.isSuccess, good] using tallied.successful
        · simp only [tallied.failed, List.countP_append]
          rw [fetchAdd_natCast (by omega)]
          simp [Completion.isFailure, Completion.isSuccess, good]

theorem Tallied.step {action : Action} (tallied : worker.Tallied)
    (undisturbed : worker.Undisturbed action) (taken : worker.step action = some next) :
    next.Tallied := by
  cases action with
  | complete completion => exact tallied.complete undisturbed taken
  | score => exact tallied.score undisturbed taken
  | loadTotal | loadSuccessful | loadFailed =>
      simp only [Worker.step] at taken
      split at taken
      · cases taken
        exact ⟨tallied.bounded, tallied.total, tallied.successful, tallied.failed,
          fun _ _ _ _ _ equal => absurd equal (not_dividing rfl), tallied.reports⟩
      · cases taken
  | loadDivisor =>
      simp only [Worker.step] at taken
      split at taken
      · cases taken
        refine ⟨tallied.bounded, tallied.total, tallied.successful, tallied.failed, ?_,
          tallied.reports⟩
        intro _ _ _ _ _ equal
        cases equal
        exact ⟨rfl, by rw [tallied.total, undisturbed]; rfl⟩
      · cases taken
  | send =>
      simp only [Worker.step] at taken
      split at taken
      · rename_i dividing
        obtain ⟨rfl, rfl⟩ := tallied.dividing _ _ _ _ _ dividing
        cases taken
        refine ⟨tallied.bounded, tallied.total, tallied.successful, tallied.failed,
          fun _ _ _ _ _ equal => absurd equal (not_dividing rfl), ?_⟩
        intro sent member
        rcases List.mem_append.mp member with old | new
        · exact tallied.reports sent old
        · rw [List.mem_singleton.mp new, tallied.failed]
      · cases taken

theorem tallied_of_reaches (reachable : Reaches step Undisturbed .new worker) : worker.Tallied :=
  reachable.invariant Tallied .new fun _ _ _ tallied undisturbed taken =>
    tallied.step undisturbed taken

/-! ## Rates -/

/-- The share of failed requests, in per cent. -/
def failureRate (completed : List Completion) : ℚ :=
  if completed = [] then 0
  else 100 * completed.countP Completion.isFailure / completed.length

theorem successes_add_failures (completed : List Completion) :
    completed.countP Completion.isSuccess + completed.countP Completion.isFailure =
      completed.length := by
  induction completed with
  | nil => rfl
  | cons completion rest induction =>
      cases good : completion.isSuccess <;>
        simp only [List.countP_cons, List.length_cons, Completion.isFailure, good] <;> grind

/-- What is no response is a failure. -/
theorem length_le_responses_add_failures (completed : List Completion) :
    completed.length ≤
      completed.countP Completion.isResponse + completed.countP Completion.isFailure := by
  rw [← successes_add_failures completed]
  refine Nat.add_le_add_right (List.countP_mono_left fun completion _ success => ?_) _
  cases completion with
  | transportError => cases success
  | response status => rfl

theorem responses_eq_length_iff (completed : List Completion) :
    completed.countP Completion.isResponse = completed.length ↔
      .transportError ∉ completed := by
  rw [List.countP_eq_length]
  constructor
  · intro all member
    cases all _ member
  · intro absent completion member
    cases completion with
    | transportError => exact absurd member absent
    | response status => rfl

/-- The rate of a report is the share of failed requests, and between 0 and 100, exactly
if no request ended with a transport error. -/
theorem errorRate_right_iff (completed : List Completion) :
    (errorRate (completed.countP Completion.isFailure) (completed.countP Completion.isResponse) =
        failureRate completed ∧
      0 ≤ errorRate (completed.countP Completion.isFailure)
        (completed.countP Completion.isResponse) ∧
      errorRate (completed.countP Completion.isFailure)
        (completed.countP Completion.isResponse) ≤ 100) ↔
      .transportError ∉ completed := by
  have missing := length_le_responses_add_failures completed
  have responsesLe := List.countP_le_length (p := Completion.isResponse) (l := completed)
  have failuresLe := List.countP_le_length (p := Completion.isFailure) (l := completed)
  rw [← responses_eq_length_iff]
  simp only [errorRate, failureRate, ← List.length_eq_zero_iff]
  generalize completed.length = length at *
  generalize completed.countP Completion.isResponse = responses at *
  generalize completed.countP Completion.isFailure = failures at *
  constructor
  · rintro ⟨equal, _⟩
    by_contra fewer
    have positiveLength : length ≠ 0 := by omega
    have failed : (failures : ℚ) ≠ 0 := by
      have : failures ≠ 0 := by omega
      exact_mod_cast this
    have lengthNe : (length : ℚ) ≠ 0 := by exact_mod_cast positiveLength
    rw [if_neg positiveLength] at equal
    rcases Nat.eq_zero_or_pos responses with unanswered | positive
    · rw [unanswered, if_neg (by simp)] at equal
      have zero := (div_eq_zero_iff.mp equal.symm).resolve_right lengthNe
      exact failed ((mul_eq_zero.mp zero).resolve_left (by norm_num))
    · have responsesNe : (responses : ℚ) ≠ 0 := by exact_mod_cast positive.ne'
      rw [if_pos (by exact_mod_cast positive)] at equal
      push_cast at equal
      field_simp at equal
      exact fewer (by exact_mod_cast equal.symm)
  · rintro rfl
    rcases Nat.eq_zero_or_pos responses with unanswered | positive
    · simp [unanswered]
    · have responsesPos : (0 : ℚ) < responses := by exact_mod_cast positive
      have share : (failures : ℚ) ≤ responses := by exact_mod_cast failuresLe
      rw [if_pos (by exact_mod_cast positive), if_neg (by omega)]
      push_cast
      refine ⟨by ring, by positivity, ?_⟩
      rw [div_mul_eq_mul_div, div_le_iff₀ responsesPos]
      linarith

/-- The counters between two completions and every report that was sent are right exactly
if no request ended with a transport error. -/
theorem reachable_reports_consistent_iff (reachable : Reaches step Undisturbed .new worker) :
    (worker.handler = .idle →
      (worker.totalRequests = worker.successfulRequests + worker.failedRequests ∧
        worker.totalRequests = worker.completed.length ↔
        .transportError ∉ worker.completed)) ∧
      ∀ report seen, (report, seen) ∈ worker.reports →
        (report.errorRate = failureRate seen ∧ 0 ≤ report.errorRate ∧ report.errorRate ≤ 100 ↔
          .transportError ∉ seen) := by
  have tallied := tallied_of_reaches reachable
  constructor
  · intro idle
    have total := tallied.total
    have all := successes_add_failures worker.completed
    rw [idle] at total
    rw [total, tallied.successful, tallied.failed, ← responses_eq_length_iff]
    simp only [Handler.ahead]
    omega
  · intro report seen member
    rw [tallied.reports _ member]
    exact errorRate_right_iff seen

/-- Two responses, one of them good; both threads are between their rounds. -/
theorem reachable_reports_consistent_half_failed :
    ∃ worker : Worker, Reaches step Undisturbed .new worker ∧ worker.handler = .idle ∧
      .transportError ∉ worker.completed ∧
      worker.totalRequests = worker.successfulRequests + worker.failedRequests ∧
      worker.totalRequests = worker.completed.length ∧
      worker.reports.map (fun sent => sent.1.errorRate) = [50] := by
  have evaluated :
      (guardedRun step Undisturbed .new
        [.complete (.response 200), .score, .complete (.response 503), .loadTotal, .score,
          .loadSuccessful, .loadFailed, .loadDivisor, .send]).map
        (fun worker => (worker.handler, worker.completed,
          worker.reports.map fun sent => sent.1.errorRate)) =
        some (.idle, [.response 200, .response 503], [50]) := by
    decide +kernel
  obtain ⟨worker, executes, seen⟩ := Option.map_eq_some_iff.mp evaluated
  simp only [Prod.mk.injEq] at seen
  have reaches := reaches_of_guardedRun executes
  have absent : .transportError ∉ worker.completed := by simp [seen.2.1]
  have right := ((reachable_reports_consistent_iff reaches).1 seen.1).mpr absent
  exact ⟨worker, reaches, seen.1, absent, right.1, right.2, seen.2.2⟩

/-- One transport error: a failed request that is missing in the total, and a report
without errors.  With a good response after it, every second request has failed and the
report says that all have.  A completion between the two loads of a rate makes it 200. -/
theorem transport_error_not_in_total :
    (run step .new
      [.complete .transportError, .loadTotal, .loadSuccessful, .loadFailed, .loadDivisor, .send,
        .complete (.response 200), .score, .loadTotal, .loadSuccessful, .loadFailed,
        .loadDivisor, .send]).map
      (fun worker => (worker.totalRequests, worker.failedRequests, worker.completed.length,
        worker.reports.map fun sent => sent.1.errorRate)) = some (1, 1, 2, [0, 100]) ∧
    (run step .new
      [.complete (.response 503), .score, .loadTotal, .loadSuccessful, .loadFailed, .loadDivisor,
        .complete (.response 503), .score, .send]).map
      (fun worker => worker.reports.map fun sent => sent.1.errorRate) = some [200] := by
  decide +kernel

end Worker

end Cppload.GrpcWorker

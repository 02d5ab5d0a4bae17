import Cppload.MetricsCollectorAgreement
import Cppload.RequestScoring
import Cppload.ScenarioSteps

/-!
# The engine and the command line score every request alike

The completion handler of a worker decides from the error code, records the request
in the collector of the engine, and calls back.  The callback of the command line
decides from the status alone and records the request in a collector of its own.
They agree because no client delivers an error together with a status, so after a
run the two collectors hold the same totals.
-/

namespace Cppload

open Transition

/-! ### No error comes with a status -/

namespace Http11

/-- The status fits its type, and an error comes without one. -/
structure Response.Consistent (response : Response) : Prop where
  fits : response.statusCode < 2 ^ 16
  unscored : response.ec ≠ none → response.statusCode = 0

/-- What was delivered for a request so far. -/
def Exchange.Consistent (exchange : Exchange) : Prop :=
  ∀ response, .handled response ∈ exchange.log → response.Consistent

theorem Response.Consistent.of_error (ec : Option Err) (latency : ℤ) :
    Response.Consistent { ec := ec, latency := latency } :=
  ⟨Nat.two_pow_pos 16, fun _ => rfl⟩

theorem populateResponse_consistent (client : Client) (message : Message) (result : IoResult)
    (startTime now : ℤ) :
    (populateResponse client message result startTime now).Consistent := by
  have copied : ∀ cap latency,
      (copyMessage cap message { latency := latency }).Consistent :=
    fun cap latency => ⟨Nat.mod_lt _ (by decide), fun failed => absurd rfl failed⟩
  cases result with
  | success | endOfStream => exact copied _ _
  | timedOut | hostNotFound | other => exact .of_error _ _

section Callbacks

variable {isVerb : String → Bool} {client : Client} {exchange : Exchange}
variable {completion : Completion}

namespace Exchange.Consistent

theorem handle (consistent : exchange.Consistent) {response : Response}
    (delivered : response.Consistent) : (exchange.handle response).Consistent := by
  intro other handled
  rcases List.mem_append.mp handled with earlier | last
  · exact consistent other earlier
  · obtain rfl := Event.handled.inj (List.mem_singleton.mp last)
    exact delivered

theorem reject (consistent : exchange.Consistent) (ec : Err) :
    (exchange.handle { ec := some ec }).Consistent :=
  consistent.handle (.of_error _ _)

theorem fail (consistent : exchange.Consistent) (failure : BuildFailure) :
    (exchange.fail failure).Consistent := by
  cases failure with
  | refused ec => exact consistent.reject ec
  | threw =>
      intro response handled
      rcases List.mem_append.mp handled with earlier | last
      · exact consistent response earlier
      · cases List.mem_singleton.mp last

theorem write (consistent : exchange.Consistent) (connection : Connection) (reused : Bool) :
    (exchange.write connection reused).Consistent := by
  intro response handled
  rcases List.mem_append.mp handled with earlier | last
  · exact consistent response earlier
  · cases List.mem_singleton.mp last

theorem abandon (consistent : exchange.Consistent) (connection : Connection) :
    (exchange.abandon connection).Consistent := by
  intro response handled
  rcases List.mem_append.mp handled with earlier | last
  · exact consistent response earlier
  · cases List.mem_singleton.mp last

theorem requestFresh (consistent : exchange.Consistent) (isVerb : String → Bool)
    (client : Client) : (requestFresh isVerb client exchange).2.Consistent := by
  unfold Http11.requestFresh
  split
  · exact consistent.fail _
  · exact consistent

theorem onResolve (consistent : exchange.Consistent) :
    (onResolve client exchange completion).2.Consistent := by
  unfold Http11.onResolve
  split
  · split <;> exact consistent
  · exact consistent.reject _
  · exact consistent.reject _

theorem onConnectTcp (consistent : exchange.Consistent) (stream : ℕ) :
    (onConnectTcp client exchange stream completion).2.Consistent := by
  unfold Http11.onConnectTcp
  split
  · exact consistent.write _ _
  · exact consistent.reject _
  · exact consistent.reject _

theorem onConnectTls (consistent : exchange.Consistent) (stream : ℕ) :
    (onConnectTls client exchange stream completion).2.Consistent := by
  unfold Http11.onConnectTls
  split
  · split
    · exact consistent.reject _
    · exact consistent
  · exact consistent.reject _
  · exact consistent.reject _

theorem onHandshake (consistent : exchange.Consistent) (stream : ℕ) :
    (onHandshake client exchange stream completion).2.Consistent := by
  unfold Http11.onHandshake
  split
  · exact consistent.write _ _
  · exact consistent.reject _

theorem onWriteCached (consistent : exchange.Consistent) (connection : Connection) :
    (onWriteCached isVerb client exchange connection completion).2.Consistent := by
  unfold Http11.onWriteCached
  split
  · exact consistent
  · dsimp only
    split
    · exact (consistent.abandon connection).requestFresh isVerb _
    · exact consistent.reject _

theorem onReadCached (consistent : exchange.Consistent) (connection : Connection) :
    (onReadCached isVerb client exchange connection completion).2.Consistent := by
  have delivered := populateResponse_consistent client completion.message completion.result
    exchange.startTime completion.now
  unfold Http11.onReadCached
  dsimp only
  split
  · exact consistent.handle delivered
  · split
    · exact (consistent.abandon connection).requestFresh isVerb _
    · exact consistent.handle delivered

theorem onWriteFresh (consistent : exchange.Consistent) (connection : Connection) :
    (onWriteFresh client exchange connection completion).2.Consistent := by
  unfold Http11.onWriteFresh
  split
  · exact consistent
  · exact consistent.reject _

theorem onReadFresh (consistent : exchange.Consistent) (connection : Connection) :
    (onReadFresh client exchange connection completion).2.Consistent :=
  consistent.handle (populateResponse_consistent _ _ _ _ _)

/-- Every callback, the retries on a fresh connection included. -/
theorem complete (consistent : exchange.Consistent) {result : Client × Exchange}
    (taken : complete isVerb client exchange completion = some result) :
    result.2.Consistent := by
  unfold Http11.complete at taken
  split at taken
  · cases taken
    exact consistent.onResolve
  · cases taken
    exact consistent.onConnectTcp _
  · cases taken
    exact consistent.onConnectTls _
  · cases taken
    exact consistent.onHandshake _
  · cases taken
    exact consistent.onWriteCached _
  · cases taken
    exact consistent.onWriteFresh _
  · cases taken
    exact consistent.onReadCached _
  · cases taken
    exact consistent.onReadFresh _
  · cases taken

end Exchange.Consistent

theorem asyncRequest_consistent (isVerb : String → Bool) (client : Client) (request : Request)
    (peek : Peek) (startTime : ℤ) :
    (asyncRequest isVerb client request peek startTime).2.Consistent := by
  have consistent : Exchange.Consistent
      { request := request, startTime := startTime, phase := .idle, log := [] } := by
    intro response handled
    cases handled
  unfold asyncRequest
  dsimp only
  split
  · exact consistent.reject _
  · split
    · unfold requestOnCached
      split
      · exact consistent.fail _
      · split
        · exact consistent.requestFresh isVerb _
        · split <;> exact consistent.write _ _
    · exact consistent.requestFresh isVerb client

end Callbacks

/-- In every run of a client all responses it has delivered are consistent. -/
theorem System.reachable_consistent {isVerb : String → Bool} {keepAlive : Bool}
    {system : System}
    (reachable : Reaches (System.step isVerb) Unrestricted (.new keepAlive) system) :
    ∀ exchange ∈ system.exchanges, exchange.Consistent := by
  refine reachable.invariant (fun system => ∀ exchange ∈ system.exchanges, exchange.Consistent)
    (by simp [System.new]) ?_
  intro before action after consistent _ taken
  cases action with
  | request request peek startTime =>
      cases taken
      intro exchange member
      rcases List.mem_append.mp member with old | new
      · exact consistent exchange old
      · rw [List.mem_singleton.mp new]
        exact asyncRequest_consistent isVerb before.client request peek startTime
  | complete index completion =>
      simp only [System.step, Option.bind_eq_some_iff, Option.map_eq_some_iff] at taken
      obtain ⟨exchange, found, result, completed, rfl⟩ := taken
      intro other member
      rcases List.mem_or_eq_of_mem_set member with old | rfl
      · exact consistent other old
      · exact (consistent exchange (List.mem_of_getElem? found)).complete completed
  | setKeepAlive | setMaxBodyBytes =>
      cases taken
      exact consistent

end Http11

namespace Net

/-- The status fits its type, and an error comes without one. -/
structure RawResponse.Consistent (response : RawResponse) : Prop where
  fits : response.statusCode < 2 ^ 16
  unscored : response.ec ≠ none → response.statusCode = 0

theorem RawResponse.Consistent.of_error (ec : Option RawErr) (latency : ℤ) :
    RawResponse.Consistent { ec := ec, latency := latency } :=
  ⟨Nat.two_pow_pos 16, fun _ => rfl⟩

theorem RawResponse.Consistent.of_read (body : List UInt8) (latency : ℤ) :
    RawResponse.Consistent { latency := latency, body := body, statusCode := 1 } :=
  ⟨Nat.one_lt_two_pow (by decide), fun failed => absurd rfl failed⟩

theorem RawResponse.Consistent.ofOperations {response : RawResponse}
    (consistent : response.Consistent) (operations : Except RawErr Unit) :
    (RawResponse.ofOperations operations response).Consistent := by
  cases operations with
  | error error => exact .of_error _ _
  | ok => exact consistent

theorem TcpRawClient.asyncRequest_consistent (tlsContext : Bool) (request : Http11.Request)
    (transport : Transport) :
    (TcpRawClient.asyncRequest tlsContext request transport).Consistent := by
  apply RawResponse.Consistent.ofOperations
  unfold populateResponse
  split
  · exact .of_read _ _
  · exact .of_error _ _

theorem WsClient.asyncRequest_consistent (tlsContext : Bool) (request : Http11.Request)
    (transport : Transport) :
    (WsClient.asyncRequest tlsContext request transport).Consistent := by
  apply RawResponse.Consistent.ofOperations
  unfold populateResponse
  split
  · exact .of_read _ _
  · exact .of_error _ _

end Net

namespace Scenario

/-- Whatever the protocol, a response that comes with an error has no status. -/
theorem Delivers.consistent {protocol : Protocol} {answer : Answer}
    (delivers : Delivers protocol answer) :
    answer.statusCode < 2 ^ 16 ∧ (answer.failed = true → answer.statusCode = 0) := by
  cases delivers with
  | http11 reachable member handled =>
      have consistent := Http11.System.reachable_consistent reachable _ member _ handled
      exact ⟨consistent.fits,
        fun failed => consistent.unscored (Option.isSome_iff_ne_none.mp failed)⟩
  | tcpRaw tlsContext request transport =>
      have consistent := Net.TcpRawClient.asyncRequest_consistent tlsContext request transport
      exact ⟨consistent.fits,
        fun failed => consistent.unscored (Option.isSome_iff_ne_none.mp failed)⟩
  | ws tlsContext request transport =>
      have consistent := Net.WsClient.asyncRequest_consistent tlsContext request transport
      exact ⟨consistent.fits,
        fun failed => consistent.unscored (Option.isSome_iff_ne_none.mp failed)⟩

/-! ### The two scores of a request -/

namespace Answer

/-- The code that the callback of the command line computes. -/
def callbackCode (answer : Answer) (assertions : List Text) : ℕ :=
  if answer.statusCode ≠ 0 ∧ answer.meets assertions = false then 0 else answer.statusCode

theorem callbackCode_le (answer : Answer) (assertions : List Text) :
    answer.callbackCode assertions ≤ answer.statusCode := by
  unfold callbackCode
  split
  · exact Nat.zero_le _
  · exact le_rfl

/-- Without a status beside an error the two codes are the same. -/
theorem code_eq_callbackCode {answer : Answer}
    (unscored : answer.failed = true → answer.statusCode = 0) (assertions : List Text) :
    answer.code assertions = answer.callbackCode assertions := by
  unfold code callbackCode
  cases failed : answer.failed with
  | true => simp [unscored failed]
  | false => rfl

end Answer

/-- The request is one that a worker makes of the step. -/
def Makes (step : Engine.HttpStep) (request : Http11.Request) : Prop :=
  ∃ (plan : Engine.Plan) (system : Engine.System) (choice : Engine.Choice)
    (worker : Engine.Worker) (entry : ℕ × ℕ),
    Engine.selectStep plan.scenarios worker.stepIx choice.pick = some entry ∧
      Engine.stepAt plan.scenarios entry = some step ∧
      (worker.choose plan system choice).2.pc = .issuing request

theorem Makes.body_eq {step : Engine.HttpStep} {request : Http11.Request}
    (makes : Makes step request) : request.body = step.body := by
  obtain ⟨plan, system, choice, worker, entry, selected, found, issues⟩ := makes
  obtain ⟨chosen, chosenFound, -, fields⟩ := Engine.Worker.choose_of_some system selected
  obtain rfl := Option.some.inj (chosenFound.symm.trans found)
  exact (fields request issues).2.2

/-- A request with what its client delivers, within the ranges of the types. -/
structure Outcome where
  step : Engine.HttpStep
  assertions : List Text
  request : Http11.Request
  makes : Makes step request
  protocol : Protocol
  answer : Answer
  delivers : Delivers protocol answer
  latency_ge : Metrics.microsecondsMin ≤ answer.latency
  latency_le : answer.latency ≤ Metrics.microsecondsMax
  requestBody_lt : request.body.length < 2 ^ 64
  body_lt : answer.bodySize < 2 ^ 64

namespace Outcome

variable (outcome : Outcome)

theorem code_eq : outcome.answer.code outcome.assertions =
    outcome.answer.callbackCode outcome.assertions :=
  Answer.code_eq_callbackCode outcome.delivers.consistent.2 outcome.assertions

theorem callbackCode_lt : outcome.answer.callbackCode outcome.assertions < 2 ^ 16 :=
  (outcome.answer.callbackCode_le outcome.assertions).trans_lt outcome.delivers.consistent.1

/-- What the completion handler records. -/
def engineSample : Metrics.Sample where
  statusCode := outcome.answer.code outcome.assertions
  latency := outcome.answer.latency
  bytesSent := outcome.request.body.length
  bytesReceived := outcome.answer.bodySize
  statusCode_lt := outcome.code_eq.trans_lt outcome.callbackCode_lt
  latency_ge := outcome.latency_ge
  latency_le := outcome.latency_le
  bytesSent_lt := outcome.requestBody_lt
  bytesReceived_lt := outcome.body_lt

/-- What the callback of the command line records. -/
def callbackSample : Metrics.Sample where
  statusCode := outcome.answer.callbackCode outcome.assertions
  latency := outcome.answer.latency
  bytesSent := outcome.step.body.length
  bytesReceived := outcome.answer.bodySize
  statusCode_lt := outcome.callbackCode_lt
  latency_ge := outcome.latency_ge
  latency_le := outcome.latency_le
  bytesSent_lt := outcome.makes.body_eq ▸ outcome.requestBody_lt
  bytesReceived_lt := outcome.body_lt

theorem engineSample_eq : outcome.engineSample = outcome.callbackSample := by
  have sent : outcome.request.body.length = outcome.step.body.length :=
    congrArg List.length outcome.makes.body_eq
  simp only [engineSample, callbackSample, outcome.code_eq, sent]

end Outcome

/-! ### The two collectors -/

/-- Where a completion handler is: in `record_request` of the engine's collector, in
that of the callback, with the number of the call, or at its end. -/
inductive HandlerPc where
  | scoring (task : ℕ)
  | reporting (task : ℕ)
  | done
  deriving DecidableEq, Repr

def HandlerPc.scoring? : HandlerPc → Option ℕ
  | .scoring task => some task
  | _ => none

def HandlerPc.reporting? : HandlerPc → Option ℕ
  | .reporting task => some task
  | _ => none

structure Handler where
  outcome : Outcome
  pc : HandlerPc

/-- What the callback of a handler has been called with. -/
def Handler.reported (handler : Handler) : Option Metrics.Sample :=
  match handler.pc with
  | .scoring _ => none
  | .reporting _ | .done => some handler.outcome.callbackSample

/-- The engine's collector, that of the command line, and all completion handlers
called in the run, on whatever threads. -/
structure Run where
  engine : Metrics.System
  cli : Metrics.System
  handlers : List Handler

inductive RunAction where
  | deliver (outcome : Outcome)
  | callback (handler : ℕ)
  | finish (handler : ℕ)
  | moveEngine (index : ℕ) (choice : Metrics.Choice)
  | moveCli (index : ℕ) (choice : Metrics.Choice)
  | collectEngine
  | collectCli

namespace Run

def new (engineStart cliStart : ℤ) : Run where
  engine := .new engineStart
  cli := .new cliStart
  handlers := []

/-- One step of one thread: a handler goes on when the call it is in has returned,
and both collectors may be read at any time. -/
def step (run : Run) : RunAction → Option Run
  | .deliver outcome =>
      (run.engine.step (.call (.record outcome.engineSample))).map fun engine =>
        { run with
          engine := engine
          handlers := run.handlers ++
            [{ outcome := outcome, pc := .scoring run.engine.tasks.length }] }
  | .callback index =>
      run.handlers[index]?.bind fun handler =>
        match handler.pc with
        | .scoring task =>
            if run.engine.tasks[task]?.any Metrics.Task.isReturned then
              (run.cli.step (.call (.record handler.outcome.callbackSample))).map fun cli =>
                { run with
                  cli := cli
                  handlers := run.handlers.set index
                    { handler with pc := .reporting run.cli.tasks.length } }
            else none
        | _ => none
  | .finish index =>
      run.handlers[index]?.bind fun handler =>
        match handler.pc with
        | .reporting task =>
            if run.cli.tasks[task]?.any Metrics.Task.isReturned then
              some { run with handlers := run.handlers.set index { handler with pc := .done } }
            else none
        | _ => none
  | .moveEngine index choice =>
      (run.engine.step (.move index choice)).map fun engine => { run with engine := engine }
  | .moveCli index choice =>
      (run.cli.step (.move index choice)).map fun cli => { run with cli := cli }
  | .collectEngine =>
      (run.engine.step (.call .collect)).map fun engine => { run with engine := engine }
  | .collectCli => (run.cli.step (.call .collect)).map fun cli => { run with cli := cli }

/-- Every completion handler has come to its end. -/
def Finished (run : Run) : Prop :=
  ∀ handler ∈ run.handlers, handler.pc = .done

end Run

/-! #### Every record in progress belongs to a handler -/

/-- A record that has not returned is one that some handler is in. -/
def Attended (tasks : List Metrics.Task) (calls : List (Option ℕ)) : Prop :=
  ∀ (index : ℕ) (task : Metrics.Task), tasks[index]? = some task →
    task.sample ≠ none → task.isReturned = false → some index ∈ calls

namespace Attended

variable {system next : Metrics.System} {calls : List (Option ℕ)}

theorem mono {tasks : List Metrics.Task} (attended : Attended tasks calls)
    {later : List (Option ℕ)} (kept : ∀ call, some call ∈ calls → some call ∈ later) :
    Attended tasks later :=
  fun index task found records unreturned =>
    kept index (attended index task found records unreturned)

theorem record (attended : Attended system.tasks calls) {sample : Metrics.Sample}
    (taken : system.step (.call (.record sample)) = some next)
    (added : some system.tasks.length ∈ calls) : Attended next.tasks calls := by
  cases taken
  intro index task found records unreturned
  rcases Roster.getElem?_concat_cases found with old | ⟨rfl, -⟩
  · exact attended index task old records unreturned
  · exact added

theorem collect (attended : Attended system.tasks calls)
    (taken : system.step (.call .collect) = some next) : Attended next.tasks calls := by
  cases taken
  intro index task found records unreturned
  rcases Roster.getElem?_concat_cases found with old | ⟨-, rfl⟩
  · exact attended index task old records unreturned
  · exact absurd rfl records

theorem move {index : ℕ} {choice : Metrics.Choice} (attended : Attended system.tasks calls)
    (taken : system.step (.move index choice) = some next) : Attended next.tasks calls := by
  obtain ⟨task, nextTask, found, moved, tasksEq⟩ := Metrics.System.step_move taken
  have running := Metrics.Task.running_of_move moved
  intro position entry located records unreturned
  rw [tasksEq] at located
  rcases Roster.getElem?_set_cases located with ⟨rfl, rfl⟩ | ⟨-, old⟩
  · exact attended position task found ((Metrics.Task.move_kind moved).2 ▸ records) running
  · exact attended position entry old records unreturned

/-- A handler enters a call. -/
theorem enter {tasks : List Metrics.Task} (attended : Attended tasks calls) {index : ℕ}
    (outside : calls[index]? = some none) (call : ℕ) :
    Attended tasks (calls.set index (some call)) := by
  refine attended.mono fun other member => ?_
  obtain ⟨position, located⟩ := List.mem_iff_getElem?.mp member
  have distinct : index ≠ position := by
    rintro rfl
    cases outside.symm.trans located
  exact List.mem_of_getElem? ((List.getElem?_set_ne distinct).trans located)

/-- A handler leaves a call that has returned. -/
theorem leave {tasks : List Metrics.Task} (attended : Attended tasks calls) {index call : ℕ}
    (inside : calls[index]? = some (some call))
    (returned : tasks[call]?.any Metrics.Task.isReturned = true) :
    Attended tasks (calls.set index none) := by
  intro position task found records unreturned
  obtain ⟨other, located⟩ :=
    List.mem_iff_getElem?.mp (attended position task found records unreturned)
  have distinct : index ≠ other := by
    rintro rfl
    obtain rfl := Option.some.inj (Option.some.inj (inside.symm.trans located))
    rw [found, Option.any_some, unreturned] at returned
    cases returned
  exact List.mem_of_getElem? ((List.getElem?_set_ne distinct).trans located)

end Attended

namespace Run

variable {run next : Run}

/-- Both collectors have the records of the handlers, each as far as they have come. -/
structure Booked (run : Run) : Prop where
  engine : run.engine.Tallied
  cli : run.cli.Tallied
  scored : run.engine.records.Perm (run.handlers.map fun handler => handler.outcome.engineSample)
  reported : run.cli.records.Perm (run.handlers.filterMap Handler.reported)
  scoring : Attended run.engine.tasks (run.handlers.map fun handler => handler.pc.scoring?)
  reporting : Attended run.cli.tasks (run.handlers.map fun handler => handler.pc.reporting?)

theorem new_booked (engineStart cliStart : ℤ) : (new engineStart cliStart).Booked where
  engine := Metrics.System.new_tallied engineStart
  cli := Metrics.System.new_tallied cliStart
  scored := .nil
  reported := .nil
  scoring := by simp [Attended, new, Metrics.System.new]
  reporting := by simp [Attended, new, Metrics.System.new]

theorem Booked.deliver {outcome : Outcome} (booked : run.Booked)
    (taken : run.step (.deliver outcome) = some next) : next.Booked := by
  simp only [Run.step] at taken
  obtain ⟨engine, called, rfl⟩ := Option.map_eq_some_iff.mp taken
  constructor
  · exact booked.engine.call rfl called
  · exact booked.cli
  · rw [Metrics.System.records_record called, List.map_append]
    exact booked.scored.append_right _
  · rw [List.filterMap_append]
    exact (List.append_nil _).symm ▸ booked.reported
  · rw [List.map_append]
    refine Attended.record (booked.scoring.mono ?_) called ?_
    · exact fun call member => List.mem_append_left _ member
    · exact List.mem_append_right _ (List.mem_singleton.mpr rfl)
  · rw [List.map_append]
    exact booked.reporting.mono fun call member => List.mem_append_left _ member

/-- A handler that goes on keeps its outcome. -/
theorem engineSample_set {handlers : List Handler} {index : ℕ} {handler : Handler}
    (found : handlers[index]? = some handler) (pc : HandlerPc) :
    ((handlers.set index { handler with pc := pc }).map fun handler =>
      handler.outcome.engineSample) =
      handlers.map fun handler => handler.outcome.engineSample :=
  Roster.map_set_of_eq found rfl

theorem Booked.callback {index : ℕ} (booked : run.Booked)
    (taken : run.step (.callback index) = some next) : next.Booked := by
  obtain ⟨handler, found, moved⟩ := Option.bind_eq_some_iff.mp taken
  split at moved
  · rename_i task at_
    split at moved
    · rename_i returned
      obtain ⟨cli, called, rfl⟩ := Option.map_eq_some_iff.mp moved
      constructor
      · exact booked.engine
      · exact booked.cli.call rfl called
      · exact booked.scored.trans (.of_eq (engineSample_set found _).symm)
      · have grown : ((run.handlers.set index
              { handler with pc := .reporting run.cli.tasks.length }).filterMap
              Handler.reported).Perm
            (run.handlers.filterMap Handler.reported ++ [handler.outcome.callbackSample]) :=
          Roster.filterMap_set_perm_of_none found (by simp [Handler.reported, at_]) rfl
        rw [Metrics.System.records_record called]
        exact (booked.reported.append_right _).trans grown.symm
      · rw [List.map_set]
        refine booked.scoring.leave ?_ returned
        rw [List.getElem?_map, found, Option.map_some, at_]
        rfl
      · rw [List.map_set]
        have unreported : (run.handlers.map fun handler => handler.pc.reporting?)[index]? =
            some none := by
          rw [List.getElem?_map, found, Option.map_some, at_]
          rfl
        refine Attended.record (booked.reporting.enter unreported _) called ?_
        exact List.mem_of_getElem? (Roster.getElem?_set_self unreported)
    · cases moved
  · cases moved

theorem Booked.finish {index : ℕ} (booked : run.Booked)
    (taken : run.step (.finish index) = some next) : next.Booked := by
  obtain ⟨handler, found, moved⟩ := Option.bind_eq_some_iff.mp taken
  split at moved
  · rename_i task at_
    split at moved
    · rename_i returned
      cases moved
      constructor
      · exact booked.engine
      · exact booked.cli
      · exact booked.scored.trans (.of_eq (engineSample_set found _).symm)
      · refine booked.reported.trans (Roster.filterMap_set_perm_of_eq found ?_).symm
        simp [Handler.reported, at_]
      · refine booked.scoring.mono fun call member => ?_
        rwa [Roster.map_set_of_eq found (by rw [at_]; rfl)]
      · rw [List.map_set]
        refine booked.reporting.leave ?_ returned
        rw [List.getElem?_map, found, Option.map_some, at_]
        rfl
    · cases moved
  · cases moved

theorem Booked.step {action : RunAction} (booked : run.Booked)
    (taken : run.step action = some next) : next.Booked := by
  cases action with
  | deliver outcome => exact booked.deliver taken
  | callback index => exact booked.callback taken
  | finish index => exact booked.finish taken
  | moveEngine index choice =>
      obtain ⟨engine, moved, rfl⟩ := Option.map_eq_some_iff.mp taken
      exact ⟨booked.engine.move moved, booked.cli,
        (Metrics.System.records_move moved).trans booked.scored, booked.reported,
        booked.scoring.move moved, booked.reporting⟩
  | moveCli index choice =>
      obtain ⟨cli, moved, rfl⟩ := Option.map_eq_some_iff.mp taken
      exact ⟨booked.engine, booked.cli.move moved, booked.scored,
        (Metrics.System.records_move moved).trans booked.reported, booked.scoring,
        booked.reporting.move moved⟩
  | collectEngine =>
      simp only [Run.step] at taken
      obtain ⟨engine, called, rfl⟩ := Option.map_eq_some_iff.mp taken
      exact ⟨booked.engine.call rfl called, booked.cli,
        Metrics.System.records_collect called ▸ booked.scored, booked.reported,
        booked.scoring.collect called, booked.reporting⟩
  | collectCli =>
      simp only [Run.step] at taken
      obtain ⟨cli, called, rfl⟩ := Option.map_eq_some_iff.mp taken
      exact ⟨booked.engine, booked.cli.call rfl called, booked.scored,
        Metrics.System.records_collect called ▸ booked.reported, booked.scoring,
        booked.reporting.collect called⟩

theorem Booked.recordsReturned (booked : run.Booked) (finished : run.Finished) :
    run.engine.RecordsReturned ∧ run.cli.RecordsReturned := by
  have returned : ∀ {tasks : List Metrics.Task} {call? : HandlerPc → Option ℕ},
      call? .done = none → Attended tasks (run.handlers.map fun handler => call? handler.pc) →
        ∀ task ∈ tasks, ∀ sample ∈ task.sample, task.isReturned = true := by
    intro tasks call? outside attended task member sample sampleEq
    -- a record in progress would have a handler in it, but all have ended
    by_contra unreturned
    obtain ⟨index, found⟩ := List.mem_iff_getElem?.mp member
    have inside := attended index task found (Option.ne_none_iff_exists'.mpr ⟨sample, sampleEq⟩)
      (Bool.eq_false_iff.mpr unreturned)
    obtain ⟨handler, present, callEq⟩ := List.mem_map.mp inside
    rw [finished handler present, outside] at callEq
    cases callEq
  exact ⟨returned rfl booked.scoring, returned rfl booked.reporting⟩

theorem Booked.records_perm (booked : run.Booked) (finished : run.Finished) :
    run.engine.records.Perm run.cli.records := by
  have reported : run.handlers.filterMap Handler.reported =
      run.handlers.map fun handler => handler.outcome.engineSample := by
    rw [← List.filterMap_eq_map]
    refine List.filterMap_congr fun handler member => ?_
    simp only [Handler.reported, finished handler member, Function.comp_apply]
    rw [handler.outcome.engineSample_eq]
  exact booked.scored.trans (reported ▸ booked.reported).symm

/-- A client delivers no status with an error, the completion handler and the callback
record the same for every request, and in every run the two collectors hold the same
totals once all handlers have ended. -/
theorem engine_and_cli_agree {engineStart cliStart : ℤ}
    (reachable : Reaches Run.step Unrestricted (.new engineStart cliStart) run)
    (finished : run.Finished) :
    (∀ protocol answer, Delivers protocol answer → answer.failed = true →
      answer.statusCode = 0) ∧
      (∀ outcome : Outcome, outcome.engineSample = outcome.callbackSample) ∧
      run.engine.collector.SameTotals run.cli.collector := by
  have booked : run.Booked := reachable.invariant Booked (new_booked engineStart cliStart)
    fun _ _ _ booked _ taken => booked.step taken
  refine ⟨?_, Outcome.engineSample_eq, ?_⟩
  · intro protocol answer delivers
    exact delivers.consistent.2
  · obtain ⟨engineReturned, cliReturned⟩ := booked.recordsReturned finished
    exact booked.engine.sameTotals engineReturned booked.cli cliReturned
      (booked.records_perm finished)

/-- The step of a probe, and the request that a worker makes of it. -/
def probeStep : Engine.HttpStep :=
  { method := "GET", path := [47], body := [], headers := [], useTls := false }

theorem probe_makes : Makes probeStep (Http11.getRoot "localhost") :=
  ⟨(Engine.Config.probe []).plan 0 0, .initial .new, {}, .spawned ⟨0, 0, 1, 0, false⟩ 0 true,
    (0, 0), by decide, by decide, by decide⟩

/-- The probe over raw TCP, answered after five microseconds. -/
def answeredProbe : Outcome where
  step := probeStep
  assertions := []
  request := Http11.getRoot "localhost"
  makes := probe_makes
  protocol := .tcpRaw
  answer := ⟨false, 1, 5, 4⟩
  delivers := .tcpRaw true (Http11.getRoot "localhost") smoothTransport
  latency_ge := by decide
  latency_le := by decide
  requestBody_lt := by decide
  body_lt := by decide

/-- The probe over raw TCP, whose read times out after seven microseconds. -/
def expiredProbe : Outcome where
  step := probeStep
  assertions := []
  request := Http11.getRoot "localhost"
  makes := probe_makes
  protocol := .tcpRaw
  answer := ⟨true, 0, 7, 0⟩
  delivers := .tcpRaw true (Http11.getRoot "localhost")
    { smoothTransport with read := .streamTimeout, endTime := 7000 }
  latency_ge := by decide
  latency_le := by decide
  requestBody_lt := by decide
  body_lt := by decide

/-- Two probes, the second delivered while the first one is being reported. -/
theorem engine_and_cli_agree_two_probes :
    ∃ run, Reaches Run.step Unrestricted (.new 0 0) run ∧ run.handlers.length = 2 ∧
      run.cli.collector.counters .totalRequests = 2 ∧
      run.engine.collector.SameTotals run.cli.collector := by
  have evaluated :
      (Transition.run Run.step (.new 0 0)
        (List.flatten
          [[.deliver answeredProbe], List.replicate 14 (.moveEngine 0 Metrics.smooth),
            [.callback 0, .deliver expiredProbe],
            List.replicate 13 (.moveEngine 1 Metrics.smooth),
            List.replicate 14 (.moveCli 0 Metrics.smooth), [.finish 0, .callback 1],
            List.replicate 13 (.moveCli 1 Metrics.smooth), [.finish 1]])).map
        (fun run => (run.handlers.map Handler.pc,
          run.cli.collector.counters .totalRequests)) =
      some ([.done, .done], 2) := by
    decide +kernel
  obtain ⟨run, executes, results⟩ := Option.map_eq_some_iff.mp evaluated
  obtain ⟨pcs, total⟩ := Prod.mk.inj results
  have reachable := reaches_of_run executes
  have finished : run.Finished := by
    intro handler member
    have mapped := List.mem_map_of_mem (f := Handler.pc) member
    rw [pcs] at mapped
    simpa using mapped
  have two : run.handlers.length = 2 := by
    rw [← List.length_map Handler.pc, pcs]
    rfl
  exact ⟨run, reachable, two, total, (engine_and_cli_agree reachable finished).2.2⟩

end Run

end Scenario

end Cppload

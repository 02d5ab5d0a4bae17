import Cppload.TransitionSystem
import Cppload.JsonAccess
import Cppload.RepositoryIntegrity
import Cppload.PolicyEvaluator

/-!
# The HTTP interface of the control plane

`HttpServer::route` and its handlers.  A handler that reads the body of a POST
first parses it with exceptions off and then reads fields with `value` and `at`,
which throw.  There is no `catch` above them in the accept thread, so an exception
ends the process.

How a text is parsed is an argument: nothing depends on which texts are JSON.
Identifiers and clock readings come with the request, as for the repository.
-/

namespace Cppload.Platform

open Transition

/-- The verbs the handlers tell apart. -/
inductive Verb where
  | get
  | post
  | delete
  | other
  deriving DecidableEq, Repr

/-- A response with a JSON body.  The header fields are the same for all of them. -/
structure HttpResponse where
  status : ℕ
  body : Json

namespace HttpResponse

/-- The response tells that the client is at fault. -/
def ClientError (response : HttpResponse) : Prop :=
  400 ≤ response.status ∧ response.status < 500

/-- `error_response`. -/
def error (status : ℕ) (message : String) : HttpResponse :=
  ⟨status, .object [("error", .string message)]⟩

/-- `ok_response`. -/
def ok (body : Json) : HttpResponse :=
  ⟨200, body⟩

/-- `created_response`. -/
def created (body : Json) : HttpResponse :=
  ⟨201, body⟩

/-- `method_not_allowed_response`. -/
def methodNotAllowed : HttpResponse :=
  error 405 "method not allowed"

/-- `not_found_response`. -/
def notFound : HttpResponse :=
  error 404 "not found"

end HttpResponse

/-- `status_to_http`. -/
def PlatformError.toHttp : PlatformError → ℕ
  | .notFound => 404
  | .alreadyExists => 409
  | .invalidInput => 400
  | .invalidState => 409

/-- The text of `to_time_t`: whole seconds of a clock that counts nanoseconds. -/
def timeText (time : ℤ) : Json :=
  .string (toString (time.tdiv 1000000000))

def Project.toJson (project : Project) : Json :=
  .object [("id", .string project.id), ("name", .string project.name),
    ("description", .string project.description), ("created_at", timeText project.createdAt)]

def Scenario.toJson (scenario : Scenario) : Json :=
  .object [("id", .string scenario.id), ("project_id", .string scenario.projectId),
    ("name", .string scenario.name), ("version", .string scenario.version),
    ("yaml", .string scenario.yamlContent), ("created_at", timeText scenario.createdAt)]

def RunResult.toJson (result : RunResult) : Json :=
  .object [("total_requests", .number result.totalRequests),
    ("successful_requests", .number result.successfulRequests),
    ("failed_requests", .number result.failedRequests),
    ("error_rate_pct", .number result.errorRatePct),
    ("throughput_rps", .number result.throughputRps),
    ("p50_latency_ms", .number result.p50LatencyMs),
    ("p95_latency_ms", .number result.p95LatencyMs),
    ("p99_latency_ms", .number result.p99LatencyMs)]

def RunStatus.text : RunStatus → String
  | .pending => "pending"
  | .running => "running"
  | .completed => "completed"
  | .failed => "failed"

def Run.toJson (run : Run) : Json :=
  .object ([("id", .string run.id), ("project_id", .string run.projectId),
    ("scenario_id", .string run.scenarioId), ("environment", .string run.environment),
    ("status", .string run.status.text), ("started_at", timeText run.startedAt)] ++
    (run.finishedAt.map fun time => ("finished_at", timeText time)).toList ++
    (run.result.map fun result => ("result", result.toJson)).toList)

def PolicyRule.toJson (rule : PolicyRule) : Json :=
  .object [("metric", .string rule.metric), ("op", .string rule.op),
    ("threshold", .number rule.threshold)]

def Policy.toJson (policy : Policy) : Json :=
  .object [("id", .string policy.id), ("project_id", .string policy.projectId),
    ("name", .string policy.name), ("rules", .array (policy.rules.map PolicyRule.toJson)),
    ("created_at", timeText policy.createdAt)]

def PolicySeverity.text : PolicySeverity → String
  | .warning => "warning"
  | .error => "error"

def PolicyViolation.toJson (violation : PolicyViolation) : Json :=
  .object [("metric", .string violation.ruleMetric), ("message", .string violation.message),
    ("severity", .string violation.severity.text)]

def PolicyEvaluation.toJson (evaluation : PolicyEvaluation) : Json :=
  .object [("run_id", .string evaluation.runId), ("policy_id", .string evaluation.policyId),
    ("passed", .bool evaluation.passed),
    ("violations", .array (evaluation.violations.map PolicyViolation.toJson))]

/-- `from_json_policy_rule`. -/
def PolicyRule.fromJson (json : Json) : Except JsonError PolicyRule :=
  (json.getAt "metric" Json.getString).bind fun metric =>
    (json.getAt "op" Json.getString).bind fun op =>
      (json.getAt "threshold" Json.getDouble).bind fun threshold =>
        .ok ⟨metric, op, threshold⟩

/-- The loop over the rules in `handle_policies`. -/
def PolicyRule.listFromJson : List Json → Except JsonError (List PolicyRule)
  | [] => .ok []
  | json :: rest =>
      (fromJson json).bind fun rule => (listFromJson rest).bind fun rules => .ok (rule :: rules)

/-! The arguments that the handlers read from the body of a POST. -/

def readProject (json : Json) : Except JsonError (String × String) :=
  (json.value "name" "").bind fun name =>
    (json.value "description" "").bind fun description => .ok (name, description)

def readScenario (json : Json) : Except JsonError (String × String × String) :=
  (json.value "name" "").bind fun name =>
    (json.value "version" "").bind fun version =>
      (json.value "yaml" "").bind fun yaml => .ok (name, version, yaml)

def readRun (json : Json) : Except JsonError (String × String) :=
  (json.value "scenario_id" "").bind fun scenarioId =>
    (json.value "environment" "").bind fun environment => .ok (scenarioId, environment)

/-- The items of the field `rules`, which count only if they are an array. -/
def ruleItems (json : Json) : List Json :=
  ((json.field? "rules").bind Json.items?).getD []

def readPolicy (json : Json) : Except JsonError (List PolicyRule × String) :=
  (PolicyRule.listFromJson (ruleItems json)).bind fun rules =>
    (json.value "name" "").bind fun name => .ok (rules, name)

def readEvaluation (json : Json) : Except JsonError (String × String) :=
  (json.value "run_id" "").bind fun runId =>
    (json.value "policy_id" "").bind fun policyId => .ok (runId, policyId)

/-- What a handler leaves behind: an exception or a response, and the repository. -/
abbrev Reply :=
  Except JsonError HttpResponse × Repository

namespace Repository

variable (repository : Repository)

/-- A response that leaves the repository alone. -/
def answer (response : HttpResponse) : Reply :=
  (.ok response, repository)

/-- A POST: parse the body, read the arguments, act on them. -/
def post {Arguments : Type} (parsed : Option Json)
    (read : Json → Except JsonError Arguments) (act : Arguments → HttpResponse × Repository) :
    Reply :=
  match parsed with
  | none => repository.answer (.error 400 "invalid JSON")
  | some json =>
      match read json with
      | .error exception => (.error exception, repository)
      | .ok arguments => (.ok (act arguments).1, (act arguments).2)

/-- The end of a handler that has called a creating operation. -/
def respondCreated {Value : Type} (result : Except PlatformError Value × Repository)
    (toJson : Value → Json) (message : String) : HttpResponse × Repository :=
  match result.1 with
  | .error error => (.error error.toHttp message, result.2)
  | .ok value => (.created (toJson value), result.2)

def handleProjects (stamp : Stamp) (verb : Verb) (parsed : Option Json) : Reply :=
  match verb with
  | .get =>
      repository.answer (.ok (.array (repository.listProjects.map Project.toJson)))
  | .post =>
      repository.post parsed readProject fun arguments =>
        respondCreated (repository.createProject arguments.1 arguments.2 stamp)
          Project.toJson "invalid input"
  | .delete | .other => repository.answer .methodNotAllowed

def handleProject (verb : Verb) (id : String) : Reply :=
  match verb with
  | .get =>
      match repository.getProject id with
      | .error error => repository.answer (.error error.toHttp "error")
      | .ok project => repository.answer (.ok project.toJson)
  | .delete =>
      match repository.deleteProject id with
      | (.error error, left) => (.ok (.error error.toHttp "not found"), left)
      | (.ok _, left) => (.ok (.ok (.object [("deleted", .bool true)])), left)
  | .post | .other => repository.answer .methodNotAllowed

def handleScenarios (stamp : Stamp) (verb : Verb) (projectId : String)
    (parsed : Option Json) : Reply :=
  match verb with
  | .get =>
      repository.answer
        (.ok (.array ((repository.listScenarios projectId).map Scenario.toJson)))
  | .post =>
      repository.post parsed readScenario fun arguments =>
        respondCreated
          (repository.createScenario projectId arguments.1 arguments.2.1 arguments.2.2 stamp)
          Scenario.toJson "error"
  | .delete | .other => repository.answer .methodNotAllowed

def handleRuns (stamp : Stamp) (verb : Verb) (projectId : String) (parsed : Option Json) :
    Reply :=
  match verb with
  | .get =>
      repository.answer (.ok (.array ((repository.listRuns projectId).map Run.toJson)))
  | .post =>
      repository.post parsed readRun fun arguments =>
        respondCreated (repository.createRun projectId arguments.1 arguments.2 stamp)
          Run.toJson "error"
  | .delete | .other => repository.answer .methodNotAllowed

def handlePolicies (stamp : Stamp) (verb : Verb) (projectId : String)
    (parsed : Option Json) : Reply :=
  match verb with
  | .get =>
      repository.answer (.ok (.array ((repository.listPolicies projectId).map Policy.toJson)))
  | .post =>
      repository.post parsed readPolicy fun arguments =>
        respondCreated (repository.createPolicy projectId arguments.2 arguments.1 stamp)
          Policy.toJson "error"
  | .delete | .other => repository.answer .methodNotAllowed

def handleEvaluate (verb : Verb) (parsed : Option Json) : Reply :=
  match verb with
  | .post =>
      repository.post parsed readEvaluation fun arguments =>
        if arguments.1 = "" ∨ arguments.2 = "" then
          (.error 400 "run_id and policy_id required", repository)
        else
          (.ok (PolicyEvaluator.evaluate repository arguments.1 arguments.2).toJson,
            repository)
  | .get | .delete | .other => repository.answer .methodNotAllowed

end Repository

/-- The handler that `route` selects. -/
inductive Route where
  | projects
  | project (id : String)
  | scenarios (projectId : String)
  | runs (projectId : String)
  | policies (projectId : String)
  | evaluate
  | health
  | unknown
  deriving DecidableEq, Repr

namespace Route

/-- The tests of `route` that come after those below `/api/v1/projects`. -/
def ofFixed (path : String) : Route :=
  if path = "/api/v1/evaluate" then .evaluate
  else if path = "/health" then .health
  else .unknown

/-- The selection made by `route`. -/
def ofPath (path : String) : Route :=
  if path = "/api/v1/projects" then .projects
  else if "/api/v1/projects/".toList.isPrefixOf path.toList then
    let rest := path.toList.drop 17
    if '/' ∉ rest then .project (String.ofList rest)
    else
      let projectId := String.ofList (rest.takeWhile (· ≠ '/'))
      let sub := String.ofList (rest.dropWhile (· ≠ '/'))
      if sub = "/scenarios" then .scenarios projectId
      else if sub = "/runs" then .runs projectId
      else if sub = "/policies" then .policies projectId
      else ofFixed path
  else ofFixed path

/-- The call of the selected handler. -/
def handle (route : Route) (repository : Repository) (stamp : Stamp) (verb : Verb)
    (parsed : Option Json) : Reply :=
  match route with
  | .projects => repository.handleProjects stamp verb parsed
  | .project id => repository.handleProject verb id
  | .scenarios projectId => repository.handleScenarios stamp verb projectId parsed
  | .runs projectId => repository.handleRuns stamp verb projectId parsed
  | .policies projectId => repository.handlePolicies stamp verb projectId parsed
  | .evaluate => repository.handleEvaluate verb parsed
  | .health => repository.answer (.ok (.object [("status", .string "ok")]))
  | .unknown => repository.answer .notFound

end Route

/-- A request, with the identifier and the clock reading its handling would use. -/
structure Request where
  verb : Verb
  path : String
  body : String
  stamp : Stamp

def route (parse : String → Option Json) (repository : Repository) (request : Request) :
    Reply :=
  (Route.ofPath request.path).handle repository request.stamp request.verb
    (parse request.body)

/-! ## Which bodies are read without an exception -/

/-- A policy rule has a metric, an operator and a threshold. -/
def RuleShape (json : Json) : Prop :=
  json.Required "metric" Json.isString ∧ json.Required "op" Json.isString ∧
    json.Required "threshold" Json.isNumber

/-- The body is an object, and each of these fields is absent or a string. -/
def StringFields (json : Json) (keys : List String) : Prop :=
  json.isObject = true ∧ ∀ key ∈ keys, json.OptionalString key

namespace Route

/-- The bodies that the handler of a POST reads without an exception. -/
def Readable : Route → Json → Prop
  | .projects, json => StringFields json ["name", "description"]
  | .scenarios _, json => StringFields json ["name", "version", "yaml"]
  | .runs _, json => StringFields json ["scenario_id", "environment"]
  | .policies _, json =>
      StringFields json ["name"] ∧ ∀ rule ∈ ruleItems json, RuleShape rule
  | .evaluate, json => StringFields json ["run_id", "policy_id"]
  | .project _, _ | .health, _ | .unknown, _ => True

/-- The bodies of the right shape: those that can be read, and whose field `rules`
is an array where it is used. -/
def Shape : Route → Json → Prop
  | .policies projectId, json =>
      Readable (.policies projectId) json ∧
        ∀ field ∈ json.field? "rules", field.items?.isSome = true
  | route, json => route.Readable json

end Route

theorem exists_fromJson_iff {json : Json} :
    (∃ rule, PolicyRule.fromJson json = .ok rule) ↔ RuleShape json := by
  simp only [PolicyRule.fromJson, exists_bind_ok_iff, exists_and_right, Except.ok.injEq,
    exists_eq', and_true, Json.exists_getAt_iff fun _ => Json.exists_getString_iff,
    Json.exists_getAt_iff fun _ => Json.exists_getDouble_iff, RuleShape]

theorem exists_listFromJson_iff {items : List Json} :
    (∃ rules, PolicyRule.listFromJson items = .ok rules) ↔ ∀ rule ∈ items, RuleShape rule := by
  induction items with
  | nil => simp [PolicyRule.listFromJson]
  | cons json rest ih =>
      simp only [PolicyRule.listFromJson, exists_bind_ok_iff, exists_and_right,
        Except.ok.injEq, exists_eq', and_true, ih, exists_fromJson_iff, List.forall_mem_cons]

theorem stringFields_singleton {json : Json} {key : String} :
    StringFields json [key] ↔ json.isObject = true ∧ json.OptionalString key := by
  simp [StringFields]

theorem stringFields_cons_cons {json : Json} {key next : String} {keys : List String} :
    StringFields json (key :: next :: keys) ↔
      (json.isObject = true ∧ json.OptionalString key) ∧ StringFields json (next :: keys) := by
  simp only [StringFields, List.forall_mem_cons]
  tauto

theorem exists_readProject_iff {json : Json} :
    (∃ arguments, readProject json = .ok arguments) ↔
      StringFields json ["name", "description"] := by
  simp only [readProject, exists_bind_ok_iff, exists_and_right, Except.ok.injEq, exists_eq',
    and_true, Json.exists_value_iff, stringFields_cons_cons, stringFields_singleton]

theorem exists_readScenario_iff {json : Json} :
    (∃ arguments, readScenario json = .ok arguments) ↔
      StringFields json ["name", "version", "yaml"] := by
  simp only [readScenario, exists_bind_ok_iff, exists_and_right, Except.ok.injEq, exists_eq',
    and_true, Json.exists_value_iff, stringFields_cons_cons, stringFields_singleton]

theorem exists_readRun_iff {json : Json} :
    (∃ arguments, readRun json = .ok arguments) ↔
      StringFields json ["scenario_id", "environment"] := by
  simp only [readRun, exists_bind_ok_iff, exists_and_right, Except.ok.injEq, exists_eq',
    and_true, Json.exists_value_iff, stringFields_cons_cons, stringFields_singleton]

theorem exists_readPolicy_iff {json : Json} :
    (∃ arguments, readPolicy json = .ok arguments) ↔
      StringFields json ["name"] ∧ ∀ rule ∈ ruleItems json, RuleShape rule := by
  simp only [readPolicy, exists_bind_ok_iff, exists_and_right, Except.ok.injEq, exists_eq',
    and_true, Json.exists_value_iff, stringFields_singleton, exists_listFromJson_iff]
  exact and_comm

theorem exists_readEvaluation_iff {json : Json} :
    (∃ arguments, readEvaluation json = .ok arguments) ↔
      StringFields json ["run_id", "policy_id"] := by
  simp only [readEvaluation, exists_bind_ok_iff, exists_and_right, Except.ok.injEq, exists_eq',
    and_true, Json.exists_value_iff, stringFields_cons_cons, stringFields_singleton]

/-! ## What a request does to the server -/

namespace Repository

variable {repository : Repository} {Arguments : Type} {parsed : Option Json} {json : Json}
  {read : Json → Except JsonError Arguments} {act : Arguments → HttpResponse × Repository}

theorem post_returns_iff :
    (∃ response, (repository.post parsed read act).1 = .ok response) ↔
      ∀ json ∈ parsed, ∃ arguments, read json = .ok arguments := by
  cases parsed with
  | none => simp [post, answer]
  | some json => cases outcome : read json <;> simp [post, outcome]

/-- The arguments are read before the repository is touched. -/
theorem post_throws (unread : ¬ ∃ arguments, read json = .ok arguments) :
    ∃ exception, repository.post (some json) read act = (.error exception, repository) := by
  cases outcome : read json with
  | error exception => exact ⟨exception, by simp [post, outcome]⟩
  | ok arguments => exact absurd ⟨arguments, outcome⟩ unread

end Repository

namespace Route

variable (repository : Repository) (stamp : Stamp)

/-- Only a POST can throw, and it does so exactly for the bodies that the handler
cannot read. -/
theorem handle_returns_iff (route : Route) (verb : Verb) (parsed : Option Json) :
    (∃ response, (route.handle repository stamp verb parsed).1 = .ok response) ↔
      (verb = .post → ∀ json ∈ parsed, route.Readable json) := by
  have returns (response : HttpResponse) :
      ∃ sent, (repository.answer response).1 = .ok sent := ⟨response, rfl⟩
  cases route with
  | projects =>
      cases verb with
      | post =>
          simp only [handle, Repository.handleProjects, Repository.post_returns_iff,
            exists_readProject_iff, Readable, true_imp_iff]
      | get | delete | other => simp [handle, Repository.handleProjects, returns]
  | project id =>
      cases verb with
      | get =>
          cases found : repository.getProject id <;>
            simp [handle, Repository.handleProject, found, returns]
      | delete =>
          simp only [handle, Repository.handleProject]
          split <;> simp
      | post | other => simp [handle, Repository.handleProject, returns, Readable]
  | scenarios projectId =>
      cases verb with
      | post =>
          simp only [handle, Repository.handleScenarios, Repository.post_returns_iff,
            exists_readScenario_iff, Readable, true_imp_iff]
      | get | delete | other => simp [handle, Repository.handleScenarios, returns]
  | runs projectId =>
      cases verb with
      | post =>
          simp only [handle, Repository.handleRuns, Repository.post_returns_iff,
            exists_readRun_iff, Readable, true_imp_iff]
      | get | delete | other => simp [handle, Repository.handleRuns, returns]
  | policies projectId =>
      cases verb with
      | post =>
          simp only [handle, Repository.handlePolicies, Repository.post_returns_iff,
            exists_readPolicy_iff, Readable, true_imp_iff]
      | get | delete | other => simp [handle, Repository.handlePolicies, returns]
  | evaluate =>
      cases verb with
      | post =>
          simp only [handle, Repository.handleEvaluate, Repository.post_returns_iff,
            exists_readEvaluation_iff, Readable, true_imp_iff]
      | get | delete | other => simp [handle, Repository.handleEvaluate, returns]
  | health | unknown => simp [handle, returns, Readable]

/-- An exception leaves the repository as it was. -/
theorem handle_throws {route : Route} {json : Json} (unreadable : ¬ route.Readable json) :
    ∃ exception,
      route.handle repository stamp .post (some json) = (.error exception, repository) := by
  cases route with
  | projects => exact Repository.post_throws (exists_readProject_iff.not.mpr unreadable)
  | scenarios projectId =>
      exact Repository.post_throws (exists_readScenario_iff.not.mpr unreadable)
  | runs projectId => exact Repository.post_throws (exists_readRun_iff.not.mpr unreadable)
  | policies projectId =>
      exact Repository.post_throws (exists_readPolicy_iff.not.mpr unreadable)
  | evaluate => exact Repository.post_throws (exists_readEvaluation_iff.not.mpr unreadable)
  | project _ | health | unknown => exact absurd trivial unreadable

/-- A policy without rules is refused. -/
theorem handlePolicies_no_rules {projectId : String} {json : Json}
    (readable : (Route.policies projectId).Readable json) (empty : ruleItems json = []) :
    ∃ response, repository.handlePolicies stamp .post projectId (some json) =
      (.ok response, repository) ∧ response.ClientError := by
  obtain ⟨arguments, outcome⟩ := exists_readPolicy_iff.mpr readable
  have none_read : arguments.1 = [] := by
    simp only [readPolicy, empty, PolicyRule.listFromJson, Except.bind] at outcome
    split at outcome
    · cases outcome
    · cases outcome
      rfl
  have refused : repository.check (.policy projectId arguments.2 arguments.1) =
      .error .invalidInput := by
    simp [Repository.check, Creation.valid, none_read]
  refine ⟨.error 400 "error", ?_, by decide, by decide⟩
  simp [Repository.handlePolicies, Repository.post, outcome, Repository.respondCreated,
    Repository.createPolicy, Repository.create, refused, Except.map, PlatformError.toHttp]

/-- A body of the wrong shape changes nothing, and a response to it is a refusal. -/
theorem handle_wrong_shape {route : Route} {json : Json} (wrong : ¬ route.Shape json) :
    (route.handle repository stamp .post (some json)).2 = repository ∧
      ∀ response, (route.handle repository stamp .post (some json)).1 = .ok response →
        response.ClientError := by
  by_cases readable : route.Readable json
  · -- Only `handle_policies` accepts a body of the wrong shape: it skips such rules.
    cases route with
    | policies projectId =>
        have skipped : ruleItems json = [] := by
          simp only [Shape, not_and, not_forall] at wrong
          obtain ⟨field, found, wrongKind⟩ := wrong readable
          rw [Option.mem_def] at found
          simp only [Bool.not_eq_true, Option.isSome_eq_false_iff, Option.isNone_iff_eq_none]
            at wrongKind
          simp [ruleItems, found, wrongKind]
        obtain ⟨response, handled, refusal⟩ :=
          handlePolicies_no_rules repository stamp readable skipped
        simp only [handle, handled, Except.ok.injEq, forall_eq', true_and]
        exact refusal
    | projects | project _ | scenarios _ | runs _ | evaluate | health | unknown =>
        exact absurd readable wrong
  · obtain ⟨exception, handled⟩ := handle_throws repository stamp readable
    simp [handled]

end Route

/-- A request gets a response exactly if it is no POST with a JSON body its handler
cannot read.  A POST whose JSON body has the wrong shape leaves the repository as it
was, and if it gets a response then a refusal. -/
theorem route_returns_iff (parse : String → Option Json) (repository : Repository)
    (request : Request) :
    ((∃ response, (route parse repository request).1 = .ok response) ↔
      (request.verb = .post →
        ∀ json ∈ parse request.body, (Route.ofPath request.path).Readable json)) ∧
    (request.verb = .post →
      ∀ json ∈ parse request.body, ¬ (Route.ofPath request.path).Shape json →
        (route parse repository request).2 = repository ∧
        ∀ response, (route parse repository request).1 = .ok response →
          response.ClientError) := by
  refine ⟨Route.handle_returns_iff repository request.stamp _ _ _, ?_⟩
  intro posted json parsed wrong
  unfold route
  rw [posted, Option.mem_def.mp parsed]
  exact Route.handle_wrong_shape repository request.stamp wrong

/-- The empty array is valid JSON and no object; posted as a project it throws. -/
theorem route_throws_on_array :
    ∃ (parse : String → Option Json) (request : Request),
      request.path = "/api/v1/projects" ∧ request.verb = .post ∧
      parse request.body = some (.array []) ∧
      (route parse .empty request).1 = .error .typeError := by
  refine ⟨fun text => if text = "[]" then some (.array []) else none,
    ⟨.post, "/api/v1/projects", "[]", ⟨"p", 0⟩⟩, rfl, rfl, rfl, rfl⟩

end Cppload.Platform

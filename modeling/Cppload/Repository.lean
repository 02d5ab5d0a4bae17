import Cppload.Table

/-!
# The repository of the control plane

`InMemoryRepository` keeps projects, scenarios, runs and policies in four maps
under one mutex.  An operation that creates a scenario, a run or a policy takes
the mutex twice, once to look for the project and once to enter the new record;
both critical sections are definitions of their own, and the operations are their
compositions.

Identifiers from `generate_id` and clock readings are arguments.  Numbers of type
`double` are taken as exact.
-/

namespace Cppload.Platform

inductive PlatformError where
  | notFound
  | alreadyExists
  | invalidInput
  | invalidState
  deriving DecidableEq, Repr

inductive RunStatus where
  | pending
  | running
  | completed
  | failed
  deriving DecidableEq, Repr

structure Project where
  id : String
  name : String
  description : String
  createdAt : ℤ
  deriving DecidableEq, Repr

structure Scenario where
  id : String
  projectId : String
  name : String
  version : String
  yamlContent : String
  createdAt : ℤ
  deriving DecidableEq, Repr

structure RunResult where
  totalRequests : ℤ := 0
  successfulRequests : ℤ := 0
  failedRequests : ℤ := 0
  errorRatePct : ℚ := 0
  throughputRps : ℚ := 0
  p50LatencyMs : ℚ := 0
  p95LatencyMs : ℚ := 0
  p99LatencyMs : ℚ := 0
  deriving DecidableEq, Repr

structure Run where
  id : String
  projectId : String
  scenarioId : String
  environment : String
  status : RunStatus
  startedAt : ℤ
  finishedAt : Option ℤ
  result : Option RunResult
  deriving DecidableEq, Repr

structure PolicyRule where
  metric : String
  op : String
  threshold : ℚ
  deriving DecidableEq, Repr

structure Policy where
  id : String
  projectId : String
  name : String
  rules : List PolicyRule
  createdAt : ℤ
  deriving DecidableEq, Repr

/-- The four maps of `InMemoryRepository`. -/
structure Repository where
  projects : Table String Project
  scenarios : Table String Scenario
  runs : Table String Run
  policies : Table String Policy
  deriving DecidableEq

/-- What a creating operation takes from outside: `generate_id()` and the clock. -/
structure Stamp where
  id : String
  now : ℤ
  deriving DecidableEq, Repr

/-- The arguments of an operation that takes the mutex twice. -/
inductive Creation where
  | scenario (projectId name version yamlContent : String)
  | run (projectId scenarioId environment : String)
  | policy (projectId name : String) (rules : List PolicyRule)
  deriving DecidableEq, Repr

def Scenario.create (stamp : Stamp) (projectId name version yamlContent : String) : Scenario :=
  ⟨stamp.id, projectId, name, version, yamlContent, stamp.now⟩

def Run.create (stamp : Stamp) (projectId scenarioId environment : String) : Run :=
  ⟨stamp.id, projectId, scenarioId, environment, .pending, stamp.now, none, none⟩

def Policy.create (stamp : Stamp) (projectId name : String) (rules : List PolicyRule) :
    Policy :=
  ⟨stamp.id, projectId, name, rules, stamp.now⟩

namespace Creation

def projectId : Creation → String
  | .scenario projectId _ _ _ | .run projectId _ _ | .policy projectId _ _ => projectId

/-- The check of the arguments, made before the mutex is taken. -/
def valid : Creation → Bool
  | .scenario projectId name _ _ => projectId ≠ "" && name ≠ ""
  | .run projectId _ _ => projectId ≠ ""
  | .policy projectId name rules => projectId ≠ "" && name ≠ "" && rules ≠ []

end Creation

namespace Repository

def empty : Repository where
  projects := ∅
  scenarios := ∅
  runs := ∅
  policies := ∅

/-- The check of the arguments and the first critical section of a creation. -/
def check (repository : Repository) (creation : Creation) : Except PlatformError Unit :=
  if !creation.valid then .error .invalidInput
  else if creation.projectId ∈ repository.projects then .ok ()
  else .error .notFound

/-- The second critical section of a creation. -/
def enter (repository : Repository) (stamp : Stamp) : Creation → Repository
  | .scenario projectId name version yamlContent =>
      { repository with
        scenarios := AList.insert stamp.id
          (.create stamp projectId name version yamlContent) repository.scenarios }
  | .run projectId scenarioId environment =>
      { repository with
        runs := AList.insert stamp.id (.create stamp projectId scenarioId environment)
          repository.runs }
  | .policy projectId name rules =>
      { repository with
        policies := AList.insert stamp.id (.create stamp projectId name rules)
          repository.policies }

def createProject (repository : Repository) (name description : String) (stamp : Stamp) :
    Except PlatformError Project × Repository :=
  if name = "" then (.error .invalidInput, repository)
  else
    let project : Project := ⟨stamp.id, name, description, stamp.now⟩
    (.ok project,
      { repository with projects := AList.insert stamp.id project repository.projects })

/-- `it == end()`. -/
def found {Value : Type} (value : Option Value) : Except PlatformError Value :=
  match value with
  | some value => .ok value
  | none => .error .notFound

def getProject (repository : Repository) (id : String) : Except PlatformError Project :=
  found (repository.projects.lookup id)

/-- `list_projects`, newest first. -/
def listProjects (repository : Repository) : List Project :=
  repository.projects.values.mergeSort fun first second => second.createdAt ≤ first.createdAt

def deleteProject (repository : Repository) (id : String) :
    Except PlatformError Bool × Repository :=
  if id ∈ repository.projects then
    (.ok true,
      { projects := repository.projects.erase id
        scenarios := repository.scenarios.keep fun scenario => scenario.projectId ≠ id
        runs := repository.runs.keep fun run => run.projectId ≠ id
        policies := repository.policies.keep fun policy => policy.projectId ≠ id })
  else (.error .notFound, repository)

/-- A creation whose two critical sections follow each other. -/
def create (repository : Repository) (creation : Creation) (stamp : Stamp) :
    Except PlatformError Unit × Repository :=
  match repository.check creation with
  | .error error => (.error error, repository)
  | .ok () => (.ok (), repository.enter stamp creation)

def createScenario (repository : Repository)
    (projectId name version yamlContent : String) (stamp : Stamp) :
    Except PlatformError Scenario × Repository :=
  let created := repository.create (.scenario projectId name version yamlContent) stamp
  (created.1.map fun _ => .create stamp projectId name version yamlContent, created.2)

def getScenario (repository : Repository) (id : String) : Except PlatformError Scenario :=
  found (repository.scenarios.lookup id)

/-- `list_scenarios`, newest first. -/
def listScenarios (repository : Repository) (projectId : String) : List Scenario :=
  (repository.scenarios.values.filter fun scenario => scenario.projectId = projectId).mergeSort
    fun first second => second.createdAt ≤ first.createdAt

def createRun (repository : Repository) (projectId scenarioId environment : String)
    (stamp : Stamp) : Except PlatformError Run × Repository :=
  let created := repository.create (.run projectId scenarioId environment) stamp
  (created.1.map fun _ => .create stamp projectId scenarioId environment, created.2)

def getRun (repository : Repository) (id : String) : Except PlatformError Run :=
  found (repository.runs.lookup id)

/-- `list_runs`, newest first. -/
def listRuns (repository : Repository) (projectId : String) : List Run :=
  (repository.runs.values.filter fun run => run.projectId = projectId).mergeSort
    fun first second => second.startedAt ≤ first.startedAt

def finishRun (repository : Repository) (id : String) (status : RunStatus)
    (result : RunResult) (now : ℤ) : Except PlatformError Bool × Repository :=
  match repository.runs.lookup id with
  | none => (.error .notFound, repository)
  | some run =>
      if run.status = .completed || run.status = .failed then
        (.error .invalidState, repository)
      else
        (.ok true,
          { repository with
            runs := AList.insert id
              { run with status := status, finishedAt := some now, result := some result }
              repository.runs })

def createPolicy (repository : Repository) (projectId name : String)
    (rules : List PolicyRule) (stamp : Stamp) : Except PlatformError Policy × Repository :=
  let created := repository.create (.policy projectId name rules) stamp
  (created.1.map fun _ => .create stamp projectId name rules, created.2)

def getPolicy (repository : Repository) (id : String) : Except PlatformError Policy :=
  found (repository.policies.lookup id)

def listPolicies (repository : Repository) (projectId : String) : List Policy :=
  repository.policies.values.filter fun policy => policy.projectId = projectId

end Repository

end Cppload.Platform

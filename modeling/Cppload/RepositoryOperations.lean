import Cppload.RepositoryIntegrity

/-!
# Sequences of repository operations

The operations of `Repository` one after the other, each of them completed before the
next begins.  An operation that fails changes nothing, `delete_project` removes a project
with all that belongs to it, and no sequence leaves a record without its project.

The second half follows a run through such a sequence.  `finish_run` refuses a run whose
status is final, but it stores whatever status it is given; only as long as that is a
final one does the stored result mean that the run is over.
-/

namespace Cppload.Platform

open Transition

/-- A call, with the identifier and the clock reading it will take. -/
inductive Operation where
  | createProject (name description : String) (stamp : Stamp)
  | getProject (id : String)
  | listProjects
  | deleteProject (id : String)
  | createScenario (projectId name version yamlContent : String) (stamp : Stamp)
  | getScenario (id : String)
  | listScenarios (projectId : String)
  | createRun (projectId scenarioId environment : String) (stamp : Stamp)
  | getRun (id : String)
  | listRuns (projectId : String)
  | finishRun (id : String) (status : RunStatus) (result : RunResult) (now : ℤ)
  | createPolicy (projectId name : String) (rules : List PolicyRule) (stamp : Stamp)
  | getPolicy (id : String)
  | listPolicies (projectId : String)
  deriving DecidableEq

inductive Answer where
  | project (project : Project)
  | projects (projects : List Project)
  | scenario (scenario : Scenario)
  | scenarios (scenarios : List Scenario)
  | run (run : Run)
  | runs (runs : List Run)
  | policy (policy : Policy)
  | policies (policies : List Policy)
  | done (done : Bool)
  deriving DecidableEq

/-- The two states in which `finish_run` refuses a run. -/
def RunStatus.isFinal : RunStatus → Bool
  | .pending | .running => false
  | .completed | .failed => true

/-- The run has a result and an end exactly when its status is final. -/
def Run.Concluded (run : Run) : Prop :=
  (run.result.isSome ↔ run.status.isFinal) ∧ (run.finishedAt.isSome ↔ run.status.isFinal)

def Run.finish (run : Run) (status : RunStatus) (result : RunResult) (now : ℤ) : Run :=
  { run with status := status, finishedAt := some now, result := some result }

/-- What `finish_run` writes. -/
def Run.outcome (run : Run) : RunStatus × Option ℤ × Option RunResult :=
  (run.status, run.finishedAt, run.result)

namespace Repository

def perform (repository : Repository) : Operation → Except PlatformError Answer × Repository
  | .createProject name description stamp =>
      (repository.createProject name description stamp).map (·.map .project) id
  | .getProject id => ((repository.getProject id).map .project, repository)
  | .listProjects => (.ok (.projects repository.listProjects), repository)
  | .deleteProject projectId => (repository.deleteProject projectId).map (·.map .done) id
  | .createScenario projectId name version yamlContent stamp =>
      (repository.createScenario projectId name version yamlContent stamp).map
        (·.map .scenario) id
  | .getScenario id => ((repository.getScenario id).map .scenario, repository)
  | .listScenarios projectId => (.ok (.scenarios (repository.listScenarios projectId)), repository)
  | .createRun projectId scenarioId environment stamp =>
      (repository.createRun projectId scenarioId environment stamp).map (·.map .run) id
  | .getRun id => ((repository.getRun id).map .run, repository)
  | .listRuns projectId => (.ok (.runs (repository.listRuns projectId)), repository)
  | .finishRun runId status result now =>
      (repository.finishRun runId status result now).map (·.map .done) id
  | .createPolicy projectId name rules stamp =>
      (repository.createPolicy projectId name rules stamp).map (·.map .policy) id
  | .getPolicy id => ((repository.getPolicy id).map .policy, repository)
  | .listPolicies projectId => (.ok (.policies (repository.listPolicies projectId)), repository)

variable {repository : Repository}

/-! ## Single operations -/

theorem createProject_error {name description : String} {stamp : Stamp} {error : PlatformError}
    (fails : (repository.createProject name description stamp).1 = .error error) :
    (repository.createProject name description stamp).2 = repository := by
  revert fails
  unfold createProject
  split
  · exact fun _ => rfl
  · intro fails
    cases fails

theorem deleteProject_error {id : String} {error : PlatformError}
    (fails : (repository.deleteProject id).1 = .error error) :
    (repository.deleteProject id).2 = repository := by
  revert fails
  unfold deleteProject
  split
  · intro fails
    cases fails
  · exact fun _ => rfl

theorem finishRun_unfinished {id : String} {run : Run}
    (located : repository.runs.lookup id = some run) (unfinished : run.status.isFinal = false)
    (status : RunStatus) (result : RunResult) (now : ℤ) :
    repository.finishRun id status result now =
      (.ok true,
        { repository with
          runs := AList.insert id (run.finish status result now) repository.runs }) := by
  rw [finishRun, located]
  cases reached : run.status with
  | pending => simp [reached, Run.finish]
  | running => simp [reached, Run.finish]
  | completed | failed =>
      rw [reached] at unfinished
      cases unfinished

/-- `finish_run` either refuses or replaces a stored run whose status is not final. -/
theorem finishRun_cases (repository : Repository) (id : String) (status : RunStatus)
    (result : RunResult) (now : ℤ) :
    (∃ error, repository.finishRun id status result now = (.error error, repository)) ∨
      ∃ run, repository.runs.lookup id = some run ∧ run.status.isFinal = false ∧
        repository.finishRun id status result now =
          (.ok true,
            { repository with
              runs := AList.insert id (run.finish status result now) repository.runs }) := by
  cases located : repository.runs.lookup id with
  | none => exact Or.inl ⟨.notFound, by rw [finishRun, located]⟩
  | some run =>
      cases reached : run.status.isFinal with
      | false => exact Or.inr ⟨run, rfl, reached, finishRun_unfinished located reached _ _ _⟩
      | true =>
          refine Or.inl ⟨.invalidState, ?_⟩
          have final : run.status = .completed ∨ run.status = .failed := by
            cases status : run.status <;> simp_all [RunStatus.isFinal]
          rw [finishRun, located]
          exact if_pos (by simpa using final)

theorem finishRun_error {id : String} {status : RunStatus} {result : RunResult} {now : ℤ}
    {error : PlatformError} (fails : (repository.finishRun id status result now).1 = .error error) :
    (repository.finishRun id status result now).2 = repository := by
  rcases repository.finishRun_cases id status result now with ⟨_, refused⟩ | ⟨_, _, _, stored⟩
  · rw [refused]
  · rw [stored] at fails
    cases fails

theorem create_admitted {creation : Creation} (admitted : repository.check creation = .ok ())
    (stamp : Stamp) :
    repository.create creation stamp = (.ok (), repository.enter stamp creation) := by
  rw [create, admitted]

/-- Either the first critical section fails and there is no second one, or both are
carried out. -/
theorem create_cases (repository : Repository) (creation : Creation) (stamp : Stamp) :
    (∃ error, repository.create creation stamp = (.error error, repository)) ∨
      repository.check creation = .ok () ∧
        repository.create creation stamp = (.ok (), repository.enter stamp creation) := by
  cases checked : repository.check creation with
  | error error => exact Or.inl ⟨error, by rw [create, checked]⟩
  | ok admitted => exact Or.inr ⟨rfl, create_admitted checked stamp⟩

theorem create_error {creation : Creation} {stamp : Stamp} {error : PlatformError}
    (fails : (repository.create creation stamp).1 = .error error) :
    (repository.create creation stamp).2 = repository := by
  rcases repository.create_cases creation stamp with ⟨_, refused⟩ | ⟨_, entered⟩
  · rw [refused]
  · rw [entered] at fails
    cases fails

theorem map_eq_error {First Second : Type} {first : Except PlatformError First}
    {change : First → Second} {error : PlatformError}
    (fails : first.map change = .error error) : first = .error error := by
  cases first with
  | error found => exact congrArg Except.error (Except.error.inj fails)
  | ok value => cases fails

/-- An operation that returns an error leaves the four maps as they are. -/
theorem perform_error {operation : Operation} {error : PlatformError}
    (fails : (repository.perform operation).1 = .error error) :
    (repository.perform operation).2 = repository := by
  cases operation with
  | createProject name description stamp => exact createProject_error (map_eq_error fails)
  | deleteProject id => exact deleteProject_error (map_eq_error fails)
  | finishRun id status result now => exact finishRun_error (map_eq_error fails)
  | createScenario projectId name version yamlContent stamp =>
      exact create_error (map_eq_error (map_eq_error fails))
  | createRun projectId scenarioId environment stamp =>
      exact create_error (map_eq_error (map_eq_error fails))
  | createPolicy projectId name rules stamp =>
      exact create_error (map_eq_error (map_eq_error fails))
  | getProject | listProjects | getScenario | listScenarios | getRun | listRuns | getPolicy
  | listPolicies => rfl

/-- What is left after a project has been deleted, key by key. -/
structure Deleted (id : String) (before after : Repository) : Prop where
  known : id ∈ before.projects
  projects : ∀ key, after.projects.lookup key =
    if key = id then none else before.projects.lookup key
  scenarios : ∀ key, after.scenarios.lookup key =
    (before.scenarios.lookup key).filter fun scenario => scenario.projectId ≠ id
  runs : ∀ key, after.runs.lookup key =
    (before.runs.lookup key).filter fun run => run.projectId ≠ id
  policies : ∀ key, after.policies.lookup key =
    (before.policies.lookup key).filter fun policy => policy.projectId ≠ id

theorem deleteProject_ok {id : String} {answer : Bool}
    (succeeds : (repository.deleteProject id).1 = .ok answer) :
    Deleted id repository (repository.deleteProject id).2 := by
  unfold deleteProject at succeeds ⊢
  split at succeeds
  · rename_i known
    rw [if_pos known]
    refine ⟨known, ?_, fun _ => Table.lookup_keep _ _ _, fun _ => Table.lookup_keep _ _ _,
      fun _ => Table.lookup_keep _ _ _⟩
    intro key
    by_cases same : key = id
    · rw [if_pos same, same]
      exact AList.lookup_erase _ _
    · rw [if_neg same]
      exact AList.lookup_erase_ne same
  · cases succeeds

/-! ## Sequences -/

def step (repository : Repository) (operation : Operation) : Option Repository :=
  some (repository.perform operation).2

theorem Integral.perform (integral : repository.Integral) (operation : Operation) :
    (repository.perform operation).2.Integral := by
  cases operation with
  | createProject name description stamp => exact integral.createProject name description stamp
  | deleteProject id => exact integral.deleteProject id
  | finishRun id status result now => exact integral.finishRun id status result now
  | createScenario projectId name version yamlContent stamp =>
      exact integral.create (.scenario projectId name version yamlContent) stamp
  | createRun projectId scenarioId environment stamp =>
      exact integral.create (.run projectId scenarioId environment) stamp
  | createPolicy projectId name rules stamp =>
      exact integral.create (.policy projectId name rules) stamp
  | getProject | listProjects | getScenario | listScenarios | getRun | listRuns | getPolicy
  | listPolicies => exact integral

/-- After every sequence of operations each record belongs to a stored project.  The next
operation, if it deletes a project, removes that project with its records and nothing
else, and if it fails, changes nothing. -/
theorem reachable_well_kept (reachable : Reaches step Unrestricted .empty repository) :
    repository.Integral ∧
      (∀ id answer, (repository.perform (.deleteProject id)).1 = .ok answer →
        Deleted id repository (repository.perform (.deleteProject id)).2) ∧
      (∀ operation error, (repository.perform operation).1 = .error error →
        (repository.perform operation).2 = repository) := by
  refine ⟨?_, ?_, fun _ _ fails => perform_error fails⟩
  · exact reachable.invariant Integral .empty fun before operation after integral _ taken =>
      Option.some.inj taken ▸ integral.perform operation
  · intro id answer succeeds
    change (repository.deleteProject id).1.map Answer.done = .ok answer at succeeds
    cases outcome : (repository.deleteProject id).1 with
    | error error =>
        rw [outcome] at succeeds
        cases succeeds
    | ok deleted => exact deleteProject_ok outcome

/-- Two projects, each with a record; the second one is deleted, and once more in vain. -/
theorem reachable_well_kept_two_projects :
    ∃ repository : Repository, Reaches step Unrestricted .empty repository ∧
      repository.projects.keys = ["p"] ∧ repository.runs.keys = ["r"] ∧
      repository.Integral ∧
      Deleted "p" repository (repository.perform (.deleteProject "p")).2 ∧
      (repository.perform (.deleteProject "q")).2 = repository := by
  have evaluated :
      (run step .empty
        [.createProject "first" "" ⟨"p", 0⟩, .createProject "second" "" ⟨"q", 1⟩,
          .createRun "p" "" "staging" ⟨"r", 2⟩, .createScenario "q" "checkout" "1" "" ⟨"s", 3⟩,
          .deleteProject "q"]).map
        (fun repository => (repository.projects.keys, repository.runs.keys,
          (repository.perform (.deleteProject "p")).1.toOption,
          (repository.perform (.deleteProject "q")).1.toOption)) =
        some (["p"], ["r"], some (.done true), none) := by
    decide +kernel
  obtain ⟨repository, executes, seen⟩ := Option.map_eq_some_iff.mp evaluated
  simp only [Prod.mk.injEq] at seen
  have reaches := reaches_of_run executes
  obtain ⟨integral, deletes, fails⟩ := reachable_well_kept reaches
  refine ⟨repository, reaches, seen.1, seen.2.1, integral, ?_, ?_⟩
  · cases outcome : (repository.perform (.deleteProject "p")).1 with
    | error error => simp [outcome, Except.toOption] at seen
    | ok answer => exact deletes "p" answer outcome
  · cases outcome : (repository.perform (.deleteProject "q")).1 with
    | error error => exact fails _ error outcome
    | ok answer => simp [outcome, Except.toOption] at seen

/-! ## The life of a run -/

theorem lookup_runs_createProject (name description : String) (stamp : Stamp) :
    (repository.createProject name description stamp).2.runs = repository.runs := by
  unfold createProject
  split <;> rfl

/-- A creation changes the stored runs only at the identifier of a run that it enters. -/
theorem lookup_runs_create {creation : Creation} {stamp : Stamp} {id : String}
    (apart : ∀ projectId scenarioId environment,
      creation = .run projectId scenarioId environment →
        repository.check creation = .ok () → id ≠ stamp.id) :
    (repository.create creation stamp).2.runs.lookup id = repository.runs.lookup id := by
  rcases repository.create_cases creation stamp with ⟨_, refused⟩ | ⟨admitted, entered⟩
  · rw [refused]
  rw [entered]
  cases creation with
  | scenario projectId name version yamlContent => rfl
  | policy projectId name rules => rfl
  | run projectId scenarioId environment =>
      exact AList.lookup_insert_ne (apart projectId scenarioId environment rfl admitted)

/-- An operation that ends runs with a final status only, and enters no run in the place
of one that has a result. -/
def Settling (repository : Repository) : Operation → Prop
  | .finishRun id status _ _ =>
      ∀ run ∈ repository.runs.lookup id, run.status.isFinal ∨ status.isFinal
  | .createRun projectId scenarioId environment stamp =>
      (repository.check (.run projectId scenarioId environment)).isOk →
        ∀ run ∈ repository.runs.lookup stamp.id, run.result = none
  | _ => True

instance (repository : Repository) :
    (operation : Operation) → Decidable (repository.Settling operation)
  | .finishRun id status _ _ =>
      inferInstanceAs (Decidable
        (∀ run ∈ repository.runs.lookup id, run.status.isFinal ∨ status.isFinal))
  | .createRun projectId scenarioId environment stamp =>
      inferInstanceAs (Decidable
        ((repository.check (.run projectId scenarioId environment)).isOk →
          ∀ run ∈ repository.runs.lookup stamp.id, run.result = none))
  | .createProject .. | .getProject _ | .listProjects | .deleteProject _ | .createScenario ..
  | .getScenario _ | .listScenarios _ | .getRun _ | .listRuns _ | .createPolicy ..
  | .getPolicy _ | .listPolicies _ => .isTrue trivial

theorem concluded_create (concluded : repository.runs.All Run.Concluded) (creation : Creation)
    (stamp : Stamp) : (repository.create creation stamp).2.runs.All Run.Concluded := by
  rcases repository.create_cases creation stamp with ⟨_, refused⟩ | ⟨_, entered⟩
  · rw [refused]
    exact concluded
  rw [entered]
  cases creation with
  | scenario projectId name version yamlContent => exact concluded
  | policy projectId name rules => exact concluded
  | run projectId scenarioId environment =>
      exact concluded.insert stamp.id ⟨by simp [Run.create, RunStatus.isFinal],
        by simp [Run.create, RunStatus.isFinal]⟩

theorem concluded_finishRun {id : String} {status : RunStatus} {result : RunResult} {now : ℤ}
    (concluded : repository.runs.All Run.Concluded)
    (settling : repository.Settling (.finishRun id status result now)) :
    (repository.finishRun id status result now).2.runs.All Run.Concluded := by
  rcases repository.finishRun_cases id status result now with
    ⟨_, refused⟩ | ⟨run, located, unfinished, stored⟩
  · rw [refused]
    exact concluded
  · rw [stored]
    have final : status.isFinal = true := by
      rcases settling run located with already | given
      · rw [unfinished] at already
        cases already
      · exact given
    exact concluded.insert id ⟨by simp [Run.finish, final], by simp [Run.finish, final]⟩

theorem concluded_perform {operation : Operation} (concluded : repository.runs.All Run.Concluded)
    (settling : repository.Settling operation) :
    (repository.perform operation).2.runs.All Run.Concluded := by
  cases operation with
  | createProject name description stamp =>
      change (repository.createProject name description stamp).2.runs.All _
      rw [lookup_runs_createProject]
      exact concluded
  | deleteProject id =>
      change (repository.deleteProject id).2.runs.All _
      unfold deleteProject
      split
      · exact (concluded.keep _).mono fun _ kept => kept.1
      · exact concluded
  | finishRun id status result now => exact concluded_finishRun concluded settling
  | createScenario projectId name version yamlContent stamp =>
      exact concluded_create concluded (.scenario projectId name version yamlContent) stamp
  | createRun projectId scenarioId environment stamp =>
      exact concluded_create concluded (.run projectId scenarioId environment) stamp
  | createPolicy projectId name rules stamp =>
      exact concluded_create concluded (.policy projectId name rules) stamp
  | getProject | listProjects | getScenario | listScenarios | getRun | listRuns | getPolicy
  | listPolicies => exact concluded

/-- A stored run that is over is not touched, unless its project is deleted. -/
theorem lookup_runs_perform {operation : Operation} {id : String} {run : Run}
    (located : repository.runs.lookup id = some run) (final : run.status.isFinal = true)
    (result : run.result.isSome) (settling : repository.Settling operation)
    (spared : operation ≠ .deleteProject run.projectId) :
    (repository.perform operation).2.runs.lookup id = some run := by
  cases operation with
  | createProject name description stamp =>
      change (repository.createProject name description stamp).2.runs.lookup id = _
      rw [lookup_runs_createProject]
      exact located
  | deleteProject projectId =>
      change (repository.deleteProject projectId).2.runs.lookup id = _
      unfold deleteProject
      split
      · have other : run.projectId ≠ projectId := fun same => spared (by rw [same])
        simp only [Table.lookup_keep, located]
        simp [other]
      · exact located
  | finishRun runId status given now =>
      change (repository.finishRun runId status given now).2.runs.lookup id = _
      rcases repository.finishRun_cases runId status given now with
        ⟨_, refused⟩ | ⟨unfinished, found, notFinal, stored⟩
      · rw [refused]
        exact located
      · have other : id ≠ runId := by
          rintro rfl
          rw [located, Option.some.injEq] at found
          rw [← found, final] at notFinal
          cases notFinal
        rw [stored]
        exact (AList.lookup_insert_ne other).trans located
  | createScenario projectId name version yamlContent stamp =>
      exact (lookup_runs_create (by simp)).trans located
  | createPolicy projectId name rules stamp => exact (lookup_runs_create (by simp)).trans located
  | createRun projectId scenarioId environment stamp =>
      refine (lookup_runs_create ?_).trans located
      rintro _ _ _ - admitted rfl
      have empty := settling (by rw [admitted]; rfl) run located
      rw [empty] at result
      cases result
  | getProject | listProjects | getScenario | listScenarios | getRun | listRuns | getPolicy
  | listPolicies => exact located

/-- Outside the condition, one operation is enough: it stores a result under a status that
is not final, or takes the result of a run away. -/
theorem not_settling_perform {operation : Operation}
    (unsettling : ¬ repository.Settling operation) :
    (∃ id run, (repository.perform operation).2.runs.lookup id = some run ∧ ¬ run.Concluded) ∨
      ∃ id run, repository.runs.lookup id = some run ∧ run.result.isSome ∧
        operation ≠ .deleteProject run.projectId ∧
        ((repository.perform operation).2.runs.lookup id).map Run.outcome ≠ some run.outcome := by
  cases operation with
  | finishRun id status result now =>
      simp only [Settling, not_forall, not_or, Option.mem_def] at unsettling
      obtain ⟨run, located, unfinished, notFinal⟩ := unsettling
      have stored := finishRun_unfinished located (by simpa using unfinished) status result now
      refine Or.inl ⟨id, run.finish status result now, ?_, ?_⟩
      · change (repository.finishRun id status result now).2.runs.lookup id = _
        rw [stored]
        exact AList.lookup_insert _
      · simp [Run.Concluded, Run.finish, notFinal]
  | createRun projectId scenarioId environment stamp =>
      simp only [Settling, not_forall, Option.mem_def] at unsettling
      obtain ⟨admitted, run, located, result⟩ := unsettling
      refine Or.inr ⟨stamp.id, run, located, Option.isSome_iff_ne_none.mpr result, by simp, ?_⟩
      change ((repository.create (.run projectId scenarioId environment) stamp).2.runs.lookup
        stamp.id).map Run.outcome ≠ _
      cases checked : repository.check (.run projectId scenarioId environment) with
      | error error =>
          rw [checked] at admitted
          cases admitted
      | ok _ =>
          rw [create_admitted checked]
          change (AList.lookup stamp.id (AList.insert stamp.id _ repository.runs)).map _ ≠ _
          rw [AList.lookup_insert]
          simp [Run.outcome, Run.create, Ne.symm result]
  | _ => exact absurd trivial unsettling

theorem concluded_of_reaches (reachable : Reaches step Settling .empty repository) :
    repository.runs.All Run.Concluded :=
  reachable.invariant (fun state => state.runs.All Run.Concluded) .empty
    fun _ _ _ concluded settling taken =>
      Option.some.inj taken ▸ concluded_perform concluded settling

/-- A run that is over stays as it is, through any number of operations. -/
theorem lookup_runs_of_reaches {later : Repository} {id : String} {run : Run}
    (located : repository.runs.lookup id = some run) (final : run.status.isFinal = true)
    (result : run.result.isSome)
    (reaches : Reaches step
      (fun before operation =>
        before.Settling operation ∧ operation ≠ .deleteProject run.projectId) repository later) :
    later.runs.lookup id = some run :=
  reaches.invariant (fun state => state.runs.lookup id = some run) located
    fun _ _ _ there allowed taken =>
      Option.some.inj taken ▸ lookup_runs_perform there final result allowed.1 allowed.2

/-- In every sequence of operations that ends runs with a final status only, and whose new
runs do not take the identifiers of finished ones, a run has a result and an end exactly
when its status is final, and keeps them until its project is deleted.  Any other operation
breaks one or the other at once. -/
theorem reachable_results_final (reachable : Reaches step Settling .empty repository) :
    (∀ id run, repository.runs.lookup id = some run → run.Concluded) ∧
      (∀ id run later, repository.runs.lookup id = some run → run.result.isSome →
        Reaches step
          (fun before operation =>
            before.Settling operation ∧ operation ≠ .deleteProject run.projectId)
          repository later →
        (later.runs.lookup id).map Run.outcome = some run.outcome) ∧
      (∀ operation, ¬ repository.Settling operation →
        (∃ id run, (repository.perform operation).2.runs.lookup id = some run ∧
          ¬ run.Concluded) ∨
        ∃ id run, repository.runs.lookup id = some run ∧ run.result.isSome ∧
          operation ≠ .deleteProject run.projectId ∧
          ((repository.perform operation).2.runs.lookup id).map Run.outcome ≠
            some run.outcome) := by
  have concluded := concluded_of_reaches reachable
  refine ⟨concluded, ?_, fun operation unsettling => not_settling_perform unsettling⟩
  intro id run later located result reaches
  have final : run.status.isFinal = true := (concluded id run located).1.mp result
  rw [lookup_runs_of_reaches located final result reaches]
  rfl

/-- A run is started, ended as failed, and stays so when it is ended once more. -/
theorem reachable_results_final_ended_twice :
    ∃ repository : Repository, Reaches step Settling .empty repository ∧
      (repository.runs.lookup "r").map Run.outcome =
        some (.failed, some 5, some { totalRequests := 3, failedRequests := 3 }) ∧
      ∀ id run, repository.runs.lookup id = some run → run.Concluded := by
  have evaluated :
      (guardedRun step Settling .empty
        [.createProject "first" "" ⟨"p", 0⟩, .createRun "p" "" "staging" ⟨"r", 2⟩,
          .finishRun "r" .failed { totalRequests := 3, failedRequests := 3 } 5,
          .finishRun "r" .running {} 7]).map
        (fun repository => (repository.runs.lookup "r").map Run.outcome) =
        some (some (.failed, some 5, some { totalRequests := 3, failedRequests := 3 })) := by
    decide +kernel
  obtain ⟨repository, executes, seen⟩ := Option.map_eq_some_iff.mp evaluated
  have reaches := reaches_of_guardedRun executes
  exact ⟨repository, reaches, seen, (reachable_results_final reaches).1⟩

/-- A run that is ended with the status `running` has a result, and the next `finish_run`
replaces it. -/
theorem result_of_running_replaced :
    ∃ before after : Repository, Reaches step Unrestricted .empty before ∧
      step before (.finishRun "r" .completed {} 7) = some after ∧
      (before.runs.lookup "r").map Run.outcome =
        some (.running, some 5, some { totalRequests := 3, failedRequests := 3 }) ∧
      (after.runs.lookup "r").map Run.outcome = some (.completed, some 7, some {}) := by
  let running : List Operation :=
    [.createProject "first" "" ⟨"p", 0⟩, .createRun "p" "" "staging" ⟨"r", 2⟩,
      .finishRun "r" .running { totalRequests := 3, failedRequests := 3 } 5]
  have first : (run step .empty running).map
      (fun before => (before.runs.lookup "r").map Run.outcome) =
        some (some (.running, some 5, some { totalRequests := 3, failedRequests := 3 })) := by
    decide +kernel
  have second : (run step .empty running).map
      (fun before => ((before.perform (.finishRun "r" .completed {} 7)).2.runs.lookup "r").map
        Run.outcome) = some (some (.completed, some 7, some {})) := by
    decide +kernel
  obtain ⟨before, executes, ended⟩ := Option.map_eq_some_iff.mp first
  rw [executes, Option.map_some, Option.some.injEq] at second
  exact ⟨before, _, reaches_of_run executes, rfl, ended, second⟩

end Repository

end Cppload.Platform

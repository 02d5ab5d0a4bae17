import Cppload.Assertions
import Cppload.ConfigFile

/-!
# The schema of a configuration

`validate_scenario_config` goes through a loaded configuration and stops at the first
value that is missing or out of range, with a message that names its place.
-/

namespace Cppload.Scenario

/-- A check with the text that `error` gets if it fails. -/
def require (condition : Bool) (message : String) : Except String Unit :=
  if condition then .ok () else .error message

/-- A loop that stops at the first item whose check fails; `index` is the one of the
first item. -/
def checkEach {Item : Type} (check : ℕ → Item → Except String Unit) :
    ℕ → List Item → Except String Unit
  | _, [] => .ok ()
  | index, item :: rest => do
      check index item
      checkEach check (index + 1) rest

def scenarioPath (si : ℕ) : String :=
  "scenarios[" ++ toString si ++ "]"

def stepPath (si sti : ℕ) : String :=
  scenarioPath si ++ ".steps[" ++ toString sti ++ "]"

def stagePath (li : ℕ) : String :=
  "load_profile[" ++ toString li ++ "]"

def validateAssertion (si sti ai : ℕ) (expr : Text) : Except String Unit :=
  match checkAssertionFormat expr with
  | .ok _ => .ok ()
  | .error aerr =>
      .error ("field '" ++ stepPath si sti ++ ".assertions[" ++ toString ai ++ "] " ++ aerr ++
        ". Example: status_code == 201")

def validateStep (si sti : ℕ) (step : HttpStep) : Except String Unit := do
  require (step.method ≠ [])
    ("field '" ++ stepPath si sti ++ ".http.method' is required. Example: method: GET")
  require (step.path ≠ [])
    ("field '" ++ stepPath si sti ++
      ".http.path' is required. Example: path: \"/api/v1/health\"")
  checkEach (validateAssertion si sti) 0 step.assertions

def validateScenario (si : ℕ) (scenario : WeightedScenario) : Except String Unit := do
  require (scenario.weight ≤ 1000)
    ("field '" ++ scenarioPath si ++ ".weight' out of range: " ++
      toString scenario.weight.toNat ++ " expected 0..1000. Example: weight: 70")
  require (scenario.steps ≠ [])
    ("scenario '" ++ String.ofList scenario.name ++ "' (index " ++ toString si ++
      ") has no steps; add at least one http step")
  checkEach (validateStep si) 0 scenario.steps

def validateStage (li : ℕ) (stage : Stage) : Except String Unit := do
  require (stage.targetRps ≤ 1000000)
    ("field '" ++ stagePath li ++ ".target_rps' out of range: " ++
      toString stage.targetRps.toNat ++ " expected 0..1000000")
  require (stage.concurrentUsers ≤ 100000)
    ("field '" ++ stagePath li ++ ".concurrent_users' out of range: " ++
      toString stage.concurrentUsers.toNat ++ " expected 0..100000")

/-- `validate_scenario_config`; an error is the text it leaves. -/
def validateScenarioConfig (config : ScenarioConfig) : Except String Unit := do
  require (config.testId ≠ [])
    "field 'test_id' is required (string). Example: test_id: \"my-load-test-2026\""
  require (config.target.baseUrl ≠ [])
    ("field 'target.base_url' is required (string). " ++
      "Example: base_url: \"http://localhost:8080\"")
  require (config.scenarios ≠ []) "field 'scenarios' must contain at least one scenario"
  checkEach validateScenario 0 config.scenarios
  checkEach validateStage 0 config.stages

/-! ## What is accepted -/

structure ValidStep (step : HttpStep) : Prop where
  method : step.method ≠ []
  path : step.path ≠ []
  assertions : ∀ expr ∈ step.assertions, (validatorReads expr).isSome

structure ValidScenario (scenario : WeightedScenario) : Prop where
  weight : scenario.weight ≤ 1000
  nonempty : scenario.steps ≠ []
  steps : ∀ step ∈ scenario.steps, ValidStep step

structure ValidStage (stage : Stage) : Prop where
  targetRps : stage.targetRps ≤ 1000000
  concurrentUsers : stage.concurrentUsers ≤ 100000

structure ValidConfig (config : ScenarioConfig) : Prop where
  testId : config.testId ≠ []
  baseUrl : config.target.baseUrl ≠ []
  nonempty : config.scenarios ≠ []
  scenarios : ∀ scenario ∈ config.scenarios, ValidScenario scenario
  stages : ∀ stage ∈ config.stages, ValidStage stage

section Accepted

variable {Item : Type} {check : ℕ → Item → Except String Unit}

theorem bind_eq_ok_iff {first second : Except String Unit} :
    (do first; second) = .ok () ↔ first = .ok () ∧ second = .ok () := by
  cases first with
  | error message =>
      constructor
      · intro failed
        cases failed
      · rintro ⟨failed, -⟩
        cases failed
  | ok value => exact ⟨fun passed => ⟨rfl, passed⟩, fun both => both.2⟩

theorem require_eq_ok_iff {condition : Bool} {message : String} :
    require condition message = .ok () ↔ condition = true := by
  cases condition <;> simp [require]

/-- A loop over checks passes if each of them does, whatever the indices are. -/
theorem checkEach_eq_ok_iff {good : Item → Prop}
    (spec : ∀ index item, check index item = .ok () ↔ good item) (index : ℕ)
    (items : List Item) :
    checkEach check index items = .ok () ↔ ∀ item ∈ items, good item := by
  induction items generalizing index with
  | nil => simp [checkEach]
  | cons item rest ih =>
      rw [checkEach, bind_eq_ok_iff, spec, ih, List.forall_mem_cons]

theorem validateAssertion_eq_ok_iff (si sti ai : ℕ) (expr : Text) :
    validateAssertion si sti ai expr = .ok () ↔ (validatorReads expr).isSome := by
  unfold validateAssertion validatorReads
  cases checkAssertionFormat expr <;> simp [Except.toOption]

theorem validateStep_eq_ok_iff (si sti : ℕ) (step : HttpStep) :
    validateStep si sti step = .ok () ↔ ValidStep step := by
  simp only [validateStep, bind_eq_ok_iff, require_eq_ok_iff, decide_eq_true_eq,
    checkEach_eq_ok_iff (validateAssertion_eq_ok_iff si sti)]
  exact ⟨fun passed => ⟨passed.1, passed.2.1, passed.2.2⟩,
    fun valid => ⟨valid.method, valid.path, valid.assertions⟩⟩

theorem validateScenario_eq_ok_iff (si : ℕ) (scenario : WeightedScenario) :
    validateScenario si scenario = .ok () ↔ ValidScenario scenario := by
  simp only [validateScenario, bind_eq_ok_iff, require_eq_ok_iff, decide_eq_true_eq,
    checkEach_eq_ok_iff (validateStep_eq_ok_iff si)]
  exact ⟨fun passed => ⟨passed.1, passed.2.1, passed.2.2⟩,
    fun valid => ⟨valid.weight, valid.nonempty, valid.steps⟩⟩

theorem validateStage_eq_ok_iff (li : ℕ) (stage : Stage) :
    validateStage li stage = .ok () ↔ ValidStage stage := by
  simp only [validateStage, bind_eq_ok_iff, require_eq_ok_iff, decide_eq_true_eq]
  exact ⟨fun passed => ⟨passed.1, passed.2⟩,
    fun valid => ⟨valid.targetRps, valid.concurrentUsers⟩⟩

theorem validateScenarioConfig_eq_ok_iff (config : ScenarioConfig) :
    validateScenarioConfig config = .ok () ↔ ValidConfig config := by
  simp only [validateScenarioConfig, bind_eq_ok_iff, require_eq_ok_iff, decide_eq_true_eq,
    checkEach_eq_ok_iff validateScenario_eq_ok_iff, checkEach_eq_ok_iff validateStage_eq_ok_iff]
  exact ⟨fun passed => ⟨passed.1, passed.2.1, passed.2.2.1, passed.2.2.2.1, passed.2.2.2.2⟩,
    fun valid => ⟨valid.testId, valid.baseUrl, valid.nonempty, valid.scenarios, valid.stages⟩⟩

end Accepted

end Cppload.Scenario

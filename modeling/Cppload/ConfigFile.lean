import Cppload.Table
import Cppload.ScalarReaders
import Cppload.YamlTree

/-!
# Loading a configuration

`parse_config_file` goes through a document and assigns to the fields of the
configuration it is given, one after the other.  Here the document is first turned
into the list of these assignments, in the order of the source, which ends at the
first exception or failed check; `execute` then carries them out.  Only the check of
the base URL looks at the configuration.
-/

namespace Cppload.Scenario

/-- The fields of `HttpStep` that a document can set. -/
structure HttpStep where
  method : Text := ['G', 'E', 'T']
  path : Text := []
  body : Text := []
  headers : Table Text Text := ∅
  assertions : List Text := []
  deriving DecidableEq

/-- `LoadProfile::Stage`; the duration is in milliseconds. -/
structure Stage where
  name : Text := []
  duration : ℤ := 0
  targetRps : UInt32 := 0
  concurrentUsers : UInt32 := 10
  deriving DecidableEq, Repr

/-- The `Scenario` of the engine. -/
structure WeightedScenario where
  name : Text := []
  weight : UInt32 := 100
  steps : List HttpStep := []
  deriving DecidableEq

/-- `ScenarioConfig::target`. -/
@[ext]
structure TargetConfig where
  baseUrl : Text := []
  protocol : Text := ['h', 't', 't', 'p', '1', '.', '1']
  tlsVerify : Bool := true
  maxBodyBytes : ℕ := 0
  deriving DecidableEq, Repr

@[ext]
structure ScenarioAuthConfig where
  type : Text := []
  tokenEndpoint : Text := []
  clientId : Text := []
  clientSecret : Text := []
  deriving DecidableEq, Repr

@[ext]
structure ObservabilityConfig where
  prometheusEnabled : Bool := false
  prometheusPort : UInt16 := 9090
  otlpEndpoint : Text := []
  sampleRate : Double := .finite (1 / 10)
  logLevel : Text := ['i', 'n', 'f', 'o']
  logFormat : Text := ['j', 's', 'o', 'n']
  deriving DecidableEq, Repr

@[ext]
structure SlaConfig where
  maxErrorRate : Double := .finite 10
  maxP99Latency : ℤ := 500
  deriving DecidableEq, Repr

@[ext]
structure ScenarioConfig where
  version : Text := []
  testId : Text := []
  target : TargetConfig := {}
  authentication : ScenarioAuthConfig := {}
  observability : ObservabilityConfig := {}
  stages : List Stage := []
  scenarios : List WeightedScenario := []
  sla : SlaConfig := {}
  deriving DecidableEq

/-- The fields that are assigned to.  The two lists are not among them: they are only
appended to. -/
inductive Field where
  | version
  | testId
  | baseUrl
  | protocol
  | tlsVerify
  | maxBodyBytes
  | authType
  | tokenEndpoint
  | clientId
  | clientSecret
  | prometheusEnabled
  | prometheusPort
  | otlpEndpoint
  | sampleRate
  | logLevel
  | logFormat
  | maxErrorRate
  | maxP99Latency
  deriving DecidableEq, Repr

@[reducible]
def Field.Value : Field → Type
  | .version | .testId | .baseUrl | .protocol | .authType | .tokenEndpoint | .clientId
  | .clientSecret | .otlpEndpoint | .logLevel | .logFormat => Text
  | .tlsVerify | .prometheusEnabled => Bool
  | .maxBodyBytes => ℕ
  | .prometheusPort => UInt16
  | .sampleRate | .maxErrorRate => Double
  | .maxP99Latency => ℤ

namespace ScenarioConfig

variable (config : ScenarioConfig)

def get : (field : Field) → field.Value
  | .version => config.version
  | .testId => config.testId
  | .baseUrl => config.target.baseUrl
  | .protocol => config.target.protocol
  | .tlsVerify => config.target.tlsVerify
  | .maxBodyBytes => config.target.maxBodyBytes
  | .authType => config.authentication.type
  | .tokenEndpoint => config.authentication.tokenEndpoint
  | .clientId => config.authentication.clientId
  | .clientSecret => config.authentication.clientSecret
  | .prometheusEnabled => config.observability.prometheusEnabled
  | .prometheusPort => config.observability.prometheusPort
  | .otlpEndpoint => config.observability.otlpEndpoint
  | .sampleRate => config.observability.sampleRate
  | .logLevel => config.observability.logLevel
  | .logFormat => config.observability.logFormat
  | .maxErrorRate => config.sla.maxErrorRate
  | .maxP99Latency => config.sla.maxP99Latency

def put : (field : Field) → field.Value → ScenarioConfig
  | .version, value => { config with version := value }
  | .testId, value => { config with testId := value }
  | .baseUrl, value => { config with target.baseUrl := value }
  | .protocol, value => { config with target.protocol := value }
  | .tlsVerify, value => { config with target.tlsVerify := value }
  | .maxBodyBytes, value => { config with target.maxBodyBytes := value }
  | .authType, value => { config with authentication.type := value }
  | .tokenEndpoint, value => { config with authentication.tokenEndpoint := value }
  | .clientId, value => { config with authentication.clientId := value }
  | .clientSecret, value => { config with authentication.clientSecret := value }
  | .prometheusEnabled, value => { config with observability.prometheusEnabled := value }
  | .prometheusPort, value => { config with observability.prometheusPort := value }
  | .otlpEndpoint, value => { config with observability.otlpEndpoint := value }
  | .sampleRate, value => { config with observability.sampleRate := value }
  | .logLevel, value => { config with observability.logLevel := value }
  | .logFormat, value => { config with observability.logFormat := value }
  | .maxErrorRate, value => { config with sla.maxErrorRate := value }
  | .maxP99Latency, value => { config with sla.maxP99Latency := value }

@[simp]
theorem get_put (field : Field) (value : field.Value) :
    (config.put field value).get field = value := by
  cases field <;> rfl

theorem get_put_of_ne {field other : Field} (distinct : other ≠ field)
    (value : field.Value) : (config.put field value).get other = config.get other := by
  cases field <;> cases other <;> first | rfl | exact absurd rfl distinct

@[simp]
theorem stages_put (field : Field) (value : field.Value) :
    (config.put field value).stages = config.stages := by
  cases field <;> rfl

@[simp]
theorem scenarios_put (field : Field) (value : field.Value) :
    (config.put field value).scenarios = config.scenarios := by
  cases field <;> rfl

/-- A configuration is given by its fields and its two lists. -/
theorem eq_iff (first second : ScenarioConfig) :
    first = second ↔ (∀ field, first.get field = second.get field) ∧
      first.stages = second.stages ∧ first.scenarios = second.scenarios := by
  constructor
  · rintro rfl
    exact ⟨fun _ => rfl, rfl, rfl⟩
  · rintro ⟨fields, stages, scenarios⟩
    have target : first.target = second.target :=
      TargetConfig.ext (fields .baseUrl) (fields .protocol) (fields .tlsVerify)
        (fields .maxBodyBytes)
    have authentication : first.authentication = second.authentication :=
      ScenarioAuthConfig.ext (fields .authType) (fields .tokenEndpoint) (fields .clientId)
        (fields .clientSecret)
    have observability : first.observability = second.observability :=
      ObservabilityConfig.ext (fields .prometheusEnabled) (fields .prometheusPort)
        (fields .otlpEndpoint) (fields .sampleRate) (fields .logLevel) (fields .logFormat)
    have sla : first.sla = second.sla :=
      SlaConfig.ext (fields .maxErrorRate) (fields .maxP99Latency)
    exact ScenarioConfig.ext (fields .version) (fields .testId) target authentication
      observability stages scenarios sla

end ScenarioConfig

/-- A change that `parse_config_file` makes to the configuration. -/
inductive Assignment where
  | set (field : Field) (value : field.Value)
  | pushStage (stage : Stage)
  | pushScenario (scenario : WeightedScenario)

def Assignment.apply (config : ScenarioConfig) : Assignment → ScenarioConfig
  | .set field value => config.put field value
  | .pushStage stage => { config with stages := config.stages ++ [stage] }
  | .pushScenario scenario => { config with scenarios := config.scenarios ++ [scenario] }

/-- The ways in which `parse_config_file` ends without success.  The last one is an
exception that leaves it. -/
inductive Failure where
  | cannotOpen (path : String)
  | syntaxError (what : String)
  | rootNotMapping
  | targetRequired
  | targetNotMapping
  | baseUrlEmpty (missing : Text)
  | targetError (error : YamlError)
  | escaped (error : YamlError)
  deriving DecidableEq, Repr

/-- The text of `error` when `parse_config_file` ends; `what` is the one of the
exception. -/
def Failure.message (what : YamlError → String) : Failure → String
  | .cannotOpen path => "Cannot open config file: " ++ path
  | .syntaxError text => "YAML parse error: " ++ text
  | .rootNotMapping => "YAML root must be a mapping"
  | .targetRequired => "target section is required"
  | .targetNotMapping => "target must be a mapping"
  | .baseUrlEmpty missing =>
      "target.base_url is empty; environment variable \"$\x7b" ++ String.ofList missing ++
        "\x7d\" is not set and has no default"
  | .targetError error => "YAML target parse error: " ++ what error
  | .escaped _ => ""

inductive Step where
  | assign (assignment : Assignment)
  | requireBaseUrl (missing : Text)
  | stop (failure : Failure)

/-- Carry out the steps up to the first that fails; `none` is success. -/
def execute : List Step → ScenarioConfig → Option Failure × ScenarioConfig
  | [], config => (none, config)
  | .assign assignment :: rest, config => execute rest (assignment.apply config)
  | .requireBaseUrl missing :: rest, config =>
      -- The base URL may also be the one of an earlier load.
      if config.target.baseUrl = [] then (some (.baseUrlEmpty missing), config)
      else execute rest config
  | .stop failure :: _, config => (some failure, config)

section Sections

variable (onThrow : YamlError → Failure) (node : Yaml) (key : String)

/-- `if (node[key]) config.field = node[key].as<T>()`. -/
def setFrom (field : Field) (convert : Yaml → Except YamlError field.Value) : List Step :=
  match node.field key with
  | .error error => [.stop (onThrow error)]
  | .ok none => []
  | .ok (some found) =>
      match convert found with
      | .error error => [.stop (onThrow error)]
      | .ok value => [.assign (.set field value)]

/-- `if (node[key]) { ... }`. -/
def within (body : Yaml → List Step) : List Step :=
  match node.field key with
  | .error error => [.stop (onThrow error)]
  | .ok none => []
  | .ok (some found) => body found

/-- Read a value from an item and append it. -/
def pushFrom {Value : Type} (read : Yaml → Except YamlError Value)
    (push : Value → Assignment) (item : Yaml) : Step :=
  match read item with
  | .error error => .stop (onThrow error)
  | .ok value => .assign (push value)

end Sections

section Document

variable (library : YamlLibrary)

/-- The body of the loop over `load_profile`. -/
def readStage (node : Yaml) : Except YamlError Stage := do
  let initial : Stage := {}
  let name ← node.read "stage" library.asString initial.name
  let duration ← node.read "duration"
    (fun found => (library.asString found).map parseDuration) initial.duration
  let targetRps ← node.read "target_rps" (YamlLibrary.convert library.toUInt32)
    initial.targetRps
  let concurrentUsers ← node.read "concurrent_users" (YamlLibrary.convert library.toUInt32)
    initial.concurrentUsers
  return ⟨name, duration, targetRps, concurrentUsers⟩

/-- The body of a request; what is no scalar is written out. -/
def readBody : Yaml → Except YamlError Text
  | .scalar text => .ok text
  | node => .ok (library.emit node)

/-- The loop over `headers`. -/
def readHeaders : List (Yaml × Yaml) → Table Text Text → Except YamlError (Table Text Text)
  | [], headers => .ok headers
  | (key, value) :: rest, headers => do
      let name ← library.asString key
      let text ← library.asString value
      readHeaders rest (AList.insert name text headers)

/-- The scalars among the items of `assertions`. -/
def readAssertions (items : List Yaml) : List Text :=
  items.filterMap fun
    | .scalar text => some text
    | _ => none

/-- The node `http` of a step. -/
def readHttp (http : Yaml) : Except YamlError HttpStep := do
  let initial : HttpStep := {}
  let method ← http.read "method" library.asString initial.method
  let path ← http.read "path" library.asString initial.path
  let body ← http.read "body" (readBody library) initial.body
  let headers ← http.read "headers"
    (fun found => readHeaders library found.entries initial.headers) initial.headers
  let assertions ← http.read "assertions"
    (fun found => .ok (readAssertions found.items)) initial.assertions
  return ⟨method, path, body, headers, assertions⟩

/-- The loop over `steps`; a step without `http` is passed over. -/
def readSteps : List Yaml → Except YamlError (List HttpStep)
  | [] => .ok []
  | node :: rest => do
      match ← node.field "http" with
      | none => readSteps rest
      | some http =>
          let step ← readHttp library http
          let steps ← readSteps rest
          return step :: steps

/-- The body of the loop over `scenarios`. -/
def readScenario (node : Yaml) : Except YamlError WeightedScenario := do
  let initial : WeightedScenario := {}
  let name ← node.read "name" library.asString initial.name
  let weight ← node.read "weight" (YamlLibrary.convert library.toUInt32) initial.weight
  let steps ← node.read "steps" (fun found => readSteps library found.items) initial.steps
  return ⟨name, weight, steps⟩

/-- The assignments of `parse_config_file` inside `try`. -/
def targetAssignments (root target : Yaml) : List Step :=
  setFrom .targetError root "version" .version library.asString ++
  setFrom .targetError root "test_id" .testId library.asString ++
  setFrom .targetError target "base_url" .baseUrl library.asString ++
  setFrom .targetError target "protocol" .protocol library.asString ++
  -- A `tls` that is a scalar has no keys and throws.
  within .targetError target "tls" (fun tls =>
    setFrom .targetError tls "verify" .tlsVerify (YamlLibrary.convert library.toBool)) ++
  setFrom .targetError target "max_body_bytes" .maxBodyBytes
    (fun found => (library.asString found).map parseBytesize)

/-- The part of `parse_config_file` inside `try`. -/
def targetSteps (root target : Yaml) (missing : Text) : List Step :=
  targetAssignments library root target ++
    if missing = [] then [] else [.requireBaseUrl missing]

def authenticationSteps (auth : Yaml) : List Step :=
  setFrom .escaped auth "type" .authType library.asString ++
  setFrom .escaped auth "token_endpoint" .tokenEndpoint library.asString ++
  within .escaped auth "client_credentials" fun credentials =>
    setFrom .escaped credentials "client_id" .clientId library.asString ++
    setFrom .escaped credentials "client_secret" .clientSecret library.asString

def observabilitySteps (observability : Yaml) : List Step :=
  within .escaped observability "metrics" (fun metrics =>
    within .escaped metrics "prometheus" fun prometheus =>
      setFrom .escaped prometheus "enabled" .prometheusEnabled
        (YamlLibrary.convert library.toBool) ++
      setFrom .escaped prometheus "port" .prometheusPort
        (YamlLibrary.convert library.toUInt16)) ++
  within .escaped observability "tracing" (fun tracing =>
    setFrom .escaped tracing "otlp_endpoint" .otlpEndpoint library.asString ++
    setFrom .escaped tracing "sample_rate" .sampleRate
      (YamlLibrary.convert library.toDouble)) ++
  within .escaped observability "logging" fun logging =>
    setFrom .escaped logging "level" .logLevel library.asString ++
    setFrom .escaped logging "format" .logFormat library.asString

def slaSteps (sla : Yaml) : List Step :=
  setFrom .escaped sla "error_rate" .maxErrorRate
    (fun found => (library.asString found).map parseErrorRate) ++
  setFrom .escaped sla "p99_latency" .maxP99Latency
    (fun found => (library.asString found).map parseLatency)

/-- The part of `parse_config_file` after `try`. -/
def sectionSteps (root : Yaml) : List Step :=
  within .escaped root "load_profile" (fun profile =>
    profile.items.map (pushFrom .escaped (readStage library) .pushStage)) ++
  within .escaped root "scenarios" (fun scenarios =>
    scenarios.items.map (pushFrom .escaped (readScenario library) .pushScenario)) ++
  within .escaped root "authentication" (authenticationSteps library) ++
  within .escaped root "observability" (observabilitySteps library) ++
  within .escaped root "sla" (slaSteps library)

/-- Everything after the substitution of environment variables. -/
def rootSteps (root : Yaml) (missing : Text) : List Step :=
  match root with
  | .map entries =>
      match Yaml.lookup "target".toList entries with
      | none => [.stop .targetRequired]
      | some target =>
          if !target.isMap then [.stop .targetNotMapping]
          else targetSteps library root target missing ++ sectionSteps library root
  | _ => [.stop .rootNotMapping]

/-- The file that is opened and loaded. -/
inductive ConfigFile where
  | unreadable (path : String)
  | malformed (what : String)
  | document (document : Document)

def fileSteps (env : Text → Option Text) : ConfigFile → List Step
  | .unreadable path => [.stop (.cannotOpen path)]
  | .malformed what => [.stop (.syntaxError what)]
  | .document document =>
      let substituted := document.substituted env
      rootSteps library substituted.1 substituted.2

def parseConfigFile (env : Text → Option Text) (file : ConfigFile) (config : ScenarioConfig) :
    Option Failure × ScenarioConfig :=
  execute (fileSteps library env file) config

/-- What `load_config` works on. -/
structure LoadState where
  config : ScenarioConfig := {}
  lastError : String := ""
  deriving DecidableEq

/-- `load_config`: the value that is returned, or the exception that leaves it. -/
def loadConfig (env : Text → Option Text) (what : YamlError → String) (file : ConfigFile)
    (state : LoadState) : Except YamlError Bool × LoadState :=
  let result := parseConfigFile library env file state.config
  match result.1 with
  | none => (.ok true, { state with config := result.2 })
  | some (.escaped error) => (.error error, { state with config := result.2 })
  | some failure => (.ok false, ⟨result.2, failure.message what⟩)

end Document

end Cppload.Scenario

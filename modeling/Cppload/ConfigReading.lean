import Cppload.ConfigEntries

/-!
# Documents that are read without an exception

`parse_config_file` reads the target section inside `try` and the other sections
outside.  A document whose target section is accepted is therefore loaded only if
everything that the other sections are asked for can be read; otherwise the exception of
`yaml-cpp` leaves `load_config`.
-/

namespace Cppload

namespace Yaml

/-- Looking up the key does not throw, and what is found there is good. -/
def At (node : Yaml) (key : String) (good : Yaml → Prop) : Prop :=
  match node with
  | .map entries => ∀ found, lookup key.toList entries = some found → good found
  | .scalar _ => False
  | .null | .sequence _ => True

section At

variable {key : String} {good : Yaml → Prop}

@[simp]
theorem at_null : Yaml.null.At key good :=
  trivial

@[simp]
theorem at_sequence (items : List Yaml) : (Yaml.sequence items).At key good :=
  trivial

@[simp]
theorem not_at_scalar (text : Text) : ¬ (Yaml.scalar text).At key good :=
  id

theorem at_map {entries : List (Yaml × Yaml)} :
    (Yaml.map entries).At key good ↔
      ∀ found, lookup key.toList entries = some found → good found :=
  Iff.rfl

theorem at_and {node : Yaml} {other : Yaml → Prop} :
    (node.At key fun found => good found ∧ other found) ↔ node.At key good ∧ node.At key other := by
  cases node with
  | map entries => simp only [at_map, imp_and, forall_and]
  | null | scalar | sequence => simp

theorem at_of_lookup {node found : Yaml} (located : lookup key.toList node.entries = some found) :
    node.At key good ↔ good found := by
  cases node with
  | map entries =>
      rw [Yaml.entries] at located
      simp [at_map, located]
  | null | scalar | sequence => cases located

end At

/-- Looking up keys one after the other does not throw, and what is found is good. -/
def AtPath (good : Yaml → Prop) : List String → Yaml → Prop
  | [] => good
  | key :: path => fun node => node.At key (AtPath good path)

/-- `as<std::string>()` succeeds. -/
def IsText (library : YamlLibrary) : Yaml → Prop
  | .scalar _ => True
  | .null => library.nullString.isSome
  | _ => False

/-- `as<T>()` succeeds for a type that is read from the text of a scalar. -/
def Reads {Value : Type} (read : Text → Option Value) : Yaml → Prop
  | .scalar text => (read text).isSome
  | _ => False

end Yaml

namespace Yaml

variable {library : YamlLibrary} {node : Yaml} {key : String}

theorem isMap_of_lookup {key : Text} {node found : Yaml}
    (located : lookup key node.entries = some found) : node.isMap := by
  cases node with
  | map entries => rfl
  | null | scalar | sequence => cases located

theorem isOk_asString : (library.asString node).isOk ↔ node.IsText library := by
  cases node with
  | null =>
      simp only [YamlLibrary.asString, IsText]
      cases library.nullString <;> simp
  | scalar | sequence | map => simp [YamlLibrary.asString, IsText]

theorem isOk_convert {Value : Type} {read : Text → Option Value} :
    (YamlLibrary.convert read node).isOk ↔ node.Reads read := by
  cases node with
  | scalar text =>
      simp only [YamlLibrary.convert, Reads]
      cases read text <;> simp
  | null | sequence | map => simp [YamlLibrary.convert, Reads]

theorem isOk_read {Value : Type} {convert : Yaml → Except YamlError Value} {default : Value}
    {good : Yaml → Prop} (converts : ∀ found, (convert found).isOk ↔ good found) :
    (node.read key convert default).isOk ↔ node.At key good := by
  cases node with
  | map entries =>
      simp only [read, field, at_map]
      cases lookup key.toList entries <;> simp [converts]
  | null | scalar | sequence => simp [read, field]

end Yaml

namespace Scenario

open Yaml

/-! ## What can be read -/

section Readable

variable (library : YamlLibrary)

def StageReadable (node : Yaml) : Prop :=
  node.At "stage" (IsText library) ∧ node.At "duration" (IsText library) ∧
    node.At "target_rps" (Reads library.toUInt32) ∧
    node.At "concurrent_users" (Reads library.toUInt32)

def HttpReadable (http : Yaml) : Prop :=
  http.At "method" (IsText library) ∧ http.At "path" (IsText library) ∧
    http.At "headers" fun headers =>
      ∀ entry ∈ headers.entries, entry.1.IsText library ∧ entry.2.IsText library

def ScenarioReadable (node : Yaml) : Prop :=
  node.At "name" (IsText library) ∧ node.At "weight" (Reads library.toUInt32) ∧
    node.At "steps" fun steps => ∀ step ∈ steps.items, step.At "http" (HttpReadable library)

def AuthenticationReadable (auth : Yaml) : Prop :=
  auth.At "type" (IsText library) ∧ auth.At "token_endpoint" (IsText library) ∧
    auth.At "client_credentials" fun credentials =>
      credentials.At "client_id" (IsText library) ∧
        credentials.At "client_secret" (IsText library)

def ObservabilityReadable (observability : Yaml) : Prop :=
  (observability.At "metrics" fun metrics => metrics.At "prometheus" fun prometheus =>
    prometheus.At "enabled" (Reads library.toBool) ∧
      prometheus.At "port" (Reads library.toUInt16)) ∧
  (observability.At "tracing" fun tracing =>
    tracing.At "otlp_endpoint" (IsText library) ∧
      tracing.At "sample_rate" (Reads library.toDouble)) ∧
  observability.At "logging" fun logging =>
    logging.At "level" (IsText library) ∧ logging.At "format" (IsText library)

def SlaReadable (sla : Yaml) : Prop :=
  sla.At "error_rate" (IsText library) ∧ sla.At "p99_latency" (IsText library)

/-- Every section but the target. -/
def SectionsReadable (root : Yaml) : Prop :=
  (root.At "load_profile" fun profile => ∀ item ∈ profile.items, StageReadable library item) ∧
  (root.At "scenarios" fun scenarios =>
    ∀ item ∈ scenarios.items, ScenarioReadable library item) ∧
  root.At "authentication" (AuthenticationReadable library) ∧
  root.At "observability" (ObservabilityReadable library) ∧
  root.At "sla" (SlaReadable library)

def TargetReadable (root target : Yaml) : Prop :=
  root.At "version" (IsText library) ∧ root.At "test_id" (IsText library) ∧
    target.At "base_url" (IsText library) ∧ target.At "protocol" (IsText library) ∧
    (target.At "tls" fun tls => tls.At "verify" (Reads library.toBool)) ∧
    target.At "max_body_bytes" (IsText library)

end Readable

/-! ## Readers -/

section Readers

variable {library : YamlLibrary}

theorem isOk_text_map {Value : Type} {change : Text → Value} (found : Yaml) :
    ((library.asString found).map change).isOk ↔ found.IsText library := by
  rw [isOk_map]
  exact isOk_asString

theorem isOk_readStage (node : Yaml) :
    (readStage library node).isOk ↔ StageReadable library node := by
  refine isOk_bind (isOk_read fun _ => isOk_asString) fun name => ?_
  refine isOk_bind (isOk_read isOk_text_map) fun duration => ?_
  refine isOk_bind (isOk_read fun _ => isOk_convert) fun targetRps => ?_
  rw [isOk_bind (isOk_read fun _ => isOk_convert) fun _ => iff_of_true rfl trivial, and_true]

theorem isOk_readHeaders (entries : List (Yaml × Yaml)) (headers : Table Text Text) :
    (readHeaders library entries headers).isOk ↔
      ∀ entry ∈ entries, entry.1.IsText library ∧ entry.2.IsText library := by
  induction entries generalizing headers with
  | nil => simp [readHeaders]
  | cons entry rest induction =>
      rw [List.forall_mem_cons, and_assoc]
      refine isOk_bind isOk_asString fun name => ?_
      exact isOk_bind isOk_asString fun text => induction _

theorem isOk_readHttp (http : Yaml) : (readHttp library http).isOk ↔ HttpReadable library http := by
  have parts : (readHttp library http).isOk ↔
      http.At "method" (IsText library) ∧ http.At "path" (IsText library) ∧
        http.At "body" (fun _ => True) ∧
        (http.At "headers" fun headers =>
          ∀ entry ∈ headers.entries, entry.1.IsText library ∧ entry.2.IsText library) ∧
        http.At "assertions" (fun _ => True) ∧ True := by
    refine isOk_bind (isOk_read fun _ => isOk_asString) fun method => ?_
    refine isOk_bind (isOk_read fun _ => isOk_asString) fun path => ?_
    refine isOk_bind (isOk_read fun found => ?_) fun body => ?_
    · cases found <;> simp [readBody]
    refine isOk_bind (isOk_read fun found => isOk_readHeaders found.entries _) fun headers => ?_
    exact isOk_bind (isOk_read fun _ => by simp) fun assertions => by simp [pure, Except.pure]
  rw [parts, HttpReadable]
  -- The two that cannot fail only ask for a node with keys, as the others do.
  cases http <;> simp [at_map]

theorem isOk_readSteps (items : List Yaml) :
    (readSteps library items).isOk ↔ ∀ step ∈ items, step.At "http" (HttpReadable library) := by
  induction items with
  | nil => simp [readSteps]
  | cons node rest induction =>
      rw [List.forall_mem_cons]
      cases node with
      | scalar text => simp [readSteps, field, bind, Except.bind]
      | null => simpa [readSteps, field, bind, Except.bind] using induction
      | sequence items => simpa [readSteps, field, bind, Except.bind] using induction
      | map entries =>
          rw [at_map, readSteps, field]
          cases lookup "http".toList entries with
          | none => simpa [bind, Except.bind] using induction
          | some http =>
              simp only [Option.some.injEq, forall_eq']
              change (readHttp library http >>= fun step =>
                readSteps library rest >>= fun steps => pure (step :: steps)).isOk ↔ _
              refine isOk_bind (isOk_readHttp http) fun step => ?_
              rw [isOk_bind induction fun _ => iff_of_true rfl trivial, and_true]

theorem isOk_readScenario (node : Yaml) :
    (readScenario library node).isOk ↔ ScenarioReadable library node := by
  refine isOk_bind (isOk_read fun _ => isOk_asString) fun name => ?_
  refine isOk_bind (isOk_read fun _ => isOk_convert) fun weight => ?_
  rw [isOk_bind (isOk_read fun found => isOk_readSteps found.items)
    fun _ => iff_of_true rfl trivial, and_true]

end Readers

/-! ## The entries that can be read -/

section Entries

variable {library : YamlLibrary} {root target : Yaml}

/-- The nodes that are converted without an exception. -/
def Field.Converts (library : YamlLibrary) : Field → Yaml → Prop
  | .version | .testId | .baseUrl | .protocol | .maxBodyBytes | .authType | .tokenEndpoint
  | .clientId | .clientSecret | .otlpEndpoint | .logLevel | .logFormat | .maxErrorRate
  | .maxP99Latency => IsText library
  | .tlsVerify | .prometheusEnabled => Reads library.toBool
  | .prometheusPort => Reads library.toUInt16
  | .sampleRate => Reads library.toDouble

theorem isOk_field_convert (field : Field) (node : Yaml) :
    (field.convert library node).isOk ↔ field.Converts library node := by
  cases field with
  | maxBodyBytes | maxErrorRate | maxP99Latency => exact isOk_text_map node
  | tlsVerify | prometheusEnabled | prometheusPort | sampleRate => exact isOk_convert
  | _ => exact isOk_asString

theorem isOk_readingAt {node : Yaml} {path : List String} {field : Field} :
    (readingAt library node path field).isOk ↔ AtPath (field.Converts library) path node := by
  induction path generalizing node with
  | nil =>
      rw [AtPath, ← isOk_field_convert]
      exact iff_of_eq (congrArg (· = true) (isOk_map some))
  | cons key path ih =>
      cases node with
      | map entries =>
          simp only [readingAt, follow, Yaml.field, AtPath, at_map]
          cases lookup key.toList entries with
          | none => simp
          | some found =>
              simp only [Option.some.injEq, forall_eq']
              exact ih
      | null | scalar | sequence => simp [readingAt, follow, Yaml.field, AtPath]

theorem isOk_reading {field : Field} :
    (reading library root field).isOk ↔ AtPath (field.Converts library) field.path root :=
  isOk_readingAt

theorem readable_sectionFields_iff :
    (∀ field ∈ sectionFields, (reading library root field).isOk) ↔
      root.At "authentication" (AuthenticationReadable library) ∧
        root.At "observability" (ObservabilityReadable library) ∧
        root.At "sla" (SlaReadable library) := by
  unfold AuthenticationReadable ObservabilityReadable SlaReadable
  simp only [isOk_reading, sectionFields, List.forall_mem_cons, Field.path, AtPath, Field.Converts,
    at_and, and_assoc, List.not_mem_nil, false_implies, implies_true, and_true]

theorem readable_targetFields_iff (located : lookup "target".toList root.entries = some target) :
    (∀ field ∈ targetFields, (reading library root field).isOk) ↔
      TargetReadable library root target := by
  unfold TargetReadable
  simp only [isOk_reading, targetFields, List.forall_mem_cons, Field.path, AtPath, Field.Converts,
    at_of_lookup located, List.not_mem_nil, false_implies, implies_true, and_true]

theorem at_items {key : String} {good : Yaml → Prop} (document : root.isMap) :
    (root.At key fun found => ∀ item ∈ found.items, good item) ↔
      ∀ item ∈ itemsAt root key, good item := by
  cases root with
  | null | scalar | sequence => cases document
  | map entries =>
      simp only [at_map, itemsAt, Yaml.entries]
      cases lookup key.toList entries <;> simp

theorem throwsUnless_sections (document : root.isMap) :
    ThrowsUnless .escaped (SectionsReadable library root) (laterSteps library root) := by
  have throws : ThrowsUnless _ _ (laterSteps library root) := throwsUnless_laterSteps root
  simp only [isOk_readStage, isOk_readScenario] at throws
  rwa [readable_sectionFields_iff, ← at_items document, ← at_items document] at throws

theorem throwsUnless_target (located : lookup "target".toList root.entries = some target) :
    ThrowsUnless .targetError (TargetReadable library root target)
      (fieldSteps library .targetError root targetFields) := by
  rw [← readable_targetFields_iff located]
  exact throwsUnless_fieldSteps targetFields

end Entries

/-! ## The two parts of a document -/

section Document

variable (library : YamlLibrary)

/-- The base URL that the target section leaves. -/
def baseUrlAfter (target : Yaml) (config : ScenarioConfig) : Text :=
  match lookup "base_url".toList target.entries with
  | some (.scalar text) => text
  | some .null => library.nullString.getD []
  | _ => config.target.baseUrl

/-- The base URL is the one that the target section has, or the one from before. -/
theorem baseUrlAfter_eq_readOr {root target : Yaml}
    (located : lookup "target".toList root.entries = some target) (mapping : target.isMap)
    (readable : TargetReadable library root target) (config : ScenarioConfig) :
    baseUrlAfter library target config =
      readOr (reading library root .baseUrl) (config.get .baseUrl) := by
  cases root with
  | null | scalar | sequence => cases located
  | map entries =>
      cases target with
      | null | scalar | sequence => cases mapping
      | map inner =>
          have text := readable.2.2.1
          simp only [Yaml.entries, at_map] at located text
          simp only [reading, readingAt, Field.path, follow, Yaml.field, located, baseUrlAfter,
            Yaml.entries]
          cases found : lookup "base_url".toList inner with
          | none => rfl
          | some value =>
              have isText := text value found
              cases value with
              | scalar text => rfl
              | null =>
                  obtain ⟨text, equal⟩ := Option.isSome_iff_exists.mp isText
                  simp only [Field.convert, YamlLibrary.asString, equal]
                  rfl
              | sequence | map => cases isText

theorem baseUrl_fieldSteps {root target : Yaml}
    (located : lookup "target".toList root.entries = some target) (mapping : target.isMap)
    (readable : TargetReadable library root target) (config : ScenarioConfig) :
    (execute (fieldSteps library .targetError root targetFields) config).2.target.baseUrl =
      baseUrlAfter library target config := by
  rw [baseUrlAfter_eq_readOr library located mapping readable]
  have listed : Field.baseUrl ∈ targetFields := by decide
  exact get_fieldSteps (((throwsUnless_target located).succeeds_iff config).mpr readable) listed

/-- The document is accepted up to the end of `try`. -/
def PassesTarget (root : Yaml) (missing : Text) (config : ScenarioConfig) : Prop :=
  root.isMap ∧ ∃ target, lookup "target".toList root.entries = some target ∧
    target.isMap ∧ TargetReadable library root target ∧
    (missing = [] ∨ baseUrlAfter library target config ≠ [])

theorem append_ne_empty {first : String} (given : first ≠ "") (rest : String) :
    first ++ rest ≠ "" :=
  fun empty => given (String.append_eq_empty_iff.mp empty).1

theorem Failure.message_ne_empty {failure : Failure} (what : YamlError → String)
    (caught : ∀ error, failure ≠ .escaped error) : failure.message what ≠ "" := by
  cases failure with
  | escaped error => exact absurd rfl (caught error)
  | rootNotMapping | targetRequired | targetNotMapping => exact ne_of_beq_false rfl
  | cannotOpen | syntaxError | targetError => exact append_ne_empty (ne_of_beq_false rfl) _
  | baseUrlEmpty missing =>
      exact append_ne_empty (append_ne_empty (ne_of_beq_false rfl) _) _

theorem execute_check_append (missing : Text) (rest : List Step) (config : ScenarioConfig) :
    execute ((if missing = [] then [] else [.requireBaseUrl missing]) ++ rest) config =
      if missing = [] ∨ config.target.baseUrl ≠ [] then execute rest config
      else (some (.baseUrlEmpty missing), config) := by
  by_cases resolved : missing = []
  · simp [resolved]
  · by_cases given : config.target.baseUrl = [] <;> simp [resolved, given, execute]

/-- How `parse_config_file` ends on a document. -/
inductive Ends (root : Yaml) (missing : Text) (config : ScenarioConfig) :
    Option Failure → Prop where
  | rootNotMapping : ¬ root.isMap → Ends root missing config (some .rootNotMapping)
  | targetRequired : lookup "target".toList root.entries = none →
      Ends root missing config (some .targetRequired)
  | targetNotMapping {target : Yaml} : lookup "target".toList root.entries = some target →
      ¬ target.isMap → Ends root missing config (some .targetNotMapping)
  | targetError {target : Yaml} {error : YamlError} :
      lookup "target".toList root.entries = some target →
      ¬ TargetReadable library root target → Ends root missing config (some (.targetError error))
  | baseUrlEmpty {target : Yaml} : root.isMap → lookup "target".toList root.entries = some target →
      target.isMap → TargetReadable library root target → missing ≠ [] →
      baseUrlAfter library target config = [] →
      Ends root missing config (some (.baseUrlEmpty missing))
  | escaped {error : YamlError} : PassesTarget library root missing config →
      ¬ SectionsReadable library root → Ends root missing config (some (.escaped error))
  | success : PassesTarget library root missing config → SectionsReadable library root →
      Ends root missing config none

/-- A document whose target is a mapping: what happens inside `try`, and after it. -/
theorem ends_flatSteps (root : Yaml) {target : Yaml}
    (located : lookup "target".toList root.entries = some target) (mapping : target.isMap)
    (missing : Text) (config : ScenarioConfig) :
    Ends library root missing config (execute (flatSteps library root missing) config).1 := by
  have document := isMap_of_lookup located
  rw [flatSteps, execute_append]
  have first : ThrowsUnless _ (TargetReadable library root target) _ :=
    throwsUnless_target located
  rcases first config with ⟨readable, success⟩ | ⟨unreadable, error, fails⟩
  · rw [if_pos success, execute_check_append,
      baseUrl_fieldSteps library located mapping readable]
    by_cases given : missing = [] ∨ baseUrlAfter library target config ≠ []
    · rw [if_pos given]
      have passes : PassesTarget library root missing config :=
        ⟨document, target, located, mapping, readable, given⟩
      have later : ThrowsUnless _ (SectionsReadable library root) _ :=
        throwsUnless_sections document
      rcases later (execute (fieldSteps library .targetError root targetFields) config).2 with
        ⟨sections, succeeds⟩ | ⟨broken, error, thrown⟩
      · rw [succeeds]
        exact .success passes sections
      · rw [thrown]
        exact .escaped passes broken
    · rw [if_neg given]
      obtain ⟨named, empty⟩ := not_or.mp given
      exact .baseUrlEmpty document located mapping readable named (not_not.mp empty)
  · rw [if_neg (by simp [fails]), fails]
    exact .targetError located unreadable

theorem ends_rootSteps (root : Yaml) (missing : Text) (config : ScenarioConfig) :
    Ends library root missing config (execute (rootSteps library root missing) config).1 := by
  rcases rootSteps_cases library root missing with
    ⟨-, without⟩ | ⟨target, located, mapping, same⟩
  · cases root with
    | null | scalar | sequence => exact .rootNotMapping Bool.false_ne_true
    | map entries =>
        rw [rootSteps]
        cases located : lookup "target".toList entries with
        | none => exact .targetRequired located
        | some target =>
            have other := without target located
            simp only [other, Bool.not_false, if_true]
            exact .targetNotMapping located other
  · rw [same]
    exact ends_flatSteps library root located mapping missing config

section Ends

variable {library} {root : Yaml} {missing : Text} {config : ScenarioConfig}
variable {outcome : Option Failure}

/-- A document whose target section can be read. -/
theorem Ends.of_readable {target : Yaml} (ends : Ends library root missing config outcome)
    (document : root.isMap) (located : lookup "target".toList root.entries = some target)
    (mapping : target.isMap) (readable : TargetReadable library root target) :
    (missing ≠ [] ∧ baseUrlAfter library target config = [] ∧
      outcome = some (.baseUrlEmpty missing)) ∨
    ((missing = [] ∨ baseUrlAfter library target config ≠ []) ∧
      ((SectionsReadable library root ∧ outcome = none) ∨
        (¬ SectionsReadable library root ∧ ∃ error, outcome = some (.escaped error)))) := by
  cases ends with
  | rootNotMapping other => exact absurd document other
  | targetRequired absent => cases located.symm.trans absent
  | targetNotMapping found other =>
      cases located.symm.trans found
      exact absurd mapping other
  | targetError found unreadable =>
      cases located.symm.trans found
      exact absurd readable unreadable
  | baseUrlEmpty _ found _ _ named empty =>
      cases located.symm.trans found
      exact .inl ⟨named, empty, rfl⟩
  | escaped passes broken =>
      obtain ⟨_, other, found, _, _, given⟩ := passes
      cases located.symm.trans found
      exact .inr ⟨given, .inr ⟨broken, _, rfl⟩⟩
  | success passes sections =>
      obtain ⟨_, other, found, _, _, given⟩ := passes
      cases located.symm.trans found
      exact .inr ⟨given, .inl ⟨sections, rfl⟩⟩

/-- A document that gets past the target section ends as its other sections say. -/
theorem Ends.of_passesTarget (ends : Ends library root missing config outcome)
    (passes : PassesTarget library root missing config) :
    (SectionsReadable library root ∧ outcome = none) ∨
      (¬ SectionsReadable library root ∧ ∃ error, outcome = some (.escaped error)) := by
  obtain ⟨document, target, located, mapping, readable, given⟩ := passes
  rcases ends.of_readable document located mapping readable with ⟨named, empty, _⟩ | ⟨_, others⟩
  · exact absurd given (not_or.mpr ⟨named, not_not.mpr empty⟩)
  · exact others

theorem Ends.succeeds_iff (ends : Ends library root missing config outcome) :
    outcome = none ↔ PassesTarget library root missing config ∧ SectionsReadable library root := by
  constructor
  · rintro rfl
    cases ends with
    | success passes sections => exact ⟨passes, sections⟩
  · rintro ⟨passes, sections⟩
    rcases ends.of_passesTarget passes with ⟨_, succeeds⟩ | ⟨broken, _⟩
    · exact succeeds
    · exact absurd sections broken

/-- The sections outside `try` decide whether an exception leaves `parse_config_file`, in
a document that gets there. -/
theorem Ends.escapes_iff (ends : Ends library root missing config outcome) :
    (∃ error, outcome = some (.escaped error)) ↔
      PassesTarget library root missing config ∧ ¬ SectionsReadable library root := by
  constructor
  · rintro ⟨error, rfl⟩
    cases ends with
    | escaped passes broken => exact ⟨passes, broken⟩
  · rintro ⟨passes, broken⟩
    rcases ends.of_passesTarget passes with ⟨sections, _⟩ | ⟨_, thrown⟩
    · exact absurd sections broken
    · exact thrown

end Ends

/-- `load_config` returns `true`, or `false` with an error, exactly if the document is
rejected by the end of `try` or all its other sections can be read.  The document that is
looked at is the one with its variables put in. -/
theorem loadConfig_reports_iff (env : Text → Option Text) (what : YamlError → String)
    (document : Document) (state : LoadState) :
    ((loadConfig library env what (.document document) state).1 = .ok true ∨
      ((loadConfig library env what (.document document) state).1 = .ok false ∧
        (loadConfig library env what (.document document) state).2.lastError ≠ "")) ↔
      (PassesTarget library (document.substituted env).1 (document.substituted env).2
          state.config →
        SectionsReadable library (document.substituted env).1) := by
  have ends := ends_rootSteps library (document.substituted env).1
    (document.substituted env).2 state.config
  rw [← not_iff_not, Classical.not_imp, ← ends.escapes_iff]
  simp only [loadConfig, parseConfigFile, fileSteps]
  split
  · rename_i success
    simp [success]
  · rename_i error thrown
    simp [thrown]
  · rename_i failure caught fails
    have kept : ¬ ∃ error, failure = .escaped error := by
      rintro ⟨error, equal⟩
      exact caught error equal
    simpa [fails, Failure.message_ne_empty what caught] using kept

end Document

/-- A library for documents in which all that is read is texts. -/
def textLibrary : YamlLibrary where
  nullString := none
  toBool _ := none
  toUInt16 _ := none
  toUInt32 _ := none
  toDouble _ := none
  emit _ := []

/-- A target with a base URL, and a stage that is a number. -/
def scalarStageFile : Document where
  outline := .map [
    (.scalar 0, .map [(.scalar 1, .scalar 2)]),
    (.scalar 3, .sequence [.scalar 4])]
  texts := numbered ["target", "base_url", "host", "load_profile", "5"]

theorem loadConfig_throws_on_scalar_stage :
    (loadConfig textLibrary (fun _ => none) (fun _ => "bad subscript")
      (.document scalarStageFile) {}).1 = .error .badSubscript := by
  decide +kernel

end Scenario

end Cppload

import Cppload.ConfigReading

/-!
# What a load leaves in the configuration

A load takes the fields in a fixed order and gets as far as the first that cannot be read,
and what it has assigned until then stays.  So the document, with its variables put in, says
which fields a load overwrites, and with the configuration before the load it says what a
load that fails has changed.
-/

namespace Cppload.Scenario

open Yaml

section Entries

variable (library : YamlLibrary)

/-- As far as the fields can be read, the configuration has their values already. -/
def Repeats (root : Yaml) (config : ScenarioConfig) (fields : List Field) : Prop :=
  ∀ field ∈ fields.takeWhile fun field => (reading library root field).isOk,
    ∀ value, reading library root field = .ok (some value) → config.get field = value

/-- A load that gets to the fields of the target assigns nothing new: neither there nor, if
it gets past the target section, in the others.  An item that is read is appended. -/
def KeepsConfig (root : Yaml) (missing : Text) (config : ScenarioConfig) : Prop :=
  Repeats library root config targetFields ∧
    (PassesTarget library root missing config →
      match itemsAt root "load_profile", itemsAt root "scenarios" with
      | stage :: _, _ => ¬ StageReadable library stage
      | [], scenario :: _ => ¬ ScenarioReadable library scenario
      | [], [] => Repeats library root config sectionFields)

variable {library}

/-! ## Loads that succeed -/

section Success

variable {root : Yaml} {missing : Text} {config : ScenarioConfig} {onThrow : YamlError → Failure}

theorem stages_fieldSteps (fields : List Field) (config : ScenarioConfig) :
    (execute (fieldSteps library onThrow root fields) config).2.stages = config.stages := by
  have keeps : Preserves (·.stages = config.stages) (fieldSteps library onThrow root fields) :=
    .of_fieldSteps fun field _ value _ before held => (before.stages_put field value).trans held
  exact keeps config rfl

theorem scenarios_fieldSteps (fields : List Field) (config : ScenarioConfig) :
    (execute (fieldSteps library onThrow root fields) config).2.scenarios = config.scenarios := by
  have keeps : Preserves (·.scenarios = config.scenarios)
      (fieldSteps library onThrow root fields) :=
    .of_fieldSteps fun field _ value _ before held => (before.scenarios_put field value).trans held
  exact keeps config rfl

/-- Appending leaves alone what the assignment leaves alone. -/
theorem pushFrom_keeps {Value Part : Type} {read : Yaml → Except YamlError Value}
    {push : Value → Assignment} (part : ScenarioConfig → Part)
    (keeps : ∀ config value, part ((push value).apply config) = part config) (items : List Yaml)
    (config : ScenarioConfig) :
    part (execute (items.map (pushFrom onThrow read push)) config).2 = part config := by
  have preserves : Preserves (part · = part config) (items.map (pushFrom onThrow read push)) :=
    .of_pushFrom (fun before value held => (keeps before value).trans held) items
  exact preserves config rfl

theorem get_pushStage (field : Field) (config : ScenarioConfig) (stage : Stage) :
    ((Assignment.pushStage stage).apply config).get field = config.get field := by
  cases field <;> rfl

theorem get_pushScenario (field : Field) (config : ScenarioConfig) (scenario : WeightedScenario) :
    ((Assignment.pushScenario scenario).apply config).get field = config.get field := by
  cases field <;> rfl

/-- The target section is not touched after `try`. -/
theorem get_laterSteps {field : Field} (target : field ∉ sectionFields)
    (config : ScenarioConfig) :
    (execute (laterSteps library root) config).2.get field = config.get field := by
  have keeps : Preserves (·.get field = config.get field) (laterSteps library root) := by
    refine .of_laterSteps ?_ ?_ ?_
    · intro other member value _ before held
      have different : field ≠ other := fun same => target (same ▸ member)
      exact (before.get_put_of_ne different value).trans held
    · exact fun before stage held => (get_pushStage field before stage).trans held
    · exact fun before scenario held => (get_pushScenario field before scenario).trans held
  exact keeps config rfl

theorem execute_check (missing : Text) (config : ScenarioConfig) :
    (execute (if missing = [] then [] else [.requireBaseUrl missing]) config).2 = config := by
  have keeps : Preserves (· = config) (if missing = [] then [] else [.requireBaseUrl missing]) :=
    .of_check missing
  exact keeps config rfl

theorem laterSteps_result (success : (execute (laterSteps library root) config).1 = none) :
    (∀ field ∈ sectionFields, (execute (laterSteps library root) config).2.get field =
      readOr (reading library root field) (config.get field)) ∧
    (execute (laterSteps library root) config).2.stages =
      config.stages ++ values (readStage library) (itemsAt root "load_profile") ∧
    (execute (laterSteps library root) config).2.scenarios =
      config.scenarios ++ values (readScenario library) (itemsAt root "scenarios") := by
  rw [laterSteps] at success ⊢
  obtain ⟨stages, rest, result⟩ := execute_append_of_success success
  obtain ⟨scenarios, fields, last⟩ := execute_append_of_success rest
  rw [result, last]
  refine ⟨fun field member => ?_, ?_, ?_⟩
  · rw [get_fieldSteps fields member, pushFrom_keeps (·.get field) (get_pushScenario field),
      pushFrom_keeps (·.get field) (get_pushStage field)]
  · rw [stages_fieldSteps, pushFrom_keeps (·.stages) fun _ _ => rfl,
      pushFrom_appends (·.stages) (fun _ _ => rfl) stages]
  · rw [scenarios_fieldSteps, pushFrom_appends (·.scenarios) (fun _ _ => rfl) scenarios,
      pushFrom_keeps (·.scenarios) fun _ _ => rfl]

/-- What a load that succeeds leaves. -/
theorem flatSteps_result (success : (execute (flatSteps library root missing) config).1 = none) :
    (∀ field, (execute (flatSteps library root missing) config).2.get field =
      readOr (reading library root field) (config.get field)) ∧
    (execute (flatSteps library root missing) config).2.stages =
      config.stages ++ values (readStage library) (itemsAt root "load_profile") ∧
    (execute (flatSteps library root missing) config).2.scenarios =
      config.scenarios ++ values (readScenario library) (itemsAt root "scenarios") := by
  rw [flatSteps] at success ⊢
  obtain ⟨target, rest, result⟩ := execute_append_of_success success
  obtain ⟨-, later, last⟩ := execute_append_of_success rest
  rw [execute_check] at later last
  obtain ⟨fields, stages, scenarios⟩ := laterSteps_result later
  rw [result, last]
  refine ⟨fun field => ?_, ?_, ?_⟩
  · by_cases inSections : field ∈ sectionFields
    · have other : field ∉ targetFields := by
        revert inSections
        cases field <;> decide
      rw [fields field inSections, get_fieldSteps_of_notMem other]
    · rw [get_laterSteps inSections,
        get_fieldSteps target ((mem_fields field).resolve_right inSections)]
  · rw [stages, stages_fieldSteps]
  · rw [scenarios, scenarios_fieldSteps]

theorem isOk_of_success (success : (execute (flatSteps library root missing) config).1 = none) :
    (∀ field, (reading library root field).isOk) ∧
      (∀ stage ∈ itemsAt root "load_profile", (readStage library stage).isOk) ∧
      ∀ scenario ∈ itemsAt root "scenarios", (readScenario library scenario).isOk := by
  obtain ⟨target, rest, -⟩ := execute_append_of_success success
  obtain ⟨-, later, -⟩ := execute_append_of_success rest
  have first := ((throwsUnless_fieldSteps targetFields).succeeds_iff _).mp target
  obtain ⟨stages, scenarios, second⟩ := ((throwsUnless_laterSteps root).succeeds_iff _).mp later
  exact ⟨fun field => (mem_fields field).elim (first field) (second field), stages, scenarios⟩

/-- Two values become equal by reading exactly if there is something to read, or they were
equal. -/
theorem readOr_eq_iff {field : Field} (ok : (reading library root field).isOk)
    (first second : field.Value) :
    readOr (reading library root field) first = readOr (reading library root field) second ↔
      (¬ Names root field → first = second) := by
  rcases located : root.follow field.path with error | _ | found
  · simp [reading, readingAt, located] at ok
  · simp [reading, readingAt, located, Names, readOr]
  · cases converted : field.convert library found with
    | error error => simp [reading, readingAt, located, converted, Except.map] at ok
    | ok value => simp [reading, readingAt, located, converted, Names, readOr, Except.map]

theorem values_eq_nil_iff {Value : Type} {read : Yaml → Except YamlError Value}
    {items : List Yaml} (ok : ∀ item ∈ items, (read item).isOk) :
    values read items = [] ↔ items = [] := by
  cases items with
  | nil => simp [values]
  | cons item rest =>
      have first := ok item List.mem_cons_self
      cases result : read item with
      | error error =>
          rw [result] at first
          cases first
      | ok value => simp [values, result, Except.toOption]

/-- A document that was loaded is accepted again. -/
theorem flatSteps_again {target : Yaml}
    (located : lookup "target".toList root.entries = some target) (mapping : target.isMap)
    (success : (execute (flatSteps library root missing) config).1 = none) :
    (execute (flatSteps library root missing)
      (execute (flatSteps library root missing) config).2).1 = none := by
  have ends := ends_flatSteps library root located mapping missing
  obtain ⟨⟨document, other, found, -, readable, given⟩, sections⟩ :=
    (ends config).succeeds_iff.mp success
  cases located.symm.trans found
  refine (ends _).succeeds_iff.mpr ⟨⟨document, target, located, mapping, readable, ?_⟩, sections⟩
  rw [baseUrlAfter_eq_readOr library located mapping readable] at given ⊢
  rwa [(flatSteps_result success).1, readOr_readOr]

end Success

/-! ## Loads that change nothing -/

section Unchanged

variable {root : Yaml} {missing : Text} {config : ScenarioConfig} {onThrow : YamlError → Failure}

theorem put_eq_self_iff (field : Field) (value : field.Value) :
    config.put field value = config ↔ config.get field = value := by
  constructor
  · intro same
    rw [← same, config.get_put]
  · rintro rfl
    cases field <;> rfl

/-- Later steps that leave the fields alone do not take back what was assigned to them. -/
theorem fieldSteps_append_eq_self_iff {fields : List Field} {more : List Step}
    (keeps : ∀ field ∈ fields, ∀ before, (execute more before).2.get field = before.get field) :
    (execute (fieldSteps library onThrow root fields ++ more) config).2 = config ↔
      (execute (fieldSteps library onThrow root fields) config).2 = config ∧
        ((execute (fieldSteps library onThrow root fields) config).1 = none →
          (execute more config).2 = config) := by
  rw [execute_append]
  split
  · rename_i success
    constructor
    · intro unchanged
      have same : (execute (fieldSteps library onThrow root fields) config).2 = config := by
        refine (ScenarioConfig.eq_iff _ _).mpr ⟨fun field => ?_, stages_fieldSteps _ _,
          scenarios_fieldSteps _ _⟩
        by_cases member : field ∈ fields
        · rw [← keeps field member, unchanged]
        · exact get_fieldSteps_of_notMem member config
      rw [same] at unchanged
      exact ⟨same, fun _ => unchanged⟩
    · rintro ⟨same, later⟩
      rw [same]
      exact later success
  · rename_i failed
    simp [failed]

theorem repeats_cons (field : Field) (rest : List Field) :
    Repeats library root config (field :: rest) ↔
      (∀ value, reading library root field = .ok (some value) → config.get field = value) ∧
        ((reading library root field).isOk → Repeats library root config rest) := by
  unfold Repeats
  cases result : reading library root field with
  | error error => simp [result]
  | ok found => simp [result]

theorem fieldSteps_eq_self_iff {fields : List Field} (nodup : fields.Nodup) :
    (execute (fieldSteps library onThrow root fields) config).2 = config ↔
      Repeats library root config fields := by
  induction fields with
  | nil => exact iff_of_true rfl (by simp [Repeats])
  | cons field rest ih =>
      obtain ⟨fresh, others⟩ := List.nodup_cons.mp nodup
      have keeps : ∀ other ∈ [field], ∀ before,
          (execute (fieldSteps library onThrow root rest) before).2.get other =
            before.get other := by
        intro other member
        rw [List.mem_singleton.mp member]
        exact get_fieldSteps_of_notMem fresh
      have first : (execute (fieldSteps library onThrow root [field]) config).2 = config ↔
          ∀ value, reading library root field = .ok (some value) → config.get field = value := by
        rw [fieldSteps_cons]
        rcases reading library root field with error | _ | value
        · exact iff_of_true rfl (by simp)
        · exact iff_of_true rfl (by simp)
        · refine (put_eq_self_iff field value).trans ?_
          simp
      have succeeds : (execute (fieldSteps library onThrow root [field]) config).1 = none ↔
          (reading library root field).isOk := by
        rw [(throwsUnless_fieldSteps [field]).succeeds_iff, List.forall_mem_singleton]
      have parts : fieldSteps library onThrow root (field :: rest) =
          fieldSteps library onThrow root [field] ++ fieldSteps library onThrow root rest := by
        simp [fieldSteps]
      rw [repeats_cons, ← ih others, ← first, ← succeeds, parts]
      exact fieldSteps_append_eq_self_iff keeps

/-- A list that an item was appended to is not taken back. -/
theorem pushFrom_append_eq_self_iff {Value Item : Type} {read : Yaml → Except YamlError Value}
    {push : Value → Assignment} (list : ScenarioConfig → List Item) {more : List Step}
    (grows : ∀ config value,
      (list config).length < (list ((push value).apply config)).length)
    (keeps : ∀ size, Preserves (fun config => size < (list config).length) more)
    (items : List Yaml) :
    (execute (items.map (pushFrom onThrow read push) ++ more) config).2 = config ↔
      match items with
      | item :: _ => ¬ (read item).isOk
      | [] => (execute more config).2 = config := by
  cases items with
  | nil => rfl
  | cons item rest =>
      rw [List.map_cons, pushFrom]
      cases result : read item with
      | error error => exact iff_of_true rfl (by simp [result])
      | ok value =>
          refine iff_of_false (fun same => ?_) (by simp [result])
          have later : Preserves (fun after => (list config).length < (list after).length)
              (rest.map (pushFrom onThrow read push) ++ more) :=
            (Preserves.of_pushFrom (fun before value held => held.trans (grows before value))
              rest).append (keeps _)
          have larger := later _ (grows config value)
          rw [List.cons_append, execute] at same
          rw [same] at larger
          exact lt_irrefl _ larger

theorem laterSteps_eq_self_iff :
    (execute (laterSteps library root) config).2 = config ↔
      match itemsAt root "load_profile", itemsAt root "scenarios" with
      | stage :: _, _ => ¬ StageReadable library stage
      | [], scenario :: _ => ¬ ScenarioReadable library scenario
      | [], [] => Repeats library root config sectionFields := by
  have fields (size : ℕ) : Preserves (size < ·.scenarios.length)
      (fieldSteps library .escaped root sectionFields) := by
    refine .of_fieldSteps fun field _ value _ before held => ?_
    rwa [before.scenarios_put]
  have stages (size : ℕ) : Preserves (size < ·.stages.length)
      ((itemsAt root "scenarios").map (pushFrom .escaped (readScenario library) .pushScenario) ++
        fieldSteps library .escaped root sectionFields) := by
    refine (Preserves.of_pushFrom (fun _ _ held => held) _).append ?_
    refine .of_fieldSteps fun field _ value _ before held => ?_
    rwa [before.stages_put]
  rw [laterSteps, pushFrom_append_eq_self_iff (·.stages) (by simp [Assignment.apply]) stages]
  cases itemsAt root "load_profile" with
  | cons item rest => exact not_congr (isOk_readStage item)
  | nil =>
      dsimp only
      rw [pushFrom_append_eq_self_iff (·.scenarios) (by simp [Assignment.apply]) fields]
      cases itemsAt root "scenarios" with
      | cons item rest => exact not_congr (isOk_readScenario item)
      | nil => exact fieldSteps_eq_self_iff (by decide)

/-- The steps of the target section get to its end in the documents that are accepted up to
there. -/
theorem execute_target_iff {target : Yaml}
    (located : lookup "target".toList root.entries = some target) (mapping : target.isMap) :
    ((execute (fieldSteps library .targetError root targetFields) config).1 = none ∧
        (missing = [] ∨
          (execute (fieldSteps library .targetError root targetFields) config).2.target.baseUrl ≠
            [])) ↔
      PassesTarget library root missing config := by
  rw [(throwsUnless_target located).succeeds_iff]
  constructor
  · rintro ⟨readable, given⟩
    rw [baseUrl_fieldSteps library located mapping readable] at given
    exact ⟨isMap_of_lookup located, target, located, mapping, readable, given⟩
  · rintro ⟨-, other, found, -, readable, given⟩
    cases located.symm.trans found
    rw [baseUrl_fieldSteps library located mapping readable]
    exact ⟨readable, given⟩

theorem flatSteps_eq_self_iff {target : Yaml}
    (located : lookup "target".toList root.entries = some target) (mapping : target.isMap) :
    (execute (flatSteps library root missing) config).2 = config ↔
      KeepsConfig library root missing config := by
  have keeps : ∀ field ∈ targetFields, ∀ before,
      (execute ((if missing = [] then [] else [.requireBaseUrl missing]) ++
        laterSteps library root) before).2.get field = before.get field := by
    intro field member before
    have other : field ∉ sectionFields := by
      revert member
      cases field <;> decide
    rw [execute_check_append]
    split
    · exact get_laterSteps other before
    · rfl
  rw [flatSteps, fieldSteps_append_eq_self_iff keeps, fieldSteps_eq_self_iff (by decide),
    KeepsConfig, ← laterSteps_eq_self_iff]
  refine and_congr_right fun repeats => ?_
  -- Nothing has changed up to here, so the base URL that is checked is the one from before.
  have unchanged : (execute (fieldSteps library .targetError root targetFields) config).2 =
      config := (fieldSteps_eq_self_iff (by decide)).mpr repeats
  rw [← execute_target_iff located mapping, unchanged, and_imp, execute_check_append]
  refine imp_congr_right fun _ => ?_
  split
  · rename_i given
    simp only [given, true_imp_iff]
  · rename_i empty
    simp only [empty, false_imp_iff]

end Unchanged

/-! ## Loads -/

section Loads

variable (library) (env : Text → Option Text) (what : YamlError → String)

theorem loadConfig_config (file : ConfigFile) (state : LoadState) :
    (loadConfig library env what file state).2.config =
      (parseConfigFile library env file state.config).2 := by
  simp only [loadConfig]
  split <;> rfl

theorem loadConfig_succeeds_iff (file : ConfigFile) (state : LoadState) :
    (loadConfig library env what file state).1 = .ok true ↔
      (parseConfigFile library env file state.config).1 = none := by
  simp only [loadConfig]
  split <;> simp_all

/-- When a load is a transaction, by the document with its variables put in.  Two successful
loads give the same configuration exactly if the configurations before agree on the fields
that the document does not name, and on the two lists.  A second load succeeds as well, and
repeats the first exactly if the document lists neither stages nor scenarios.  A load that
fails leaves the configuration as it was exactly if there is no target to be read or what
is read before the failure is there already; a file without a document changes nothing. -/
theorem loadConfig_transaction_iff (document : Document) (state other : LoadState) :
    let load := loadConfig library env what (.document document)
    let root := (document.substituted env).1
    let missing := (document.substituted env).2
    ((load state).1 = .ok true → (load other).1 = .ok true →
      ((load state).2.config = (load other).2.config ↔
        (∀ field, ¬ Names root field → state.config.get field = other.config.get field) ∧
          state.config.stages = other.config.stages ∧
          state.config.scenarios = other.config.scenarios)) ∧
    ((load state).1 = .ok true →
      (load (load state).2).1 = .ok true ∧
        ((load (load state).2).2.config = (load state).2.config ↔
          itemsAt root "load_profile" = [] ∧ itemsAt root "scenarios" = [])) ∧
    ((load state).1 ≠ .ok true →
      ((load state).2.config = state.config ↔
        ∀ target, lookup "target".toList root.entries = some target → target.isMap →
          KeepsConfig library root missing state.config)) ∧
    ∀ file, (∀ document, file ≠ .document document) →
      (loadConfig library env what file state).1 = .ok false ∧
        (loadConfig library env what file state).2.config = state.config := by
  intro load root missing
  have steps : fileSteps library env (.document document) = rootSteps library root missing := rfl
  refine ⟨?_, ?_, ?_, ?_⟩
  all_goals simp only [load, loadConfig_succeeds_iff, loadConfig_config, parseConfigFile, steps]
  · intro first second
    rcases rootSteps_cases library root missing with ⟨⟨failure, stopped⟩, -⟩ | ⟨_, -, -, same⟩
    · simp [stopped, execute] at first
    · rw [same] at first second ⊢
      obtain ⟨fields, stages, scenarios⟩ := flatSteps_result first
      obtain ⟨fields', stages', scenarios'⟩ := flatSteps_result second
      rw [ScenarioConfig.eq_iff, stages, stages', scenarios, scenarios', List.append_left_inj,
        List.append_left_inj]
      simp only [fields, fields', readOr_eq_iff ((isOk_of_success first).1 _)]
  · intro success
    rcases rootSteps_cases library root missing with
      ⟨⟨failure, stopped⟩, -⟩ | ⟨target, located, mapping, same⟩
    · simp [stopped, execute] at success
    · rw [same] at success ⊢
      have again := flatSteps_again located mapping success
      obtain ⟨fields, -, -⟩ := flatSteps_result success
      obtain ⟨fields', stages, scenarios⟩ := flatSteps_result again
      obtain ⟨-, listed, offered⟩ := isOk_of_success success
      refine ⟨again, ?_⟩
      rw [ScenarioConfig.eq_iff, stages, scenarios, List.append_right_eq_self,
        List.append_right_eq_self, values_eq_nil_iff listed, values_eq_nil_iff offered]
      refine and_iff_right fun field => ?_
      rw [fields', fields, readOr_readOr]
  · intro _
    rcases rootSteps_cases library root missing with
      ⟨⟨failure, stopped⟩, without⟩ | ⟨target, located, mapping, same⟩
    · refine iff_of_true (by rw [stopped]; rfl) fun target located mapping => ?_
      exact absurd mapping (without target located)
    · rw [same, flatSteps_eq_self_iff located mapping]
      exact ⟨fun keeps _ _ _ => keeps, fun keeps => keeps target located mapping⟩
  · intro file without
    cases file with
    | unreadable path => exact ⟨rfl, rfl⟩
    | malformed text => exact ⟨rfl, rfl⟩
    | document document => exact absurd rfl (without document)

end Loads

end Entries

/-- A target and one scenario without a name. -/
def scenarioFile : ConfigFile :=
  .document {
    outline := .map [
      (.scalar 0, .map [(.scalar 1, .scalar 2)]),
      (.scalar 3, .sequence [.map []])]
    texts := numbered ["target", "base_url", "host", "scenarios"] }

/-- A version, and a target whose `tls` is a scalar. -/
def scalarTlsFile : ConfigFile :=
  .document {
    outline := .map [
      (.scalar 0, .scalar 1),
      (.scalar 2, .map [(.scalar 3, .scalar 4)])]
    texts := numbered ["version", "2", "target", "tls", "on"] }

/-- Loading one scenario twice leaves two of them, and a document whose `tls` is no
mapping is rejected with its version already taken over. -/
theorem loadConfig_appends_and_keeps_partial :
    let load := loadConfig textLibrary (fun _ => none) (fun _ => "bad subscript")
    let once := load scenarioFile {}
    let twice := load scenarioFile once.2
    let failed := load scalarTlsFile {}
    (once.1 = .ok true ∧ twice.1 = .ok true ∧ twice.2.config ≠ once.2.config) ∧
      (failed.1 = .ok false ∧ failed.2.config ≠ {}) := by
  decide +kernel

end Cppload.Scenario

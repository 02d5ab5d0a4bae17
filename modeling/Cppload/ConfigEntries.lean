import Cppload.ConfigFile

/-!
# The entries of a configuration file

Every field of the configuration is read from one place of the document.  The steps of a
load do what looking up these places one after the other does, from the root; the two
lists are appended to between the target section and the other ones.
-/

namespace Cppload

section Success

variable {Error First Second : Type}

@[simp]
theorem isOk_ok (value : First) : (Except.ok value : Except Error First).isOk = true :=
  rfl

@[simp]
theorem isOk_error (error : Error) : (Except.error error : Except Error First).isOk = false :=
  rfl

/-- A block succeeds when its first part does and the rest does, whatever it is given. -/
theorem isOk_bind {first : Except Error First} {next : First → Except Error Second}
    {good rest : Prop} (holds : first.isOk ↔ good) (later : ∀ value, (next value).isOk ↔ rest) :
    (first >>= next).isOk ↔ good ∧ rest := by
  cases first with
  | error error =>
      have bad : ¬ good := fun held => by simpa using holds.mpr held
      simp [bad, bind, Except.bind]
  | ok value =>
      have held : good := holds.mp rfl
      simpa [held, bind, Except.bind] using later value

theorem isOk_map {first : Except Error First} (change : First → Second) :
    (first.map change).isOk = first.isOk := by
  cases first <;> rfl

end Success

/-- `node[first][second]…`, undefined at the first key that is not there. -/
def Yaml.follow : List String → Yaml → Except YamlError (Option Yaml)
  | [], node => .ok (some node)
  | key :: path, node =>
      match node.field key with
      | .error error => .error error
      | .ok none => .ok none
      | .ok (some found) => found.follow path

namespace Scenario

open Yaml

/-! ## The entries of a document -/

/-- Where a field stands in a document. -/
def Field.path : Field → List String
  | .version => ["version"]
  | .testId => ["test_id"]
  | .baseUrl => ["target", "base_url"]
  | .protocol => ["target", "protocol"]
  | .tlsVerify => ["target", "tls", "verify"]
  | .maxBodyBytes => ["target", "max_body_bytes"]
  | .authType => ["authentication", "type"]
  | .tokenEndpoint => ["authentication", "token_endpoint"]
  | .clientId => ["authentication", "client_credentials", "client_id"]
  | .clientSecret => ["authentication", "client_credentials", "client_secret"]
  | .prometheusEnabled => ["observability", "metrics", "prometheus", "enabled"]
  | .prometheusPort => ["observability", "metrics", "prometheus", "port"]
  | .otlpEndpoint => ["observability", "tracing", "otlp_endpoint"]
  | .sampleRate => ["observability", "tracing", "sample_rate"]
  | .logLevel => ["observability", "logging", "level"]
  | .logFormat => ["observability", "logging", "format"]
  | .maxErrorRate => ["sla", "error_rate"]
  | .maxP99Latency => ["sla", "p99_latency"]

/-- The fields that are read inside `try`. -/
def targetFields : List Field :=
  [.version, .testId, .baseUrl, .protocol, .tlsVerify, .maxBodyBytes]

/-- The fields that are read after the two lists. -/
def sectionFields : List Field :=
  [.authType, .tokenEndpoint, .clientId, .clientSecret, .prometheusEnabled, .prometheusPort,
    .otlpEndpoint, .sampleRate, .logLevel, .logFormat, .maxErrorRate, .maxP99Latency]

theorem mem_fields (field : Field) : field ∈ targetFields ∨ field ∈ sectionFields := by
  cases field <;> decide

/-- The document has an entry for the field. -/
def Names (root : Yaml) (field : Field) : Prop :=
  ∃ found, root.follow field.path = .ok (some found)

/-- The items of a list of the document. -/
def itemsAt (root : Yaml) (key : String) : List Yaml :=
  ((lookup key.toList root.entries).map Yaml.items).getD []

section Entries

variable (library : YamlLibrary)

/-- What an entry is converted to. -/
def Field.convert : (field : Field) → Yaml → Except YamlError field.Value
  | .version | .testId | .baseUrl | .protocol | .authType | .tokenEndpoint | .clientId
  | .clientSecret | .otlpEndpoint | .logLevel | .logFormat => library.asString
  | .tlsVerify | .prometheusEnabled => YamlLibrary.convert library.toBool
  | .maxBodyBytes => fun found => (library.asString found).map parseBytesize
  | .prometheusPort => YamlLibrary.convert library.toUInt16
  | .sampleRate => YamlLibrary.convert library.toDouble
  | .maxErrorRate => fun found => (library.asString found).map parseErrorRate
  | .maxP99Latency => fun found => (library.asString found).map parseLatency

/-- The value at a path of the document, if there is an entry. -/
def readingAt (node : Yaml) (path : List String) (field : Field) :
    Except YamlError (Option field.Value) :=
  match node.follow path with
  | .error error => .error error
  | .ok none => .ok none
  | .ok (some found) => (field.convert library found).map some

/-- The value that the document has for a field, if it has one. -/
def reading (root : Yaml) (field : Field) : Except YamlError (Option field.Value) :=
  readingAt library root field.path field

/-- A value that was read, or the one from before. -/
def readOr {Value : Type} (result : Except YamlError (Option Value)) (old : Value) : Value :=
  match result with
  | .ok (some value) => value
  | _ => old

theorem readOr_readOr {Value : Type} (result : Except YamlError (Option Value)) (old : Value) :
    readOr result (readOr result old) = readOr result old := by
  rcases result with error | _ | value <;> rfl

/-! ## Steps for entries -/

def assignRead (onThrow : YamlError → Failure) {field : Field} :
    Except YamlError (Option field.Value) → List Step
  | .error error => [.stop (onThrow error)]
  | .ok none => []
  | .ok (some value) => [.assign (.set field value)]

def entrySteps (onThrow : YamlError → Failure) (node : Yaml) (entry : List String × Field) :
    List Step :=
  assignRead onThrow (readingAt library node entry.1 entry.2)

def fieldSteps (onThrow : YamlError → Failure) (root : Yaml) (fields : List Field) : List Step :=
  (fields.map fun field => (field.path, field)).flatMap (entrySteps library onThrow root)

/-- The steps do what looking up the entries one by one does. -/
def LooksUp (onThrow : YamlError → Failure) (node : Yaml) (steps : List Step)
    (entries : List (List String × Field)) : Prop :=
  execute steps = execute (entries.flatMap (entrySteps library onThrow node))

variable {library}

/-- The second steps are carried out if the first ones succeed. -/
theorem execute_append (first second : List Step) (config : ScenarioConfig) :
    execute (first ++ second) config =
      if (execute first config).1 = none then execute second (execute first config).2
      else execute first config := by
  fun_induction execute first config with
  | case1 => rfl
  | case2 assignment rest config induction => exact induction
  | case3 missing rest config empty => simp [execute, empty]
  | case4 missing rest config given induction => simpa [execute, given] using induction
  | case5 => rfl

/-- Steps can be exchanged for others that do the same. -/
theorem execute_append_congr {first second others more : List Step}
    (before : execute first = execute others) (after : execute second = execute more) :
    execute (first ++ second) = execute (others ++ more) := by
  funext config
  rw [execute_append, execute_append, before, after]

namespace LooksUp

variable {onThrow : YamlError → Failure} {node : Yaml} {key : String}
variable {steps more : List Step} {entries others : List (List String × Field)}

/-- The entries of a section as entries of the node that it is in. -/
def under (key : String) (entries : List (List String × Field)) : List (List String × Field) :=
  entries.map (Prod.map (key :: ·) id)

theorem of_setFrom {field : Field} :
    LooksUp library onThrow node (setFrom onThrow node key field (field.convert library))
      [([key], field)] := by
  refine congrArg execute ?_
  rw [List.flatMap_singleton]
  simp only [entrySteps, assignRead, readingAt, follow, setFrom]
  rcases node.field key with error | _ | found
  · rfl
  · rfl
  · dsimp only
    cases field.convert library found <;> rfl

theorem append (first : LooksUp library onThrow node steps entries)
    (second : LooksUp library onThrow node more others) :
    LooksUp library onThrow node (steps ++ more) (entries ++ others) := by
  rw [LooksUp, List.flatMap_append]
  exact execute_append_congr first second

theorem flatMap_under :
    (under key entries).flatMap (entrySteps library onThrow node) =
      entries.flatMap fun entry => entrySteps library onThrow node (key :: entry.1, entry.2) := by
  rw [under, List.flatMap_map]
  rfl

theorem of_found {found : Yaml} (located : node.field key = .ok (some found))
    (inside : LooksUp library onThrow found steps entries) :
    LooksUp library onThrow node steps (under key entries) := by
  refine inside.trans (congrArg execute ?_)
  rw [flatMap_under]
  refine List.flatMap_congr fun entry _ => ?_
  have same : readingAt library node (key :: entry.1) entry.2 =
      readingAt library found entry.1 entry.2 := by
    simp only [readingAt, follow, located]
  exact congrArg (assignRead onThrow) same.symm

/-- A section is left at its first exception, and so are its entries. -/
theorem of_within {body : Yaml → List Step} (nonempty : entries ≠ [])
    (inside : ∀ found, LooksUp library onThrow found (body found) entries) :
    LooksUp library onThrow node (within onThrow node key body) (under key entries) := by
  rcases located : node.field key with error | _ | found
  · obtain ⟨first, rest, rfl⟩ := List.exists_cons_of_ne_nil nonempty
    funext config
    simp [within, flatMap_under, entrySteps, assignRead, readingAt, follow, located, execute]
  · refine congrArg execute ?_
    simp [within, flatMap_under, entrySteps, assignRead, readingAt, follow, located]
  · rw [within, located]
    exact of_found located (inside found)

end LooksUp

section Sections

variable (library)

theorem looksUp_targetAssignments {root target : Yaml}
    (located : root.field "target" = .ok (some target)) :
    LooksUp library .targetError root (targetAssignments library root target)
      (targetFields.map fun field => (field.path, field)) :=
  ((((LooksUp.of_setFrom.append .of_setFrom).append
    (.of_found located .of_setFrom)).append
    (.of_found located .of_setFrom)).append
    (.of_found located (.of_within (List.cons_ne_nil _ _) fun _ => .of_setFrom))).append
    (.of_found located .of_setFrom)

theorem looksUp_authenticationSteps (auth : Yaml) :
    LooksUp library .escaped auth (authenticationSteps library auth)
      [(["type"], .authType), (["token_endpoint"], .tokenEndpoint),
        (["client_credentials", "client_id"], .clientId),
        (["client_credentials", "client_secret"], .clientSecret)] :=
  (LooksUp.of_setFrom.append .of_setFrom).append
    (.of_within (List.cons_ne_nil _ _) fun _ => .append .of_setFrom .of_setFrom)

theorem looksUp_observabilitySteps (observability : Yaml) :
    LooksUp library .escaped observability (observabilitySteps library observability)
      [(["metrics", "prometheus", "enabled"], .prometheusEnabled),
        (["metrics", "prometheus", "port"], .prometheusPort),
        (["tracing", "otlp_endpoint"], .otlpEndpoint), (["tracing", "sample_rate"], .sampleRate),
        (["logging", "level"], .logLevel), (["logging", "format"], .logFormat)] :=
  ((LooksUp.of_within (List.cons_ne_nil _ _) fun _ =>
      .of_within (List.cons_ne_nil _ _) fun _ => .append .of_setFrom .of_setFrom).append
    (.of_within (List.cons_ne_nil _ _) fun _ => .append .of_setFrom .of_setFrom)).append
    (.of_within (List.cons_ne_nil _ _) fun _ => .append .of_setFrom .of_setFrom)

theorem looksUp_sections (root : Yaml) :
    LooksUp library .escaped root
      (within .escaped root "authentication" (authenticationSteps library) ++
        within .escaped root "observability" (observabilitySteps library) ++
        within .escaped root "sla" (slaSteps library))
      (sectionFields.map fun field => (field.path, field)) :=
  ((LooksUp.of_within (List.cons_ne_nil _ _) (looksUp_authenticationSteps library)).append
    (.of_within (List.cons_ne_nil _ _) (looksUp_observabilitySteps library))).append
    (.of_within (List.cons_ne_nil _ _) fun _ => .append .of_setFrom .of_setFrom)

/-- The parts after `try`, entry by entry. -/
def laterSteps (root : Yaml) : List Step :=
  (itemsAt root "load_profile").map (pushFrom .escaped (readStage library) .pushStage) ++
    ((itemsAt root "scenarios").map (pushFrom .escaped (readScenario library) .pushScenario) ++
      fieldSteps library .escaped root sectionFields)

/-- A document with a target, entry by entry. -/
def flatSteps (root : Yaml) (missing : Text) : List Step :=
  fieldSteps library .targetError root targetFields ++
    ((if missing = [] then [] else [.requireBaseUrl missing]) ++ laterSteps library root)

theorem within_items {onThrow : YamlError → Failure} (entries : List (Yaml × Yaml)) (key : String)
    (step : Yaml → Step) :
    within onThrow (.map entries) key (fun found => found.items.map step) =
      (itemsAt (.map entries) key).map step := by
  simp only [within, Yaml.field, itemsAt, Yaml.entries]
  cases lookup key.toList entries <;> rfl

theorem execute_sectionSteps (entries : List (Yaml × Yaml)) :
    execute (sectionSteps library (.map entries)) =
      execute (laterSteps library (.map entries)) := by
  rw [sectionSteps, within_items, within_items, laterSteps]
  simp only [List.append_assoc]
  refine execute_append_congr rfl (execute_append_congr rfl ?_)
  rw [← List.append_assoc]
  exact looksUp_sections library (.map entries)

/-- Either there is no target to be read, and nothing is assigned, or the entries are read
one by one. -/
theorem rootSteps_cases (root : Yaml) (missing : Text) :
    ((∃ failure, rootSteps library root missing = [.stop failure]) ∧
      ∀ target, lookup "target".toList root.entries = some target → ¬ target.isMap) ∨
    ∃ target, lookup "target".toList root.entries = some target ∧ target.isMap ∧
      execute (rootSteps library root missing) = execute (flatSteps library root missing) := by
  cases root with
  | null | scalar | sequence =>
      refine Or.inl ⟨⟨_, rfl⟩, fun target located => ?_⟩
      cases located
  | map entries =>
      simp only [rootSteps, Yaml.entries]
      cases located : lookup "target".toList entries with
      | none =>
          refine Or.inl ⟨⟨_, rfl⟩, fun target found => ?_⟩
          cases found
      | some target =>
          cases mapping : target.isMap with
          | false => exact Or.inl ⟨⟨.targetNotMapping, by simp [mapping]⟩, by simp [mapping]⟩
          | true =>
              have field : (Yaml.map entries).field "target" = .ok (some target) :=
                congrArg Except.ok located
              refine Or.inr ⟨target, rfl, mapping, ?_⟩
              simp only [mapping, Bool.not_true, Bool.false_eq_true, if_false, targetSteps,
                List.append_assoc]
              exact execute_append_congr (looksUp_targetAssignments library field)
                (execute_append_congr rfl (execute_sectionSteps library entries))

end Sections

/-! ## Exceptions -/

/-- The steps end with an exception, unless something holds. -/
def ThrowsUnless (onThrow : YamlError → Failure) (good : Prop) (steps : List Step) : Prop :=
  ∀ config, (good ∧ (execute steps config).1 = none) ∨
    (¬ good ∧ ∃ error, (execute steps config).1 = some (onThrow error))

namespace ThrowsUnless

variable {onThrow : YamlError → Failure} {good other : Prop} {steps more : List Step}

theorem append (first : ThrowsUnless onThrow good steps)
    (second : ThrowsUnless onThrow other more) :
    ThrowsUnless onThrow (good ∧ other) (steps ++ more) := by
  intro config
  rw [execute_append]
  rcases first config with ⟨held, success⟩ | ⟨failed, error, thrown⟩
  · rw [if_pos success]
    simpa only [held, true_and] using second (execute steps config).2
  · rw [if_neg (by simp [thrown])]
    exact .inr ⟨fun both => failed both.1, error, thrown⟩

theorem succeeds_iff (throws : ThrowsUnless onThrow good steps) (config : ScenarioConfig) :
    (execute steps config).1 = none ↔ good := by
  rcases throws config with ⟨held, success⟩ | ⟨failed, error, thrown⟩
  · exact iff_of_true success held
  · exact iff_of_false (by simp [thrown]) failed

theorem of_assignRead {field : Field} (result : Except YamlError (Option field.Value)) :
    ThrowsUnless onThrow result.isOk (assignRead onThrow result) := by
  rcases result with error | _ | value
  · exact fun _ => .inr ⟨Bool.false_ne_true, error, rfl⟩
  · exact fun _ => .inl ⟨rfl, rfl⟩
  · exact fun _ => .inl ⟨rfl, rfl⟩

theorem of_pushFrom {Value : Type} (read : Yaml → Except YamlError Value)
    (push : Value → Assignment) (items : List Yaml) :
    ThrowsUnless onThrow (∀ item ∈ items, (read item).isOk)
      (items.map (pushFrom onThrow read push)) := by
  induction items with
  | nil => exact fun _ => .inl ⟨by simp, rfl⟩
  | cons item rest ih =>
      have first : ThrowsUnless onThrow (read item).isOk [pushFrom onThrow read push item] := by
        rw [pushFrom]
        cases read item with
        | error error => exact fun _ => .inr ⟨Bool.false_ne_true, error, rfl⟩
        | ok value => exact fun _ => .inl ⟨rfl, rfl⟩
      rw [List.forall_mem_cons]
      exact first.append ih

end ThrowsUnless

section Fields

variable {onThrow : YamlError → Failure} {root : Yaml}

theorem fieldSteps_cons (field : Field) (rest : List Field) :
    fieldSteps library onThrow root (field :: rest) =
      assignRead onThrow (reading library root field) ++ fieldSteps library onThrow root rest :=
  rfl

theorem throwsUnless_fieldSteps (fields : List Field) :
    ThrowsUnless onThrow (∀ field ∈ fields, (reading library root field).isOk)
      (fieldSteps library onThrow root fields) := by
  induction fields with
  | nil => exact fun _ => .inl ⟨by simp, rfl⟩
  | cons field rest ih =>
      rw [List.forall_mem_cons]
      exact (ThrowsUnless.of_assignRead _).append ih

theorem throwsUnless_laterSteps (root : Yaml) :
    ThrowsUnless .escaped
      ((∀ stage ∈ itemsAt root "load_profile", (readStage library stage).isOk) ∧
        (∀ scenario ∈ itemsAt root "scenarios", (readScenario library scenario).isOk) ∧
        ∀ field ∈ sectionFields, (reading library root field).isOk)
      (laterSteps library root) :=
  (ThrowsUnless.of_pushFrom _ _ _).append
    ((ThrowsUnless.of_pushFrom _ _ _).append (throwsUnless_fieldSteps _))

end Fields

/-! ## What stays -/

/-- However far the steps get, something that holds before holds afterwards. -/
def Preserves (good : ScenarioConfig → Prop) (steps : List Step) : Prop :=
  ∀ config, good config → good (execute steps config).2

namespace Preserves

variable {good : ScenarioConfig → Prop} {steps more : List Step} {onThrow : YamlError → Failure}
variable {root : Yaml}

theorem append (first : Preserves good steps) (second : Preserves good more) :
    Preserves good (steps ++ more) := by
  intro config held
  rw [execute_append]
  split
  · exact second _ (first config held)
  · exact first config held

theorem of_check (missing : Text) :
    Preserves good (if missing = [] then [] else [.requireBaseUrl missing]) := by
  intro config held
  by_cases resolved : missing = []
  · simpa [resolved, execute] using held
  · by_cases given : config.target.baseUrl = [] <;> simpa [resolved, given, execute] using held

theorem of_fieldSteps {fields : List Field}
    (sets : ∀ field ∈ fields, ∀ value, reading library root field = .ok (some value) →
      ∀ config, good config → good (config.put field value)) :
    Preserves good (fieldSteps library onThrow root fields) := by
  induction fields with
  | nil => exact fun _ held => held
  | cons field rest ih =>
      obtain ⟨first, later⟩ := List.forall_mem_cons.mp sets
      have one : Preserves good (assignRead onThrow (reading library root field)) := by
        rcases read : reading library root field with error | _ | value
        · exact fun _ held => held
        · exact fun _ held => held
        · exact first value read
      exact one.append (ih later)

theorem of_pushFrom {Value : Type} {read : Yaml → Except YamlError Value}
    {push : Value → Assignment}
    (pushes : ∀ config value, good config → good ((push value).apply config))
    (items : List Yaml) : Preserves good (items.map (pushFrom onThrow read push)) := by
  induction items with
  | nil => exact fun _ held => held
  | cons item rest ih =>
      have first : Preserves good [pushFrom onThrow read push item] := by
        intro config held
        rw [pushFrom]
        cases read item with
        | error error => exact held
        | ok value => exact pushes config value held
      exact first.append ih

theorem of_laterSteps
    (sets : ∀ field ∈ sectionFields, ∀ value, reading library root field = .ok (some value) →
      ∀ config, good config → good (config.put field value))
    (stages : ∀ config stage, good config → good ((Assignment.pushStage stage).apply config))
    (scenarios : ∀ config scenario, good config →
      good ((Assignment.pushScenario scenario).apply config)) :
    Preserves good (laterSteps library root) :=
  (of_pushFrom stages _).append ((of_pushFrom scenarios _).append (of_fieldSteps sets))

end Preserves

/-! ## What is read -/

section Results

variable {onThrow : YamlError → Failure} {root : Yaml} {config : ScenarioConfig}

theorem execute_append_of_success {steps more : List Step}
    (success : (execute (steps ++ more) config).1 = none) :
    (execute steps config).1 = none ∧ (execute more (execute steps config).2).1 = none ∧
      (execute (steps ++ more) config).2 = (execute more (execute steps config).2).2 := by
  rw [execute_append] at success ⊢
  split at success
  · rename_i first
    exact ⟨first, success, by rw [if_pos first]⟩
  · rename_i failed
    exact absurd success failed

theorem get_assignRead_of_ne {field other : Field} (different : field ≠ other)
    (result : Except YamlError (Option other.Value)) :
    (execute (assignRead onThrow result) config).2.get field = config.get field := by
  rcases result with error | _ | value
  · rfl
  · rfl
  · exact config.get_put_of_ne different value

theorem get_assignRead {field : Field} (result : Except YamlError (Option field.Value)) :
    (execute (assignRead onThrow result) config).2.get field =
      readOr result (config.get field) := by
  rcases result with error | _ | value
  · rfl
  · rfl
  · exact config.get_put field value

/-- Fields that are not assigned to keep their values. -/
theorem get_fieldSteps_of_notMem {fields : List Field} {field : Field} (absent : field ∉ fields)
    (config : ScenarioConfig) :
    (execute (fieldSteps library onThrow root fields) config).2.get field = config.get field := by
  have keeps : Preserves (·.get field = config.get field)
      (fieldSteps library onThrow root fields) := by
    refine .of_fieldSteps fun other member value _ before held => ?_
    have different : field ≠ other := fun same => absent (same ▸ member)
    exact (before.get_put_of_ne different value).trans held
  exact keeps config rfl

/-- Fields that were read have the values of the document, as far as it has them. -/
theorem get_fieldSteps {fields : List Field} {field : Field}
    (success : (execute (fieldSteps library onThrow root fields) config).1 = none)
    (member : field ∈ fields) :
    (execute (fieldSteps library onThrow root fields) config).2.get field =
      readOr (reading library root field) (config.get field) := by
  induction fields generalizing config with
  | nil => cases member
  | cons head rest ih =>
      rw [fieldSteps_cons] at success ⊢
      obtain ⟨-, later, result⟩ := execute_append_of_success success
      rw [result]
      by_cases same : field = head
      · subst same
        by_cases again : field ∈ rest
        · rw [ih later again, get_assignRead, readOr_readOr]
        · rw [get_fieldSteps_of_notMem again, get_assignRead]
      · have listed := (List.mem_cons.mp member).resolve_left same
        rw [ih later listed, get_assignRead_of_ne same]

/-- The items that can be read. -/
def values {Value : Type} (read : Yaml → Except YamlError Value) (items : List Yaml) :
    List Value :=
  items.filterMap fun item => (read item).toOption

/-- A list has its items appended. -/
theorem pushFrom_appends {Value : Type} {read : Yaml → Except YamlError Value}
    {push : Value → Assignment} (list : ScenarioConfig → List Value) {items : List Yaml}
    (appends : ∀ config value, list ((push value).apply config) = list config ++ [value])
    (success : (execute (items.map (pushFrom onThrow read push)) config).1 = none) :
    list (execute (items.map (pushFrom onThrow read push)) config).2 =
      list config ++ values read items := by
  induction items generalizing config with
  | nil => exact (List.append_nil _).symm
  | cons item rest ih =>
      rw [List.map_cons, pushFrom] at success ⊢
      cases result : read item with
      | error error =>
          rw [result] at success
          cases success
      | ok value =>
          rw [result] at success
          simp only [execute] at success ⊢
          rw [ih success, appends]
          simp [values, result, Except.toOption]

end Results

end Entries

end Scenario

end Cppload

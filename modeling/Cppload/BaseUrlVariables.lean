import Cppload.ConfigReading
import Cppload.EnvSubstitution

/-!
# Unset variables and the base URL

The check of `parse_config_file` puts together two facts: the base URL came out empty,
and some scalar of the document named a variable that is not set.  Neither says that the
variable stands in the base URL.
-/

namespace Cppload

namespace Outline

def entries : Outline → List (Outline × Outline)
  | .map entries => entries
  | _ => []

/-- The first entry under a key, with the texts that the scalars have. -/
def lookup (texts : ℕ → Text) (key : Text) : List (Outline × Outline) → Option Outline
  | [] => none
  | (.scalar node, value) :: rest =>
      if texts node = key then some value else lookup texts key rest
  | _ :: rest => lookup texts key rest

variable (texts : ℕ → Text)

theorem entries_fill (outline : Outline) :
    (outline.fill texts).entries = fillEntries texts outline.entries := by
  cases outline <;> simp [fill, entries, Yaml.entries, fillEntries]

theorem lookup_fillEntries (key : Text) (entries : List (Outline × Outline)) :
    Yaml.lookup key (fillEntries texts entries) = (lookup texts key entries).map (fill texts) := by
  induction entries with
  | nil => simp [fillEntries, Yaml.lookup, lookup]
  | cons entry rest ih =>
      obtain ⟨name, value⟩ := entry
      cases name with
      | scalar node =>
          simp only [fillEntries, fill, Yaml.lookup, lookup, ih]
          split <;> rfl
      | null | sequence | map => simpa only [fillEntries, fill, Yaml.lookup, lookup] using ih

theorem lookup_entries_fill (key : Text) (outline : Outline) :
    Yaml.lookup key (outline.fill texts).entries =
      (lookup texts key outline.entries).map (fill texts) := by
  rw [entries_fill, lookup_fillEntries]

end Outline

namespace Scenario

open Yaml

/-- A group without a default. -/
def BareGroup (text name : Text) : Prop :=
  ∃ pieces, Parses text pieces ∧ .group name none ∈ pieces

theorem bareGroup_iff {text name : Text} :
    BareGroup text name ↔ .group name none ∈ piecesOf text := by
  constructor
  · rintro ⟨pieces, parses, member⟩
    rwa [parses.eq_piecesOf]
  · intro member
    exact ⟨piecesOf text, parses_piecesOf text, member⟩

theorem not_bareGroup_nil (name : Text) : ¬ BareGroup [] name := by
  rw [bareGroup_iff]
  intro member
  cases List.mem_singleton.mp member

/-! ## The base URL of a document -/

section Document

variable (library : YamlLibrary) (env : Text → Option Text) (document : Document)
variable (config : ScenarioConfig)

/-- The node `target.base_url`. -/
def baseUrlNode : Option Outline :=
  (Outline.lookup (document.finalTexts env) "target".toList document.outline.entries).bind
    fun target => Outline.lookup (document.finalTexts env) "base_url".toList target.entries

/-- The base URL as it is written. -/
def baseUrlText : Text :=
  match baseUrlNode env document with
  | some (.scalar node) => document.texts node
  | _ => []

/-- The tree that is read. -/
def finalTree : Yaml :=
  document.outline.fill (document.finalTexts env)

/-- The document that is read has a target section without bad values. -/
def TargetReads : Prop :=
  ∃ target, lookup "target".toList (finalTree env document).entries = some target ∧
    target.isMap ∧ TargetReadable library (finalTree env document) target

/-- The base URL that is checked. -/
def baseUrlLeft : Text :=
  match baseUrlNode env document with
  | some (.scalar node) => document.finalTexts env node
  | some .null => library.nullString.getD []
  | _ => config.target.baseUrl

variable {library env document config}

theorem baseUrlAfter_eq {target : Yaml}
    (located : lookup "target".toList (finalTree env document).entries = some target) :
    baseUrlAfter library target config = baseUrlLeft library env document config := by
  rw [finalTree, Outline.lookup_entries_fill] at located
  obtain ⟨written, found, rfl⟩ := Option.map_eq_some_iff.mp located
  have node : baseUrlNode env document =
      Outline.lookup (document.finalTexts env) "base_url".toList written.entries := by
    rw [baseUrlNode, found, Option.bind_some]
  rw [baseUrlAfter, baseUrlLeft, node, Outline.lookup_entries_fill]
  cases Outline.lookup (document.finalTexts env) "base_url".toList written.entries with
  | none => rfl
  | some value => cases value <;> simp [Outline.fill]

theorem firstMissing_unsetNames_eq_iff {name : Text} (given : name ≠ []) :
    firstMissing [] (document.unsetNames env) = name ↔
      (document.unsetNames env).head? = some name := by
  cases document.unsetNames env with
  | nil => exact iff_of_false given.symm (Option.some_ne_none name).symm
  | cons first rest => exact Option.some_inj.symm

theorem firstMissing_unsetNames_eq_nil_iff :
    firstMissing [] (document.unsetNames env) = [] ↔ document.unsetNames env = [] := by
  have nonempty : ∀ name ∈ document.unsetNames env, name ≠ [] :=
    flatMap_missingNames_nonempty env _
  cases names : document.unsetNames env with
  | nil => exact iff_of_true rfl rfl
  | cons first rest =>
      rw [names] at nonempty
      exact iff_of_false (nonempty first List.mem_cons_self) (List.cons_ne_nil first rest)

theorem passesTarget_iff :
    PassesTarget library (finalTree env document) (firstMissing [] (document.unsetNames env))
        config ↔
      TargetReads library env document ∧
        (document.unsetNames env = [] ∨ baseUrlLeft library env document config ≠ []) := by
  constructor
  · rintro ⟨-, target, located, mapping, readable, given⟩
    rw [firstMissing_unsetNames_eq_nil_iff, baseUrlAfter_eq located] at given
    exact ⟨⟨target, located, mapping, readable⟩, given⟩
  · rintro ⟨⟨target, located, mapping, readable⟩, given⟩
    rw [← firstMissing_unsetNames_eq_nil_iff, ← baseUrlAfter_eq located] at given
    exact ⟨isMap_of_lookup located, target, located, mapping, readable, given⟩

/-! ## The two outcomes -/

theorem ends_parseConfigFile :
    Ends library (finalTree env document) (firstMissing [] (document.unsetNames env)) config
      (parseConfigFile library env (.document document) config).1 := by
  rw [parseConfigFile, fileSteps, Document.substituted_eq]
  exact ends_rootSteps library _ _ config

theorem parseConfigFile_succeeds_iff :
    (parseConfigFile library env (.document document) config).1 = none ↔
      TargetReads library env document ∧
        (document.unsetNames env = [] ∨ baseUrlLeft library env document config ≠ []) ∧
        SectionsReadable library (finalTree env document) := by
  rw [ends_parseConfigFile.succeeds_iff, passesTarget_iff, and_assoc]

theorem parseConfigFile_baseUrlEmpty_iff {name : Text} :
    (parseConfigFile library env (.document document) config).1 = some (.baseUrlEmpty name) ↔
      TargetReads library env document ∧ baseUrlLeft library env document config = [] ∧
        (document.unsetNames env).head? = some name := by
  have ends : Ends library (finalTree env document)
      (firstMissing [] (document.unsetNames env)) config _ := ends_parseConfigFile
  constructor
  · intro ended
    rw [ended] at ends
    cases ends with
    | baseUrlEmpty _ located mapping readable named empty =>
        rw [baseUrlAfter_eq located] at empty
        exact ⟨⟨_, located, mapping, readable⟩, empty,
          (firstMissing_unsetNames_eq_iff named).mp rfl⟩
  · rintro ⟨⟨target, located, mapping, readable⟩, empty, first⟩
    have member : name ∈ document.unsetNames env := List.mem_of_head? first
    have given := flatMap_missingNames_nonempty env _ name member
    have missing := (firstMissing_unsetNames_eq_iff given).mpr first
    rcases ends.of_readable (isMap_of_lookup located) located mapping readable with
      ⟨_, _, ended⟩ | ⟨passes, _⟩
    · rw [ended, missing]
    · rw [missing, baseUrlAfter_eq located] at passes
      exact absurd passes (not_or.mpr ⟨given, not_not.mpr empty⟩)

/-! ## What the check finds -/

/-- A document that loads has a value for each variable in the base URL that has no
default, and a variable that is reported is one of these. -/
structure ReportsUnset (library : YamlLibrary) (env : Text → Option Text)
    (document : Document) (config : ScenarioConfig) : Prop where
  resolved : (parseConfigFile library env (.document document) config).1 = none →
    ∀ name, BareGroup (baseUrlText env document) name → Piece.Resolved env name
  named : ∀ name,
    (parseConfigFile library env (.document document) config).1 = some (.baseUrlEmpty name) →
      BareGroup (baseUrlText env document) name

/-- An unset variable is found only if nothing is left of the whole base URL and the
document names some unset variable; the one that is reported is the first of the document,
so that it has to be in the base URL whenever that is empty. -/
theorem reportsUnset_iff :
    ReportsUnset library env document config ↔
      (TargetReads library env document →
        (SectionsReadable library (finalTree env document) →
          (∃ name, BareGroup (baseUrlText env document) name ∧ ¬ Piece.Resolved env name) →
            baseUrlLeft library env document config = [] ∧ document.unsetNames env ≠ []) ∧
        (baseUrlLeft library env document config = [] →
          ∀ name ∈ (document.unsetNames env).head?,
            BareGroup (baseUrlText env document) name)) := by
  constructor
  · intro reports reads
    constructor
    · rintro sections ⟨name, bare, unset⟩
      have rejected : ¬ (document.unsetNames env = [] ∨
          baseUrlLeft library env document config ≠ []) := by
        intro given
        have loads := parseConfigFile_succeeds_iff.mpr ⟨reads, given, sections⟩
        exact unset (reports.resolved loads name bare)
      rw [not_or, not_not] at rejected
      exact ⟨rejected.2, rejected.1⟩
    · intro empty name first
      exact reports.named name (parseConfigFile_baseUrlEmpty_iff.mpr ⟨reads, empty, first⟩)
  · intro condition
    constructor
    · intro loads name bare
      obtain ⟨reads, given, sections⟩ := parseConfigFile_succeeds_iff.mp loads
      by_contra unset
      obtain ⟨empty, named⟩ := (condition reads).1 sections ⟨name, bare, unset⟩
      exact given.elim named (absurd empty)
    · intro name reported
      obtain ⟨reads, empty, first⟩ := parseConfigFile_baseUrlEmpty_iff.mp reported
      exact (condition reads).2 empty name first

/-- A URL whose host is a variable. -/
def hostFile : Document where
  outline := .map [(.scalar 0, .map [(.scalar 1, .scalar 2)])]
  texts := numbered ["target", "base_url", "http://$\x7bHOST\x7d/x"]

/-- The base URL is left empty, and a variable is used elsewhere. -/
def runIdFile : Document where
  outline := .map [(.scalar 0, .scalar 1), (.scalar 2, .map [(.scalar 3, .scalar 4)])]
  texts := numbered ["test_id", "$\x7bRUN_ID\x7d", "target", "base_url", ""]

/-- Without any variable set, the first document loads with a URL that has no host; the
second is rejected for a variable that is not in its base URL.  A base URL that is an
alias is rejected for a variable that stands in the value of another one. -/
theorem reportsUnset_fails :
    ((parseConfigFile textLibrary (fun _ => none) (.document hostFile) {}).1 = none ∧
      ¬ ReportsUnset textLibrary (fun _ => none) hostFile {}) ∧
    ((parseConfigFile textLibrary (fun _ => none) (.document runIdFile) {}).1 =
        some (.baseUrlEmpty "RUN_ID".toList) ∧
      ¬ ReportsUnset textLibrary (fun _ => none) runIdFile {}) ∧
    ((parseConfigFile textLibrary groupValue (.document aliasedBaseUrl) {}).1 =
        some (.baseUrlEmpty "B".toList) ∧
      ¬ ReportsUnset textLibrary groupValue aliasedBaseUrl {}) := by
  have loads : (parseConfigFile textLibrary (fun _ => none) (.document hostFile) {}).1 = none := by
    decide +kernel
  have rejected : (parseConfigFile textLibrary (fun _ => none) (.document runIdFile) {}).1 =
      some (.baseUrlEmpty "RUN_ID".toList) := by
    decide +kernel
  have rescanned : (parseConfigFile textLibrary groupValue (.document aliasedBaseUrl) {}).1 =
      some (.baseUrlEmpty "B".toList) := by
    decide +kernel
  refine ⟨⟨loads, ?_⟩, ⟨rejected, ?_⟩, rescanned, ?_⟩
  · intro reports
    have host : BareGroup (baseUrlText (fun _ => none) hostFile) "HOST".toList :=
      bareGroup_iff.mpr (by decide +kernel)
    exact (reports.resolved loads _ host).2 rfl
  · intro reports
    have empty : baseUrlText (fun _ => none) runIdFile = [] := by decide +kernel
    exact not_bareGroup_nil _ (empty ▸ reports.named _ rejected)
  · intro reports
    have absent : .group "B".toList none ∉ piecesOf (baseUrlText groupValue aliasedBaseUrl) := by
      decide +kernel
    exact absent (bareGroup_iff.mp (reports.named _ rescanned))

end Document

end Scenario

end Cppload

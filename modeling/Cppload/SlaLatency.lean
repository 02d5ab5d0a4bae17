import Cppload.ConfigReading
import Cppload.SlaVerdicts

/-!
# The latency limit of the SLA

`check_sla` multiplies the limit by 1000 in 64 bits before it compares.  The product
would wrap around for some limits, but `parse_latency` does not return these: its
limits are below 9.0e15 ms, or `milliseconds::max()`, whose product wraps around to a
value that no latency exceeds.  Every limit that an engine can have was returned by
`parse_latency`.
-/

namespace Cppload.Scenario

open Text

/-! ## What `parse_latency` returns -/

theorem takeWhile_isNumeral {c : Char} (digit : c.isDigit = true) (rest : Text) :
    IsNumeral ((c :: rest).takeWhile Char.isDigit) := by
  constructor
  · simp [digit]
  · exact forall_mem_takeWhile Char.isDigit (c :: rest)

/-- A limit is below the cap of `scale_to_ms`, or it is what the cap stands for. -/
def CappedLimit (limit : ℤ) : Prop :=
  limit = millisecondsMax ∨ (0 ≤ limit ∧ limit < 9000000000000000)

theorem cappedLimit_scaleToMs (value factor : ℕ) :
    CappedLimit (scaleToMs (.finite value) factor) := by
  rw [scaleToMs_natCast]
  split
  · exact .inl rfl
  · right
    omega

theorem cappedLimit_parseLatency (text : Text) : CappedLimit (parseLatency text) := by
  have default : CappedLimit kDefaultLatencyMs := .inr (by decide)
  have scaled (value : ℕ) :
      CappedLimit (scaleToMs (.finite value) 1) ∧ CappedLimit (scaleToMs (.finite value) 1000) :=
    ⟨by simpa using cappedLimit_scaleToMs value 1, by simpa using cappedLimit_scaleToMs value 1000⟩
  unfold parseLatency
  cases found : text.dropWhile fun c => !c.isDigit with
  | nil => exact default
  | cons c rest =>
      have stops : StopsAt (fun c => !c.isDigit) (c :: rest) := found ▸ stopsAt_dropWhile _ text
      have numeral := takeWhile_isNumeral (by simpa using stops) rest
      simp only [if_neg (List.cons_ne_nil c rest), stod_digits numeral]
      split
      · exact default
      · rename_i value read
        obtain ⟨-, same⟩ := Option.ite_none_right_eq_some.mp read
        obtain rfl := Option.some.inj same
        split
        · exact (scaled _).1
        · split
          · exact (scaled _).2
          · exact (scaled _).1

/-! ## The comparison -/

/-- The wrapped product compares as the exact one does, and the largest limit as none. -/
theorem limitUs_lt_iff {limit : ℤ} (capped : CappedLimit limit) {p99 : ℕ}
    (small : p99 < 2 ^ 63) :
    limitUs limit < p99 ↔ limit ≠ millisecondsMax ∧ 1000 * limit < (p99 : ℤ) := by
  rcases capped with rfl | ⟨low, high⟩
  · rw [limitUs_millisecondsMax]
    constructor
    · intro above
      omega
    · rintro ⟨other, -⟩
      exact absurd rfl other
  · obtain ⟨value, rfl⟩ := Int.eq_ofNat_of_zero_le low
    have other : (value : ℤ) ≠ millisecondsMax := by
      unfold millisecondsMax
      omega
    rw [limitUs_natCast (by omega)]
    omega

theorem checkSla_eq_false_iff (sla : SlaConfig) (total failed p99 : ℕ) :
    checkSla sla total failed p99 = false ↔
      exceeds (errorRate total failed) sla.maxErrorRate = true ∨
        limitUs sla.maxP99Latency < p99 := by
  unfold checkSla
  split
  · rename_i above
    simp [above]
  · rename_i within
    simp [within]

/-- The latency test of `check_sla` compares the latency with the limit as numbers, for
every limit that `parse_latency` returns. -/
theorem checkSla_latency_exact (text : Text) {sla : SlaConfig}
    (read : sla.maxP99Latency = parseLatency text) (total failed : ℕ) {p99 : ℕ}
    (small : p99 < 2 ^ 63) :
    (limitUs sla.maxP99Latency < p99 ↔
      parseLatency text ≠ millisecondsMax ∧ 1000 * parseLatency text < (p99 : ℤ)) ∧
    (checkSla sla total failed p99 = false ↔
      exceeds (errorRate total failed) sla.maxErrorRate = true ∨
        (parseLatency text ≠ millisecondsMax ∧ 1000 * parseLatency text < (p99 : ℤ))) := by
  have test : limitUs sla.maxP99Latency < p99 ↔
      parseLatency text ≠ millisecondsMax ∧ 1000 * parseLatency text < (p99 : ℤ) := by
    rw [read]
    exact limitUs_lt_iff (cappedLimit_parseLatency text) small
  refine ⟨test, ?_⟩
  rw [checkSla_eq_false_iff, test]

/-- A limit of two seconds, and one that is as good as none. -/
theorem checkSla_latency_exact_seconds :
    checkSla { maxP99Latency := parseLatency "< 2s".toList } 10 0 2000001 = false ∧
    checkSla { maxP99Latency := parseLatency "< 2s".toList } 10 0 2000000 = true ∧
    checkSla { maxP99Latency := parseLatency "< 999999999999999999999999999s".toList } 10 0
      (2 ^ 63 - 1) = true := by
  have seconds : parseLatency "< 2s".toList = 2000 := by decide +kernel
  have endless : parseLatency "< 999999999999999999999999999s".toList = millisecondsMax := by
    decide +kernel
  have low : exceeds (errorRate 10 0) (.finite 10) = false := by decide +kernel
  refine ⟨?_, ?_, ?_⟩
  · apply (checkSla_latency_exact "< 2s".toList rfl 10 0 (by decide)).2.mpr
    rw [seconds]
    exact .inr (by decide)
  · rw [← Bool.not_eq_false, (checkSla_latency_exact "< 2s".toList rfl 10 0 (by decide)).2,
      seconds, low]
    decide
  · rw [← Bool.not_eq_false,
      (checkSla_latency_exact "< 999999999999999999999999999s".toList rfl 10 0 (by decide)).2,
      endless, low]
    simp

/-! ## The limit of an engine -/

/-- The limit is one that `parse_latency` has returned. -/
def ReadLimit (config : ScenarioConfig) : Prop :=
  ∃ text, config.sla.maxP99Latency = parseLatency text

theorem readLimit_default : ReadLimit {} :=
  ⟨[], rfl⟩

section Loads

variable (library : YamlLibrary)

/-- A limit that is assigned was read. -/
theorem readLimit_put {root : Yaml} {field : Field} {value : field.Value} {config : ScenarioConfig}
    (read : reading library root field = .ok (some value)) (limit : ReadLimit config) :
    ReadLimit (config.put field value) := by
  by_cases same : field = .maxP99Latency
  · subst same
    unfold reading readingAt at read
    split at read
    · cases read
    · cases read
    · rename_i found _
      simp only [Field.convert] at read
      cases text : library.asString found with
      | error error =>
          rw [text] at read
          cases read
      | ok text' =>
          rw [text] at read
          cases read
          exact ⟨text', rfl⟩
  · obtain ⟨text, equal⟩ := limit
    exact ⟨text, (config.get_put_of_ne (Ne.symm same) value).trans equal⟩

/-- The steps of a document leave a limit that was read. -/
theorem preserves_readLimit (root : Yaml) (missing : Text) :
    Preserves ReadLimit (flatSteps library root missing) := by
  have sets {fields : List Field} : ∀ field ∈ fields, ∀ value,
      reading library root field = .ok (some value) →
        ∀ config, ReadLimit config → ReadLimit (config.put field value) :=
    fun _ _ _ read _ => readLimit_put library read
  exact (Preserves.of_fieldSteps sets).append
    ((Preserves.of_check missing).append
      (.of_laterSteps sets (fun _ _ limit => limit) fun _ _ limit => limit))

theorem readLimit_parseConfigFile (env : Text → Option Text) (file : ConfigFile)
    {config : ScenarioConfig} (limit : ReadLimit config) :
    ReadLimit (parseConfigFile library env file config).2 := by
  cases file with
  | unreadable path => exact limit
  | malformed what => exact limit
  | document document =>
      rw [parseConfigFile, fileSteps]
      rcases rootSteps_cases library (document.substituted env).1 (document.substituted env).2 with
        ⟨⟨failure, stopped⟩, -⟩ | ⟨-, -, -, same⟩
      · rw [stopped]
        exact limit
      · rw [same]
        exact preserves_readLimit library _ _ config limit

/-- The configuration after a number of loads, each in an environment of its own. -/
def loadAll (loads : List ((Text → Option Text) × ConfigFile)) : ScenarioConfig :=
  loads.foldl (fun config load => (parseConfigFile library load.1 load.2 config).2) {}

/-- Whatever an engine has loaded, successfully or not, its limit was read. -/
theorem readLimit_loadAll (loads : List ((Text → Option Text) × ConfigFile)) :
    ReadLimit (loadAll library loads) := by
  unfold loadAll
  induction loads using List.reverseRecOn with
  | nil => exact readLimit_default
  | append_singleton loads load ih =>
      rw [List.foldl_concat]
      exact readLimit_parseConfigFile library load.1 load.2 ih

/-- An engine never misjudges a latency because its limit is too large. -/
theorem checkSla_loadAll (loads : List ((Text → Option Text) × ConfigFile))
    (total failed : ℕ) {p99 : ℕ} (small : p99 < 2 ^ 63) :
    let sla := (loadAll library loads).sla
    checkSla sla total failed p99 = false ↔
      exceeds (errorRate total failed) sla.maxErrorRate = true ∨
        (sla.maxP99Latency ≠ millisecondsMax ∧ 1000 * sla.maxP99Latency < (p99 : ℤ)) := by
  obtain ⟨text, read⟩ := readLimit_loadAll library loads
  have capped : CappedLimit (loadAll library loads).sla.maxP99Latency := by
    rw [read]
    exact cappedLimit_parseLatency text
  exact (checkSla_eq_false_iff _ _ _ _).trans (or_congr_right (limitUs_lt_iff capped small))

end Loads

end Cppload.Scenario

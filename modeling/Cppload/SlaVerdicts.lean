import Cppload.ConfigReading
import Cppload.DurationReaders

/-!
# Two verdicts on one SLA

The section `sla` of a scenario is judged by the engine (`parse_error_rate`,
`parse_latency`, `check_sla`) and by the Python package (`validate_sla`).  They have
different defaults for a missing error rate, and the Python package does not read seconds.
Numbers are exact; `float()` of Python is an argument.
-/

namespace Cppload.Scenario

open Text

/-! ## Sections -/

/-- A decimal numeral that begins with a digit. -/
structure Decimal where
  whole : Text
  fraction : Option Text
  numeral : IsNumeral whole
  digits : ∀ c ∈ fraction.getD [], c.isDigit = true

namespace Decimal

def text (decimal : Decimal) : Text :=
  decimal.whole ++ decimal.fraction.elim [] ('.' :: ·)

def value (decimal : Decimal) : ℚ :=
  natValue (decimal.whole ++ decimal.fraction.getD []) /
    10 ^ (decimal.fraction.getD []).length

theorem value_nonneg (decimal : Decimal) : 0 ≤ decimal.value := by
  unfold value
  positivity

end Decimal

/-- A limit in milliseconds or seconds. -/
structure LatencyLimit where
  digits : Text
  numeral : IsNumeral digits
  seconds : Bool

def LatencyLimit.unit (limit : LatencyLimit) : DurationUnit :=
  if limit.seconds then .s else .ms

structure SlaSection where
  errorRate : Option Decimal
  p99Latency : Option LatencyLimit

namespace SlaSection

variable (sla : SlaSection)

def errorText : Option Text :=
  sla.errorRate.map fun rate => ['<', ' '] ++ rate.text ++ ['%']

def latencyText : Option Text :=
  sla.p99Latency.map fun limit => ['<', ' '] ++ limit.digits ++ limit.unit.text

/-- The section as a node of the document. -/
def node : Yaml :=
  .map ((sla.errorText.map fun text => (.scalar "error_rate".toList, .scalar text)).toList ++
    (sla.latencyText.map fun text => (.scalar "p99_latency".toList, .scalar text)).toList)

end SlaSection

/-! ## The engine -/

/-- `error_rate()`, in both programs. -/
def errorRate (total failed : ℕ) : ℚ :=
  if total = 0 then 0 else failed / total * 100

/-- The comparison `value > limit` of doubles. -/
def exceeds (value : ℚ) : Double → Bool
  | .finite limit => limit < value
  | .infinite negative => negative
  | .nan => false

/-- `static_cast<uint64_t>(max_p99_latency.count()) * 1000`. -/
def limitUs (limit : ℤ) : ℕ :=
  (limit % 2 ^ 64).toNat * 1000 % 2 ^ 64

def checkSla (config : SlaConfig) (total failed p99 : ℕ) : Bool :=
  if exceeds (errorRate total failed) config.maxErrorRate then false
  else if limitUs config.maxP99Latency < p99 then false
  else true

/-- The configuration that the engine reads from a section. -/
def SlaSection.config (library : YamlLibrary) (sla : SlaSection) : SlaConfig :=
  (execute (slaSteps library sla.node) {}).2.sla

/-! ## The Python package -/

/-- `float()`; `none` is a `ValueError`. -/
structure PythonFloat where
  read : Text → Option ℚ
  decimal : ∀ decimal : Decimal, read decimal.text = some decimal.value
  unit : ∀ digits, IsNumeral digits → read (digits ++ ['s']) = none

/-- `replace("ms", "")`. -/
def removeMs : Text → Text
  | 'm' :: 's' :: rest => removeMs rest
  | c :: rest => c :: removeMs rest
  | [] => []

section Python

variable (float : PythonFloat)

def pythonMaxErrorRate (entry : Option Text) : ℚ :=
  let text := entry.getD "< 0.1%".toList
  if '<' ∈ text then
    (float.read (trim ((text.filter (· ≠ '<')).filter (· ≠ '%')))).getD (1 / 10)
  else 1 / 10

def pythonMaxP99Ms (entry : Option Text) : ℚ :=
  let text := entry.getD "< 500ms".toList
  if '<' ∈ text then
    (float.read (trim (removeMs (text.filter (· ≠ '<'))))).getD 500
  else 500

def validateSla (sla : SlaSection) (total failed p99 : ℕ) : Bool :=
  let errorPass := !decide (pythonMaxErrorRate float sla.errorText < errorRate total failed)
  let latencyPass := !decide (pythonMaxP99Ms float sla.latencyText < (p99 : ℚ) / 1000)
  errorPass && latencyPass

end Python

/-! ## What the engine reads -/

theorem mantissa_decimal (decimal : Decimal) :
    mantissa 10 Char.isDigit natValue decimal.text = some (decimal.value, []) := by
  obtain ⟨whole, fraction, numeral, digits⟩ := decimal
  cases fraction with
  | none =>
      have read := mantissa_append numeral (by simp [Stops] : Stops [])
      simpa [Decimal.text, Decimal.value] using read
  | some fraction =>
      have stops : StopsAt Char.isDigit ('.' :: fraction) := stopsAt_cons.mpr rfl
      have all : ∀ c ∈ fraction, c.isDigit = true := digits
      have whole_eq := takeWhile_append_of_stopsAt numeral.digits stops
      have rest_eq := dropWhile_append_of_stopsAt numeral.digits stops
      have fraction_eq : fraction.takeWhile Char.isDigit = fraction :=
        List.takeWhile_eq_self_iff.mpr all
      have left : fraction.dropWhile Char.isDigit = [] := List.dropWhile_eq_nil_iff.mpr all
      simp only [mantissa, Decimal.text, Decimal.value, Option.elim_some, Option.getD_some,
        whole_eq, rest_eq, fraction_eq, left]
      rw [if_neg fun empty => numeral.nonempty empty.1]
      norm_cast

theorem stod_decimal (decimal : Decimal) :
    stod decimal.text =
      if (Double.finite decimal.value).inRange then some (.finite decimal.value) else none := by
  have noMark : ∀ c ∈ (decimal.fraction.elim [] ('.' :: ·) : Text).head?, c ≠ 'x' ∧ c ≠ 'X' := by
    cases decimal.fraction <;> simp
  have read : decimalDouble decimal.text = some (.finite decimal.value) := by
    simp [decimalDouble, mantissa_decimal, exponent]
  rw [Decimal.text] at read ⊢
  rw [stod_eq_decimalDouble decimal.numeral noMark, read, Option.filter_some]

theorem isDigit_or_point {decimal : Decimal} {c : Char} (member : c ∈ decimal.text) :
    c.isDigit = true ∨ c = '.' := by
  rcases List.mem_append.mp member with whole | rest
  · exact Or.inl (decimal.numeral.digits c whole)
  · have digits := decimal.digits c
    cases fraction : decimal.fraction with
    | none => simp [fraction] at rest
    | some fractionDigits =>
        rw [fraction] at rest digits
        rcases List.mem_cons.mp rest with point | digit
        · exact Or.inr point
        · exact Or.inl (digits digit)

theorem exists_text_cons (decimal : Decimal) :
    ∃ c rest, decimal.text = c :: rest ∧ c.isDigit = true := by
  obtain ⟨first, more, equal⟩ := List.exists_cons_of_ne_nil decimal.numeral.nonempty
  refine ⟨first, _, by rw [Decimal.text, equal, List.cons_append], ?_⟩
  exact decimal.numeral.digits first (by rw [equal]; exact List.mem_cons_self)

theorem parseErrorRate_decimal (decimal : Decimal) :
    parseErrorRate (['<', ' '] ++ decimal.text ++ ['%']) =
      if (Double.finite decimal.value).inRange then .finite decimal.value
      else kDefaultErrorRate := by
  have percent : '%' ∉ decimal.text := fun member => by
    rcases isDigit_or_point member with digit | point
    · cases digit
    · cases point
  have start : (['<', ' '] ++ decimal.text ++ ['%']).findIdx Char.isDigit = 2 := by
    obtain ⟨c, rest, equal, digit⟩ := exists_text_cons decimal
    simp [equal, List.findIdx_cons, digit]
  have stop : (['<', ' '] ++ decimal.text ++ ['%']).idxOf '%' = decimal.text.length + 2 := by
    simp [List.idxOf_append, percent]
  have inside : 2 < (['<', ' '] ++ decimal.text ++ ['%']).length ∧
      decimal.text.length + 2 < (['<', ' '] ++ decimal.text ++ ['%']).length := by
    simp
  have cut : ((['<', ' '] ++ decimal.text ++ ['%']).drop 2).take (decimal.text.length + 2 - 2) =
      decimal.text := by
    simp
  simp only [parseErrorRate, start, stop]
  rw [if_pos inside, if_neg (by omega), cut, stod_decimal]
  split <;> rfl

variable (library : YamlLibrary) (sla : SlaSection)

theorem config_eq :
    sla.config library =
      { maxErrorRate := (sla.errorText.map parseErrorRate).getD kDefaultErrorRate
        maxP99Latency := (sla.latencyText.map parseLatency).getD kDefaultLatencyMs } := by
  rw [SlaSection.config, SlaSection.node]
  cases sla.errorText <;> cases sla.latencyText <;> rfl

theorem limitUs_natCast {limit : ℕ} (small : limit < 9000000000000000) :
    limitUs limit = limit * 1000 := by
  unfold limitUs
  omega

theorem limitUs_millisecondsMax : limitUs millisecondsMax = 2 ^ 64 - 1000 := by
  decide

theorem limitUs_default : limitUs kDefaultLatencyMs = 500000 := by
  decide

theorem stod_digits {digits : Text} (numeral : IsNumeral digits) :
    stod digits =
      if (Double.finite (natValue digits)).inRange then some (.finite (natValue digits))
      else none := by
  have read := stod_numeral_append numeral (by simp [Stops] : Stops [])
  rwa [List.append_nil] at read

/-- The limit that the engine compares with, in microseconds. -/
theorem limitUs_parseLatency (limit : LatencyLimit) :
    limitUs (parseLatency (['<', ' '] ++ limit.digits ++ limit.unit.text)) =
      if (Double.finite (natValue limit.digits)).inRange then
        if 9000000000000000 ≤ natValue limit.digits * limit.unit.latencyFactor then 2 ^ 64 - 1000
        else natValue limit.digits * limit.unit.latencyFactor * 1000
      else 500000 := by
  rw [parseLatency_eq limit.numeral, stod_digits limit.numeral]
  split
  · rw [Option.map_some, Option.getD_some, scaleToMs_natCast]
    split
    · exact limitUs_millisecondsMax
    · rename_i below
      exact limitUs_natCast (not_le.mp below)
  · rw [Option.map_none, Option.getD_none, limitUs_default]

/-! ## What the Python package reads -/

theorem removeMs_append {text rest : Text} (absent : 'm' ∉ text) :
    removeMs (text ++ rest) = text ++ removeMs rest := by
  induction text with
  | nil => rfl
  | cons c text induction =>
      obtain ⟨other, absent⟩ := not_or.mp (mt List.mem_cons.mpr absent)
      rw [List.cons_append, removeMs, induction absent, List.cons_append]
      rintro _ rfl
      exact absurd rfl other

theorem isSpace_of_isDigit {c : Char} (digit : c.isDigit = true) : isSpace c = false :=
  (isDigit_distinct digit).1

theorem filter_ne_of_notMem {text : Text} {c : Char} (absent : c ∉ text) :
    text.filter (· ≠ c) = text :=
  List.filter_eq_self.mpr fun d member => by
    simpa using fun same => absent (by simpa [same] using member)

/-- Digits with what may follow them, as they are left after `replace`. -/
theorem trim_digits {digits rest : Text} (numeral : IsNumeral digits)
    (last : ∀ c ∈ rest.getLast?, isSpace c = false) :
    trim (' ' :: (digits ++ rest)) = digits ++ rest := by
  have noSpace : ∀ c ∈ digits, isSpace c = false :=
    fun c member => isSpace_of_isDigit (numeral.digits c member)
  have begins : StopsAt isSpace (digits ++ rest) :=
    StopsAt.append (fun c first => noSpace c (List.mem_of_mem_head? first)) numeral.nonempty rest
  have ends : ∀ c ∈ (digits ++ rest).getLast?, isSpace c = false := by
    intro c found
    rw [List.getLast?_append] at found
    rcases Option.or_eq_some_iff.mp found with found | ⟨-, found⟩
    · exact last c found
    · exact noSpace c (List.mem_of_mem_getLast? found)
  rw [trim, List.dropWhile_cons_of_pos (by rfl), ← trim, trim_eq_self begins ends]

variable (float : PythonFloat)

theorem pythonMaxErrorRate_decimal (decimal : Decimal) :
    pythonMaxErrorRate float (some (['<', ' '] ++ decimal.text ++ ['%'])) = decimal.value := by
  have absent (c : Char) (other : c.isDigit = false) (noPoint : c ≠ '.') : c ∉ decimal.text := by
    intro member
    rcases isDigit_or_point member with digit | point
    · simp [other] at digit
    · exact noPoint point
  have cleaned : ((['<', ' '] ++ decimal.text ++ ['%']).filter (· ≠ '<')).filter (· ≠ '%') =
      ' ' :: decimal.text := by
    simp only [List.filter_append, filter_ne_of_notMem (absent '<' (by decide) (by decide)),
      filter_ne_of_notMem (absent '%' (by decide) (by decide))]
    simp
  have stripped : trim (' ' :: decimal.text) = decimal.text := by
    refine trim_digits decimal.numeral fun c last => ?_
    rcases isDigit_or_point (List.mem_append_right _ (List.mem_of_getLast? last)) with
      digit | rfl
    · exact isSpace_of_isDigit digit
    · rfl
  have marked : '<' ∈ ['<', ' '] ++ decimal.text ++ ['%'] := by simp
  simp only [pythonMaxErrorRate, Option.getD_some, if_pos marked, cleaned, stripped,
    float.decimal]

/-- The default is the text of a rate. -/
theorem pythonMaxErrorRate_none : pythonMaxErrorRate float none = 1 / 10 := by
  let rate : Decimal := ⟨['0'], some ['1'], ⟨by decide, by simp⟩, by simp⟩
  have value : rate.value = 1 / 10 := by decide +kernel
  rw [← value, ← pythonMaxErrorRate_decimal float rate]
  rfl

theorem pythonMaxP99Ms_limit (limit : LatencyLimit) :
    pythonMaxP99Ms float (some (['<', ' '] ++ limit.digits ++ limit.unit.text)) =
      if limit.seconds then 500 else (natValue limit.digits : ℚ) := by
  obtain ⟨digits, numeral, seconds⟩ := limit
  have absent (c : Char) (other : c.isDigit = false) : c ∉ digits := by
    intro member
    simp [numeral.digits c member] at other
  have noM : 'm' ∉ ' ' :: digits := by simp [absent 'm' (by decide)]
  have cleaned (unit : Text) (plain : '<' ∉ unit) :
      (['<', ' '] ++ digits ++ unit).filter (· ≠ '<') = ' ' :: digits ++ unit := by
    rw [List.filter_append, List.filter_append, filter_ne_of_notMem (absent '<' (by decide)),
      filter_ne_of_notMem plain]
    simp
  have marked (unit : Text) : '<' ∈ ['<', ' '] ++ digits ++ unit := by simp
  cases seconds with
  | true =>
      have stripped : trim (' ' :: digits ++ ['s']) = digits ++ ['s'] :=
        trim_digits numeral (by simp [isSpace])
      simp only [pythonMaxP99Ms, LatencyLimit.unit, Option.getD_some, if_true, if_pos (marked _),
        DurationUnit.text]
      rw [cleaned ['s'] (by decide), removeMs_append noM, show removeMs ['s'] = ['s'] from rfl,
        stripped, float.unit digits numeral, Option.getD_none]
  | false =>
      have read := float.decimal ⟨digits, none, numeral, by simp⟩
      simp only [Decimal.text, Decimal.value, Option.elim_none, Option.getD_none, List.append_nil,
        List.length_nil, pow_zero, div_one] at read
      have stripped : trim (' ' :: digits) = digits := by
        have plain : trim (' ' :: (digits ++ [])) = digits ++ [] :=
          trim_digits numeral (by simp)
        simpa using plain
      simp only [pythonMaxP99Ms, LatencyLimit.unit, Option.getD_some, Bool.false_eq_true, if_false,
        if_pos (marked _), DurationUnit.text]
      rw [cleaned ['m', 's'] (by decide), removeMs_append noM,
        show removeMs ['m', 's'] = [] from rfl, List.append_nil, stripped, read, Option.getD_some]

theorem pythonMaxP99Ms_none : pythonMaxP99Ms float none = 500 := by
  let limit : LatencyLimit := ⟨['5', '0', '0'], ⟨by decide, by simp⟩, false⟩
  have read := pythonMaxP99Ms_limit float limit
  have value : natValue limit.digits = 500 := by decide
  rw [value] at read
  exact read

/-! ## Agreement -/

/-- Two limits on numbers of 64 bits. -/
theorem limits_agree_iff {first second : ℕ} (small : second < 2 ^ 64 - 1) :
    (∀ value < 2 ^ 64, (first < value ↔ second < value)) ↔ first = second := by
  constructor
  · intro agree
    have compare := agree (min first second + 1) (by omega)
    omega
  · rintro rfl _ _
    rfl

theorem div_limit_iff (limit p99 : ℕ) : (limit : ℚ) < (p99 : ℚ) / 1000 ↔ limit * 1000 < p99 := by
  rw [lt_div_iff₀ (by norm_num)]
  exact_mod_cast Iff.rfl

/-- The limit of the engine is the one of the Python package. -/
theorem limitUs_eq_iff (limit : LatencyLimit) :
    (if limit.seconds then 500 else natValue limit.digits) * 1000 =
        limitUs (parseLatency (['<', ' '] ++ limit.digits ++ limit.unit.text)) ↔
      if limit.seconds then (Double.finite (natValue limit.digits)).inRange = false
      else natValue limit.digits < 9000000000000000 := by
  have representable : natValue limit.digits < 2 ^ 64 →
      (Double.finite (natValue limit.digits)).inRange = true := Double.inRange_natCast
  rw [limitUs_parseLatency]
  cases inRange : (Double.finite (natValue limit.digits)).inRange with
  | true =>
      cases seconds : limit.seconds <;>
        simp only [LatencyLimit.unit, seconds, DurationUnit.latencyFactor, if_true, if_false,
          Bool.false_eq_true, Bool.true_eq_false, iff_false] <;>
        split <;> omega
  | false =>
      rw [inRange] at representable
      have large : ¬ natValue limit.digits < 2 ^ 64 := fun small => by cases representable small
      cases seconds : limit.seconds <;>
        simp only [if_true, if_false, Bool.false_eq_true]
      omega

theorem limitUs_parseLatency_lt (limit : LatencyLimit) :
    limitUs (parseLatency (['<', ' '] ++ limit.digits ++ limit.unit.text)) < 2 ^ 64 - 1 := by
  rw [limitUs_parseLatency]
  split
  · split <;> omega
  · norm_num

theorem latencies_agree_iff :
    (∀ p99 < 2 ^ 64, (pythonMaxP99Ms float sla.latencyText < ((p99 : ℕ) : ℚ) / 1000 ↔
      limitUs (sla.config library).maxP99Latency < p99)) ↔
      ∀ limit, sla.p99Latency = some limit →
        if limit.seconds then (Double.finite (natValue limit.digits)).inRange = false
        else natValue limit.digits < 9000000000000000 := by
  rw [config_eq]
  cases given : sla.p99Latency with
  | none =>
      have absent : sla.latencyText = none := by simp [SlaSection.latencyText, given]
      refine iff_of_true (fun p99 _ => ?_) (by simp)
      have compare := div_limit_iff 500 p99
      rw [absent, pythonMaxP99Ms_none, Option.map_none, Option.getD_none, limitUs_default]
      exact_mod_cast compare
  | some limit =>
      have present : sla.latencyText =
          some (['<', ' '] ++ limit.digits ++ limit.unit.text) := by
        simp [SlaSection.latencyText, given]
      have python : pythonMaxP99Ms float sla.latencyText =
          ((if limit.seconds then 500 else natValue limit.digits : ℕ) : ℚ) := by
        rw [present, pythonMaxP99Ms_limit]
        split <;> norm_cast
      simp only [python, div_limit_iff]
      rw [present, Option.map_some, Option.getD_some,
        limits_agree_iff (limitUs_parseLatency_lt limit), limitUs_eq_iff]
      simp

/-- Five per cent are above every limit below them and not above ten. -/
theorem errorRate_hundred (failed : ℕ) : errorRate 100 failed = failed := by
  rw [errorRate, if_neg (by norm_num)]
  push_cast
  ring

theorem not_inRange_cases {value : ℚ} (nonneg : 0 ≤ value)
    (outside : (Double.finite value).inRange = false) : value < 5 ∨ 50 ≤ value := by
  by_contra between
  have bounds : 5 ≤ value ∧ value < 50 := by simpa using between
  have five : Double.leastNormal ≤ 5 := by
    have five := Double.inRange_natCast (by norm_num : 5 < 2 ^ 64)
    norm_num [Double.inRange] at five
    exact five.1
  have fifty : 50 < Double.overflowBound := by
    have fifty := Double.inRange_natCast (by norm_num : 50 < 2 ^ 64)
    norm_num [Double.inRange] at fifty
    exact fifty.2
  simp [Double.inRange, abs_of_nonneg nonneg, five.trans bounds.1, bounds.2.trans fifty]
    at outside

theorem errorRates_agree_iff :
    (∀ total failed, total < 2 ^ 64 → failed < 2 ^ 64 →
      (pythonMaxErrorRate float sla.errorText < errorRate total failed ↔
        exceeds (errorRate total failed) (sla.config library).maxErrorRate)) ↔
      ∃ rate, sla.errorRate = some rate ∧ (Double.finite rate.value).inRange := by
  rw [config_eq]
  cases given : sla.errorRate with
  | none =>
      have absent : sla.errorText = none := by simp [SlaSection.errorText, given]
      refine iff_of_false (fun agree => ?_) (by simp)
      have compare := agree 100 5 (by norm_num) (by norm_num)
      rw [absent, pythonMaxErrorRate_none, errorRate_hundred] at compare
      norm_num [exceeds, kDefaultErrorRate] at compare
  | some rate =>
      have present : sla.errorText = some (['<', ' '] ++ rate.text ++ ['%']) := by
        simp [SlaSection.errorText, given]
      simp only [present, pythonMaxErrorRate_decimal, Option.map_some, Option.getD_some,
        parseErrorRate_decimal, Option.some.injEq, exists_eq_left']
      cases inRange : (Double.finite rate.value).inRange with
      | true => simp [exceeds]
      | false =>
          refine iff_of_false (fun agree => ?_) (by simp)
          rcases not_inRange_cases rate.value_nonneg inRange with low | high
          · have compare := agree 100 5 (by norm_num) (by norm_num)
            rw [errorRate_hundred] at compare
            norm_num [exceeds, kDefaultErrorRate] at compare
            linarith
          · have compare := agree 100 50 (by norm_num) (by norm_num)
            rw [errorRate_hundred] at compare
            norm_num [exceeds, kDefaultErrorRate] at compare
            linarith

/-- No errors and no latency pass in both programs. -/
theorem nothing_fails :
    0 ≤ pythonMaxErrorRate float sla.errorText ∧ 0 ≤ pythonMaxP99Ms float sla.latencyText ∧
      exceeds 0 (sla.config library).maxErrorRate = false := by
  refine ⟨?_, ?_, ?_⟩
  · cases given : sla.errorRate with
    | none => norm_num [SlaSection.errorText, given, pythonMaxErrorRate_none]
    | some rate =>
        rw [SlaSection.errorText, given, Option.map_some, pythonMaxErrorRate_decimal]
        exact rate.value_nonneg
  · cases given : sla.p99Latency with
    | none => norm_num [SlaSection.latencyText, given, pythonMaxP99Ms_none]
    | some limit =>
        rw [SlaSection.latencyText, given, Option.map_some, pythonMaxP99Ms_limit]
        split <;> positivity
  · rw [config_eq]
    cases given : sla.errorRate with
    | none => norm_num [SlaSection.errorText, given, exceeds, kDefaultErrorRate]
    | some rate =>
        rw [SlaSection.errorText, given, Option.map_some, Option.map_some, Option.getD_some,
          parseErrorRate_decimal]
        split
        · simpa [exceeds] using rate.value_nonneg
        · norm_num [exceeds, kDefaultErrorRate]

theorem validateSla_eq_true_iff (total failed p99 : ℕ) :
    validateSla float sla total failed p99 = true ↔
      ¬ pythonMaxErrorRate float sla.errorText < errorRate total failed ∧
        ¬ pythonMaxP99Ms float sla.latencyText < (p99 : ℚ) / 1000 := by
  simp only [validateSla, Bool.and_eq_true, Bool.not_eq_true', decide_eq_false_iff_not]

theorem checkSla_eq_true_iff (config : SlaConfig) (total failed p99 : ℕ) :
    checkSla config total failed p99 = true ↔
      ¬ exceeds (errorRate total failed) config.maxErrorRate = true ∧
        ¬ limitUs config.maxP99Latency < p99 := by
  unfold checkSla
  split
  · simp_all
  · split <;> simp_all

theorem verdicts_eq_iff (total failed p99 : ℕ) :
    validateSla float sla total failed p99 = checkSla (sla.config library) total failed p99 ↔
      (¬ pythonMaxErrorRate float sla.errorText < errorRate total failed ∧
          ¬ pythonMaxP99Ms float sla.latencyText < (p99 : ℚ) / 1000 ↔
        ¬ exceeds (errorRate total failed) (sla.config library).maxErrorRate = true ∧
          ¬ limitUs (sla.config library).maxP99Latency < p99) := by
  rw [Bool.eq_iff_iff, validateSla_eq_true_iff, checkSla_eq_true_iff]

/-- The two verdicts agree on all measurements exactly if the error rate is given, as a
number that `std::stod` accepts, and the latency is missing or in milliseconds below the
cap.  A number of seconds that no `double` holds is replaced by the same default in both
programs. -/
theorem verdicts_agree_iff :
    (∀ total failed p99, total < 2 ^ 64 → failed < 2 ^ 64 → p99 < 2 ^ 64 →
      validateSla float sla total failed p99 =
        checkSla (sla.config library) total failed p99) ↔
      (∃ rate, sla.errorRate = some rate ∧ (Double.finite rate.value).inRange) ∧
        ∀ limit, sla.p99Latency = some limit →
          if limit.seconds then (Double.finite (natValue limit.digits)).inRange = false
          else natValue limit.digits < 9000000000000000 := by
  obtain ⟨ratePasses, latencyPasses, engineRatePasses⟩ := nothing_fails library sla float
  rw [← errorRates_agree_iff library sla float, ← latencies_agree_iff library sla float]
  simp only [verdicts_eq_iff]
  constructor
  · intro agree
    constructor
    · -- Without latency the verdicts are those on the error rate.
      intro total failed totalBound failedBound
      have same := agree total failed 0 totalBound failedBound (by norm_num)
      have passes : ¬ pythonMaxP99Ms float sla.latencyText < ((0 : ℕ) : ℚ) / 1000 := by
        simpa using latencyPasses
      have engine : ¬ limitUs (sla.config library).maxP99Latency < 0 := Nat.not_lt_zero _
      exact not_iff_not.mp (by simpa only [passes, engine, not_false_iff, and_true] using same)
    · intro p99 bound
      have same := agree 0 0 p99 (by norm_num) (by norm_num) bound
      have noFailures : errorRate 0 0 = 0 := rfl
      have passes : ¬ pythonMaxErrorRate float sla.errorText < 0 := not_lt.mpr ratePasses
      rw [noFailures] at same
      refine not_iff_not.mp ?_
      simpa only [passes, engineRatePasses, not_false_iff, true_and, Bool.false_eq_true]
        using same
  · rintro ⟨rates, latencies⟩ total failed p99 totalBound failedBound bound
    rw [rates total failed totalBound failedBound, latencies p99 bound]

/-- Digits with or without a point, and nothing else. -/
def decimalFloat : PythonFloat where
  read text := (mantissa 10 Char.isDigit natValue text).bind fun number =>
    if number.2 = [] then some number.1 else none
  decimal decimal := by simp [mantissa_decimal]
  unit digits numeral := by
    rw [mantissa_append numeral (by simp [Stops] : Stops ['s'])]
    rfl

/-- Five per cent of errors when no rate is given, and a latency of one second when the
limit is two. -/
theorem verdicts_disagree :
    let limit : LatencyLimit := ⟨['2'], ⟨by decide, by simp⟩, true⟩
    let rate : Decimal := ⟨['1'], none, ⟨by decide, by simp⟩, by simp⟩
    validateSla decimalFloat ⟨none, none⟩ 100 5 0 = false ∧
      checkSla (SlaSection.config textLibrary ⟨none, none⟩) 100 5 0 = true ∧
      validateSla decimalFloat ⟨some rate, some limit⟩ 100 0 1000000 = false ∧
      checkSla (SlaSection.config textLibrary ⟨some rate, some limit⟩) 100 0 1000000 = true := by
  decide +kernel

end Cppload.Scenario

import Cppload.ScalarReaders

/-!
# Three readers of durations

`parse_duration` reads the durations of stages, `parse_latency` the latency limit of
the SLA and `parse_duration_us` the durations of assertions.  On a numeral with one of
the units of the last one, the first two are compared with it.  They agree on
milliseconds and seconds.  Microseconds are taken for seconds by both, and
`parse_latency` takes minutes and hours for milliseconds.  The last one is exact on every
text, up to the largest number of 64 bits.
-/

namespace Cppload.Scenario

open Text

/-- The units that `parse_duration_us` knows. -/
inductive DurationUnit where
  | us
  | ms
  | s
  | m
  | h
  deriving DecidableEq, Repr

namespace DurationUnit

def text : DurationUnit → Text
  | .us => ['u', 's']
  | .ms => ['m', 's']
  | .s => ['s']
  | .m => ['m']
  | .h => ['h']

def microseconds : DurationUnit → ℕ
  | .us => 1
  | .ms => 1000
  | .s => 1000000
  | .m => 60000000
  | .h => 3600000000

/-- The milliseconds for which `parse_duration` takes the unit. -/
def durationFactor : DurationUnit → ℕ
  | .ms => 1
  | .us | .s => 1000
  | .m => 60000
  | .h => 3600000

/-- The milliseconds for which `parse_latency` takes the unit. -/
def latencyFactor : DurationUnit → ℕ
  | .ms | .m | .h => 1
  | .us | .s => 1000

theorem stops (unit : DurationUnit) : Stops unit.text := by
  cases unit <;> simp [Stops, text]

theorem durationUnitUs_text (unit : DurationUnit) :
    durationUnitUs unit.text = some (unit.microseconds : ℤ) := by
  cases unit <;> rfl

end DurationUnit

/-- A value that is a natural number of milliseconds. -/
theorem scaleToMs_natCast (value factor : ℕ) :
    scaleToMs (.finite value) factor =
      if 9000000000000000 ≤ value * factor then millisecondsMax else (value * factor : ℕ) := by
  have product : (value : ℚ) * factor = ((value * factor : ℕ) : ℚ) := by push_cast; rfl
  have bound : (9000000000000000 : ℚ) = ((9000000000000000 : ℕ) : ℚ) := by norm_num
  simp only [scaleToMs, product, bound, Nat.cast_le, Int.floor_natCast]
  rw [if_neg (not_lt.mpr (Nat.cast_nonneg _))]

/-- A length of less than 9.0e15 ms is never hit by the cap. -/
theorem scaleToMs_eq_iff {value factor length : ℕ} (small : length < 9000000000000000 * 1000) :
    scaleToMs (.finite value) factor = (length : ℤ) / 1000 ↔ value * factor = length / 1000 := by
  rw [scaleToMs_natCast]
  by_cases large : 9000000000000000 ≤ value * factor
  · rw [if_pos large, millisecondsMax]
    omega
  · rw [if_neg large]
    omega

section Readers

variable {digits : Text} (numeral : IsNumeral digits)

include numeral

theorem parseNumber_append {rest : Text} (stops : Stops rest)
    (small : natValue digits < 2 ^ 64) :
    parseNumber (digits ++ rest) = .finite (natValue digits) := by
  rw [parseNumber, stod_append numeral stops small, Option.getD_some]

theorem parseNumber_numeral (small : natValue digits < 2 ^ 64) :
    parseNumber digits = .finite (natValue digits) := by
  have read : parseNumber (digits ++ []) = .finite (natValue digits) :=
    parseNumber_append numeral (by simp [Stops]) small
  rwa [List.append_nil] at read

/-- A numeral with a unit, as long as the product fits into 64 bits. -/
theorem parseDurationUs_eq (unit : DurationUnit) :
    parseDurationUs (digits ++ unit.text) =
      if natValue digits * unit.microseconds < 2 ^ 63 then
        ((natValue digits * unit.microseconds : ℕ) : ℤ)
      else -1 := by
  have positive : 0 < unit.microseconds := by cases unit <;> decide
  have atLeast : natValue digits ≤ natValue digits * unit.microseconds :=
    Nat.le_mul_of_pos_right _ positive
  have within : (natValue digits : ℤ) ≤ (2 ^ 63 - 1) / (unit.microseconds : ℤ) ↔
      natValue digits * unit.microseconds < 2 ^ 63 := by
    rw [Int.le_ediv_iff_mul_le (by exact_mod_cast positive)]
    push_cast [← Int.ofNat_lt]
    omega
  simp only [parseDurationUs, numeral.takeWhile_append unit.stops,
    numeral.dropWhile_append unit.stops, numeral.nonempty, stoll_numeral numeral,
    unit.durationUnitUs_text, if_false]
  by_cases small : natValue digits * unit.microseconds < 2 ^ 63
  · rw [if_pos (atLeast.trans_lt small), if_pos small]
    have inside := within.mpr small
    dsimp only
    rw [if_neg (by omega)]
    push_cast
    rfl
  · rw [if_neg small]
    have outside := mt within.mp small
    split
    · rfl
    · rename_i value read
      obtain ⟨-, same⟩ := Option.ite_none_right_eq_some.mp read
      obtain rfl := Option.some.inj same
      rw [if_pos (.inr (not_le.mp outside))]

theorem parseDurationUs_append (unit : DurationUnit)
    (small : natValue digits * unit.microseconds < 2 ^ 63) :
    parseDurationUs (digits ++ unit.text) = (natValue digits * unit.microseconds : ℕ) := by
  rw [parseDurationUs_eq numeral, if_pos small]

omit numeral in
/-- Two texts end alike only if their last characters are the same. -/
theorem concat_suffix_concat {ending text : Text} {first second : Char} :
    ending ++ [first] <:+ text ++ [second] ↔ first = second ∧ ending <:+ text := by
  rw [← List.reverse_prefix, List.reverse_concat', List.reverse_concat',
    List.cons_prefix_cons, List.reverse_prefix]

omit numeral in
/-- The units of one character. -/
theorem parseDuration_concat {body : Text} {last : Char} {value multiplier : ℕ}
    (read : parseNumber body = .finite value)
    (unit : durationUnitMs last = some (multiplier : ℚ)) (notMs : ¬ ['m'] <:+ body) :
    parseDuration (body ++ [last]) = scaleToMs (.finite value) multiplier := by
  have noMin : ¬ ['m', 'i', 'n'] <:+ body ++ [last] := by
    intro suffix
    obtain ⟨rfl, -⟩ : 'n' = last ∧ ['m', 'i'] <:+ body := concat_suffix_concat.mp suffix
    simp [durationUnitMs] at unit
  have noMs : ¬ ['m', 's'] <:+ body ++ [last] :=
    fun suffix => notMs (concat_suffix_concat.mp suffix : 's' = last ∧ ['m'] <:+ body).2
  have nonnegative : (Double.finite (value : ℚ)).isNegative = false := by
    simp [Double.isNegative]
  simp [parseDuration, noMin, noMs, read, nonnegative, unit]

/-- The two-character unit that `parse_duration` knows. -/
theorem parseDuration_ms (small : natValue digits < 2 ^ 64) :
    parseDuration (digits ++ ['m', 's']) = scaleToMs (.finite (natValue digits)) 1 := by
  have noMin : ¬ ['m', 'i', 'n'] <:+ digits ++ ['m', 's'] := by
    have split : digits ++ ['m', 's'] = digits ++ ['m'] ++ ['s'] := by simp
    rw [split]
    intro suffix
    exact absurd (concat_suffix_concat.mp suffix : 'n' = 's' ∧ ['m', 'i'] <:+ _).1 (by decide)
  simp [parseDuration, noMin, parseNumber_numeral numeral small]

theorem parseDuration_append (unit : DurationUnit) (small : natValue digits < 2 ^ 64) :
    parseDuration (digits ++ unit.text) =
      scaleToMs (.finite (natValue digits)) unit.durationFactor := by
  have noM : ¬ ['m'] <:+ digits := by
    intro suffix
    have digit := numeral.digits 'm' (suffix.subset (by simp))
    simp at digit
  have read := parseNumber_numeral numeral small
  cases unit with
  | us =>
      have readMore : parseNumber (digits ++ ['u']) = .finite (natValue digits) :=
        parseNumber_append numeral (by simp [Stops]) small
      have noMs : ¬ ['m'] <:+ digits ++ ['u'] := fun suffix =>
        absurd (concat_suffix_concat.mp suffix : 'm' = 'u' ∧ [] <:+ _).1 (by decide)
      have split : digits ++ ['u', 's'] = digits ++ ['u'] ++ ['s'] := by simp
      rw [DurationUnit.text, split]
      exact parseDuration_concat readMore (by simp [durationUnitMs, DurationUnit.durationFactor])
        noMs
  | ms =>
      rw [DurationUnit.text, parseDuration_ms numeral small]
      simp [DurationUnit.durationFactor]
  | s | m | h =>
      exact parseDuration_concat read (by simp [durationUnitMs, DurationUnit.durationFactor]) noM

/-- The unit is looked for in the whole text. -/
theorem parseLatency_eq (unit : DurationUnit) :
    parseLatency (['<', ' '] ++ digits ++ unit.text) =
      ((stod digits).map fun value => scaleToMs value unit.latencyFactor).getD
        kDefaultLatencyMs := by
  have found : (['<', ' '] ++ digits ++ unit.text).dropWhile (fun c => !c.isDigit) =
      digits ++ unit.text := by
    obtain ⟨first, more, rfl⟩ := List.exists_cons_of_ne_nil numeral.nonempty
    have digit := numeral.digits first (by simp)
    simp [List.dropWhile, digit]
  have letter (c : Char) (other : c.isDigit = false) : c ∉ digits := by
    intro member
    simp [numeral.digits c member] at other
  have ms_iff : ['m', 's'] <:+: ['<', ' '] ++ digits ++ unit.text ↔ unit = .ms := by
    constructor
    · intro occurs
      have hasM := occurs.subset (by simp : 'm' ∈ ['m', 's'])
      have hasS := occurs.subset (by simp : 's' ∈ ['m', 's'])
      cases unit <;> simp_all [DurationUnit.text]
    · rintro rfl
      exact (List.suffix_append _ _).isInfix
  have s_iff : 's' ∈ ['<', ' '] ++ digits ++ unit.text ↔ unit = .us ∨ unit = .ms ∨ unit = .s := by
    cases unit <;> simp [DurationUnit.text, letter]
  simp only [parseLatency, found, numeral.takeWhile_append unit.stops, ms_iff, s_iff]
  cases stod digits <;> cases unit <;> simp [numeral.nonempty, DurationUnit.latencyFactor]

theorem parseLatency_append (unit : DurationUnit) (small : natValue digits < 2 ^ 64) :
    parseLatency (['<', ' '] ++ digits ++ unit.text) =
      scaleToMs (.finite (natValue digits)) unit.latencyFactor := by
  have value : stod digits = some (.finite (natValue digits)) := by
    have read : stod (digits ++ []) = some (.finite (natValue digits)) :=
      stod_append numeral (by simp [Stops]) small
    rwa [List.append_nil] at read
  rw [parseLatency_eq numeral, value, Option.map_some, Option.getD_some]

/-- On every numeral with a unit, of less than 9.0e15 ms, `parse_duration_us` returns
the exact length.  `parse_duration` agrees with it up to whole milliseconds except
on microseconds, `parse_latency` only on milliseconds and seconds; both agree if the
numeral is zero. -/
theorem durations_agree_iff (unit : DurationUnit)
    (small : natValue digits * unit.microseconds < 9000000000000000 * 1000) :
    parseDurationUs (digits ++ unit.text) = (natValue digits * unit.microseconds : ℕ) ∧
    (parseDuration (digits ++ unit.text) = parseDurationUs (digits ++ unit.text) / 1000 ↔
      unit ≠ .us ∨ natValue digits = 0) ∧
    (parseLatency (['<', ' '] ++ digits ++ unit.text) =
        parseDurationUs (digits ++ unit.text) / 1000 ↔
      unit = .ms ∨ unit = .s ∨ natValue digits = 0) := by
  have positive : 0 < unit.microseconds := by cases unit <;> decide
  have fits : natValue digits < 2 ^ 64 :=
    (Nat.le_mul_of_pos_right _ positive).trans_lt (small.trans (by norm_num))
  rw [parseDurationUs_append numeral unit (small.trans (by norm_num)),
    parseDuration_append numeral unit fits, parseLatency_append numeral unit fits,
    scaleToMs_eq_iff small, scaleToMs_eq_iff small]
  refine ⟨rfl, ?_, ?_⟩
  · cases unit <;> simp [DurationUnit.durationFactor, DurationUnit.microseconds] <;> omega
  · cases unit <;> simp [DurationUnit.latencyFactor, DurationUnit.microseconds] <;> omega

end Readers

/-- The text is in full a duration of so many microseconds. -/
def IsDuration (text : Text) (length : ℕ) : Prop :=
  ∃ digits, ∃ unit : DurationUnit, IsNumeral digits ∧ text = digits ++ unit.text ∧
    length = natValue digits * unit.microseconds

theorem durationUnitUs_eq_some_iff {text : Text} {length : ℤ} :
    durationUnitUs text = some length ↔
      ∃ unit : DurationUnit, text = unit.text ∧ length = unit.microseconds := by
  constructor
  · unfold durationUnitUs
    intro found
    split_ifs at found with us ms s m h
    · exact ⟨.us, us, (Option.some.inj found).symm⟩
    · exact ⟨.ms, ms, (Option.some.inj found).symm⟩
    · exact ⟨.s, s, (Option.some.inj found).symm⟩
    · exact ⟨.m, m, (Option.some.inj found).symm⟩
    · exact ⟨.h, h, (Option.some.inj found).symm⟩
  · rintro ⟨unit, rfl, rfl⟩
    exact unit.durationUnitUs_text

/-- What is no duration at all gives `-1`. -/
theorem parseDurationUs_of_not_isDuration {text : Text}
    (noDuration : ∀ length, ¬ IsDuration text length) : parseDurationUs text = -1 := by
  have split : text.takeWhile Char.isDigit ++ text.dropWhile Char.isDigit = text :=
    List.takeWhile_append_dropWhile
  unfold parseDurationUs
  dsimp only
  split
  · rfl
  · rename_i nonempty
    have numeral : IsNumeral (text.takeWhile Char.isDigit) :=
      ⟨nonempty, forall_mem_takeWhile Char.isDigit text⟩
    split
    · rfl
    · split
      · rfl
      · rename_i multiplier found
        obtain ⟨unit, unitText, -⟩ := durationUnitUs_eq_some_iff.mp found
        exact absurd ⟨_, unit, numeral, by rw [← unitText, split], rfl⟩ (noDuration _)

theorem IsDuration.parseDurationUs_eq {text : Text} {length : ℕ}
    (duration : IsDuration text length) :
    parseDurationUs text = if length < 2 ^ 63 then (length : ℤ) else -1 := by
  obtain ⟨digits, unit, numeral, rfl, rfl⟩ := duration
  exact Scenario.parseDurationUs_eq numeral unit

/-- A quarter of a second is the same for all three. -/
theorem durations_agree_iff_ms :
    natValue ['2', '5', '0'] * DurationUnit.ms.microseconds < 9000000000000000 * 1000 ∧
    parseDuration ['2', '5', '0', 'm', 's'] =
      parseDurationUs ['2', '5', '0', 'm', 's'] / 1000 ∧
    parseLatency ['<', ' ', '2', '5', '0', 'm', 's'] =
      parseDurationUs ['2', '5', '0', 'm', 's'] / 1000 := by
  have small : natValue ['2', '5', '0'] * DurationUnit.ms.microseconds <
      9000000000000000 * 1000 := by decide
  have agree := durations_agree_iff ⟨by decide, by simp⟩ DurationUnit.ms small
  exact ⟨small, agree.2.1.mpr (.inl (by decide)), agree.2.2.mpr (.inl rfl)⟩

/-- 500 microseconds are a stage of 500 seconds, and a limit of two minutes is one of
two milliseconds. -/
theorem durations_disagree :
    parseDurationUs ['5', '0', '0', 'u', 's'] = 500 ∧
    parseDuration ['5', '0', '0', 'u', 's'] = 500000 ∧
    parseDurationUs ['2', 'm'] = 120000000 ∧
    parseLatency ['<', ' ', '2', 'm'] = 2 := by
  decide +kernel

/-! ## The exact one -/

/-- The product of two numbers of type `long long`; an overflow has no value. -/
def longLongMul (first second : ℤ) : Option ℤ :=
  if -2 ^ 63 ≤ first * second ∧ first * second < 2 ^ 63 then some (first * second) else none

/-- `parse_duration_us` with its arithmetic watched; `none` is an overflow. -/
def watchedDurationUs (text : Text) : Option ℤ :=
  let digits := text.takeWhile Char.isDigit
  if digits = [] then some (-1)
  else
    match stoll digits with
    | none => some (-1)
    | some value =>
        match durationUnitUs (text.dropWhile Char.isDigit) with
        | none => some (-1)
        | some multiplier =>
            if value < 0 ∨ (2 ^ 63 - 1) / multiplier < value then some (-1)
            else longLongMul value multiplier

/-- What passes the test by division has a product in range. -/
theorem longLongMul_of_le_div {value multiplier : ℤ} (positive : 0 < multiplier)
    (nonnegative : 0 ≤ value) (within : value ≤ (2 ^ 63 - 1) / multiplier) :
    longLongMul value multiplier = some (value * multiplier) := by
  have most : value * multiplier ≤ 2 ^ 63 - 1 := (Int.le_ediv_iff_mul_le positive).mp within
  have least : 0 ≤ value * multiplier := mul_nonneg nonnegative positive.le
  exact if_pos (by omega)

/-- No text makes the product overflow. -/
theorem watchedDurationUs_eq (text : Text) :
    watchedDurationUs text = some (parseDurationUs text) := by
  by_cases empty : text.takeWhile Char.isDigit = []
  · simp only [watchedDurationUs, parseDurationUs, empty, if_true]
  simp only [watchedDurationUs, parseDurationUs, empty, if_false]
  cases stoll (text.takeWhile Char.isDigit) with
  | none => rfl
  | some value =>
      cases found : durationUnitUs (text.dropWhile Char.isDigit) with
      | none => rfl
      | some multiplier =>
          obtain ⟨unit, -, rfl⟩ := durationUnitUs_eq_some_iff.mp found
          have positive : (0 : ℤ) < unit.microseconds := by cases unit <;> decide
          dsimp only
          split
          · rfl
          · rename_i passes
            obtain ⟨nonnegative, within⟩ := not_or.mp passes
            exact longLongMul_of_le_div positive (not_lt.mp nonnegative) (not_lt.mp within)

/-- The two ways in which `parse_duration_us` returns. -/
theorem parseDurationUs_cases (text : Text) :
    parseDurationUs text = -1 ∨
      ∃ length : ℕ, IsDuration text length ∧ length ≤ 2 ^ 63 - 1 ∧
        parseDurationUs text = length := by
  by_cases known : ∃ length, IsDuration text length
  · obtain ⟨length, duration⟩ := known
    rw [duration.parseDurationUs_eq]
    by_cases small : length < 2 ^ 63
    · exact .inr ⟨length, duration, Nat.le_sub_one_of_lt small, if_pos small⟩
    · exact .inl (if_neg small)
  · exact .inl (parseDurationUs_of_not_isDuration (not_exists.mp known))

theorem parseDurationUs_eq_natCast_iff {text : Text} {length : ℕ} :
    parseDurationUs text = length ↔ IsDuration text length ∧ length ≤ 2 ^ 63 - 1 := by
  constructor
  · intro returned
    rcases parseDurationUs_cases text with rejected | ⟨found, duration, small, same⟩
    · omega
    · obtain rfl : found = length := by omega
      exact ⟨duration, small⟩
  · rintro ⟨duration, small⟩
    rw [duration.parseDurationUs_eq, if_pos (by omega)]

theorem parseDurationUs_eq_neg_one_iff {text : Text} :
    parseDurationUs text = -1 ↔ ¬∃ length, IsDuration text length ∧ length ≤ 2 ^ 63 - 1 := by
  constructor
  · rintro rejected ⟨length, known⟩
    have returned := parseDurationUs_eq_natCast_iff.mpr known
    omega
  · intro noDuration
    rcases parseDurationUs_cases text with rejected | ⟨length, duration, small, -⟩
    · exact rejected
    · exact absurd ⟨length, duration, small⟩ noDuration

/-- `parse_duration_us` returns a length exactly for a numeral with a unit whose product is
at most `2 ^ 63 - 1`, and then the product; for every other text it returns `-1`, and the
product never overflows. -/
theorem parseDurationUs_exact (text : Text) :
    (∀ length : ℕ, parseDurationUs text = length ↔
      IsDuration text length ∧ length ≤ 2 ^ 63 - 1) ∧
    (parseDurationUs text = -1 ↔ ¬∃ length, IsDuration text length ∧ length ≤ 2 ^ 63 - 1) ∧
    watchedDurationUs text = some (parseDurationUs text) :=
  ⟨fun _ => parseDurationUs_eq_natCast_iff, parseDurationUs_eq_neg_one_iff,
    watchedDurationUs_eq text⟩

-- The longest number of hours, and one hour more.
example :
    parseDurationUs "2562047788h".toList = 9223372036800000000 ∧
    parseDurationUs "2562047789h".toList = -1 := by
  decide +kernel

end Cppload.Scenario

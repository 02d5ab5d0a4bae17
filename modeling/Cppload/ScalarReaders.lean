import Cppload.Numerals

/-!
# The readers of durations, rates and sizes

The functions of `yaml_parser.cpp` that read the scalars of a configuration, and the
one of `engine.cpp` that reads the durations of assertions.  Each finds the unit in a
way of its own.
-/

namespace Cppload.Scenario

open Text

/-- `std::chrono::milliseconds::max()`. -/
def millisecondsMax : ℤ :=
  2 ^ 63 - 1

def kDefaultErrorRate : Double :=
  .finite 10

def kDefaultLatencyMs : ℤ :=
  500

/-- `scale_to_ms`.  The source leaves open what becomes of a value that is not a
number. -/
def scaleToMs (value : Double) (multiplier : ℚ) : ℤ :=
  match value with
  | .finite value =>
      let ms := value * multiplier
      if ms < 0 then 0
      else if 9000000000000000 ≤ ms then millisecondsMax
      else ⌊ms⌋
  | .infinite negative => if negative then 0 else millisecondsMax
  | .nan => -2 ^ 63

def parseNumber (text : Text) : Double :=
  (stod text).getD (.finite (-1))

/-- The units of one character of `parse_duration`. -/
def durationUnitMs (unit : Char) : Option ℚ :=
  if unit = 's' then some 1000
  else if unit = 'm' then some 60000
  else if unit = 'h' then some 3600000
  else none

/-- `parse_duration`, in milliseconds.  An unknown unit is warned about and counts as
no time at all. -/
def parseDuration (text : Text) : ℤ :=
  if text = [] then 0
  else if ['m', 'i', 'n'] <:+ text then
    scaleToMs (parseNumber (text.take (text.length - 3))) 60000
  else if ['m', 's'] <:+ text then
    scaleToMs (parseNumber (text.take (text.length - 2))) 1
  else
    let value := parseNumber text.dropLast
    if value.isNegative then 0
    else
      match text.getLast?.bind durationUnitMs with
      | some multiplier => scaleToMs value multiplier
      | none => 0

/-- `parse_error_rate`.  If the percent sign stands before the first digit then the
length given to `substr` wraps around, and all of the rest is read. -/
def parseErrorRate (text : Text) : Double :=
  let start := text.findIdx Char.isDigit
  let stop := text.idxOf '%'
  if start < text.length ∧ stop < text.length then
    let rest := text.drop start
    (stod (if stop < start then rest else rest.take (stop - start))).getD kDefaultErrorRate
  else kDefaultErrorRate

/-- The factor of a unit of `parse_bytesize`. -/
def bytesizeMultiplier (unit : Text) : ℚ :=
  if unit = ['k'] ∨ unit = ['k', 'b'] then 1024
  else if unit = ['m'] ∨ unit = ['m', 'b'] then 1024 * 1024
  else if unit = ['g'] ∨ unit = ['g', 'b'] then 1024 * 1024 * 1024
  else 1

/-- `parse_bytesize`.  The largest `size_t` is no `double`; it is compared as
`2 ^ 64`. -/
def parseBytesize (text : Text) : ℕ :=
  let digits := text.takeWhile Char.isDigit
  if digits = [] then 0
  else
    match stod digits with
    | some (.finite value) =>
        if value < 0 then 0
        else
          let bytes :=
            value * bytesizeMultiplier ((text.dropWhile Char.isDigit).map Char.toLower)
          if 2 ^ 64 < bytes then 2 ^ 64 - 1 else ⌊bytes⌋₊
    | _ => 0

/-- `parse_latency`, in milliseconds. -/
def parseLatency (text : Text) : ℤ :=
  let rest := text.dropWhile fun c => !c.isDigit
  if rest = [] then kDefaultLatencyMs
  else
    match stod (rest.takeWhile Char.isDigit) with
    | none => kDefaultLatencyMs
    | some value =>
        if ['m', 's'] <:+: text then scaleToMs value 1
        else if 's' ∈ text then scaleToMs value 1000
        else scaleToMs value 1

/-- The microseconds of a unit of `parse_duration_us`. -/
def durationUnitUs (unit : Text) : Option ℤ :=
  if unit = ['u', 's'] then some 1
  else if unit = ['m', 's'] then some 1000
  else if unit = ['s'] then some (1000 * 1000)
  else if unit = ['m'] then some (60 * 1000 * 1000)
  else if unit = ['h'] then some (3600 * 1000 * 1000)
  else none

/-- `parse_duration_us`, `-1` for everything that is no duration or too long. -/
def parseDurationUs (text : Text) : ℤ :=
  let digits := text.takeWhile Char.isDigit
  if digits = [] then -1
  else
    match stoll digits with
    | none => -1
    | some value =>
        match durationUnitUs (text.dropWhile Char.isDigit) with
        | none => -1
        | some multiplier =>
            if value < 0 ∨ (2 ^ 63 - 1) / multiplier < value then -1 else value * multiplier

end Cppload.Scenario

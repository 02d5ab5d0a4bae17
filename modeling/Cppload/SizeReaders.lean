import Cppload.Http11Client
import Cppload.ScalarReaders

/-!
# Two readers of sizes

`parse_bytesize` reads the body limit of a configuration file, `parse_size_bytes` that of the
command line.  The first compares all that follows the digits with the names of the units.
The second looks at the last character only: the `b` of a unit of two letters is no unit, and
what is before it is read as a number of bytes.
-/

namespace Cppload.Cli

open Text Scenario
open Http11 (kDefaultMaxBodyBytes)

/-- The factor of a suffix of `parse_size_bytes`. -/
def suffixFactor (suffix : Option Char) : ℚ :=
  match suffix with
  | some 'k' => 1024
  | some 'm' => 1024 * 1024
  | some 'g' => 1024 * 1024 * 1024
  | _ => 1

/-- The number of bytes of a `double`.  The largest `size_t` is compared as `2 ^ 64`; the
conversion of a NaN is open in the source. -/
def toBytes (base : Double) (factor : ℚ) : ℕ :=
  match base with
  | .finite value =>
      if value * factor < 0 then kDefaultMaxBodyBytes
      else if 2 ^ 64 < value * factor then 2 ^ 64 - 1
      else ⌊value * factor⌋₊
  | .infinite true => kDefaultMaxBodyBytes
  | .infinite false => 2 ^ 64 - 1
  | .nan => 0

/-- The last character, unless it is a digit, and what is before it. -/
def splitSuffix (text : Text) : Option Char × Text :=
  match text.getLast? with
  | some last => if last.isDigit then (none, text) else (some last.toLower, text.dropLast)
  | none => (none, text)

def parseSizeBytes (text : Text) : ℕ :=
  let trimmed := trim text
  if trimmed = [] then kDefaultMaxBodyBytes
  else
    let (suffix, body) := splitSuffix trimmed
    let number := body.rdropWhile isSpace
    if number = [] then kDefaultMaxBodyBytes
    else
      match stod number with
      | none => kDefaultMaxBodyBytes
      | some base => toBytes base (suffixFactor suffix)

/-- The units with their factors. -/
def sizeUnits : List (Text × ℕ) :=
  [([], 1), (['k'], 1024), (['k', 'b'], 1024), (['m'], 1024 ^ 2), (['m', 'b'], 1024 ^ 2),
    (['g'], 1024 ^ 3), (['g', 'b'], 1024 ^ 3)]

/-! ## Units -/

variable {digits unit : Text} {factor : ℕ}

theorem not_isUpper_of_digit_or_space {c : Char} (other : c.isDigit = true ∨ isSpace c = true) :
    c.isUpper = false := by
  have bound : c.toNat < 65 := by
    rcases other with digit | space
    · have high : c.toNat ≤ 57 := (Char.isDigit_iff_toNat.mp digit).2
      omega
    · simp only [isSpace, Bool.or_eq_true, decide_eq_true_eq, Bool.and_eq_true] at space
      rcases space with rfl | ⟨-, high⟩
      · decide
      · omega
  cases upper : c.isUpper with
  | false => rfl
  | true =>
      simp only [Char.isUpper, decide_eq_true_eq] at upper
      have low : 65 ≤ c.toNat := upper.1
      omega

/-- The letters of the units are neither digits nor blanks, and no part of a number. -/
theorem unitLetter_distinct {c d : Char} (lower : c.toLower = d)
    (letter : d ∈ ['k', 'm', 'g', 'b']) :
    c.isDigit = false ∧ isSpace c = false ∧ c ∉ ['.', 'e', 'E', 'x', 'X'] := by
  have proper : d.isDigit = false ∧ isSpace d = false := by
    simp only [List.mem_cons, List.not_mem_nil, or_false] at letter
    rcases letter with rfl | rfl | rfl | rfl <;> decide
  have neither : ¬ (c.isDigit = true ∨ isSpace c = true) := by
    intro other
    have same : c.toLower = c := by
      rw [Char.toLower, dif_neg]
      simpa [Char.isUpper] using not_isUpper_of_digit_or_space other
    rw [← lower, same] at proper
    simp [proper] at other
  rw [not_or, Bool.not_eq_true, Bool.not_eq_true] at neither
  refine ⟨neither.1, neither.2, ?_⟩
  intro member
  simp only [List.mem_cons, List.not_mem_nil, or_false] at member
  rcases member with rfl | rfl | rfl | rfl | rfl <;>
  · subst lower
    revert letter
    decide

/-- A unit is empty, one letter, or one letter and a `b`. -/
inductive IsSizeUnit : Text → ℕ → Prop where
  | bytes : IsSizeUnit [] 1
  | single {c : Char} {factor : ℕ} :
      (c.toLower, factor) ∈ [('k', 1024), ('m', 1024 ^ 2), ('g', 1024 ^ 3)] →
      IsSizeUnit [c] factor
  | double {c b : Char} {factor : ℕ} :
      (c.toLower, factor) ∈ [('k', 1024), ('m', 1024 ^ 2), ('g', 1024 ^ 3)] →
      b.toLower = 'b' → IsSizeUnit [c, b] factor

theorem isSizeUnit_of_mem (listed : (unit.map Char.toLower, factor) ∈ sizeUnits) :
    IsSizeUnit unit factor := by
  simp only [sizeUnits, List.mem_cons, Prod.mk.injEq, List.not_mem_nil, or_false] at listed
  rcases unit with _ | ⟨c, _ | ⟨b, _ | ⟨other, rest⟩⟩⟩
  · obtain rfl : factor = 1 := by simpa using listed
    exact .bytes
  · exact .single (by simpa using listed)
  · simp only [List.map_cons, List.map_nil] at listed
    simp only [List.cons.injEq, and_true, reduceCtorEq, false_and, false_or, and_false] at listed
    refine .double ?_ ?_
    · simp only [List.mem_cons, Prod.mk.injEq, List.not_mem_nil, or_false]
      tauto
    · tauto
  · simp at listed

/-- What the two readers make of a letter. -/
theorem unitLetter_factor {c : Char}
    (letter : (c.toLower, factor) ∈ [('k', 1024), ('m', 1024 ^ 2), ('g', 1024 ^ 3)]) :
    c.toLower ∈ ['k', 'm', 'g', 'b'] ∧ 1 < factor ∧
      suffixFactor (some c.toLower) = factor ∧
      bytesizeMultiplier [c.toLower] = factor ∧ bytesizeMultiplier [c.toLower, 'b'] = factor := by
  simp only [List.mem_cons, Prod.mk.injEq, List.not_mem_nil, or_false] at letter
  rcases letter with ⟨lower, rfl⟩ | ⟨lower, rfl⟩ | ⟨lower, rfl⟩ <;>
  · rw [lower]
    decide +kernel

theorem IsSizeUnit.stops (isUnit : IsSizeUnit unit factor) : Stops unit := by
  cases isUnit with
  | bytes => simp [Stops]
  | single letter | double letter =>
      have distinct := unitLetter_distinct rfl (unitLetter_factor letter).1
      intro d first
      cases first
      exact ⟨distinct.1, distinct.2.2⟩

theorem IsSizeUnit.pos (isUnit : IsSizeUnit unit factor) : 0 < factor := by
  cases isUnit with
  | bytes => exact Nat.one_pos
  | single letter | double letter =>
      have more := (unitLetter_factor letter).2.1
      omega

theorem IsSizeUnit.bytesizeMultiplier_eq (isUnit : IsSizeUnit unit factor) :
    bytesizeMultiplier (unit.map Char.toLower) = factor := by
  cases isUnit with
  | bytes => rfl
  | single letter => exact (unitLetter_factor letter).2.2.2.1
  | double letter last =>
      rw [List.map_cons, List.map_singleton, last]
      exact (unitLetter_factor letter).2.2.2.2

/-! ## The readers -/

/-- The last character is taken off if it is no digit. -/
theorem parseSizeBytes_concat {body : Text} {last : Char} {base : Double} (nonempty : body ≠ [])
    (begins : StopsAt isSpace body) (ends : ∀ c ∈ body.getLast?, isSpace c = false)
    (noDigit : last.isDigit = false) (noSpace : isSpace last = false)
    (read : stod body = some base) :
    parseSizeBytes (body ++ [last]) = toBytes base (suffixFactor (some last.toLower)) := by
  have beginsAll : StopsAt isSpace (body ++ [last]) := by
    exact begins.append nonempty _
  have endsAll : ∀ c ∈ (body ++ [last]).getLast?, isSpace c = false := by
    simpa using noSpace
  have cut : splitSuffix (body ++ [last]) = (some last.toLower, body) := by
    simp [splitSuffix, noDigit]
  simp only [parseSizeBytes, trim_eq_self beginsAll endsAll, List.append_eq_nil_iff, nonempty,
    false_and, if_false, cut, rdropWhile_eq_self ends, read]

/-- Below the bound the product is exact. -/
theorem capped_natCast {value factor : ℕ} (small : value * factor < 2 ^ 53) :
    (if (2 : ℚ) ^ 64 < value * factor then 2 ^ 64 - 1 else ⌊(value : ℚ) * factor⌋₊) =
      value * factor := by
  have product : (value : ℚ) * factor = ((value * factor : ℕ) : ℚ) := by
    push_cast
    rfl
  have inside : ((value * factor : ℕ) : ℚ) ≤ 2 ^ 64 := by
    exact_mod_cast (show value * factor ≤ 2 ^ 64 by omega)
  rw [product, if_neg (not_lt.mpr inside), Nat.floor_natCast]

theorem toBytes_natCast {value factor : ℕ} (small : value * factor < 2 ^ 53) :
    toBytes (.finite value) factor = value * factor := by
  have nonneg : ¬ ((value : ℚ) * factor < 0) := not_lt.mpr (by positivity)
  simp only [toBytes, if_neg nonneg, capped_natCast small]

section Readers

variable (numeral : IsNumeral digits)

include numeral

/-- The configuration reader knows all units. -/
theorem parseBytesize_append (isUnit : IsSizeUnit unit factor)
    (small : natValue digits * factor < 2 ^ 53) :
    parseBytesize (digits ++ unit) = natValue digits * factor := by
  have positive := isUnit.pos
  have below : natValue digits < 2 ^ 64 := by
    have atLeast : natValue digits ≤ natValue digits * factor :=
      Nat.le_mul_of_pos_right _ positive
    omega
  have read : stod digits = some (.finite (natValue digits)) := by
    have whole := @stod_append digits [] numeral (by simp [Stops]) below
    rwa [List.append_nil] at whole
  have nonneg : ¬ ((natValue digits : ℚ) < 0) := not_lt.mpr (Nat.cast_nonneg _)
  simp only [parseBytesize, numeral.takeWhile_append isUnit.stops,
    numeral.dropWhile_append isUnit.stops, numeral.nonempty, if_false, read,
    isUnit.bytesizeMultiplier_eq, if_neg nonneg, capped_natCast small]

theorem numeral_begins (rest : Text) : StopsAt isSpace (digits ++ rest) := by
  obtain ⟨c, more, rfl⟩ := List.exists_cons_of_ne_nil numeral.nonempty
  exact stopsAt_cons.mpr (isDigit_distinct (numeral.digits c (by simp))).1

theorem numeral_ends : ∀ c ∈ digits.getLast?, isSpace c = false :=
  fun c last => (isDigit_distinct (numeral.digits c (List.mem_of_getLast? last))).1

/-- The command-line reader knows a letter, but takes a unit of two letters for bytes. -/
theorem parseSizeBytes_append (isUnit : IsSizeUnit unit factor)
    (small : natValue digits * factor < 2 ^ 53) :
    parseSizeBytes (digits ++ unit) =
      if unit.length ≤ 1 then natValue digits * factor else natValue digits := by
  have positive := isUnit.pos
  have atLeast : natValue digits ≤ natValue digits * factor := Nat.le_mul_of_pos_right _ positive
  have below : natValue digits < 2 ^ 64 := by omega
  have number (rest : Text) (stops : Stops rest) :
      stod (digits ++ rest) = some (.finite (natValue digits)) := stod_append numeral stops below
  have alone : stod digits = some (.finite (natValue digits)) := by
    simpa using number [] (by simp [Stops])
  cases isUnit with
  | bytes =>
      have cut : splitSuffix digits = (none, digits) := by
        unfold splitSuffix
        cases last : digits.getLast? with
        | none => rfl
        | some c => simp [numeral.digits c (List.mem_of_getLast? last)]
      have bytes := toBytes_natCast small
      have begins := numeral_begins numeral []
      rw [List.append_nil] at begins
      simp only [List.append_nil, parseSizeBytes, trim_eq_self begins (numeral_ends numeral),
        numeral.nonempty, if_false, cut, rdropWhile_eq_self (numeral_ends numeral), alone]
      simpa [suffixFactor] using bytes
  | @single c _ letter =>
      obtain ⟨listed, -, suffix, -, -⟩ := unitLetter_factor letter
      obtain ⟨noDigit, noSpace, -⟩ := unitLetter_distinct rfl listed
      have begins := numeral_begins numeral []
      rw [List.append_nil] at begins
      rw [parseSizeBytes_concat numeral.nonempty begins (numeral_ends numeral) noDigit noSpace
        alone, suffix, toBytes_natCast small, if_pos (by simp)]
  | @double c b _ letter last =>
      obtain ⟨noDigit, noSpace, -⟩ := unitLetter_distinct last (by decide)
      obtain ⟨firstNoDigit, firstNoSpace, distinct⟩ :=
        unitLetter_distinct rfl (unitLetter_factor letter).1
      have stops : Stops [c] := by
        intro d first
        cases first
        exact ⟨firstNoDigit, distinct⟩
      have bytes : toBytes (.finite (natValue digits)) (1 : ℕ) = natValue digits * 1 :=
        toBytes_natCast (by omega)
      have whole : digits ++ [c, b] = digits ++ [c] ++ [b] := by simp
      rw [whole, parseSizeBytes_concat (by simp) (numeral_begins numeral [c]) (by simpa using
        firstNoSpace) noDigit noSpace (number [c] stops), last, if_neg (by simp)]
      simpa [suffixFactor] using bytes

end Readers

/-- On a numeral with a unit, in any letter case, both readers give the number of bytes
exactly if the unit has at most one letter or the number is zero. -/
theorem parseBytesize_eq_parseSizeBytes_iff {digits unit : Text} {factor : ℕ}
    (numeral : IsNumeral digits) (listed : (unit.map Char.toLower, factor) ∈ sizeUnits)
    (small : natValue digits * factor < 2 ^ 53) :
    (parseBytesize (digits ++ unit) = natValue digits * factor ∧
        parseSizeBytes (digits ++ unit) = natValue digits * factor) ↔
      unit.length ≤ 1 ∨ natValue digits = 0 := by
  have isUnit := isSizeUnit_of_mem listed
  rw [parseBytesize_append numeral isUnit small, parseSizeBytes_append numeral isUnit small]
  by_cases short : unit.length ≤ 1
  · simp [short]
  · have more : 1 < factor := by
      cases isUnit with
      | bytes | single => simp at short
      | double letter => exact (unitLetter_factor letter).2.1
    rw [if_neg short]
    simp only [short, false_or, true_and]
    constructor
    · intro same
      by_contra positive
      have larger : natValue digits * 1 < natValue digits * factor :=
        Nat.mul_lt_mul_of_pos_left more (Nat.pos_of_ne_zero positive)
      omega
    · intro zero
      simp [zero]

/-- The number is the same for a single letter. -/
theorem parseBytesize_eq_parseSizeBytes_mega :
    parseBytesize "12M".toList = 12 * 1024 ^ 2 ∧ parseSizeBytes "12M".toList = 12 * 1024 ^ 2 := by
  have numeral : IsNumeral "12".toList := ⟨by decide, List.all_eq_true.mp (by decide)⟩
  have value : natValue "12".toList = 12 := by decide
  have both := (@parseBytesize_eq_parseSizeBytes_iff "12".toList "M".toList (1024 ^ 2) numeral
    (by decide) (by rw [value]; decide)).mpr (Or.inl (by decide))
  rw [value] at both
  exact both

/-- Ten kilobytes in the configuration are ten bytes on the command line. -/
theorem parseSizeBytes_ten_bytes :
    parseBytesize "10kb".toList = 10240 ∧ parseSizeBytes "10kb".toList = 10 := by
  decide +kernel


end Cppload.Cli

import Cppload.TextScan

/-!
# Numbers at the beginning of a text

`std::stod` and `std::stoll` read the longest prefix of a text that is a number and
ignore the rest; they throw when there is none or when the number is out of range.
The conversion is taken as exact.
-/

namespace Cppload

/-- A `double`, without rounding. -/
inductive Double where
  | finite (value : ℚ)
  | infinite (negative : Bool)
  | nan
  deriving DecidableEq, Repr

namespace Double

def neg : Double → Double
  | .finite value => .finite (-value)
  | .infinite negative => .infinite !negative
  | .nan => .nan

/-- The comparison with zero. -/
def isNegative : Double → Bool
  | .finite value => value < 0
  | .infinite negative => negative
  | .nan => false

/-- The numbers from here on are rounded to infinity. -/
def overflowBound : ℚ :=
  (2 ^ 1024 - 2 ^ 970 : ℕ)

def leastNormal : ℚ :=
  1 / 2 ^ 1022

/-- A number that is neither rounded to infinity nor below the normal numbers. -/
def inRange : Double → Bool
  | .finite value =>
      value = 0 || (decide (leastNormal ≤ |value|) && decide (|value| < overflowBound))
  | _ => true

theorem inRange_natCast {value : ℕ} (small : value < 2 ^ 64) :
    (Double.finite value).inRange = true := by
  have below : (value : ℚ) < overflowBound := by
    have room : 2 ^ 64 ≤ 2 ^ 1024 - 2 ^ 970 := by decide +kernel
    exact Nat.cast_lt.mpr (small.trans_le room)
  have least : leastNormal ≤ 1 :=
    div_le_one_of_le₀ (one_le_pow₀ one_le_two) (by positivity)
  by_cases zero : value = 0
  · simp [inRange, zero]
  · have positive : (1 : ℚ) ≤ value := Nat.one_le_cast.mpr (Nat.one_le_iff_ne_zero.mpr zero)
    simp [inRange, least.trans positive, below]

end Double

namespace Text

def isHexDigit (c : Char) : Bool :=
  c.isDigit || ('a' ≤ c && c ≤ 'f') || ('A' ≤ c && c ≤ 'F')

def natValue (digits : Text) : ℕ :=
  Nat.ofDigitChars 10 digits 0

def hexDigitValue (c : Char) : ℕ :=
  if c.isDigit then c.toNat - '0'.toNat else c.toLower.toNat - 'a'.toNat + 10

def hexValue (digits : Text) : ℕ :=
  digits.foldl (fun value digit => 16 * value + hexDigitValue digit) 0

/-- Digits with or without a point, at least one of them, and the rest of the text. -/
def mantissa (base : ℕ) (isDigit : Char → Bool) (digitsValue : Text → ℕ) (text : Text) :
    Option (ℚ × Text) :=
  let whole := text.takeWhile isDigit
  match text.dropWhile isDigit with
  | '.' :: afterPoint =>
      let fraction := afterPoint.takeWhile isDigit
      if whole = [] ∧ fraction = [] then none
      else some (digitsValue (whole ++ fraction) / base ^ fraction.length,
        afterPoint.dropWhile isDigit)
  | rest => if whole = [] then none else some (digitsValue whole, rest)

/-- The exponent at the beginning of a text; it is zero if there is none. -/
def exponent (marks : List Char) : Text → ℤ
  | [] => 0
  | mark :: rest =>
      if mark ∈ marks then
        match rest with
        | '-' :: digits => -natValue (digits.takeWhile Char.isDigit)
        | '+' :: digits => natValue (digits.takeWhile Char.isDigit)
        | digits => natValue (digits.takeWhile Char.isDigit)
      else 0

def hexDouble : Text → Option Double
  | '0' :: 'x' :: text | '0' :: 'X' :: text =>
      (mantissa 16 isHexDigit hexValue text).map fun number =>
        .finite (number.1 * 2 ^ exponent ['p', 'P'] number.2)
  | _ => none

def decimalDouble (text : Text) : Option Double :=
  (mantissa 10 Char.isDigit natValue text).map fun number =>
    .finite (number.1 * 10 ^ exponent ['e', 'E'] number.2)

def unsignedDouble (text : Text) : Option Double :=
  if ['i', 'n', 'f'] <+: text.map Char.toLower then some (.infinite false)
  else if ['n', 'a', 'n'] <+: text.map Char.toLower then some .nan
  else (hexDouble text).or (decimalDouble text)

def signedDouble : Text → Option Double
  | '-' :: rest => (unsignedDouble rest).map Double.neg
  | '+' :: rest => unsignedDouble rest
  | text => unsignedDouble text

/-- `std::stod`; `none` is an exception. -/
def stod (text : Text) : Option Double :=
  (signedDouble (text.dropWhile isSpace)).filter Double.inRange

/-- An integer with its sign, at least one digit. -/
def signedInteger (text : Text) : Option ℤ :=
  let digitsOf (rest : Text) : Option ℕ :=
    let digits := rest.takeWhile Char.isDigit
    if digits = [] then none else some (natValue digits)
  match text with
  | '-' :: rest => (digitsOf rest).map fun value => -value
  | '+' :: rest => (digitsOf rest).map fun value => value
  | rest => (digitsOf rest).map fun value => value

/-- `std::stoll` and `std::stol`; `none` is an exception. -/
def stoll (text : Text) : Option ℤ :=
  (signedInteger (text.dropWhile isSpace)).filter fun value => -2 ^ 63 ≤ value ∧ value < 2 ^ 63

/-- `std::stoul`; a negative number is reduced modulo `2 ^ 64`, and `none` is an exception. -/
def stoul (text : Text) : Option ℕ :=
  ((signedInteger (text.dropWhile isSpace)).filter fun value => value.natAbs < 2 ^ 64).map
    fun value => (value % 2 ^ 64).toNat

/-- The text is made of digits, at least one. -/
structure IsNumeral (digits : Text) : Prop where
  nonempty : digits ≠ []
  digits : ∀ c ∈ digits, c.isDigit = true

/-- The text does not go on with a number that it follows. -/
def Stops (text : Text) : Prop :=
  ∀ c ∈ text.head?, c.isDigit = false ∧ c ∉ ['.', 'e', 'E', 'x', 'X']

section Digits

variable {c : Char} {digits rest : Text}

/-- What tells a digit from the other characters that a number can begin with. -/
theorem isDigit_distinct (digit : c.isDigit = true) :
    isSpace c = false ∧ c ∉ ['-', '+', '.', 'e', 'E', 'i', 'n', 'x', 'X'] ∧ c.toLower = c := by
  obtain ⟨low, high⟩ := Char.isDigit_iff_toNat.mp digit
  change 48 ≤ c.toNat at low
  change c.toNat ≤ 57 at high
  have same := Char.ofNat_toNat c
  generalize c.toNat = code at *
  subst same
  interval_cases code <;> decide

theorem Stops.not_mem (stops : Stops (c :: rest)) :
    c ≠ '.' ∧ c ≠ 'e' ∧ c ≠ 'E' ∧ c ≠ 'x' ∧ c ≠ 'X' := by
  have distinct := (stops c (by simp)).2
  simpa using distinct

theorem Stops.stopsAt (stops : Stops rest) : StopsAt Char.isDigit rest :=
  fun c first => (stops c first).1

theorem IsNumeral.takeWhile_append (numeral : IsNumeral digits) (stops : Stops rest) :
    (digits ++ rest).takeWhile Char.isDigit = digits :=
  takeWhile_append_of_stopsAt numeral.digits stops.stopsAt

theorem IsNumeral.dropWhile_append (numeral : IsNumeral digits) (stops : Stops rest) :
    (digits ++ rest).dropWhile Char.isDigit = rest :=
  dropWhile_append_of_stopsAt numeral.digits stops.stopsAt

theorem Stops.exponent_eq_zero (stops : Stops rest) : exponent ['e', 'E'] rest = 0 := by
  cases rest with
  | nil => rfl
  | cons c rest => simp [exponent, stops.not_mem]

theorem mantissa_append (numeral : IsNumeral digits) (stops : Stops rest) :
    mantissa 10 Char.isDigit natValue (digits ++ rest) = some (↑(natValue digits), rest) := by
  unfold mantissa
  rw [numeral.takeWhile_append stops, numeral.dropWhile_append stops]
  cases rest with
  | nil => simp [numeral.nonempty]
  | cons c rest => simp [stops.not_mem, numeral.nonempty]

theorem decimalDouble_append (numeral : IsNumeral digits) (stops : Stops rest) :
    decimalDouble (digits ++ rest) = some (.finite (natValue digits)) := by
  unfold decimalDouble
  rw [mantissa_append numeral stops, Option.map_some, stops.exponent_eq_zero, zpow_zero, mul_one]

/-- The second character of a text that begins with digits is no `x`. -/
theorem hexDouble_append (numeral : IsNumeral digits)
    (noMark : ∀ c ∈ rest.head?, c ≠ 'x' ∧ c ≠ 'X') : hexDouble (digits ++ rest) = none := by
  have second (mark : Char) (others : Text) (letter : mark = 'x' ∨ mark = 'X') :
      digits ++ rest ≠ '0' :: mark :: others := by
    intro same
    obtain ⟨first, more, rfl⟩ := List.exists_cons_of_ne_nil numeral.nonempty
    obtain ⟨-, tail⟩ := List.cons.inj same
    cases more with
    | nil =>
        change rest = mark :: others at tail
        subst tail
        have distinct := noMark mark rfl
        tauto
    | cons next more =>
        obtain ⟨rfl, -⟩ := List.cons.inj tail
        have distinct := (isDigit_distinct (numeral.digits next (by simp))).2.1
        simp at distinct
        tauto
  unfold hexDouble
  split
  · rename_i others same
    exact absurd same (second 'x' others (.inl rfl))
  · rename_i others same
    exact absurd same (second 'X' others (.inr rfl))
  · rfl

theorem unsignedDouble_append (numeral : IsNumeral digits)
    (noMark : ∀ c ∈ rest.head?, c ≠ 'x' ∧ c ≠ 'X') :
    unsignedDouble (digits ++ rest) = decimalDouble (digits ++ rest) := by
  have noHex := hexDouble_append numeral noMark
  obtain ⟨first, more, rfl⟩ := List.exists_cons_of_ne_nil numeral.nonempty
  obtain ⟨-, distinct, lower⟩ := isDigit_distinct (numeral.digits first (by simp))
  have beginning (mark : Char) (others : List Char) (letter : mark = 'i' ∨ mark = 'n') :
      ¬ (mark :: others) <+: (first :: more ++ rest).map Char.toLower := by
    simp only [List.cons_append, List.map_cons, List.cons_prefix_cons, lower, not_and]
    rintro rfl
    simp_all
  unfold unsignedDouble
  rw [if_neg (beginning 'i' _ (.inl rfl)), if_neg (beginning 'n' _ (.inr rfl)), noHex,
    Option.none_or]

/-- A text that begins with a digit has neither sign nor name. -/
theorem stod_eq_decimalDouble (numeral : IsNumeral digits)
    (noMark : ∀ c ∈ rest.head?, c ≠ 'x' ∧ c ≠ 'X') :
    stod (digits ++ rest) = (decimalDouble (digits ++ rest)).filter Double.inRange := by
  have read := unsignedDouble_append numeral noMark
  obtain ⟨first, more, rfl⟩ := List.exists_cons_of_ne_nil numeral.nonempty
  obtain ⟨noSpace, distinct, -⟩ := isDigit_distinct (numeral.digits first (by simp))
  have signless :
      signedDouble (first :: more ++ rest) = unsignedDouble (first :: more ++ rest) := by
    unfold signedDouble
    split
    · simp_all
    · simp_all
    · rfl
  unfold stod
  rw [List.cons_append, List.dropWhile_cons_of_neg (by simp [noSpace]), ← List.cons_append,
    signless, read]

theorem Stops.noMark (stops : Stops rest) : ∀ c ∈ rest.head?, c ≠ 'x' ∧ c ≠ 'X' := by
  intro c first
  have distinct := (stops c first).2
  simp at distinct
  tauto

theorem stod_numeral_append (numeral : IsNumeral digits) (stops : Stops rest) :
    stod (digits ++ rest) =
      if (Double.finite (natValue digits)).inRange then some (.finite (natValue digits))
      else none := by
  rw [stod_eq_decimalDouble numeral stops.noMark, decimalDouble_append numeral stops,
    Option.filter_some]

/-- A numeral below `2 ^ 64`, and what follows it, is read as its value. -/
theorem stod_append (numeral : IsNumeral digits) (stops : Stops rest)
    (small : natValue digits < 2 ^ 64) :
    stod (digits ++ rest) = some (.finite (natValue digits)) := by
  rw [stod_numeral_append numeral stops, if_pos (Double.inRange_natCast small)]

theorem signedInteger_numeral (numeral : IsNumeral digits) :
    signedInteger digits = some (natValue digits : ℤ) := by
  have whole : digits.takeWhile Char.isDigit = digits :=
    List.takeWhile_eq_self_iff.mpr numeral.digits
  unfold signedInteger
  split
  · have := isDigit_distinct (numeral.digits '-' (by simp))
    simp at this
  · have := isDigit_distinct (numeral.digits '+' (by simp))
    simp at this
  · simp [whole, numeral.nonempty]

/-- `std::stoll` of digits. -/
theorem stoll_numeral (numeral : IsNumeral digits) :
    stoll digits = if natValue digits < 2 ^ 63 then some (natValue digits : ℤ) else none := by
  obtain ⟨first, more, rfl⟩ := List.exists_cons_of_ne_nil numeral.nonempty
  obtain ⟨noSpace, -, -⟩ := isDigit_distinct (numeral.digits first (by simp))
  have bounds (value : ℕ) : (-2 ^ 63 ≤ (value : ℤ) ∧ (value : ℤ) < 2 ^ 63) ↔ value < 2 ^ 63 := by
    omega
  unfold stoll
  rw [List.dropWhile_cons_of_neg (by simp [noSpace]), signedInteger_numeral numeral,
    Option.filter_some]
  simp only [decide_eq_true_eq, bounds]

/-- `std::stoul` of digits. -/
theorem stoul_numeral (numeral : IsNumeral digits) :
    stoul digits = if natValue digits < 2 ^ 64 then some (natValue digits) else none := by
  obtain ⟨first, more, rfl⟩ := List.exists_cons_of_ne_nil numeral.nonempty
  obtain ⟨noSpace, -, -⟩ := isDigit_distinct (numeral.digits first (by simp))
  unfold stoul
  rw [List.dropWhile_cons_of_neg (by simp [noSpace]), signedInteger_numeral numeral,
    Option.filter_some]
  simp only [Int.natAbs_natCast, decide_eq_true_eq]
  split
  · rename_i small
    have reduced : ((natValue (first :: more) : ℤ) % 2 ^ 64).toNat =
        natValue (first :: more) := by
      omega
    rw [Option.map_some, reduced]
  · rfl

/-- The numeral of a number is read as the number. -/
theorem natValue_toDigits (value : ℕ) : natValue (Nat.toDigits 10 value) = value := by
  rw [natValue, Nat.ofDigitChars_toDigits (by decide) (by decide)]

theorem isNumeral_toDigits (value : ℕ) : IsNumeral (Nat.toDigits 10 value) where
  nonempty := Nat.toDigits_ne_nil
  digits _ member := Nat.isDigit_of_mem_toDigits (by decide) (by decide) member

end Digits

end Text

end Cppload

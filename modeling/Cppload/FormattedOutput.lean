import Cppload.Numerals

/-!
# Numbers in fields of fixed width

An output stream keeps its base and its fill character until they are changed; a width
holds for the next number only.  A number that is written with zeros in front, into a
field that is wide enough for it, fills the field exactly, so that fields written one
after the other can be told apart again.
-/

namespace Cppload

/-- A stream for output as `std::ostringstream` makes it. -/
structure OutputStream where
  text : Text := []
  base : ℕ := 10
  fill : Char := ' '
  width : ℕ := 0
  deriving DecidableEq, Repr

namespace OutputStream

def hex (stream : OutputStream) : OutputStream :=
  { stream with base := 16 }

def setfill (stream : OutputStream) (fill : Char) : OutputStream :=
  { stream with fill := fill }

def setw (stream : OutputStream) (width : ℕ) : OutputStream :=
  { stream with width := width }

/-- Write an unsigned number, to the right of its field. -/
def write (stream : OutputStream) (value : ℕ) : OutputStream :=
  { stream with
    text := stream.text ++
      List.leftpad stream.width stream.fill (Nat.toDigits stream.base value)
    width := 0 }

end OutputStream

namespace Text

/-- The number that the digits mean in a base of at most sixteen. -/
def valueIn (base : ℕ) (digits : Text) : ℕ :=
  digits.foldl (fun value digit => base * value + hexDigitValue digit) 0

/-- A number with zeros in front. -/
def zeroPadded (base width value : ℕ) : Text :=
  List.leftpad width '0' (Nat.toDigits base value)

def isLowerHexDigit (c : Char) : Bool :=
  c.isDigit || ('a' ≤ c && c ≤ 'f')

theorem digitChar_spec {digit : ℕ} (small : digit < 16) :
    hexDigitValue digit.digitChar = digit ∧ isLowerHexDigit digit.digitChar = true := by
  interval_cases digit <;> decide

theorem valueIn_concat (base : ℕ) (digits : Text) (digit : Char) :
    valueIn base (digits ++ [digit]) = base * valueIn base digits + hexDigitValue digit := by
  simp [valueIn]

theorem valueIn_replicate_append (base count : ℕ) (digits : Text) :
    valueIn base (List.replicate count '0' ++ digits) = valueIn base digits := by
  have zero : hexDigitValue '0' = 0 := by decide
  induction count with
  | zero => rfl
  | succ count ih =>
      rw [List.replicate_succ, List.cons_append, ← ih]
      simp [valueIn, zero]

section Base

variable {base width : ℕ} (large : 1 < base) (small : base ≤ 16)

include large small

/-- Reading the digits of a number gives the number. -/
theorem valueIn_toDigits (value : ℕ) : valueIn base (Nat.toDigits base value) = value := by
  -- the last digit is the remainder, the others are the digits of the quotient
  induction value using Nat.strong_induction_on with
  | _ value ih =>
      by_cases single : value < base
      · rw [Nat.toDigits_of_lt_base single]
        simp [valueIn, (digitChar_spec (single.trans_le small)).1]
      · have positive : 0 < value := by omega
        have remainder : value % base < 16 :=
          (Nat.mod_lt _ (by omega)).trans_le small
        rw [Nat.toDigits_eq_if large, if_neg single, valueIn_concat,
          ih _ (Nat.div_lt_self positive large), (digitChar_spec remainder).1]
        exact Nat.div_add_mod value base

theorem valueIn_zeroPadded (value : ℕ) :
    valueIn base (zeroPadded base width value) = value := by
  rw [zeroPadded, List.leftpad, valueIn_replicate_append, valueIn_toDigits large small]

theorem isLowerHexDigit_of_mem_toDigits {value : ℕ} {c : Char}
    (member : c ∈ Nat.toDigits base value) : isLowerHexDigit c = true := by
  induction value using Nat.strong_induction_on with
  | _ value ih =>
      rw [Nat.toDigits_eq_if large] at member
      split at member
      · rename_i single
        rw [List.mem_singleton.mp member]
        exact (digitChar_spec (single.trans_le small)).2
      · rename_i several
        rcases List.mem_append.mp member with front | last
        · exact ih _ (Nat.div_lt_self (by omega) large) front
        · rw [List.mem_singleton.mp last]
          exact (digitChar_spec ((Nat.mod_lt _ (by omega)).trans_le small)).2

theorem isLowerHexDigit_of_mem_zeroPadded {value : ℕ} {c : Char}
    (member : c ∈ zeroPadded base width value) : isLowerHexDigit c = true := by
  rcases List.mem_append.mp member with padding | digit
  · rw [List.eq_of_mem_replicate padding]
    decide
  · exact isLowerHexDigit_of_mem_toDigits large small digit

omit small in
/-- A number that is small enough fills its field. -/
theorem length_zeroPadded {value : ℕ} (wide : 0 < width) (fits : value < base ^ width) :
    (zeroPadded base width value).length = width := by
  rw [zeroPadded, List.length_leftpad]
  exact max_eq_left ((Nat.length_toDigits_le_iff large wide).mpr fits)

/-- A field and what is behind it are recovered from the text. -/
theorem zeroPadded_append_inj {first second : ℕ} {rest others : Text} (wide : 0 < width)
    (firstFits : first < base ^ width) (secondFits : second < base ^ width)
    (same : zeroPadded base width first ++ rest = zeroPadded base width second ++ others) :
    first = second ∧ rest = others := by
  have lengths : (zeroPadded base width first).length = (zeroPadded base width second).length := by
    rw [length_zeroPadded large wide firstFits, length_zeroPadded large wide secondFits]
  obtain ⟨fields, behind⟩ := List.append_inj same lengths
  refine ⟨?_, behind⟩
  rw [← valueIn_zeroPadded large small first, fields, valueIn_zeroPadded large small]

end Base

end Text

end Cppload

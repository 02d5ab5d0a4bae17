import Mathlib

/-!
# Percent-encoding of bytes

An encoder copies the bytes that its allow-list calls safe and writes all others as a
percent sign and two hexadecimal digits.  If the percent sign itself is not safe then
decoding gives the bytes back, and a form whose separators are not safe can be taken
apart into its pairs.
-/

namespace Cppload.Percent

/-! ## Bytes -/

/-- A property of bytes can be checked one by one. -/
theorem forall_byte {good : UInt8 → Prop} (each : ∀ number : Fin 256, good (.ofFin number))
    (byte : UInt8) : good byte := by
  have same : UInt8.ofFin byte.toFin = byte := UInt8.ofFin_toFin byte
  rw [← same]
  exact each byte.toFin

/-- `std::isalnum` in the C locale. -/
def isAlnum (byte : UInt8) : Bool :=
  (48 ≤ byte && byte ≤ 57) || (65 ≤ byte && byte ≤ 90) || (97 ≤ byte && byte ≤ 122)

/-- The upper-case hexadecimal digit of a value below sixteen. -/
def hexDigit (value : UInt8) : UInt8 :=
  if value < 10 then 48 + value else 55 + value

def isUpperHex (byte : UInt8) : Bool :=
  (48 ≤ byte && byte ≤ 57) || (65 ≤ byte && byte ≤ 70)

/-- The value of a hexadecimal digit, in either case. -/
def hexValue (byte : UInt8) : Option UInt8 :=
  if 48 ≤ byte && byte ≤ 57 then some (byte - 48)
  else if 65 ≤ byte && byte ≤ 70 then some (byte - 55)
  else if 97 ≤ byte && byte ≤ 102 then some (byte - 87)
  else none

theorem hexDigits_spec (byte : UInt8) :
    hexValue (hexDigit (byte >>> 4)) = some (byte >>> 4) ∧
    hexValue (hexDigit (byte &&& 15)) = some (byte &&& 15) ∧
    (byte >>> 4) * 16 + (byte &&& 15) = byte ∧
    isUpperHex (hexDigit (byte >>> 4)) = true ∧
    isUpperHex (hexDigit (byte &&& 15)) = true := by
  revert byte
  refine forall_byte ?_
  decide +kernel

/-! ## Encoding and decoding -/

/-- A byte as it is written. -/
def encodeByte (safe : UInt8 → Bool) (byte : UInt8) : List UInt8 :=
  if safe byte then [byte] else [37, hexDigit (byte >>> 4), hexDigit (byte &&& 15)]

def encode (safe : UInt8 → Bool) (bytes : List UInt8) : List UInt8 :=
  bytes.flatMap (encodeByte safe)

/-- Percent-decoding; there is no result if a percent sign is not followed by two
hexadecimal digits. -/
def decode : List UInt8 → Option (List UInt8)
  | [] => some []
  | byte :: rest =>
      if byte = 37 then
        match rest with
        | high :: low :: more =>
            match hexValue high, hexValue low with
            | some first, some second => (decode more).map ((first * 16 + second) :: ·)
            | _, _ => none
        | _ => none
      else (decode rest).map (byte :: ·)

/-- A text of safe bytes and of percent signs with two upper-case digits. -/
inductive Encoded (safe : UInt8 → Bool) : List UInt8 → Prop where
  | nil : Encoded safe []
  | plain {byte : UInt8} {rest : List UInt8} :
      safe byte = true → Encoded safe rest → Encoded safe (byte :: rest)
  | escaped {high low : UInt8} {rest : List UInt8} :
      isUpperHex high = true → isUpperHex low = true → Encoded safe rest →
        Encoded safe (37 :: high :: low :: rest)

variable {safe : UInt8 → Bool}

@[simp]
theorem encode_cons (byte : UInt8) (bytes : List UInt8) :
    encode safe (byte :: bytes) = encodeByte safe byte ++ encode safe bytes :=
  rfl

/-- Bytes that are all safe are copied. -/
theorem encode_eq_self {bytes : List UInt8} (all : ∀ byte ∈ bytes, safe byte = true) :
    encode safe bytes = bytes := by
  induction bytes with
  | nil => rfl
  | cons byte bytes ih =>
      obtain ⟨first, others⟩ := List.forall_mem_cons.mp all
      rw [encode_cons, encodeByte, if_pos first, ih others]
      rfl

theorem decode_cons_of_ne {byte : UInt8} (other : byte ≠ 37) (rest : List UInt8) :
    decode (byte :: rest) = (decode rest).map (byte :: ·) := by
  rw [decode.eq_def]
  exact if_neg other

/-- Decoding reads one encoded byte off the front. -/
theorem decode_encodeByte (percent : safe 37 = false) (byte : UInt8) (rest : List UInt8) :
    decode (encodeByte safe byte ++ rest) = (decode rest).map (byte :: ·) := by
  unfold encodeByte
  split
  · rename_i copied
    apply decode_cons_of_ne
    rintro rfl
    rw [percent] at copied
    cases copied
  · obtain ⟨high, low, together, -, -⟩ := hexDigits_spec byte
    simp only [List.cons_append, List.nil_append, decode, if_true, high, low, together]

theorem decode_encode (percent : safe 37 = false) (bytes : List UInt8) :
    decode (encode safe bytes) = some bytes := by
  induction bytes with
  | nil => rfl
  | cons byte bytes ih => rw [encode_cons, decode_encodeByte percent, ih, Option.map_some]

theorem encoded_encode (bytes : List UInt8) : Encoded safe (encode safe bytes) := by
  induction bytes with
  | nil => exact .nil
  | cons byte bytes ih =>
      rw [encode_cons]
      unfold encodeByte
      split
      · exact .plain ‹_› ih
      · obtain ⟨-, -, -, high, low⟩ := hexDigits_spec byte
        exact .escaped high low ih

/-- What holds of safe bytes, of the percent sign and of digits holds of every byte that
is written. -/
theorem Encoded.forall_mem {bytes : List UInt8} (encoded : Encoded safe bytes)
    (good : UInt8 → Prop) (copied : ∀ byte, safe byte = true → good byte) (percent : good 37)
    (digit : ∀ byte, isUpperHex byte = true → good byte) : ∀ byte ∈ bytes, good byte := by
  induction encoded with
  | nil => simp
  | plain isSafe _ ih => exact List.forall_mem_cons.mpr ⟨copied _ isSafe, ih⟩
  | escaped high low _ ih =>
      exact List.forall_mem_cons.mpr ⟨percent, List.forall_mem_cons.mpr ⟨digit _ high,
        List.forall_mem_cons.mpr ⟨digit _ low, ih⟩⟩⟩

/-! ## Forms -/

/-- A pair of a form, the name and the value on either side of `=`. -/
def field (safe : UInt8 → Bool) (pair : List UInt8 × List UInt8) : List UInt8 :=
  encode safe pair.1 ++ 61 :: encode safe pair.2

/-- The pairs of a form joined by `&`. -/
def form (safe : UInt8 → Bool) (pairs : List (List UInt8 × List UInt8)) : List UInt8 :=
  [38].intercalate (pairs.map (field safe))

/-- A part of a form is cut at its first `=`. -/
def decodeField (part : List UInt8) : Option (List UInt8 × List UInt8) :=
  match decode (part.takeWhile (· ≠ 61)), decode ((part.dropWhile (· ≠ 61)).drop 1) with
  | some name, some value => some (name, value)
  | _, _ => none

/-- A form is cut at every `&`. -/
def decodeForm (body : List UInt8) : Option (List (List UInt8 × List UInt8)) :=
  (body.splitOn 38).mapM decodeField

/-- A separator that is not safe does not occur in what is encoded. -/
theorem notMem_encode {separator : UInt8} (forbidden : safe separator = false)
    (noPercent : separator ≠ 37) (noDigit : isUpperHex separator = false) (bytes : List UInt8) :
    separator ∉ encode safe bytes := by
  have other : ∀ byte ∈ encode safe bytes, byte ≠ separator := by
    apply (encoded_encode bytes).forall_mem (· ≠ separator)
    · rintro byte copied rfl
      rw [forbidden] at copied
      cases copied
    · exact noPercent.symm
    · rintro byte digit rfl
      rw [noDigit] at digit
      cases digit
  exact fun member => other separator member rfl

section Forms

variable (percent : safe 37 = false) (equals : safe 61 = false) (ampersand : safe 38 = false)

include percent equals

theorem decodeField_field (pair : List UInt8 × List UInt8) :
    decodeField (field safe pair) = some pair := by
  have name : ∀ byte ∈ encode safe pair.1, decide (byte ≠ 61) = true := by
    intro byte member
    apply decide_eq_true
    rintro rfl
    exact notMem_encode equals (by decide) (by decide) pair.1 member
  have front : (field safe pair).takeWhile (· ≠ 61) = encode safe pair.1 := by
    rw [field, List.takeWhile_append_of_pos name]
    simp
  have back : (field safe pair).dropWhile (· ≠ 61) = 61 :: encode safe pair.2 := by
    rw [field, List.dropWhile_append_of_pos name]
    simp
  unfold decodeField
  rw [front, back, List.drop_one, List.tail_cons, decode_encode percent, decode_encode percent]

include ampersand

/-- Taking a form apart gives the pairs it was made of. -/
theorem decodeForm_form {pairs : List (List UInt8 × List UInt8)} (nonempty : pairs ≠ []) :
    decodeForm (form safe pairs) = some pairs := by
  have separate : ∀ part ∈ pairs.map (field safe), 38 ∉ part := by
    intro part member
    obtain ⟨pair, -, rfl⟩ := List.mem_map.mp member
    have name := notMem_encode ampersand (by decide) (by decide) pair.1
    have value := notMem_encode ampersand (by decide) (by decide) pair.2
    simp [field, name, value]
  unfold decodeForm form
  rw [List.splitOn_intercalate 38 separate (by simpa using nonempty)]
  clear separate nonempty
  induction pairs with
  | nil => rfl
  | cons pair pairs ih =>
      rw [List.map_cons, List.mapM_cons, decodeField_field percent equals, ih]
      rfl

end Forms

end Cppload.Percent

import Cppload.RedactionScan

/-!
# Redaction of form-encoded pairs

A value is masked if its key is the name of a secret.  The words of the other values are
looked at as well.  If one of them is the name of a secret and the value goes on behind it,
what is left of the value is masked.  If it is the last word of the value, the `&` is passed
over and the next pair is masked with its key.  In both cases the scan goes on at the
beginning of a pair, and it does so for reasons that are not in a secret value.
-/

namespace Cppload.Core.Redact

open Text

/-- The characters in the output of `url_encode`. -/
def isFormChar (c : Char) : Bool :=
  isKeyChar c || c = '.' || c = '~' || c = '%'

structure FormPair where
  key : Text
  value : Text
  key_ne_nil : key ≠ []
  value_ne_nil : value ≠ []
  isKeyChar_key : ∀ c ∈ key, isKeyChar c = true
  isFormChar_value : ∀ c ∈ value, isFormChar c = true

def FormPair.text (pair : FormPair) : Text :=
  pair.key ++ '=' :: pair.value

def joined (pairs : List FormPair) : Text :=
  List.intercalate ['&'] (pairs.map FormPair.text)

/-- What follows a pair. -/
def following : List FormPair → Text
  | [] => []
  | pair :: pairs => '&' :: joined (pair :: pairs)

theorem joined_cons (pair : FormPair) (pairs : List FormPair) :
    joined (pair :: pairs) = pair.text ++ following pairs := by
  cases pairs with
  | nil => simp [joined, following]
  | cons next pairs => simp [joined, following, List.intercalate]

/-! ## Characters -/

theorem isGap_of_isFormChar {c : Char} (form : isFormChar c = true) : isGap c = false := by
  cases gap : isGap c with
  | false => rfl
  | true =>
      have other := isKeyChar_of_isGap gap
      simp only [isFormChar, other, Bool.false_or, Bool.or_eq_true, decide_eq_true_eq,
        or_assoc] at form
      rcases form with rfl | rfl | rfl <;> cases gap

theorem endsValue_of_isFormChar {c : Char} (form : isFormChar c = true) :
    endsValue none c = false := by
  cases ends : endsValue none c with
  | false => rfl
  | true =>
      have other := isKeyChar_of_endsValue ends
      simp only [isFormChar, other, Bool.false_or, Bool.or_eq_true, decide_eq_true_eq,
        or_assoc] at form
      rcases form with rfl | rfl | rfl <;> cases ends

theorem isFormChar_of_isKeyChar {c : Char} (key : isKeyChar c = true) : isFormChar c = true := by
  simp [isFormChar, key]

theorem stopsAt_isGap {value : Text} (form : ∀ c ∈ value, isFormChar c = true) :
    StopsAt isGap value := by
  intro c first
  exact isGap_of_isFormChar (form c (List.mem_of_mem_head? first))

theorem unbroken_of_isFormChar {value : Text} (form : ∀ c ∈ value, isFormChar c = true) :
    Unbroken value :=
  fun c member => endsValue_of_isFormChar (form c member)

/-! ## The scan from pair to pair -/

/-- What the scan makes of the pairs that follow, if it goes on at the next one. -/
def redacted : List FormPair → Text
  | [] => []
  | pair :: pairs => '&' :: redactSecrets (joined (pair :: pairs))

/-- What it makes of them if the next pair is taken for the value of a secret. -/
def swallowed : List FormPair → Text
  | [] => []
  | _ :: pairs => '&' :: (kMask ++ redacted pairs)

theorem redactSecrets_masked {key gap value : Text} (secret : isSecretKey key = true)
    (separators : ∀ c ∈ gap, isGap c = true) (unbroken : Unbroken value) (nonempty : value ≠ [])
    (stopsGap : StopsAt isGap value) (stops : StopsAt isKeyChar (gap ++ value))
    (pairs : List FormPair) :
    redactSecrets (key ++ (gap ++ (value ++ following pairs))) =
      key ++ (gap ++ (kMask ++ redacted pairs)) := by
  have shown : mask value = kMask := if_neg nonempty
  cases pairs with
  | nil =>
      have stride := Stride.lastSecret secret separators unbroken stopsGap stops
      rw [following, List.append_nil, stride.redactSecrets_eq, shown]
      simp [redacted]
  | cons pair pairs =>
      have stride : Stride (key ++ (gap ++ (value ++ '&' :: joined (pair :: pairs))))
          (key ++ (gap ++ (mask value ++ ['&']))) (joined (pair :: pairs)) := by
        refine .secret secret separators unbroken rfl (stopsGap.append nonempty _) ?_
        rw [← List.append_assoc]
        exact stops.append (by simp [nonempty]) _
      rw [following, stride.redactSecrets_eq, shown]
      simp [redacted]

/-- A last word that is no secret is copied with the `&` behind it. -/
theorem redactSecrets_word {word : Text} (all : ∀ c ∈ word, isKeyChar c = true)
    (plain : isSecretKey word = false) (pairs : List FormPair) :
    redactSecrets (word ++ following pairs) = word ++ redacted pairs := by
  cases pairs with
  | nil =>
      rw [following, List.append_nil, (Stride.lastPlain all plain).redactSecrets_eq]
      rfl
  | cons pair pairs =>
      have stride : Stride (word ++ '&' :: joined (pair :: pairs)) (word ++ ['&'])
          (joined (pair :: pairs)) := .plain all plain rfl
      rw [following, stride.redactSecrets_eq]
      simp [redacted]

/-- A last word that is the name of a secret takes the next pair for its value. -/
theorem redactSecrets_swallow {word : Text} (secret : isSecretKey word = true)
    (pairs : List FormPair) :
    redactSecrets (word ++ following pairs) = word ++ swallowed pairs := by
  cases pairs with
  | nil =>
      have stride : Stride (word ++ ([] ++ [])) (word ++ ([] ++ mask [])) [] :=
        .lastSecret secret (by simp) (by simp [Unbroken]) stopsAt_nil stopsAt_nil
      simpa [following, swallowed, mask] using stride.redactSecrets_eq
  | cons pair pairs =>
      have keyForm : ∀ c ∈ pair.key, isFormChar c = true :=
        fun c member => isFormChar_of_isKeyChar (pair.isKeyChar_key c member)
      have gap : ∀ c ∈ ['&'], isGap c = true := List.all_eq_true.mp (by decide)
      have unbroken : Unbroken pair.text := by
        intro c member
        rcases List.mem_append.mp member with inKey | inRest
        · exact endsValue_of_isFormChar (keyForm c inKey)
        · rcases List.mem_cons.mp inRest with rfl | inValue
          · rfl
          · exact endsValue_of_isFormChar (pair.isFormChar_value c inValue)
      have stopsGap : StopsAt isGap pair.text :=
        (stopsAt_isGap keyForm).append pair.key_ne_nil _
      have step := redactSecrets_masked secret gap unbroken (by simp [FormPair.text]) stopsGap
        (stopsAt_cons.mpr rfl) pairs
      rw [following, joined_cons]
      exact step

/-- The words of a value decide whether the next pair is taken for a value. -/
theorem redactSecrets_value {value : Text} (form : ∀ c ∈ value, isFormChar c = true) :
    ∃ shown, (∀ pairs, redactSecrets (value ++ following pairs) = shown ++ redacted pairs) ∨
      ∀ pairs, redactSecrets (value ++ following pairs) = shown ++ swallowed pairs := by
  induction size : value.length using Nat.strong_induction_on generalizing value with
  | _ size induction =>
      obtain ⟨word, after, rfl, all, stops⟩ := exists_run isKeyChar value
      have formAfter : ∀ c ∈ after, isFormChar c = true :=
        fun c member => form c (List.mem_append_right word member)
      cases secret : isSecretKey word with
      | true =>
          by_cases last : after = []
          · subst last
            refine ⟨word, Or.inr fun pairs => ?_⟩
            rw [List.append_nil, redactSecrets_swallow secret]
          · -- What is left of the value is not empty and is masked.
            refine ⟨word ++ kMask, Or.inl fun pairs => ?_⟩
            have noGap : ∀ c ∈ ([] : Text), isGap c = true := by simp
            have step := redactSecrets_masked secret noGap (unbroken_of_isFormChar formAfter)
              last (stopsAt_isGap formAfter) stops pairs
            simpa using step
      | false =>
          cases after with
          | nil =>
              refine ⟨word, Or.inl fun pairs => ?_⟩
              rw [List.append_nil, redactSecrets_word all secret]
          | cons c rest =>
              rw [List.length_append, List.length_cons] at size
              have stride (pairs : List FormPair) :
                  Stride (word ++ c :: (rest ++ following pairs)) (word ++ [c])
                    (rest ++ following pairs) :=
                .plain all secret (stopsAt_cons.mp stops)
              have step (pairs : List FormPair) :
                  redactSecrets (word ++ c :: rest ++ following pairs) =
                    word ++ [c] ++ redactSecrets (rest ++ following pairs) := by
                rw [List.append_assoc, List.cons_append, (stride pairs).redactSecrets_eq]
              obtain ⟨shown, goesOn | swallows⟩ := induction rest.length (by omega)
                (fun d member => formAfter d (List.mem_cons_of_mem c member)) rfl
              · refine ⟨word ++ [c] ++ shown, Or.inl fun pairs => ?_⟩
                rw [step, goesOn, List.append_assoc _ shown]
              · refine ⟨word ++ [c] ++ shown, Or.inr fun pairs => ?_⟩
                rw [step, swallows, List.append_assoc _ shown]

theorem redactSecrets_secretPair {pair : FormPair} (secret : isSecretKey pair.key = true)
    (pairs : List FormPair) :
    redactSecrets (joined (pair :: pairs)) = pair.key ++ '=' :: (kMask ++ redacted pairs) := by
  have gap : ∀ c ∈ ['='], isGap c = true := List.all_eq_true.mp (by decide)
  have step := redactSecrets_masked secret gap (unbroken_of_isFormChar pair.isFormChar_value)
    pair.value_ne_nil (stopsAt_isGap pair.isFormChar_value) (stopsAt_cons.mpr rfl) pairs
  rw [joined_cons, FormPair.text, List.append_assoc]
  exact step

theorem redactSecrets_plainPair {pair : FormPair} (plain : isSecretKey pair.key = false)
    (pairs : List FormPair) :
    redactSecrets (joined (pair :: pairs)) =
      pair.key ++ '=' :: redactSecrets (pair.value ++ following pairs) := by
  have stride : Stride (pair.key ++ '=' :: (pair.value ++ following pairs)) (pair.key ++ ['='])
      (pair.value ++ following pairs) := .plain pair.isKeyChar_key plain rfl
  rw [joined_cons, FormPair.text, List.append_assoc, List.cons_append, stride.redactSecrets_eq,
    List.append_assoc]
  rfl

/-! ## Two runs -/

/-- Two pairs with the same key, and with the same value unless the key is the name of a
secret. -/
def FormPair.Alike (first second : FormPair) : Prop :=
  first.key = second.key ∧
    (first.key.map Char.toLower ∉ kSecretKeys → first.value = second.value)

theorem FormPair.Alike.redactSecrets_eq {first second : FormPair} (alike : first.Alike second)
    {pairs others : List FormPair} (same : redacted pairs = redacted others)
    (sameSwallowed : swallowed pairs = swallowed others) :
    redactSecrets (joined (first :: pairs)) = redactSecrets (joined (second :: others)) := by
  obtain ⟨sameKey, sameValue⟩ := alike
  cases secret : isSecretKey first.key with
  | true =>
      rw [redactSecrets_secretPair secret, redactSecrets_secretPair (sameKey ▸ secret), sameKey,
        same]
  | false =>
      have value := sameValue (by rw [← isSecretKey_iff, secret]; simp)
      rw [redactSecrets_plainPair secret, redactSecrets_plainPair (sameKey ▸ secret), sameKey,
        value]
      obtain ⟨shown, goesOn | swallows⟩ := redactSecrets_value second.isFormChar_value
      · rw [goesOn, goesOn, same]
      · rw [swallows, swallows, sameSwallowed]

theorem redacted_eq {first second : List FormPair}
    (alike : List.Forall₂ FormPair.Alike first second) :
    redacted first = redacted second ∧ swallowed first = swallowed second := by
  induction alike with
  | nil => exact ⟨rfl, rfl⟩
  | cons alike _ induction =>
      obtain ⟨same, sameSwallowed⟩ := induction
      constructor
      · rw [redacted, redacted, alike.redactSecrets_eq same sameSwallowed]
      · rw [swallowed, swallowed, same]

/-- Form-encoded secrets are hidden: two lists that differ only in the values of secret keys
are redacted to the same text. -/
theorem redactSecrets_hides_forms {first second : List FormPair}
    (alike : List.Forall₂ FormPair.Alike first second) :
    redactSecrets (joined first) = redactSecrets (joined second) := by
  cases alike with
  | nil => rfl
  | cons alike rest =>
      obtain ⟨same, sameSwallowed⟩ := redacted_eq rest
      exact alike.redactSecrets_eq same sameSwallowed

theorem exists_formPair {key value : Text} (nonempty : key ≠ [] ∧ value ≠ [])
    (letters : key.all isKeyChar = true) (form : value.all isFormChar = true) :
    ∃ pair : FormPair, pair.key = key ∧ pair.value = value :=
  ⟨⟨key, value, nonempty.1, nonempty.2, List.all_eq_true.mp letters, List.all_eq_true.mp form⟩,
    rfl, rfl⟩

/-- Two passwords of different length, after a value that swallows the pair behind it. -/
theorem redactSecrets_hides_password :
    ∃ first second : List FormPair,
      joined first = "note=a.token&page=2&Password=p1&x=y".toList ∧
        joined second = "note=a.token&page=2&Password=other%20one&x=y".toList ∧
        redactSecrets (joined first) = redactSecrets (joined second) := by
  obtain ⟨note, noteKey, noteValue⟩ : ∃ pair : FormPair,
      pair.key = "note".toList ∧ pair.value = "a.token".toList :=
    exists_formPair (by simp) (by decide) (by decide)
  obtain ⟨page, pageKey, pageValue⟩ : ∃ pair : FormPair,
      pair.key = "page".toList ∧ pair.value = "2".toList :=
    exists_formPair (by simp) (by decide) (by decide)
  obtain ⟨short, shortKey, shortValue⟩ : ∃ pair : FormPair,
      pair.key = "Password".toList ∧ pair.value = "p1".toList :=
    exists_formPair (by simp) (by decide) (by decide)
  obtain ⟨long, longKey, longValue⟩ : ∃ pair : FormPair,
      pair.key = "Password".toList ∧ pair.value = "other%20one".toList :=
    exists_formPair (by simp) (by decide) (by decide)
  obtain ⟨last, lastKey, lastValue⟩ : ∃ pair : FormPair,
      pair.key = "x".toList ∧ pair.value = "y".toList :=
    exists_formPair (by simp) (by decide) (by decide)
  have password : "Password".toList.map Char.toLower ∈ kSecretKeys := by decide +kernel
  have same (pair : FormPair) : pair.Alike pair := ⟨rfl, fun _ => rfl⟩
  have alike : short.Alike long := by
    refine ⟨by rw [shortKey, longKey], fun harmless => ?_⟩
    rw [shortKey] at harmless
    exact absurd password harmless
  refine ⟨[note, page, short, last], [note, page, long, last], ?_, ?_, ?_⟩
  · simp [joined, FormPair.text, noteKey, noteValue, pageKey, pageValue, shortKey, shortValue,
      lastKey, lastValue]
  · simp [joined, FormPair.text, noteKey, noteValue, pageKey, pageValue, longKey, longValue,
      lastKey, lastValue]
  · exact redactSecrets_hides_forms
      (.cons (same note) (.cons (same page) (.cons alike (.cons (same last) .nil))))

end Cppload.Core.Redact

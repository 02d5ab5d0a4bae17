import Cppload.TextScan

/-!
# Redaction of secrets

`redact_secrets` goes through a text word by word.  After a word that is the name of a
secret it passes over separators, quotes among them, and masks what follows up to the end
of the line or one of four other characters.  These can be part of a secret: the mask then
ends inside it, and the rest is copied like any other text.
-/

namespace Cppload.Core.Redact

def iequals (first second : Text) : Bool :=
  first.length = second.length &&
    (first.zip second).all fun pair => pair.1.toLower = pair.2.toLower

def kMask : Text :=
  "******".toList

def kSecretKeys : List Text :=
  ["authorization".toList, "x-api-key".toList, "x-vault-token".toList, "client_secret".toList,
    "client-id".toList, "client_id".toList, "access_token".toList, "id_token".toList,
    "refresh_token".toList, "token".toList, "vault_token".toList, "password".toList,
    "secret".toList, "private_key".toList]

def isSeparator (c : Char) : Bool :=
  c = ':' || c = '=' || c = ' ' || c = '\t' || c = '\r' || c = '\n' || c = '"' || c = '\'' ||
    c = '&' || c = ','

/-- The characters that `find_key_end` passes over. -/
def isKeyChar (c : Char) : Bool :=
  c.isAlphanum || c = '_' || c = '-'

def isSecretKey (word : Text) : Bool :=
  kSecretKeys.any fun key => iequals word key

/-- The separators that are passed over between a key and its value. -/
def isGap (c : Char) : Bool :=
  isSeparator c && c ≠ '\r' && c ≠ '\n'

def endsValue (quote : Option Char) (c : Char) : Bool :=
  match quote with
  | some quote => c = quote
  | none => c = '\r' || c = '\n' || c = '&' || c = '}' || c = ']' || c = ','

def quoteOf (c : Char) : Option Char :=
  if c = '"' || c = '\'' then some c else none

/-- What a round makes of the text from the value on.  The character that ends the value
is passed over by the `++pos` of the loop. -/
def maskValue (quote : Option Char) (text : Text) : Text × Text :=
  let value := text.takeWhile fun c => !endsValue quote c
  let left := text.dropWhile fun c => !endsValue quote c
  ((if value = [] then [] else kMask) ++ left.take 1, left.drop 1)

/-- A round of the loop over the text from `pos` on: what `out` has there afterwards up to
the next position, and what is left. -/
def round (text : Text) : Text × Text :=
  let key := text.takeWhile isKeyChar
  let after := text.dropWhile isKeyChar
  if key = [] then (text.take 1, text.drop 1)
  else if !isSecretKey key then (key ++ after.take 1, after.drop 1)
  else
    let gap := after.takeWhile isGap
    match after.dropWhile isGap with
    | [] => (key ++ gap, [])
    | c :: rest =>
        let quote := quoteOf c
        let masked := maskValue quote (if quote.isSome then rest else c :: rest)
        (key ++ gap ++ quote.toList ++ masked.1, masked.2)

/-- Every round goes past at least one character. -/
def redactLoop : ℕ → Text → Text
  | 0, _ => []
  | fuel + 1, text =>
      if text = [] then [] else (round text).1 ++ redactLoop fuel (round text).2

def redactSecrets (input : Text) : Text :=
  redactLoop (input.length + 1) input

example : redactSecrets "Host: a\r\nX-API-Key: abc\r\nBody: token".toList =
    "Host: a\r\nX-API-Key: ******\r\nBody: token".toList := by decide +kernel

/-! ## Rounds -/

theorem length_drop_take {text : Text} {count : ℕ} (nonempty : text ≠ []) (positive : 0 < count) :
    (text.drop count).length < text.length := by
  have : 0 < text.length := List.length_pos_of_ne_nil nonempty
  rw [List.length_drop]
  omega

theorem length_maskValue (quote : Option Char) (text : Text) :
    (maskValue quote text).2.length ≤ text.length := by
  have left := (List.dropWhile_suffix (l := text) fun c => !endsValue quote c).length_le
  simp only [maskValue, List.length_drop]
  omega

theorem length_round {text : Text} (nonempty : text ≠ []) :
    (round text).2.length < text.length := by
  have whole := congrArg List.length
    (List.takeWhile_append_dropWhile (p := isKeyChar) (l := text))
  rw [List.length_append] at whole
  simp only [round]
  split
  · exact length_drop_take nonempty Nat.one_pos
  · rename_i word
    have positive := List.length_pos_of_ne_nil word
    split
    · simp only [List.length_drop]
      omega
    · have rest := (List.dropWhile_suffix (l := text.dropWhile isKeyChar) isGap).length_le
      split
      · simpa using List.length_pos_of_ne_nil nonempty
      · rename_i c tail left
        rw [left, List.length_cons] at rest
        have masked := length_maskValue (quoteOf c)
          (if (quoteOf c).isSome then tail else c :: tail)
        have shown : (if (quoteOf c).isSome then tail else c :: tail).length ≤ tail.length + 1 := by
          split <;> simp
        simp only
        omega

theorem redactLoop_eq {fuel more : ℕ} {text : Text} (enough : text.length < fuel)
    (alsoEnough : text.length < more) : redactLoop fuel text = redactLoop more text := by
  induction fuel generalizing more text with
  | zero => omega
  | succ fuel induction =>
      obtain ⟨more, rfl⟩ := Nat.exists_eq_succ_of_ne_zero (by omega : more ≠ 0)
      by_cases empty : text = []
      · simp [redactLoop, empty]
      · have shorter := length_round empty
        rw [redactLoop, redactLoop, if_neg empty, if_neg empty]
        exact congrArg _ (induction (by omega) (by omega))

@[simp]
theorem redactSecrets_nil : redactSecrets [] = [] :=
  rfl

/-- The loop, round by round. -/
theorem redactSecrets_eq_round {text : Text} (nonempty : text ≠ []) :
    redactSecrets text = (round text).1 ++ redactSecrets (round text).2 := by
  have shorter := length_round nonempty
  rw [redactSecrets, redactLoop, if_neg nonempty, redactSecrets,
    redactLoop_eq shorter (Nat.lt_succ_self _)]

/-! ## Words -/

theorem isKeyChar_of_toLower {c : Char} (lower : isKeyChar c.toLower = true) :
    isKeyChar c = true := by
  by_cases upper : c.isUpper = true
  · simp [isKeyChar, Char.isAlphanum, Char.isAlpha, upper]
  · have same : c.toLower = c := by
      rw [Char.toLower, dif_neg]
      simpa [Char.isUpper] using upper
    rwa [same] at lower

theorem isKeyChar_toLower_of_mem {key : Text} (listed : key ∈ kSecretKeys) :
    ∀ c ∈ key, isKeyChar c.toLower = true := by
  have all : kSecretKeys.all (fun key => key.all fun c => isKeyChar c.toLower) = true := by
    decide +kernel
  exact List.all_eq_true.mp (List.all_eq_true.mp all key listed)

/-- The name of a secret is a word, in any letter case. -/
theorem isKeyChar_of_isSecretKey {key : Text} (secret : isSecretKey key = true) :
    key ≠ [] ∧ ∀ c ∈ key, isKeyChar c = true := by
  obtain ⟨listed, member, equal⟩ := List.any_eq_true.mp secret
  rw [iequals, Bool.and_eq_true, decide_eq_true_iff] at equal
  obtain ⟨length, lower⟩ := equal
  constructor
  · rintro rfl
    have unlisted : [] ∉ kSecretKeys := by decide +kernel
    rw [List.length_nil, eq_comm, List.length_eq_zero_iff] at length
    exact unlisted (length ▸ member)
  · intro c inside
    obtain ⟨index, bound, rfl⟩ := List.getElem_of_mem inside
    have other : index < listed.length := length ▸ bound
    have pair : (key[index], listed[index]) ∈ key.zip listed := by
      have within : index < (key.zip listed).length := by simp [bound, other]
      simpa using List.getElem_mem within
    have same := of_decide_eq_true (List.all_eq_true.mp lower _ pair)
    apply isKeyChar_of_toLower
    rw [same]
    exact isKeyChar_toLower_of_mem member _ (List.getElem_mem other)

theorem isKeyChar_of_isSeparator {c : Char} (separator : isSeparator c = true) :
    isKeyChar c = false := by
  simp only [isSeparator, Bool.or_eq_true, decide_eq_true_eq, or_assoc] at separator
  rcases separator with rfl | rfl | rfl | rfl | rfl | rfl | rfl | rfl | rfl | rfl <;> rfl

/-- A round that meets a word that is no secret copies it and the character after it.
Without a word it copies one character. -/
theorem round_plain {word tail : Text} {c : Char} (all : ∀ d ∈ word, isKeyChar d = true)
    (stops : isKeyChar c = false) (plain : isSecretKey word = false) :
    round (word ++ c :: tail) = (word ++ [c], tail) := by
  have stopsAt : Text.StopsAt isKeyChar (c :: tail) := Text.stopsAt_cons.mpr stops
  have key := Text.takeWhile_append_of_stopsAt all stopsAt
  have after := Text.dropWhile_append_of_stopsAt all stopsAt
  simp only [round, key, after]
  by_cases empty : word = []
  · simp [empty]
  · simp [empty, plain]

/-- Text without secrets that does not end in a word is copied. -/
theorem redactSecrets_append {before : Text} (rest : Text)
    (closed : ∀ c ∈ before.getLast?, isKeyChar c = false)
    (plain : ∀ word, word <:+: before → isSecretKey word = false) :
    redactSecrets (before ++ rest) = before ++ redactSecrets rest := by
  -- Each round uses up a word of `before` and the character after it.
  induction size : before.length using Nat.strong_induction_on generalizing before with
  | _ size induction =>
      obtain ⟨word, left, rfl, all, stopsAt⟩ := Text.exists_run isKeyChar before
      cases left with
      | nil =>
          rw [List.append_nil] at closed ⊢
          cases last : word.getLast? with
          | none => simp [List.getLast?_eq_none_iff.mp last]
          | some c =>
              have member := all c (List.mem_of_getLast? last)
              rw [closed c last] at member
              cases member
      | cons c tail =>
          have stops : isKeyChar c = false := Text.stopsAt_cons.mp stopsAt
          have lastTail : ∀ d ∈ tail.getLast?, isKeyChar d = false := by
            intro d last
            refine closed d ?_
            rw [List.getLast?_append, List.getLast?_cons]
            simp [Option.mem_def.mp last]
          have plainTail : ∀ other, other <:+: tail → isSecretKey other = false :=
            fun other inside => plain other
              (inside.trans (List.IsSuffix.isInfix ⟨word ++ [c], by simp⟩))
          have plainWord : isSecretKey word = false :=
            plain word (List.prefix_append word (c :: tail)).isInfix
          rw [List.append_assoc, List.cons_append, redactSecrets_eq_round (by simp),
            round_plain all stops plainWord,
            induction tail.length (by simp [← size]; omega) lastTail plainTail rfl]
          simp

/-! ## Values -/

/-- No character of the value ends it before its end. -/
def Unbroken (value : Text) : Prop :=
  ∀ c ∈ value, endsValue none c = false

theorem quoteOf_of_not_isGap {c : Char} (proper : isGap c = false) : quoteOf c = none := by
  unfold quoteOf
  split
  · rename_i quote
    simp only [Bool.or_eq_true, decide_eq_true_eq] at quote
    rcases quote with rfl | rfl
    · cases proper
    · cases proper
  · rfl

theorem isKeyChar_of_isGap {c : Char} (gap : isGap c = true) : isKeyChar c = false := by
  simp only [isGap, Bool.and_eq_true] at gap
  exact isKeyChar_of_isSeparator gap.1.1

/-- A round that meets a key, up to the value. -/
theorem round_key {key gap rest : Text} (secret : isSecretKey key = true)
    (separators : ∀ c ∈ gap, isGap c = true) (stops : Text.StopsAt isKeyChar (gap ++ rest))
    (stopsGap : Text.StopsAt isGap rest) :
    round (key ++ (gap ++ rest)) =
      (key ++ (gap ++ (maskValue none rest).1), (maskValue none rest).2) := by
  obtain ⟨nonempty, all⟩ := isKeyChar_of_isSecretKey secret
  simp only [round, Text.takeWhile_append_of_stopsAt all stops,
    Text.dropWhile_append_of_stopsAt all stops, nonempty, secret, if_false, Bool.not_true,
    Bool.false_eq_true, Text.takeWhile_append_of_stopsAt separators stopsGap,
    Text.dropWhile_append_of_stopsAt separators stopsGap]
  cases rest with
  | nil => simp [maskValue]
  | cons c rest => simp [quoteOf_of_not_isGap (Text.stopsAt_cons.mp stopsGap)]

theorem broken_split {value : Text} (broken : ¬ Unbroken value) :
    ∃ shown c leak, value = shown ++ c :: leak ∧ Unbroken shown ∧ endsValue none c = true := by
  induction value with
  | nil => exact absurd (by simp [Unbroken]) broken
  | cons c rest induction =>
      cases ends : endsValue none c with
      | true => exact ⟨[], c, rest, rfl, by simp [Unbroken], ends⟩
      | false =>
          have later : ¬ Unbroken rest := by simpa [Unbroken, ends] using broken
          obtain ⟨shown, d, leak, rfl, unbroken, breaks⟩ := induction later
          refine ⟨c :: shown, d, leak, rfl, ?_, breaks⟩
          simpa [Unbroken, ends] using unbroken

end Cppload.Core.Redact

import Cppload.RedactionScan

/-!
# What the log shows of a secret

A value behind a key is masked up to the first character that ends a value.  What follows
in the secret is treated as any other text: of it everything is shown but the values behind
further keys.  `Alike` says when the same is shown of two texts, by the texts alone.
-/

namespace Cppload.Core.Redact

open Text

/-! ## Texts of which the same is shown -/

/-- A value between a gap and what comes next. -/
structure Behind (gap value ending : Text) : Prop where
  unbroken : Unbroken value
  stopsGap : StopsAt isGap (value ++ ending)
  stopsKey : StopsAt isKeyChar (gap ++ (value ++ ending))

/-- The texts differ at most inside values behind keys, where none of the two values is
empty or both are. -/
inductive Alike : Text → Text → Prop where
  | plain {word tail other : Text} {c : Char} : (∀ d ∈ word, isKeyChar d = true) →
      isSecretKey word = false → isKeyChar c = false → Alike tail other →
      Alike (word ++ c :: tail) (word ++ c :: other)
  | lastPlain {word : Text} : (∀ d ∈ word, isKeyChar d = true) → isSecretKey word = false →
      Alike word word
  | secret {key gap value hidden tail other : Text} {c : Char} : isSecretKey key = true →
      (∀ d ∈ gap, isGap d = true) → Behind gap value [c] → Behind gap hidden [c] →
      (value = [] ↔ hidden = []) → endsValue none c = true → Alike tail other →
      Alike (key ++ (gap ++ (value ++ c :: tail))) (key ++ (gap ++ (hidden ++ c :: other)))
  | lastSecret {key gap value hidden : Text} : isSecretKey key = true →
      (∀ d ∈ gap, isGap d = true) → Behind gap value [] → Behind gap hidden [] →
      (value = [] ↔ hidden = []) → Alike (key ++ (gap ++ value)) (key ++ (gap ++ hidden))

theorem mask_eq_mask_iff {value hidden : Text} :
    mask value = mask hidden ↔ (value = [] ↔ hidden = []) := by
  have nonempty : kMask ≠ [] := by decide
  by_cases empty : value = [] <;> by_cases otherEmpty : hidden = [] <;>
    simp [mask, empty, otherEmpty, nonempty, nonempty.symm]

namespace Behind

variable {gap value ending : Text} {c : Char}

theorem stride {key : Text} (behind : Behind gap value [c]) (secret : isSecretKey key = true)
    (separators : ∀ d ∈ gap, isGap d = true) (ends : endsValue none c = true) (tail : Text) :
    Stride (key ++ (gap ++ (value ++ c :: tail))) (key ++ (gap ++ (mask value ++ [c]))) tail :=
  .secret secret separators behind.unbroken ends behind.stopsGap behind.stopsKey

theorem lastStride {key : Text} (behind : Behind gap value []) (secret : isSecretKey key = true)
    (separators : ∀ d ∈ gap, isGap d = true) :
    Stride (key ++ (gap ++ value)) (key ++ (gap ++ mask value)) [] :=
  .lastSecret secret separators behind.unbroken (by simpa using behind.stopsGap)
    (by simpa using behind.stopsKey)

theorem close (behind : Behind gap value []) (noGap : isGap c = false)
    (noKey : isKeyChar c = false) : Behind gap value [c] := by
  have stopsGap := behind.stopsGap.concat noGap
  have stopsKey := behind.stopsKey.concat noKey
  simp only [List.append_nil, List.append_assoc] at stopsGap stopsKey
  exact ⟨behind.unbroken, stopsGap, stopsKey⟩

/-- A value goes on up to the next character that ends one. -/
theorem append (behind : Behind gap value []) (nonempty : value ≠ []) {more : Text}
    (unbroken : Unbroken more) (ending : Text) : Behind gap (value ++ more) ending := by
  have stopsGap := behind.stopsGap.append (by simp [nonempty]) (more ++ ending)
  have stopsKey := behind.stopsKey.append (by simp [nonempty]) (more ++ ending)
  simp only [List.append_nil, List.append_assoc] at stopsGap stopsKey
  exact ⟨List.forall_mem_append.mpr ⟨behind.unbroken, unbroken⟩, by simpa using stopsGap,
    by simpa using stopsKey⟩

/-- Of a value at the end of a text only the mask shows, whatever follows. -/
theorem exists_shown {key : Text} (secret : isSecretKey key = true)
    (separators : ∀ d ∈ gap, isGap d = true) (after : Text) :
    ∃ shown, ∀ value, Behind gap value [] → value ≠ [] →
      redactSecrets (key ++ (gap ++ value) ++ after) = shown := by
  by_cases whole : Unbroken after
  · refine ⟨key ++ (gap ++ kMask), fun value behind nonempty => ?_⟩
    have stride := (behind.append nonempty whole []).lastStride secret separators
    simpa [mask, nonempty] using stride.redactSecrets_eq
  · obtain ⟨more, c, tail, rfl, unbroken, ends⟩ := broken_split whole
    refine ⟨key ++ (gap ++ (kMask ++ c :: redactSecrets tail)), fun value behind nonempty => ?_⟩
    have stride := (behind.append nonempty unbroken [c]).stride secret separators ends tail
    simpa [mask, nonempty] using stride.redactSecrets_eq

end Behind

/-- The same is shown of texts that are alike, whatever follows them. -/
theorem Alike.redactSecrets_append {text other : Text} (alike : Alike text other)
    (after : Text) : redactSecrets (text ++ after) = redactSecrets (other ++ after) := by
  induction alike with
  | @plain word tail other c all plain stops _ ih =>
      have stride (rest : Text) : Stride (word ++ c :: rest) (word ++ [c]) rest :=
        .plain all plain stops
      simp only [List.append_assoc, List.cons_append]
      rw [(stride _).redactSecrets_eq, (stride _).redactSecrets_eq, ih]
  | lastPlain => rfl
  | secret secret separators behind otherBehind empty ends _ ih =>
      simp only [List.append_assoc, List.cons_append]
      rw [(behind.stride secret separators ends _).redactSecrets_eq,
        (otherBehind.stride secret separators ends _).redactSecrets_eq, ih,
        mask_eq_mask_iff.mpr empty]
  | @lastSecret key gap value hidden secret separators behind otherBehind empty =>
      by_cases nothing : value = []
      · rw [nothing, empty.mp nothing]
      · have something : hidden ≠ [] := fun equal => nothing (empty.mpr equal)
        obtain ⟨shown, same⟩ := Behind.exists_shown secret separators after
        rw [same value behind nothing, same hidden otherBehind something]

/-! ### Strides that show the same -/

theorem word_ne_key {word key more rest : Text} (all : ∀ d ∈ word, isKeyChar d = true)
    (plain : isSecretKey word = false) (stops : StopsAt isKeyChar more)
    (secret : isSecretKey key = true) (stopsKey : StopsAt isKeyChar rest) :
    word ++ more ≠ key ++ rest := by
  intro same
  obtain ⟨rfl, -⟩ := stops.append_inj stopsKey all (isKeyChar_of_isSecretKey secret).2 same
  cases plain.symm.trans secret

/-- A key, the gap behind it and all that follows are determined. -/
theorem key_append_inj {key gap rest other otherGap more : Text} (secret : isSecretKey key = true)
    (separators : ∀ d ∈ gap, isGap d = true) (stopsKey : StopsAt isKeyChar (gap ++ rest))
    (stopsGap : StopsAt isGap rest) (otherSecret : isSecretKey other = true)
    (otherSeparators : ∀ d ∈ otherGap, isGap d = true)
    (otherStopsKey : StopsAt isKeyChar (otherGap ++ more)) (otherStopsGap : StopsAt isGap more)
    (same : key ++ (gap ++ rest) = other ++ (otherGap ++ more)) :
    key = other ∧ gap = otherGap ∧ rest = more := by
  obtain ⟨keyEq, gaps⟩ := stopsKey.append_inj otherStopsKey (isKeyChar_of_isSecretKey secret).2
    (isKeyChar_of_isSecretKey otherSecret).2 same
  exact ⟨keyEq, stopsGap.append_inj otherStopsGap separators otherSeparators gaps⟩

theorem not_mem_mask {c : Char} (ends : endsValue none c = true) (value : Text) :
    c ∉ mask value := by
  intro member
  have unbroken := unbroken_mask value c member
  rw [ends] at unbroken
  cases unbroken

/-- A stride ends with a character, or at the end of the text. -/
def Closes (test : Char → Prop) (ending rest : Text) : Prop :=
  (ending = [] ∧ rest = []) ∨ ∃ c, ending = [c] ∧ test c

theorem Stride.forms {text shown rest : Text} (stride : Stride text shown rest) :
    (∃ word ending, text = word ++ (ending ++ rest) ∧ shown = word ++ ending ∧
      (∀ d ∈ word, isKeyChar d = true) ∧ isSecretKey word = false ∧
      Closes (isKeyChar · = false) ending rest) ∨
    ∃ key gap value ending, text = key ++ (gap ++ (value ++ (ending ++ rest))) ∧
      shown = key ++ (gap ++ (mask value ++ ending)) ∧ isSecretKey key = true ∧
      (∀ d ∈ gap, isGap d = true) ∧ Behind gap value ending ∧
      Closes (endsValue none · = true) ending rest := by
  cases stride with
  | @plain word _ c all plain stops =>
      exact .inl ⟨word, [c], rfl, rfl, all, plain, .inr ⟨c, rfl, stops⟩⟩
  | lastPlain all plain =>
      exact .inl ⟨text, [], by simp, by simp, all, plain, .inl ⟨rfl, rfl⟩⟩
  | @secret key gap value _ c secret separators unbroken ends stopsGap stopsKey =>
      exact .inr ⟨key, gap, value, [c], rfl, rfl, secret, separators,
        ⟨unbroken, stopsGap, stopsKey⟩, .inr ⟨c, rfl, ends⟩⟩
  | @lastSecret key gap value secret separators unbroken stopsGap stopsKey =>
      exact .inr ⟨key, gap, value, [], by simp, by simp, secret, separators,
        ⟨unbroken, by simpa using stopsGap, by simpa using stopsKey⟩, .inl ⟨rfl, rfl⟩⟩

theorem Closes.stopsAt {ending rest : Text} (closes : Closes (isKeyChar · = false) ending rest) :
    StopsAt isKeyChar ending := by
  rcases closes with ⟨rfl, -⟩ | ⟨c, rfl, stops⟩
  · exact stopsAt_nil
  · exact stopsAt_cons.mpr stops

/-- The mask shows where it ends. -/
theorem mask_ending_inj {value hidden ending otherEnding rest otherRest : Text}
    (closes : Closes (endsValue none · = true) ending rest)
    (otherCloses : Closes (endsValue none · = true) otherEnding otherRest)
    (same : mask value ++ ending = mask hidden ++ otherEnding) :
    (value = [] ↔ hidden = []) ∧ ending = otherEnding := by
  rw [← mask_eq_mask_iff]
  rcases closes with ⟨rfl, -⟩ | ⟨c, rfl, ends⟩ <;>
    rcases otherCloses with ⟨rfl, -⟩ | ⟨d, rfl, otherEnds⟩
  · simpa using same
  · rw [List.append_nil] at same
    exact absurd (same ▸ List.mem_append_right _ (List.mem_singleton_self d))
      (not_mem_mask otherEnds value)
  · rw [List.append_nil] at same
    exact absurd (same ▸ List.mem_append_right _ (List.mem_singleton_self c))
      (not_mem_mask ends hidden)
  · exact List.append_inj' same rfl

/-- Strides that show the same are made over texts that are alike. -/
theorem Stride.alike {text other shown rest otherRest : Text} (stride : Stride text shown rest)
    (second : Stride other shown otherRest) (later : Alike rest otherRest) : Alike text other := by
  rcases stride.forms with ⟨word, ending, rfl, shownEq, all, plain, closes⟩ |
      ⟨key, gap, value, ending, rfl, shownEq, secret, separators, behind, closes⟩ <;>
    rcases second.forms with ⟨word', ending', rfl, same, all', plain', closes'⟩ |
      ⟨key', gap', value', ending', rfl, same, secret', separators', behind', closes'⟩ <;>
    rw [shownEq] at same
  · obtain ⟨rfl, rfl⟩ := closes.stopsAt.append_inj closes'.stopsAt all all' same
    rcases closes with ⟨rfl, rfl⟩ | ⟨c, rfl, stops⟩
    · rcases closes' with ⟨-, rfl⟩ | ⟨c, impossible, -⟩
      · simpa using Alike.lastPlain all plain
      · cases impossible
    · exact .plain all plain stops later
  · exact absurd same (word_ne_key all plain closes.stopsAt secret'
      (stopsAt_gap_mask behind'.stopsKey))
  · exact absurd same.symm (word_ne_key all' plain' closes'.stopsAt secret
      (stopsAt_gap_mask behind.stopsKey))
  · obtain ⟨rfl, rfl, values⟩ := key_append_inj secret separators
      (stopsAt_gap_mask behind.stopsKey) (stopsAt_mask rfl behind.stopsGap) secret' separators'
      (stopsAt_gap_mask behind'.stopsKey) (stopsAt_mask rfl behind'.stopsGap) same
    obtain ⟨empty, rfl⟩ := mask_ending_inj closes closes' values
    rcases closes with ⟨rfl, rfl⟩ | ⟨c, rfl, ends⟩
    · rcases closes' with ⟨-, rfl⟩ | ⟨c, impossible, -⟩
      · simpa using Alike.lastSecret secret separators behind behind' empty
      · cases impossible
    · exact .secret secret separators behind behind' empty ends later

theorem Stride.eq_nil {text shown rest : Text} (stride : Stride text shown rest)
    (empty : shown = []) : text = [] := by
  cases stride with
  | plain => simp at empty
  | lastPlain => exact empty
  | secret secret | lastSecret secret =>
      exact absurd (List.append_eq_nil_iff.mp empty).1 (isKeyChar_of_isSecretKey secret).1

/-- What is shown of a text determines it up to the values behind its keys. -/
theorem alike_of_redactSecrets_eq {text other : Text}
    (same : redactSecrets text = redactSecrets other) : Alike text other := by
  induction text using stride_induction generalizing other with
  | nil =>
      obtain ⟨shown, rest, stride⟩ := exists_stride other
      rw [stride.redactSecrets_eq, redactSecrets_nil] at same
      rw [stride.eq_nil (List.append_eq_nil_iff.mp same.symm).1]
      exact .lastPlain (by simp) isSecretKey_nil
  | step text shown rest stride ih =>
      obtain ⟨otherShown, otherRest, second⟩ := exists_stride other
      have rounds := second.of_redactSecrets.round_eq
      rw [← same, stride.of_redactSecrets.round_eq] at rounds
      obtain ⟨rfl, restEq⟩ := Prod.mk.inj rounds
      exact stride.alike second (ih restEq)

/-! ## The end of a line and the end of a field -/

/-- The end of a header line and the text after it. -/
def lineEnd (after : Text) : Text :=
  "\r\n".toList ++ after

def fieldEnd (after : Text) : Text :=
  "\"".toList ++ after

theorem redactSecrets_cons {c : Char} (stops : isKeyChar c = false) (rest : Text) :
    redactSecrets (c :: rest) = c :: redactSecrets rest := by
  have stride : Stride ([] ++ c :: rest) ([] ++ [c]) rest :=
    .plain (by simp) isSecretKey_nil stops
  exact stride.redactSecrets_eq

/-- A stride is the same whatever follows the text, unless it takes the text to its end. -/
theorem Stride.grows_or_ends {text shown rest : Text} (stride : Stride text shown rest) :
    (∀ more, redactSecrets (text ++ more) = shown ++ redactSecrets (rest ++ more)) ∨
      rest = [] ∧ ((shown = text ∧ (∀ d ∈ text, isKeyChar d = true) ∧ isSecretKey text = false) ∨
        ∃ key gap value, text = key ++ (gap ++ value) ∧ shown = key ++ (gap ++ mask value) ∧
          isSecretKey key = true ∧ (∀ d ∈ gap, isGap d = true) ∧ Behind gap value []) := by
  rcases stride.forms with ⟨word, ending, rfl, rfl, all, plain, closes⟩ |
    ⟨key, gap, value, ending, rfl, rfl, secret, separators, behind, closes⟩ <;>
    rcases closes with ⟨rfl, rfl⟩ | ⟨c, rfl, closes⟩
  · exact .inr ⟨rfl, .inl ⟨by simp, by simpa using all, by simpa using plain⟩⟩
  · left
    intro more
    have longer : Stride (word ++ c :: (rest ++ more)) (word ++ [c]) (rest ++ more) :=
      .plain all plain closes
    simpa using longer.redactSecrets_eq
  · exact .inr ⟨rfl, .inr ⟨key, gap, value, by simp, by simp, secret, separators, behind⟩⟩
  · left
    intro more
    simpa using (behind.stride secret separators closes (rest ++ more)).redactSecrets_eq

/-- No value goes on behind the end of a line. -/
theorem redactSecrets_append_return (text after : Text) :
    redactSecrets (text ++ '\r' :: after) = redactSecrets text ++ '\r' :: redactSecrets after := by
  induction text using stride_induction with
  | nil => exact redactSecrets_cons rfl after
  | step text shown rest stride ih =>
      rw [stride.redactSecrets_eq]
      rcases stride.grows_or_ends with grows | ⟨rfl, ⟨rfl, all, plain⟩ |
        ⟨key, gap, value, rfl, rfl, secret, separators, behind⟩⟩
      · rw [grows, ih, List.append_assoc]
      · simpa using (Stride.plain all plain (c := '\r') rfl).redactSecrets_eq
      · simpa using ((behind.close rfl rfl).stride secret separators rfl after).redactSecrets_eq

/-- The quote at the end of a field is shown, unless it is masked with a value. -/
theorem redactSecrets_append_quote (text : Text) :
    redactSecrets (text ++ ['"']) = redactSecrets text ++ ['"'] ∨
      redactSecrets (text ++ ['"']) = redactSecrets text := by
  induction text using stride_induction with
  | nil => exact .inl (redactSecrets_cons rfl [])
  | step text shown rest stride ih =>
      rw [stride.redactSecrets_eq]
      rcases stride.grows_or_ends with grows | ⟨rfl, ⟨rfl, all, plain⟩ |
        ⟨key, gap, value, rfl, rfl, secret, separators, behind⟩⟩
      · rw [grows, List.append_assoc]
        exact ih.imp (congrArg _) (congrArg _)
      · have ended : Stride (shown ++ ['"']) (shown ++ ['"']) [] := .plain all plain rfl
        exact .inl (by simp [ended.redactSecrets_eq])
      · by_cases empty : value = []
        · -- The quote belongs to the gap.
          subst empty
          have separated : ∀ d ∈ gap ++ ['"'], isGap d = true :=
            List.forall_mem_append.mpr ⟨separators, List.forall_mem_singleton.mpr rfl⟩
          have wider : Behind (gap ++ ['"']) [] [] :=
            ⟨behind.unbroken, stopsAt_nil, by
              simpa using behind.stopsKey.concat (c := '"') rfl⟩
          left
          simpa [mask] using (wider.lastStride secret separated).redactSecrets_eq
        · have longer : Behind gap (value ++ ['"']) [] :=
            behind.append empty (List.forall_mem_singleton.mpr rfl) []
          right
          simpa [mask, empty] using (longer.lastStride secret separators).redactSecrets_eq

theorem mem_redactSecrets {text : Text} {c : Char} (shows : c ∈ redactSecrets text) :
    c ∈ text ∨ c ∈ kMask := by
  induction text using stride_induction with
  | nil => cases shows
  | step text shown rest stride ih =>
      have masked (value : Text) : c ∈ mask value → c ∈ kMask := by
        unfold mask
        split <;> simp
      rw [stride.redactSecrets_eq, List.mem_append] at shows
      rcases stride.forms with ⟨word, ending, rfl, rfl, -⟩ | ⟨key, gap, value, ending, rfl, rfl, -⟩
      · simp only [List.mem_append] at shows ⊢
        tauto
      · specialize masked value
        simp only [List.mem_append] at shows ⊢
        tauto

theorem alike_of_quoted {leak other : Text} (unquoted : '"' ∉ leak) (otherUnquoted : '"' ∉ other)
    (same : redactSecrets (leak ++ ['"']) = redactSecrets (other ++ ['"'])) : Alike leak other := by
  apply alike_of_redactSecrets_eq
  have hidden {text : Text} (absent : '"' ∉ text) : '"' ∉ redactSecrets text := fun shows =>
    (mem_redactSecrets shows).elim absent (by decide)
  rcases redactSecrets_append_quote leak with first | first <;>
    rcases redactSecrets_append_quote other with second | second <;> rw [first, second] at same
  · exact List.append_left_inj _ |>.mp same
  · exact absurd (same ▸ List.mem_append_right _ (List.mem_singleton_self _)) (hidden otherUnquoted)
  · exact absurd (same ▸ List.mem_append_right _ (List.mem_singleton_self _)) (hidden unquoted)
  · exact same

/-! ## Values -/

/-- Both values are broken at the same character, and what follows it is alike. -/
def SameLeak (first second : Text) : Prop :=
  ∃ shown other leak otherLeak c,
    first = shown ++ c :: leak ∧ second = other ++ c :: otherLeak ∧
      Unbroken shown ∧ Unbroken other ∧ endsValue none c = true ∧ (shown = [] ↔ other = []) ∧
      Alike leak otherLeak

section Lines

variable {key gap first second : Text} (secret : isSecretKey key = true)
variable (separators : ∀ d ∈ gap, isGap d = true)
variable (stopsKey : ∀ rest, StopsAt isKeyChar (gap ++ rest))
variable (behind : StopsAt isGap first) (otherBehind : StopsAt isGap second)

include secret separators stopsKey behind otherBehind

theorem alike_of_values (nonempty : first ≠ []) (otherNonempty : second ≠ [])
    (hidden : (Unbroken first ∧ Unbroken second) ∨ SameLeak first second) :
    Alike (key ++ (gap ++ first)) (key ++ (gap ++ second)) := by
  rcases hidden with ⟨whole, otherWhole⟩ | ⟨shown, other, leak, otherLeak, c, rfl, rfl, unbroken,
    otherUnbroken, breaks, empty, alike⟩
  · exact .lastSecret secret separators ⟨whole, by simpa using behind, stopsKey _⟩
      ⟨otherWhole, by simpa using otherBehind, stopsKey _⟩ (by simp [nonempty, otherNonempty])
  · exact .secret secret separators ⟨unbroken, behind.of_append_cons, stopsKey _⟩
      ⟨otherUnbroken, otherBehind.of_append_cons, stopsKey _⟩ empty breaks alike

/-- What texts that are alike have behind the key they begin with. -/
theorem values_of_alike (alike : Alike (key ++ (gap ++ first)) (key ++ (gap ++ second))) :
    (Unbroken first ∧ Unbroken second) ∨ SameLeak first second := by
  generalize text : key ++ (gap ++ first) = line, otherText : key ++ (gap ++ second) = other
    at alike
  cases alike with
  | plain all plain closes _ =>
      exact absurd text.symm (word_ne_key all plain (stopsAt_cons.mpr closes) secret (stopsKey _))
  | lastPlain all plain =>
      rw [← List.append_nil line] at text
      exact absurd text.symm (word_ne_key all plain stopsAt_nil secret (stopsKey _))
  | @secret found foundGap value hidden tail rest c foundSecret foundSeparators shown otherShown
      empty ends later =>
      have stops (more : Text) := shown.stopsKey.append (by simp) more
      have otherStops (more : Text) := otherShown.stopsKey.append (by simp) more
      have stopsGap (more : Text) := shown.stopsGap.append (by simp) more
      have otherStopsGap (more : Text) := otherShown.stopsGap.append (by simp) more
      simp only [List.append_assoc, List.cons_append, List.nil_append] at stops otherStops
      simp only [List.append_assoc, List.cons_append, List.nil_append] at stopsGap otherStopsGap
      obtain ⟨rfl, rfl, rfl⟩ := key_append_inj secret separators (stopsKey _) behind foundSecret
        foundSeparators (stops tail) (stopsGap tail) text
      obtain ⟨-, -, rfl⟩ := key_append_inj secret separators (stopsKey _) otherBehind secret
        separators (otherStops rest) (otherStopsGap rest) otherText
      exact .inr ⟨value, hidden, tail, rest, c, rfl, rfl, shown.unbroken, otherShown.unbroken, ends,
        empty, later⟩
  | @lastSecret found foundGap value hidden foundSecret foundSeparators shown otherShown empty =>
      have stops := shown.stopsKey
      have otherStops := otherShown.stopsKey
      have stopsGap := shown.stopsGap
      have otherStopsGap := otherShown.stopsGap
      rw [List.append_nil] at stops otherStops stopsGap otherStopsGap
      obtain ⟨rfl, rfl, rfl⟩ := key_append_inj secret separators (stopsKey _) behind foundSecret
        foundSeparators stops stopsGap text
      obtain ⟨-, -, rfl⟩ := key_append_inj secret separators (stopsKey _) otherBehind secret
        separators otherStops otherStopsGap otherText
      exact .inl ⟨shown.unbroken, otherShown.unbroken⟩

end Lines

/-- The quote behind two values is no part of what leaks. -/
theorem SameLeak.of_quoted {first second : Text} (unquoted : '"' ∉ first)
    (otherUnquoted : '"' ∉ second) (same : SameLeak (first ++ ['"']) (second ++ ['"'])) :
    SameLeak first second := by
  have strip {value shown leak : Text} {c : Char} (split : value ++ ['"'] = shown ++ c :: leak)
      (ends : endsValue none c = true) :
      ∃ rest, leak = rest ++ ['"'] ∧ value = shown ++ c :: rest := by
    rcases List.eq_nil_or_concat leak with rfl | ⟨rest, d, rfl⟩
    · obtain ⟨-, last⟩ := List.append_inj' split rfl
      cases last
      cases ends
    · rw [List.concat_eq_append, ← List.cons_append, ← List.append_assoc] at split
      obtain ⟨rfl, last⟩ := List.append_inj' split rfl
      cases last
      exact ⟨rest, List.concat_eq_append, rfl⟩
  obtain ⟨shown, other, leak, otherLeak, c, firstEq, secondEq, unbroken, otherUnbroken, breaks,
    empty, alike⟩ := same
  obtain ⟨rest, rfl, rfl⟩ := strip firstEq breaks
  obtain ⟨otherRest, rfl, rfl⟩ := strip secondEq breaks
  refine ⟨shown, other, rest, otherRest, c, rfl, rfl, unbroken, otherUnbroken, breaks, empty, ?_⟩
  have shows := alike.redactSecrets_append []
  rw [List.append_nil, List.append_nil] at shows
  exact alike_of_quoted (by simp_all) (by simp_all) shows

/-! ## Header lines and JSON fields -/

/-- A text after which the name of a secret is found, and the name. -/
structure Context (before key : Text) : Prop where
  closed : ∀ c ∈ before.getLast?, isKeyChar c = false
  plain : ∀ word, word <:+: before → isSecretKey word = false
  secret : isSecretKey key = true

/-- The value is not empty and does not begin with a separator. -/
def Begins (value : Text) : Prop :=
  ∃ c rest, value = c :: rest ∧ isSeparator c = false

theorem Begins.ne_nil {value : Text} (begins : Begins value) : value ≠ [] := by
  obtain ⟨c, rest, rfl, _⟩ := begins
  simp

theorem Begins.stopsGap {value : Text} (begins : Begins value) (tail : Text) :
    StopsAt isGap (value ++ tail) := by
  obtain ⟨c, rest, rfl, proper⟩ := begins
  exact stopsAt_cons.mpr (by simp [isGap, proper])

def headerLine (before key value after : Text) : Text :=
  before ++ key ++ ": ".toList ++ value ++ lineEnd after

def jsonField (before key value after : Text) : Text :=
  before ++ "\"".toList ++ key ++ "\":\"".toList ++ value ++ fieldEnd after

theorem exists_context : Context [] "token".toList := by
  refine ⟨by simp, ?_, by decide +kernel⟩
  intro word inside
  rw [List.infix_nil.mp inside]
  decide +kernel

/-- When the log does not depend on a secret: two values give the same output in every
header line exactly if none of them is broken, or both are broken at the same character and
alike behind it; and so in every JSON field. -/
theorem redactSecrets_hides_iff {first second : Text} (begins : Begins first)
    (otherBegins : Begins second) :
    ((∀ c ∈ first ++ second, c ≠ '\r' ∧ c ≠ '\n') →
      ((∀ before key after, Context before key →
        redactSecrets (headerLine before key first after) =
          redactSecrets (headerLine before key second after)) ↔
        (Unbroken first ∧ Unbroken second) ∨ SameLeak first second)) ∧
    ((∀ c ∈ first ++ second, c ≠ '"' ∧ c ≠ '\\') →
      ((∀ before key after, Context before key →
        redactSecrets (jsonField before key first after) =
          redactSecrets (jsonField before key second after)) ↔
        (Unbroken first ∧ Unbroken second) ∨ SameLeak first second)) := by
  have colon : ∀ c ∈ ": ".toList, isGap c = true := List.all_eq_true.mp (by decide)
  have quotes : ∀ c ∈ "\":\"".toList, isGap c = true := List.all_eq_true.mp (by decide)
  have afterColon (rest : Text) : StopsAt isKeyChar (": ".toList ++ rest) := stopsAt_cons.mpr rfl
  have afterQuote (rest : Text) : StopsAt isKeyChar ("\":\"".toList ++ rest) :=
    stopsAt_cons.mpr rfl
  have opening (rest : Text) : redactSecrets ("\"".toList ++ rest) =
    "\"".toList ++ redactSecrets rest := redactSecrets_cons rfl rest
  constructor
  · intro _
    constructor
    · intro same
      have line (value : Text) : headerLine [] "token".toList value [] =
          "token".toList ++ (": ".toList ++ value) ++ '\r' :: ['\n'] := by
        simp [headerLine, lineEnd]
      have shows := same [] "token".toList [] exists_context
      rw [line, line, redactSecrets_append_return, redactSecrets_append_return,
        List.append_left_inj] at shows
      exact values_of_alike exists_context.secret colon afterColon
        (by simpa using begins.stopsGap [])
        (by simpa using otherBegins.stopsGap []) (alike_of_redactSecrets_eq shows)
    · intro hidden before key after context
      have alike := alike_of_values context.secret colon afterColon
        (by simpa using begins.stopsGap []) (by simpa using otherBegins.stopsGap [])
        begins.ne_nil otherBegins.ne_nil hidden
      simp only [headerLine, List.append_assoc]
      rw [redactSecrets_append _ context.closed context.plain,
        redactSecrets_append _ context.closed context.plain]
      simpa using alike.redactSecrets_append (lineEnd after)
  · intro unquoted
    constructor
    · intro same
      have field (value : Text) : jsonField [] "token".toList value [] =
          "\"".toList ++ ("token".toList ++ ("\":\"".toList ++ (value ++ ['"']))) := by
        simp [jsonField, fieldEnd]
      have shows := same [] "token".toList [] exists_context
      rw [field, field, opening, opening, List.append_right_inj] at shows
      rcases values_of_alike exists_context.secret quotes afterQuote (begins.stopsGap _)
        (otherBegins.stopsGap _) (alike_of_redactSecrets_eq shows) with whole | leaks
      · exact .inl (whole.imp (fun unbroken c member => unbroken c (List.mem_append_left _ member))
          (fun unbroken c member => unbroken c (List.mem_append_left _ member)))
      · refine .inr (leaks.of_quoted (fun member => ?_) (fun member => ?_))
        · exact (unquoted '"' (List.mem_append_left _ member)).1 rfl
        · exact (unquoted '"' (List.mem_append_right _ member)).1 rfl
    · intro hidden before key after context
      have alike := alike_of_values context.secret quotes afterQuote
        (by simpa using begins.stopsGap []) (by simpa using otherBegins.stopsGap [])
        begins.ne_nil otherBegins.ne_nil hidden
      simp only [jsonField, List.append_assoc]
      rw [redactSecrets_append _ context.closed context.plain,
        redactSecrets_append _ context.closed context.plain, opening, opening]
      simpa using alike.redactSecrets_append (fieldEnd after)

/-- Two passwords without a character that ends a value. -/
theorem redactSecrets_hides_words :
    redactSecrets (headerLine [] "password".toList "hunter2".toList "Host: h".toList) =
      redactSecrets (headerLine [] "password".toList "s3cr#t pass".toList "Host: h".toList) := by
  have context : Context [] "password".toList := by
    refine ⟨by simp, fun word within => ?_, by decide⟩
    rw [List.infix_nil.mp within]
    decide
  have begins : Begins "hunter2".toList := ⟨'h', "unter2".toList, rfl, by decide⟩
  have otherBegins : Begins "s3cr#t pass".toList := ⟨'s', "3cr#t pass".toList, rfl, by decide⟩
  have oneLine : ("hunter2".toList ++ "s3cr#t pass".toList).all
      (fun c => c ≠ '\r' ∧ c ≠ '\n') = true := by decide
  have first : "hunter2".toList.all (fun c => endsValue none c = false) = true := by decide
  have second : "s3cr#t pass".toList.all (fun c => endsValue none c = false) = true := by decide
  refine ((redactSecrets_hides_iff begins otherBegins).1 ?_).mpr (Or.inl ⟨?_, ?_⟩) _ _ _ context
  · exact fun c member => of_decide_eq_true (List.all_eq_true.mp oneLine c member)
  · exact fun c member => of_decide_eq_true (List.all_eq_true.mp first c member)
  · exact fun c member => of_decide_eq_true (List.all_eq_true.mp second c member)

/-- Two passwords with an `&`, in a header line and in a JSON field: what follows it is in
the log. -/
theorem redactSecrets_shows_rest :
    redactSecrets (headerLine [] "password".toList "a&one".toList []) =
        "password: ******&one\r\n".toList ∧
      redactSecrets (headerLine [] "password".toList "a&two".toList []) =
        "password: ******&two\r\n".toList ∧
      redactSecrets (jsonField "\x7b".toList "password".toList "a&one".toList "\x7d".toList) ≠
        redactSecrets (jsonField "\x7b".toList "password".toList "a&two".toList
          "\x7d".toList) := by
  decide +kernel

end Cppload.Core.Redact

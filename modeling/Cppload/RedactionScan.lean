import Cppload.Redaction

/-!
# The scan of the redaction

The loop of `redact_secrets` edits the text it goes through and moves its index in four
places.  `Scan` is that loop, with the text and the index; what is before the index is not
looked at again, so that it does what `redactSecrets` does round by round.  `Stride` lists
what a round can be.  A second scan makes the same strides over what the first one has left.
-/

namespace Cppload.Core.Redact

open Text

/-! ## Strides -/

/-- What is left of a value. -/
def mask (value : Text) : Text :=
  if value = [] then [] else kMask

/-- A round goes past a word and the character behind it, or past a key, the gap behind
it, a value and the character that ends the value.  At the end of the text there is no
such character. -/
inductive Stride : Text → Text → Text → Prop where
  | plain {word tail : Text} {c : Char} : (∀ d ∈ word, isKeyChar d = true) →
      isSecretKey word = false → isKeyChar c = false →
      Stride (word ++ c :: tail) (word ++ [c]) tail
  | lastPlain {word : Text} : (∀ d ∈ word, isKeyChar d = true) → isSecretKey word = false →
      Stride word word []
  | secret {key gap value tail : Text} {c : Char} : isSecretKey key = true →
      (∀ d ∈ gap, isGap d = true) → Unbroken value → endsValue none c = true →
      StopsAt isGap (value ++ [c]) → StopsAt isKeyChar (gap ++ (value ++ [c])) →
      Stride (key ++ (gap ++ (value ++ c :: tail))) (key ++ (gap ++ (mask value ++ [c]))) tail
  | lastSecret {key gap value : Text} : isSecretKey key = true →
      (∀ d ∈ gap, isGap d = true) → Unbroken value → StopsAt isGap value →
      StopsAt isKeyChar (gap ++ value) →
      Stride (key ++ (gap ++ value)) (key ++ (gap ++ mask value)) []

theorem isSecretKey_nil : isSecretKey [] = false := by
  decide +kernel

theorem isKeyChar_of_endsValue {c : Char} (ends : endsValue none c = true) :
    isKeyChar c = false := by
  simp only [endsValue, Bool.or_eq_true, decide_eq_true_eq, or_assoc] at ends
  rcases ends with rfl | rfl | rfl | rfl | rfl | rfl <;> rfl

theorem not_endsValue_of_unbroken {value : Text} (unbroken : Unbroken value) :
    ∀ c ∈ value, (!endsValue none c) = true := by
  intro c member
  rw [unbroken c member]
  rfl

theorem maskValue_ended {value tail : Text} {c : Char} (unbroken : Unbroken value)
    (ends : endsValue none c = true) :
    maskValue none (value ++ c :: tail) = (mask value ++ [c], tail) := by
  have stops : StopsAt (fun d => !endsValue none d) (c :: tail) :=
    stopsAt_cons.mpr (by simp [ends])
  have all := not_endsValue_of_unbroken unbroken
  simp only [maskValue, takeWhile_append_of_stopsAt all stops,
    dropWhile_append_of_stopsAt all stops]
  rfl

theorem maskValue_last {value : Text} (unbroken : Unbroken value) :
    maskValue none value = (mask value, []) := by
  have all := not_endsValue_of_unbroken unbroken
  simp only [maskValue, List.takeWhile_eq_self_iff.mpr all, List.dropWhile_eq_nil_iff.mpr all]
  simp [mask]

/-- A stride is what the round makes. -/
theorem Stride.round_eq {text shown rest : Text} (stride : Stride text shown rest) :
    round text = (shown, rest) := by
  cases stride with
  | plain all plain stops => exact round_plain all stops plain
  | lastPlain all plain =>
      have whole := List.takeWhile_eq_self_iff.mpr all
      have nothing := List.dropWhile_eq_nil_iff.mpr all
      by_cases empty : text = []
      · simp [round, empty]
      · simp [round, whole, nothing, plain, empty]
  | @secret key gap value _ c secret separators unbroken ends stopsGap stops =>
      have stopsKey : StopsAt isKeyChar (gap ++ (value ++ c :: rest)) := by
        simpa using stops.append (by simp) rest
      have stopsValue : StopsAt isGap (value ++ c :: rest) := by
        simpa using stopsGap.append (by simp) rest
      rw [round_key secret separators stopsKey stopsValue, maskValue_ended unbroken ends]
  | lastSecret secret separators unbroken stopsGap stops =>
      rw [round_key secret separators stops stopsGap, maskValue_last unbroken]

/-- Every text can be gone through in strides. -/
theorem exists_stride (text : Text) : ∃ shown rest, Stride text shown rest := by
  obtain ⟨word, after, rfl, all, stops⟩ := exists_run isKeyChar text
  cases secret : isSecretKey word with
  | false =>
      cases after with
      | nil => exact ⟨_, _, by simpa using Stride.lastPlain all secret⟩
      | cons c tail => exact ⟨_, _, .plain all secret (stopsAt_cons.mp stops)⟩
  | true =>
      obtain ⟨gap, left, rfl, separators, stopsGap⟩ := exists_run isGap after
      by_cases unbroken : Unbroken left
      · exact ⟨_, _, .lastSecret secret separators unbroken stopsGap stops⟩
      · obtain ⟨value, c, tail, rfl, unbroken, ends⟩ := broken_split unbroken
        rw [← List.append_assoc] at stops
        have stopsKey : StopsAt isKeyChar (gap ++ (value ++ [c])) := by
          simpa using stops.of_append_cons
        exact ⟨_, _, .secret secret separators unbroken ends stopsGap.of_append_cons stopsKey⟩

theorem Stride.redactSecrets_eq {text shown rest : Text} (stride : Stride text shown rest) :
    redactSecrets text = shown ++ redactSecrets rest := by
  by_cases empty : text = []
  · subst empty
    have nothing := stride.round_eq
    cases nothing
    rfl
  · rw [redactSecrets_eq_round empty, stride.round_eq]

/-! ## The second scan -/

theorem mask_mask (value : Text) : mask (mask value) = mask value := by
  by_cases empty : value = []
  · rw [empty]
    rfl
  · have shown : mask value = kMask := if_neg empty
    have nonempty : kMask ≠ [] := by decide
    rw [shown]
    exact if_neg nonempty

theorem unbroken_mask (value : Text) : Unbroken (mask value) := by
  unfold mask
  split
  · simp [Unbroken]
  · have all : kMask.all (fun c => endsValue none c = false) = true := by decide
    exact fun c member => of_decide_eq_true (List.all_eq_true.mp all c member)

/-- Where a scan stops before a value it stops before the mask. -/
theorem stopsAt_mask {test : Char → Bool} {value rest : Text} (star : test '*' = false)
    (stops : StopsAt test (value ++ rest)) : StopsAt test (mask value ++ rest) := by
  unfold mask
  split
  · rename_i empty
    rwa [empty] at stops
  · exact stopsAt_cons.mpr star

theorem stopsAt_gap_mask {gap value rest : Text}
    (stops : StopsAt isKeyChar (gap ++ (value ++ rest))) :
    StopsAt isKeyChar (gap ++ (mask value ++ rest)) := by
  cases gap with
  | nil => exact stopsAt_mask rfl stops
  | cons c gap => exact stopsAt_cons.mpr (stopsAt_cons.mp stops)

/-- What a stride has left is gone through in the same stride, whatever follows it. -/
theorem Stride.again {text shown rest : Text} (stride : Stride text shown rest) {other : Text}
    (ends : rest = [] → other = []) : Stride (shown ++ other) shown other := by
  cases stride with
  | @plain word _ c all plain stops =>
      have again : Stride (word ++ c :: other) (word ++ [c]) other := .plain all plain stops
      simpa using again
  | lastPlain all plain =>
      rw [ends rfl, List.append_nil]
      exact .lastPlain all plain
  | @secret key gap value _ c secret separators unbroken closes stopsGap stops =>
      have again : Stride (key ++ (gap ++ (mask value ++ c :: other)))
          (key ++ (gap ++ (mask (mask value) ++ [c]))) other :=
        .secret secret separators (unbroken_mask value) closes (stopsAt_mask rfl stopsGap)
          (stopsAt_gap_mask stops)
      rw [mask_mask] at again
      simpa using again
  | @lastSecret key gap value secret separators unbroken stopsGap stops =>
      rw [← List.append_nil value] at stopsGap stops
      have maskGap : StopsAt isGap (mask value) := by
        simpa using stopsAt_mask rfl stopsGap
      have maskKey : StopsAt isKeyChar (gap ++ mask value) := by
        simpa using stopsAt_gap_mask stops
      have again := Stride.lastSecret secret separators (unbroken_mask value) maskGap maskKey
      rw [mask_mask] at again
      rw [ends rfl, List.append_nil]
      exact again

theorem Stride.length_lt {text shown rest : Text} (stride : Stride text shown rest)
    (nonempty : text ≠ []) : rest.length < text.length := by
  have shorter := length_round nonempty
  rwa [stride.round_eq] at shorter

/-- What holds of a text if it holds of what a stride leaves holds of every text. -/
theorem stride_induction {motive : Text → Prop} (nil : motive [])
    (step : ∀ text shown rest, Stride text shown rest → motive rest → motive text) (text : Text) :
    motive text := by
  induction size : text.length using Nat.strong_induction_on generalizing text with
  | _ size induction =>
      by_cases empty : text = []
      · rw [empty]
        exact nil
      · obtain ⟨shown, rest, stride⟩ := exists_stride text
        exact step text shown rest stride
          (induction rest.length (size ▸ stride.length_lt empty) rest rfl)

/-- The text that is shown is gone through in the strides of the text. -/
theorem Stride.of_redactSecrets {text shown rest : Text} (stride : Stride text shown rest) :
    Stride (redactSecrets text) shown (redactSecrets rest) := by
  rw [stride.redactSecrets_eq]
  refine stride.again ?_
  rintro rfl
  exact redactSecrets_nil

theorem redactSecrets_redactSecrets (text : Text) :
    redactSecrets (redactSecrets text) = redactSecrets text := by
  induction text using stride_induction with
  | nil => rfl
  | step text shown rest stride later =>
      rw [stride.of_redactSecrets.redactSecrets_eq, later, ← stride.redactSecrets_eq]

/-! ## Text without secrets -/

/-- A run of key characters that cannot be made longer at either end. -/
def MaximalRun (text word : Text) : Prop :=
  ∃ before after, text = before ++ (word ++ after) ∧ (∀ c ∈ word, isKeyChar c = true) ∧
    (∀ c ∈ before.getLast?, isKeyChar c = false) ∧ StopsAt isKeyChar after

theorem MaximalRun.append {word tail run : Text} {c : Char} (maximal : MaximalRun tail run)
    (stops : isKeyChar c = false) : MaximalRun (word ++ c :: tail) run := by
  obtain ⟨before, after, rfl, all, opens, closes⟩ := maximal
  refine ⟨word ++ c :: before, after, by simp, all, ?_, closes⟩
  intro d last
  rw [List.getLast?_append, List.getLast?_cons] at last
  cases final : before.getLast? with
  | none =>
      rw [final] at last
      cases last
      exact stops
  | some e =>
      rw [final] at last
      cases last
      exact opens e final

theorem iequals_iff {first second : Text} :
    iequals first second = true ↔ first.map Char.toLower = second.map Char.toLower := by
  induction first generalizing second with
  | nil => cases second <;> simp [iequals]
  | cons c first induction =>
      cases second with
      | nil => simp [iequals]
      | cons d second =>
          have tails := @induction second
          simp only [iequals, Bool.and_eq_true, decide_eq_true_eq] at tails ⊢
          simp only [List.length_cons, List.zip_cons_cons, List.all_cons, List.map_cons,
            List.cons.injEq, Nat.add_right_cancel_iff, Bool.and_eq_true, decide_eq_true_eq, ← tails]
          tauto

/-- The listed keys are in lower case. -/
theorem isSecretKey_iff {word : Text} :
    isSecretKey word = true ↔ word.map Char.toLower ∈ kSecretKeys := by
  have lower : kSecretKeys.all (fun key => key.map Char.toLower = key) = true := by
    decide +kernel
  simp only [isSecretKey, List.any_eq_true, iequals_iff]
  constructor
  · rintro ⟨key, listed, same⟩
    rw [same, of_decide_eq_true (List.all_eq_true.mp lower key listed)]
    exact listed
  · intro listed
    exact ⟨_, listed, (of_decide_eq_true (List.all_eq_true.mp lower _ listed)).symm⟩

theorem Stride.plain_of_maximalRun {text shown rest : Text} (stride : Stride text shown rest)
    (free : ∀ word, MaximalRun text word → isSecretKey word = false) :
    text = shown ++ rest ∧ ∀ word, MaximalRun rest word → isSecretKey word = false := by
  cases stride with
  | plain all plain stops =>
      exact ⟨by simp, fun word maximal => free word (maximal.append stops)⟩
  | lastPlain all plain =>
      refine ⟨by simp, ?_⟩
      rintro word ⟨before, after, nothing, -, -, -⟩
      simp only [List.nil_eq, List.append_eq_nil_iff] at nothing
      rw [nothing.2.1]
      exact isSecretKey_nil
  | @secret key gap value _ c secret separators unbroken closes stopsGap stops =>
      have run : MaximalRun (key ++ (gap ++ (value ++ c :: rest))) key := by
        refine ⟨[], _, rfl, (isKeyChar_of_isSecretKey secret).2, by simp, ?_⟩
        simpa using stops.append (by simp) rest
      rw [free key run] at secret
      cases secret
  | @lastSecret key gap value secret separators unbroken stopsGap stops =>
      have run : MaximalRun (key ++ (gap ++ value)) key :=
        ⟨[], _, rfl, (isKeyChar_of_isSecretKey secret).2, by simp, stops⟩
      rw [free key run] at secret
      cases secret

theorem redactSecrets_eq_self {text : Text}
    (free : ∀ word, MaximalRun text word → isSecretKey word = false) :
    redactSecrets text = text := by
  induction text using stride_induction with
  | nil => rfl
  | step text shown rest stride later =>
      obtain ⟨whole, freeRest⟩ := stride.plain_of_maximalRun free
      rw [stride.redactSecrets_eq, later freeRest, ← whole]

/-! ## The loop over the index -/

/-- `while (i < out.size() && test(out[i])) ++i` -/
def advance (test : Char → Bool) (out : Text) (i : ℕ) : ℕ :=
  if bound : i < out.length then
    if test out[i] then advance test out (i + 1) else i
  else i
termination_by out.length - i

structure Scan where
  out : Text
  pos : ℕ

/-- A round of the loop with the `++pos` of its header, `none` for the `break`. -/
def Scan.iterate (scan : Scan) : Option Scan :=
  let keyStart := scan.pos
  let keyEnd := advance isKeyChar scan.out scan.pos
  if keyEnd = keyStart then some ⟨scan.out, scan.pos + 1⟩
  else if !isSecretKey ((scan.out.drop keyStart).take (keyEnd - keyStart)) then
    some ⟨scan.out, keyEnd + 1⟩
  else
    let p := advance isGap scan.out keyEnd
    match scan.out[p]? with
    | none => none
    | some c =>
        let quote := quoteOf c
        let valueStart := if quote.isSome then p + 1 else p
        let valueEnd := advance (fun c => !endsValue quote c) scan.out valueStart
        if valueStart < valueEnd then
          some ⟨scan.out.take valueStart ++ kMask ++ scan.out.drop valueEnd,
            valueStart + kMask.length + 1⟩
        else some ⟨scan.out, valueEnd + 1⟩

/-- The loop; `none` if it has not ended after so many rounds. -/
def Scan.run : ℕ → Scan → Option Text
  | 0, _ => none
  | fuel + 1, scan =>
      if scan.pos < scan.out.length then
        match scan.iterate with
        | none => some scan.out
        | some next => next.run fuel
      else some scan.out

theorem advance_eq (test : Char → Bool) (out : Text) (i : ℕ) :
    advance test out i = i + ((out.drop i).takeWhile test).length := by
  fun_induction advance test out i with
  | case1 i bound met induction =>
      rw [induction, List.drop_eq_getElem_cons bound, List.takeWhile_cons_of_pos met,
        List.length_cons]
      omega
  | case2 i bound unmet =>
      rw [List.drop_eq_getElem_cons bound, List.takeWhile_cons_of_neg unmet]
      rfl
  | case3 i beyond =>
      rw [List.drop_eq_nil_of_le (by omega)]
      rfl

theorem advance_append {test : Char → Bool} {run rest : Text} (before : Text)
    (all : ∀ c ∈ run, test c = true) (stops : StopsAt test rest) :
    advance test (before ++ (run ++ rest)) before.length = (before ++ run).length := by
  rw [advance_eq, List.drop_left, takeWhile_append_of_stopsAt all stops, List.length_append]

/-- What is done, and what the loop has still to look at.  The index can be one past the
end of the text. -/
def Scan.At (scan : Scan) (before text : Text) : Prop :=
  scan.out.take scan.pos = before ∧ scan.out.drop scan.pos = text

theorem at_next (before tail : Text) (c : Char) :
    Scan.At ⟨before ++ c :: tail, before.length + 1⟩ (before ++ [c]) tail := by
  have length : (before ++ [c]).length = before.length + 1 := by simp
  rw [List.append_cons, ← length]
  exact ⟨List.take_left, List.drop_left⟩

theorem at_end (before : Text) : Scan.At ⟨before, before.length + 1⟩ before [] :=
  ⟨List.take_of_length_le (by simp), List.drop_eq_nil_of_le (by simp)⟩

theorem iterate_plain {word rest : Text} (before : Text) (all : ∀ c ∈ word, isKeyChar c = true)
    (plain : isSecretKey word = false) (stops : StopsAt isKeyChar rest) :
    Scan.iterate ⟨before ++ (word ++ rest), before.length⟩ =
      some ⟨before ++ (word ++ rest), (before ++ word).length + 1⟩ := by
  simp only [Scan.iterate, advance_append before all stops]
  by_cases empty : word = []
  · simp [empty]
  · have longer : (before ++ word).length ≠ before.length := by simp [empty]
    rw [if_neg longer]
    simp [plain]

/-- The character after the gap is no quote: quotes belong to the gap. -/
theorem iterate_key {key gap value rest : Text} (before : Text) (secret : isSecretKey key = true)
    (separators : ∀ c ∈ gap, isGap c = true) (unbroken : Unbroken value)
    (closes : StopsAt (fun c => !endsValue none c) rest)
    (stopsGap : StopsAt isGap (value ++ rest))
    (stops : StopsAt isKeyChar (gap ++ (value ++ rest))) :
    Scan.iterate ⟨before ++ (key ++ (gap ++ (value ++ rest))), before.length⟩ =
      if value ++ rest = [] then none
      else some ⟨before ++ (key ++ (gap ++ (mask value ++ rest))),
        (before ++ (key ++ (gap ++ mask value))).length + 1⟩ := by
  obtain ⟨nonempty, all⟩ := isKeyChar_of_isSecretKey secret
  have longer : (before ++ key).length ≠ before.length := by simp [nonempty]
  have keyEnd := advance_append before all stops
  have gapEnd := advance_append (before ++ key) separators stopsGap
  have valueEnd := advance_append (before ++ (key ++ gap)) (not_endsValue_of_unbroken unbroken)
    closes
  have shown : ((before ++ (key ++ (gap ++ (value ++ rest)))).drop before.length).take
      ((before ++ key).length - before.length) = key := by
    simp
  have whole : before ++ (key ++ (gap ++ (value ++ rest))) =
      before ++ (key ++ gap) ++ (value ++ rest) := by simp
  have next : (before ++ (key ++ (gap ++ (value ++ rest))))[(before ++ (key ++ gap)).length]? =
      (value ++ rest).head? := by
    rw [whole, List.getElem?_append_right le_rfl, Nat.sub_self, List.head?_eq_getElem?]
  simp only [List.append_assoc] at gapEnd valueEnd
  simp only [Scan.iterate, keyEnd, shown, secret, gapEnd, next, if_neg longer, Bool.not_true,
    Bool.false_eq_true, if_false]
  by_cases last : value ++ rest = []
  · simp [last]
  · obtain ⟨c, after, left⟩ := List.exists_cons_of_ne_nil last
    have head : (value ++ rest).head? = some c := by rw [left, List.head?_cons]
    rw [left, stopsAt_cons] at stopsGap
    simp only [head, quoteOf_of_not_isGap stopsGap, Option.isSome_none, Bool.false_eq_true,
      if_false, valueEnd, if_neg last]
    by_cases empty : value = []
    · simp [empty, mask]
    · have positive := List.length_pos_of_ne_nil empty
      have longerValue : (before ++ (key ++ gap)).length <
          (before ++ (key ++ (gap ++ value))).length := by
        simp only [List.length_append]
        omega
      have start : (before ++ (key ++ (gap ++ (value ++ rest)))).take
          (before ++ (key ++ gap)).length = before ++ (key ++ gap) := by
        rw [whole, List.take_left]
      have finish : (before ++ (key ++ (gap ++ (value ++ rest)))).drop
          (before ++ (key ++ (gap ++ value))).length = rest := by
        have split : before ++ (key ++ (gap ++ (value ++ rest))) =
            before ++ (key ++ (gap ++ value)) ++ rest := by simp
        rw [split, List.drop_left]
      rw [if_pos longerValue, start, finish]
      simp only [mask, if_neg empty, List.append_assoc, List.length_append, Nat.add_assoc]

/-- A round of the loop over the index makes the stride over what is behind the index. -/
theorem iterate_stride {text shown rest : Text} (stride : Stride text shown rest)
    (nonempty : text ≠ []) (before : Text) :
    (Scan.iterate ⟨before ++ text, before.length⟩ = none ∧ shown = text ∧ rest = []) ∨
      ∃ next, Scan.iterate ⟨before ++ text, before.length⟩ = some next ∧
        next.At (before ++ shown) rest := by
  cases stride with
  | @plain word _ c all plain stops =>
      right
      refine ⟨_, iterate_plain before all plain (stopsAt_cons.mpr stops), ?_⟩
      simpa using at_next (before ++ word) rest c
  | lastPlain all plain =>
      right
      have step := iterate_plain before all plain stopsAt_nil
      rw [List.append_nil] at step
      exact ⟨_, step, at_end (before ++ text)⟩
  | @secret key gap value _ c secret separators unbroken ends stopsGap stops =>
      right
      have closes : StopsAt (fun d => !endsValue none d) (c :: rest) :=
        stopsAt_cons.mpr (by simp [ends])
      have step := iterate_key before secret separators unbroken closes
        (by simpa using stopsGap.append (by simp) rest)
        (by simpa using stops.append (by simp) rest)
      rw [if_neg (by simp)] at step
      refine ⟨_, step, ?_⟩
      simpa using at_next (before ++ (key ++ (gap ++ mask value))) rest c
  | @lastSecret key gap value secret separators unbroken stopsGap stops =>
      have step := iterate_key before secret separators unbroken stopsAt_nil
        (by simpa using stopsGap) (by simpa using stops)
      simp only [List.append_nil] at step
      by_cases empty : value = []
      · left
        rw [if_pos empty] at step
        exact ⟨step, by simp [mask, empty], rfl⟩
      · right
        rw [if_neg empty] at step
        exact ⟨_, step, at_end _⟩

theorem Scan.At.eq_append {scan : Scan} {before text : Text} (place : scan.At before text)
    (nonempty : text ≠ []) : scan = ⟨before ++ text, before.length⟩ := by
  obtain ⟨out, pos⟩ := scan
  obtain ⟨rfl, rfl⟩ := place
  have bound : pos < out.length := by
    rwa [ne_eq, List.drop_eq_nil_iff, not_le] at nonempty
  simp only [List.take_append_drop, List.length_take, Nat.min_eq_left bound.le]

/-- Every round leaves less to look at, so that the loop ends. -/
theorem Scan.At.run_eq {fuel : ℕ} {scan : Scan} {before text : Text} (place : scan.At before text)
    (enough : text.length < fuel) : scan.run fuel = some (before ++ redactSecrets text) := by
  induction fuel generalizing scan before text with
  | zero => omega
  | succ fuel induction =>
      by_cases empty : text = []
      · subst empty
        have beyond : ¬ scan.pos < scan.out.length := not_lt.mpr (List.drop_eq_nil_iff.mp place.2)
        have whole : scan.out = before := by
          rw [← place.1, List.take_of_length_le (not_lt.mp beyond)]
        rw [Scan.run, if_neg beyond, whole, redactSecrets_nil, List.append_nil]
      · obtain ⟨shown, rest, stride⟩ := exists_stride text
        have shorter := stride.length_lt empty
        have positive := List.length_pos_of_ne_nil empty
        have bound : before.length < (before ++ text).length := by
          rw [List.length_append]
          omega
        rw [place.eq_append empty, Scan.run, if_pos bound, stride.redactSecrets_eq]
        rcases iterate_stride stride empty before with ⟨stop, rfl, rfl⟩ | ⟨next, step, place⟩
        · simp only [stop, redactSecrets_nil, List.append_nil]
        · simp only [step]
          rw [induction place (by omega), List.append_assoc]

/-- The loop ends, with the text that `redactSecrets` gives.  A second scan changes nothing,
and a text in which no maximal run is the name of a secret, in any letter case, is left
alone. -/
theorem redactSecrets_settles (input : Text) :
    (∀ fuel, input.length < fuel → Scan.run fuel ⟨input, 0⟩ = some (redactSecrets input)) ∧
      redactSecrets (redactSecrets input) = redactSecrets input ∧
      ((∀ word, MaximalRun input word → word.map Char.toLower ∉ kSecretKeys) →
        redactSecrets input = input) := by
  refine ⟨?_, redactSecrets_redactSecrets input, ?_⟩
  · intro fuel enough
    have place : Scan.At ⟨input, 0⟩ [] input := ⟨rfl, rfl⟩
    exact place.run_eq enough
  · intro free
    apply redactSecrets_eq_self
    intro word maximal
    rw [← Bool.not_eq_true, isSecretKey_iff]
    exact free word maximal

end Cppload.Core.Redact

import Cppload.AssertionReaders
import Cppload.DurationReaders

/-!
# What an assertion is taken for

`evaluate_assertion` reads three tokens of an expression and, for a status code, the
number that the third one begins with.  What follows is not looked at, and a number
that is too large for 64 bits makes the assertion fail whatever it says.  Here is when
the result is the one that the whole expression asks for.
-/

namespace Cppload.Scenario

open Text

/-! ## Assertions as they are written -/

def Blank (text : Text) : Prop :=
  ∀ c ∈ text, isSpace c = true

structure IsToken (word : Text) : Prop where
  nonempty : word ≠ []
  dense : ∀ c ∈ word, isSpace c = false

/-- The expression begins with three tokens between blanks, and `rest` follows the
third one. -/
def BeginsWith (expr lhs op rhs rest : Text) : Prop :=
  ∃ lead before after, expr = lead ++ (lhs ++ (before ++ (op ++ (after ++ (rhs ++ rest))))) ∧
    Blank lead ∧ (Blank before ∧ before ≠ []) ∧ (Blank after ∧ after ≠ []) ∧
    (IsToken lhs ∧ IsToken op ∧ IsToken rhs) ∧ StopsAt (fun c => !isSpace c) rest

/-- The whole expression is three tokens. -/
def ThreeTokens (expr lhs op rhs : Text) : Prop :=
  ∃ trail, Blank trail ∧ BeginsWith expr lhs op rhs trail

/-- The text begins with a decimal integer, with or without a sign, and `junk` follows
it. -/
def BeginsWithInteger (text : Text) (value : ℤ) (junk : Text) : Prop :=
  ∃ digits, IsNumeral digits ∧ StopsAt Char.isDigit junk ∧
    ((text = digits ++ junk ∧ value = natValue digits) ∨
      (text = '+' :: (digits ++ junk) ∧ value = natValue digits) ∨
      (text = '-' :: (digits ++ junk) ∧ value = -natValue digits))

/-- The text is in full a decimal integer. -/
def IsInteger (text : Text) (value : ℤ) : Prop :=
  BeginsWithInteger text value []

/-- The relation that an operator stands for. -/
def Stands (op : Text) (actual expected : ℤ) : Prop :=
  (op = ['=', '='] ∧ actual = expected) ∨ (op = ['!', '='] ∧ actual ≠ expected) ∨
    (op = ['>'] ∧ expected < actual) ∨ (op = ['>', '='] ∧ expected ≤ actual) ∨
    (op = ['<'] ∧ actual < expected) ∨ (op = ['<', '='] ∧ actual ≤ expected)

/-- The response is as the expression asks for. -/
def AsWritten (expr : Text) (statusCode : ℕ) (latency : ℤ) : Prop :=
  ∃ lhs op rhs, ThreeTokens expr lhs op rhs ∧
    ((lhs = "status_code".toList ∧ ∃ value, IsInteger rhs value ∧ Stands op statusCode value) ∨
      (lhs = "latency".toList ∧ ∃ length, IsDuration rhs length ∧ Stands op latency length))

/-! ## What the evaluator makes of an expression -/

/-- Three tokens, the value at the beginning of the third, and what is not read. -/
structure Reading where
  lhs : Text
  op : Text
  rhs : Text
  rest : Text
  value : ℤ
  junk : Text

structure TakenFor (expr : Text) (reading : Reading) : Prop where
  begins : BeginsWith expr reading.lhs reading.op reading.rhs reading.rest
  operand :
    (reading.lhs = "status_code".toList ∧
      BeginsWithInteger reading.rhs reading.value reading.junk) ∨
    (reading.lhs = "latency".toList ∧ reading.junk = [] ∧
      ∃ length, IsDuration reading.rhs length ∧ reading.value = length)

namespace Reading

variable (reading : Reading)

def actual (statusCode : ℕ) (latency : ℤ) : ℤ :=
  if reading.lhs = "latency".toList then latency else statusCode

/-- The response is as the three tokens ask for. -/
def Holds (statusCode : ℕ) (latency : ℤ) : Prop :=
  Stands reading.op (reading.actual statusCode latency) reading.value

/-- The value is one of 64 bits. -/
def Fits : Prop :=
  -2 ^ 63 ≤ reading.value ∧ reading.value < 2 ^ 63

/-- Nothing but blanks is left unread. -/
def Complete : Prop :=
  Blank reading.rest ∧ reading.junk = []

end Reading

/-! ### Tokens -/

/-- What is left of the stream after three tokens. -/
def afterTokens (expr : Text) : Text :=
  (nextToken (nextToken (nextToken expr).2).2).2

theorem tokens_of_beginsWith {expr lhs op rhs rest : Text}
    (begins : BeginsWith expr lhs op rhs rest) :
    tokens expr = ⟨lhs, op, rhs⟩ ∧ afterTokens expr = rest := by
  obtain ⟨lead, before, after, rfl, leadBlank, ⟨beforeBlank, beforeSome⟩,
    ⟨afterBlank, afterSome⟩, ⟨lhsToken, opToken, rhsToken⟩, stops⟩ := begins
  have first := nextToken_append leadBlank lhsToken.nonempty lhsToken.dense
    (stopsAt_blank beforeSome beforeBlank (op ++ (after ++ (rhs ++ rest))))
  have second := nextToken_append beforeBlank opToken.nonempty opToken.dense
    (stopsAt_blank afterSome afterBlank (rhs ++ rest))
  have third := nextToken_append afterBlank rhsToken.nonempty rhsToken.dense stops
  simp only [tokens, afterTokens, first, second, third, and_self]

theorem beginsWith_of_tokens {expr : Text} (lhsSome : (tokens expr).lhs ≠ [])
    (opSome : (tokens expr).op ≠ []) (rhsSome : (tokens expr).rhs ≠ []) :
    ∃ rest, BeginsWith expr (tokens expr).lhs (tokens expr).op (tokens expr).rhs rest := by
  obtain ⟨lead, before, after, rest₁, rest₂, rest₃, first, second, third⟩ := tokens_cut expr
  refine ⟨rest₃, lead, before, after, ?_, first.blank,
    ⟨second.blank, second.gap_nonempty first.stops opSome⟩,
    ⟨third.blank, third.gap_nonempty second.stops rhsSome⟩,
    ⟨⟨lhsSome, first.dense⟩, ⟨opSome, second.dense⟩, ⟨rhsSome, third.dense⟩⟩, third.stops⟩
  rw [← third.text_eq, ← second.text_eq, ← first.text_eq]

/-! ### Operands -/

/-- A text without its sign. -/
def afterSign : Text → Text
  | '-' :: rest => rest
  | '+' :: rest => rest
  | text => text

/-- A numeral does not begin with a sign. -/
theorem append_ne_cons_sign {digits rest other : Text} {sign : Char} (numeral : IsNumeral digits)
    (nondigit : sign.isDigit = false) : digits ++ rest ≠ sign :: other := by
  obtain ⟨first, more, rfl⟩ := List.exists_cons_of_ne_nil numeral.nonempty
  intro same
  have digit := numeral.digits first List.mem_cons_self
  rw [(List.cons.inj same).1, nondigit] at digit
  cases digit

theorem signedInteger_of_beginsWithInteger {text junk : Text} {value : ℤ}
    (begins : BeginsWithInteger text value junk) :
    signedInteger text = some value ∧ (afterSign text).dropWhile Char.isDigit = junk := by
  obtain ⟨digits, numeral, stops, cases⟩ := begins
  have taken := takeWhile_append_of_stopsAt numeral.digits stops
  have dropped := dropWhile_append_of_stopsAt numeral.digits stops
  rcases cases with ⟨rfl, rfl⟩ | ⟨rfl, rfl⟩ | ⟨rfl, rfl⟩
  · constructor
    · unfold signedInteger
      split
      · exact absurd ‹_› (append_ne_cons_sign numeral rfl)
      · exact absurd ‹_› (append_ne_cons_sign numeral rfl)
      · simp [taken, numeral.nonempty]
    · unfold afterSign
      split
      · exact absurd ‹_› (append_ne_cons_sign numeral rfl)
      · exact absurd ‹_› (append_ne_cons_sign numeral rfl)
      · exact dropped
  · simp [signedInteger, afterSign, taken, dropped, numeral.nonempty]
  · simp [signedInteger, afterSign, taken, dropped, numeral.nonempty]

theorem beginsWithInteger_of_signedInteger {text : Text} {value : ℤ}
    (read : signedInteger text = some value) : ∃ junk, BeginsWithInteger text value junk := by
  have digitsOf {rest : Text} {number : ℤ}
      (found : ((if rest.takeWhile Char.isDigit = [] then none
        else some (natValue (rest.takeWhile Char.isDigit))) >>= fun value => pure (value : ℤ)) =
          some number) :
      ∃ digits, IsNumeral digits ∧ rest = digits ++ rest.dropWhile Char.isDigit ∧
        number = natValue digits := by
    by_cases empty : rest.takeWhile Char.isDigit = []
    · simp [empty] at found
    · rw [if_neg empty] at found
      exact ⟨rest.takeWhile Char.isDigit, ⟨empty, forall_mem_takeWhile _ _⟩,
        List.takeWhile_append_dropWhile.symm, (Option.some.inj found).symm⟩
  unfold signedInteger at read
  dsimp only at read
  split at read
  · rename_i rest
    obtain ⟨number, found, rfl⟩ := Option.map_eq_some_iff.mp read
    obtain ⟨digits, numeral, split, rfl⟩ := digitsOf found
    exact ⟨_, digits, numeral, stopsAt_dropWhile _ rest, .inr (.inr ⟨by rw [← split], rfl⟩)⟩
  · rename_i rest
    obtain ⟨number, found, rfl⟩ := Option.map_eq_some_iff.mp read
    obtain ⟨digits, numeral, split, rfl⟩ := digitsOf found
    exact ⟨_, digits, numeral, stopsAt_dropWhile _ rest, .inr (.inl ⟨by rw [← split], rfl⟩)⟩
  · obtain ⟨number, found, rfl⟩ := Option.map_eq_some_iff.mp read
    obtain ⟨digits, numeral, split, rfl⟩ := digitsOf found
    exact ⟨_, digits, numeral, stopsAt_dropWhile _ text, .inl ⟨split, rfl⟩⟩

/-- A token has no blanks that `std::stol` could skip. -/
theorem stoll_token {word : Text} (token : IsToken word) :
    stoll word = (signedInteger word).filter fun value => -2 ^ 63 ≤ value ∧ value < 2 ^ 63 := by
  obtain ⟨first, more, rfl⟩ := List.exists_cons_of_ne_nil token.nonempty
  have stops : StopsAt isSpace (first :: more) := stopsAt_cons.mpr (token.dense first (by simp))
  rw [stoll, stops.dropWhile_eq]

theorem IsDuration.unique {text : Text} {first second : ℕ} (one : IsDuration text first)
    (other : IsDuration text second) : first = second := by
  obtain ⟨digits, unit, numeral, rfl, rfl⟩ := one
  obtain ⟨digits', unit', numeral', same, rfl⟩ := other
  have sameDigits : digits = digits' := by
    rw [← numeral.takeWhile_append unit.stops, same, numeral'.takeWhile_append unit'.stops]
  subst sameDigits
  have sameText := List.append_cancel_left same
  have sameUnit : unit = unit' := by
    cases unit <;> cases unit' <;> first | rfl | cases sameText
  rw [sameUnit]

theorem compareOp_eq_true_iff {op : Text} {actual expected : ℤ} :
    compareOp actual op expected = true ↔ Stands op actual expected := by
  unfold compareOp Stands
  split_ifs with eq ne gt ge lt le
  · simp [eq]
  · simp [ne]
  · simp [gt]
  · simp [ge]
  · simp [lt]
  · simp [le]
  · simp [eq, ne, gt, ge, lt, le]

/-! ## The verdict -/

theorem status_ne_latency : "status_code".toList ≠ "latency".toList := by
  decide

/-- An expression can be read in one way only. -/
theorem TakenFor.unique {expr : Text} {first second : Reading} (one : TakenFor expr first)
    (other : TakenFor expr second) : first = second := by
  obtain ⟨lhs, op, rhs, rest, value, junk⟩ := first
  obtain ⟨lhs', op', rhs', rest', value', junk'⟩ := second
  obtain ⟨read, left⟩ := tokens_of_beginsWith one.begins
  obtain ⟨read', left'⟩ := tokens_of_beginsWith other.begins
  obtain ⟨rfl, rfl, rfl⟩ := Tokens.mk.inj (read.symm.trans read')
  obtain rfl : rest = rest' := left.symm.trans left'
  rcases one.operand with ⟨status, integer⟩ | ⟨latency, clean, length, duration, valueEq⟩
  · rcases other.operand with ⟨-, integer'⟩ | ⟨latency, -⟩
    · obtain ⟨number, after⟩ := signedInteger_of_beginsWithInteger integer
      obtain ⟨number', after'⟩ := signedInteger_of_beginsWithInteger integer'
      obtain rfl : value = value' := Option.some.inj (number.symm.trans number')
      obtain rfl : junk = junk' := after.symm.trans after'
      rfl
    · exact absurd (status.symm.trans latency) status_ne_latency
  · rcases other.operand with ⟨status, -⟩ | ⟨-, clean', length', duration', valueEq'⟩
    · exact absurd (status.symm.trans latency) status_ne_latency
    · obtain rfl := duration.unique duration'
      obtain rfl : value = value' := valueEq.trans valueEq'.symm
      obtain rfl : junk = junk' := clean.trans clean'.symm
      rfl

section Cases

variable {expr lhs op rhs rest : Text} {statusCode : ℕ} {latency : ℤ}

theorem BeginsWith.rhs_isToken (begins : BeginsWith expr lhs op rhs rest) : IsToken rhs := by
  obtain ⟨-, -, -, -, -, -, -, ⟨-, -, token⟩, -⟩ := begins
  exact token

theorem BeginsWith.given (begins : BeginsWith expr lhs op rhs rest) :
    ¬ (op = [] ∨ rhs = []) := by
  obtain ⟨-, -, -, -, -, -, -, ⟨-, opToken, rhsToken⟩, -⟩ := begins
  exact not_or.mpr ⟨opToken.nonempty, rhsToken.nonempty⟩

/-- Without three tokens, or with another left-hand side, an assertion fails. -/
theorem beginsWith_of_evaluateAssertion
    (passes : evaluateAssertion expr statusCode latency = true) :
    ∃ lhs op rhs rest, BeginsWith expr lhs op rhs rest ∧
      (lhs = "status_code".toList ∨ lhs = "latency".toList) := by
  unfold evaluateAssertion at passes
  dsimp only at passes
  split at passes
  · cases passes
  · rename_i given
    obtain ⟨opSome, rhsSome⟩ := not_or.mp given
    have known : (tokens expr).lhs = "status_code".toList ∨
        (tokens expr).lhs = "latency".toList := by
      split at passes
      · exact .inl ‹_›
      · split at passes
        · exact .inr ‹_›
        · cases passes
    have lhsSome : (tokens expr).lhs ≠ [] := by
      rcases known with same | same <;> rw [same] <;> decide
    obtain ⟨rest, begins⟩ := beginsWith_of_tokens lhsSome opSome rhsSome
    exact ⟨_, _, _, rest, begins, known⟩

theorem evaluateAssertion_status (begins : BeginsWith expr lhs op rhs rest)
    (status : lhs = "status_code".toList) :
    evaluateAssertion expr statusCode latency = true ↔
      ∃ value junk, BeginsWithInteger rhs value junk ∧ Stands op statusCode value ∧
        -2 ^ 63 ≤ value ∧ value < 2 ^ 63 := by
  unfold evaluateAssertion
  dsimp only
  rw [(tokens_of_beginsWith begins).1, if_neg begins.given, if_pos status,
    stoll_token begins.rhs_isToken]
  constructor
  · intro passes
    split at passes
    · cases passes
    · rename_i value read
      obtain ⟨number, fits⟩ := Option.filter_eq_some_iff.mp read
      obtain ⟨junk, integer⟩ := beginsWithInteger_of_signedInteger number
      exact ⟨value, junk, integer, compareOp_eq_true_iff.mp passes, of_decide_eq_true fits⟩
  · rintro ⟨value, junk, integer, stands, fits⟩
    rw [(signedInteger_of_beginsWithInteger integer).1, Option.filter_some,
      if_pos (decide_eq_true fits)]
    exact compareOp_eq_true_iff.mpr stands

theorem evaluateAssertion_latency (begins : BeginsWith expr lhs op rhs rest)
    (isLatency : lhs = "latency".toList) :
    evaluateAssertion expr statusCode latency = true ↔
      ∃ length, IsDuration rhs length ∧ Stands op latency length ∧ length < 2 ^ 63 := by
  have other : lhs ≠ "status_code".toList :=
    fun status => status_ne_latency (status.symm.trans isLatency)
  unfold evaluateAssertion
  dsimp only
  rw [(tokens_of_beginsWith begins).1, if_neg begins.given, if_neg other, if_pos isLatency]
  constructor
  · intro passes
    by_cases known : ∃ length, IsDuration rhs length
    · obtain ⟨length, duration⟩ := known
      rw [duration.parseDurationUs_eq] at passes
      by_cases small : length < 2 ^ 63
      · rw [if_pos small, if_neg (by omega)] at passes
        exact ⟨length, duration, compareOp_eq_true_iff.mp passes, small⟩
      · rw [if_neg small, if_pos (by decide)] at passes
        cases passes
    · rw [parseDurationUs_of_not_isDuration (not_exists.mp known), if_pos (by decide)] at passes
      cases passes
  · rintro ⟨length, duration, stands, small⟩
    rw [duration.parseDurationUs_eq, if_pos small, if_neg (by omega)]
    exact compareOp_eq_true_iff.mpr stands

end Cases

theorem Reading.holds_of_status {reading : Reading} (status : reading.lhs = "status_code".toList)
    (statusCode : ℕ) (latency : ℤ) :
    reading.Holds statusCode latency ↔ Stands reading.op statusCode reading.value := by
  have other : reading.lhs ≠ "latency".toList :=
    fun isLatency => status_ne_latency (status.symm.trans isLatency)
  rw [Holds, actual, if_neg other]

theorem Reading.holds_of_latency {reading : Reading} (isLatency : reading.lhs = "latency".toList)
    (statusCode : ℕ) (latency : ℤ) :
    reading.Holds statusCode latency ↔ Stands reading.op latency reading.value := by
  rw [Holds, actual, if_pos isLatency]

/-- The evaluator takes an assertion for what it has read of it, if the value fits. -/
theorem evaluateAssertion_eq_true_iff {expr : Text} {statusCode : ℕ} {latency : ℤ} :
    evaluateAssertion expr statusCode latency = true ↔
      ∃ reading, TakenFor expr reading ∧ reading.Holds statusCode latency ∧ reading.Fits := by
  constructor
  · intro passes
    obtain ⟨lhs, op, rhs, rest, begins, status | isLatency⟩ :=
      beginsWith_of_evaluateAssertion passes
    · obtain ⟨value, junk, integer, stands, fits⟩ :=
        (evaluateAssertion_status begins status).mp passes
      refine ⟨⟨lhs, op, rhs, rest, value, junk⟩, ⟨begins, .inl ⟨status, integer⟩⟩, ?_, fits⟩
      exact (Reading.holds_of_status status _ _).mpr stands
    · obtain ⟨length, duration, stands, small⟩ :=
        (evaluateAssertion_latency begins isLatency).mp passes
      have fits : -2 ^ 63 ≤ (length : ℤ) ∧ (length : ℤ) < 2 ^ 63 := by omega
      refine ⟨⟨lhs, op, rhs, rest, length, []⟩,
        ⟨begins, .inr ⟨isLatency, rfl, length, duration, rfl⟩⟩, ?_, fits⟩
      exact (Reading.holds_of_latency isLatency _ _).mpr stands
  · rintro ⟨reading, ⟨begins, ⟨status, integer⟩ | ⟨isLatency, -, length, duration, value⟩⟩,
      holds, fits⟩
    · exact (evaluateAssertion_status begins status).mpr
        ⟨_, _, integer, (Reading.holds_of_status status _ _).mp holds, fits⟩
    · have stands := (Reading.holds_of_latency isLatency _ _).mp holds
      have below := fits.2
      rw [value] at stands below
      exact (evaluateAssertion_latency begins isLatency).mpr
        ⟨length, duration, stands, by exact_mod_cast below⟩

theorem asWritten_iff {expr : Text} {statusCode : ℕ} {latency : ℤ} :
    AsWritten expr statusCode latency ↔
      ∃ reading, TakenFor expr reading ∧ reading.Holds statusCode latency ∧ reading.Complete := by
  constructor
  · rintro ⟨lhs, op, rhs, ⟨trail, blank, begins⟩,
      ⟨status, value, integer, stands⟩ | ⟨isLatency, length, duration, stands⟩⟩
    · refine ⟨⟨lhs, op, rhs, trail, value, []⟩, ⟨begins, .inl ⟨status, integer⟩⟩, ?_, blank, rfl⟩
      exact (Reading.holds_of_status status _ _).mpr stands
    · refine ⟨⟨lhs, op, rhs, trail, length, []⟩,
        ⟨begins, .inr ⟨isLatency, rfl, length, duration, rfl⟩⟩, ?_, blank, rfl⟩
      exact (Reading.holds_of_latency isLatency _ _).mpr stands
  · rintro ⟨reading, ⟨begins, operand⟩, holds, blank, clean⟩
    refine ⟨_, _, _, ⟨_, blank, begins⟩, ?_⟩
    rcases operand with ⟨status, integer⟩ | ⟨isLatency, -, length, duration, value⟩
    · rw [clean] at integer
      exact .inl ⟨status, _, integer, (Reading.holds_of_status status _ _).mp holds⟩
    · have stands := (Reading.holds_of_latency isLatency _ _).mp holds
      rw [value] at stands
      exact .inr ⟨isLatency, length, duration, stands⟩

/-- The evaluator returns what the expression asks for exactly if, whenever the response
is as the three tokens ask for, the value fits into 64 bits and nothing is left unread,
or neither. -/
theorem evaluateAssertion_asWritten_iff (expr : Text) (statusCode : ℕ) (latency : ℤ) :
    (evaluateAssertion expr statusCode latency = true ↔ AsWritten expr statusCode latency) ↔
      ∀ reading, TakenFor expr reading → reading.Holds statusCode latency →
        (reading.Fits ↔ reading.Complete) := by
  rw [evaluateAssertion_eq_true_iff, asWritten_iff]
  constructor
  · intro agree reading reads holds
    constructor
    · intro fits
      obtain ⟨other, reads', -, complete⟩ := agree.mp ⟨reading, reads, holds, fits⟩
      rwa [reads.unique reads']
    · intro complete
      obtain ⟨other, reads', -, fits⟩ := agree.mpr ⟨reading, reads, holds, complete⟩
      rwa [reads.unique reads']
  · intro agree
    constructor
    · rintro ⟨reading, reads, holds, fits⟩
      exact ⟨reading, reads, holds, (agree reading reads holds).mp fits⟩
    · rintro ⟨reading, reads, holds, complete⟩
      exact ⟨reading, reads, holds, (agree reading reads holds).mpr complete⟩

/-- An assertion as it is written has nothing behind its third token, and nothing behind
the number in it. -/
theorem AsWritten.nothing_unread {expr : Text} {statusCode : ℕ} {latency : ℤ}
    (written : AsWritten expr statusCode latency) :
    Blank (afterTokens expr) ∧ ((tokens expr).lhs = "status_code".toList →
      (afterSign (tokens expr).rhs).dropWhile Char.isDigit = []) := by
  obtain ⟨lhs, op, rhs, ⟨trail, blank, begins⟩, operand⟩ := written
  obtain ⟨read, left⟩ := tokens_of_beginsWith begins
  rw [read, left]
  refine ⟨blank, fun status => ?_⟩
  rcases operand with ⟨-, value, integer, -⟩ | ⟨isLatency, -⟩
  · exact (signedInteger_of_beginsWithInteger integer).2
  · exact absurd (status.symm.trans isLatency) status_ne_latency

/-- A second condition and letters behind a number are passed over; a bound of 20 digits,
which every status code is below, fails. -/
theorem evaluateAssertion_reads_less :
    (evaluateAssertion "status_code == 200 && latency < 1ms".toList 200 5000000 = true ∧
      ¬ AsWritten "status_code == 200 && latency < 1ms".toList 200 5000000) ∧
    (evaluateAssertion "status_code == 200OK".toList 200 0 = true ∧
      ¬ AsWritten "status_code == 200OK".toList 200 0) ∧
    (evaluateAssertion "status_code < 99999999999999999999".toList 200 0 = false ∧
      AsWritten "status_code < 99999999999999999999".toList 200 0) := by
  refine ⟨⟨by decide +kernel, ?_⟩, ⟨by decide +kernel, ?_⟩, ⟨by decide +kernel, ?_⟩⟩
  · intro written
    have blank := written.nothing_unread.1 '&' (by decide +kernel)
    cases blank
  · intro written
    have clean := written.nothing_unread.2 (by decide +kernel)
    exact absurd clean (by decide +kernel)
  · have numeral : IsNumeral "99999999999999999999".toList :=
      ⟨by decide, List.all_eq_true.mp (by decide +kernel)⟩
    have token {word : Text} (nonempty : word ≠ []) (dense : word.all (!isSpace ·) = true) :
        IsToken word :=
      ⟨nonempty, by simpa using dense⟩
    have blank : Blank [' '] := List.forall_mem_singleton.mpr rfl
    refine ⟨"status_code".toList, ['<'], "99999999999999999999".toList,
      ⟨[], by simp [Blank], [], [' '], [' '], by decide +kernel, by simp [Blank],
        ⟨blank, by simp⟩, ⟨blank, by simp⟩,
        ⟨token (by decide) (by decide +kernel), token (by decide) (by decide +kernel),
          token numeral.nonempty (by decide +kernel)⟩, stopsAt_nil⟩, ?_⟩
    refine .inl ⟨rfl, 99999999999999999999, ⟨_, numeral, stopsAt_nil, .inl ⟨by simp, ?_⟩⟩, ?_⟩
    · decide +kernel
    · exact .inr (.inr (.inr (.inr (.inl ⟨rfl, by decide⟩))))

end Cppload.Scenario

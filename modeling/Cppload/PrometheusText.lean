import Cppload.TextMarks
import Cppload.Numerals

/-!
# What the embedded Prometheus server shows

The embedded exporter is bound to an address that is read from a text, and it answers
requests for `/metrics` with a text exposition of the figures of the last update.  How
an output stream formats a double is a parameter.
-/

namespace Cppload.Prometheus

open Text

/-! ### The bind address -/

structure BindAddress where
  host : Text
  port : UInt16
  deriving DecidableEq, Repr

def defaultHost : Text :=
  "127.0.0.1".toList

def defaultBindPort : UInt16 :=
  9090

/-- `none` is the exception of `std::stoul` for a number that is too large. -/
def parseBindAddress (address : Text) : Option BindAddress :=
  match splitAtLast ':' address with
  | none => some ⟨defaultHost, defaultBindPort⟩
  | some (host, portStr) =>
      let host := if host = [] then defaultHost else host
      if portStr ≠ [] ∧ portStr.all Char.isDigit then
        (stoul portStr).map fun p =>
          ⟨host, if 0 < p ∧ p ≤ 65535 then UInt16.ofNat p else defaultBindPort⟩
      else some ⟨host, defaultBindPort⟩

namespace BindAddress

/-- Host and port as they stand in the endpoint. -/
def text (bind : BindAddress) : Text :=
  bind.host ++ ':' :: Nat.toDigits 10 bind.port.toNat

def endpoint (bind : BindAddress) : Text :=
  "http://".toList ++ bind.text ++ "/metrics".toList

end BindAddress

theorem notMem_numeral {digits : Text} (numeral : IsNumeral digits) : ':' ∉ digits := by
  intro member
  have digit := numeral.digits ':' member
  simp at digit

/-- What is read when the text behind the last colon is a number. -/
theorem parseBindAddress_numeral (host : Text) {digits : Text} (numeral : IsNumeral digits) :
    parseBindAddress (host ++ ':' :: digits) =
      if natValue digits < 2 ^ 64 then
        some ⟨if host = [] then defaultHost else host,
          if 0 < natValue digits ∧ natValue digits ≤ 65535 then UInt16.ofNat (natValue digits)
          else defaultBindPort⟩
      else none := by
  have digitsOnly : digits ≠ [] ∧ digits.all Char.isDigit = true :=
    ⟨numeral.nonempty, List.all_eq_true.mpr numeral.digits⟩
  simp only [parseBindAddress, splitAtLast_append (notMem_numeral numeral), if_pos digitsOnly,
    stoul_numeral numeral]
  by_cases small : natValue digits < 2 ^ 64
  · rw [if_pos small, if_pos small, Option.map_some]
  · rw [if_neg small, if_neg small, Option.map_none]

/-- The text of an address with a host and a port is read as that address. -/
theorem parseBindAddress_text {bind : BindAddress} (named : bind.host ≠ [])
    (ported : bind.port ≠ 0) : parseBindAddress bind.text = some bind := by
  have small := bind.port.toNat_lt
  have positive : 0 < bind.port.toNat := by
    refine Nat.pos_of_ne_zero fun zero => ported ?_
    exact UInt16.toNat_inj.mp zero
  rw [BindAddress.text, parseBindAddress_numeral _ (isNumeral_toDigits _), natValue_toDigits,
    if_pos (by omega), if_neg named, if_pos ⟨positive, by omega⟩, UInt16.ofNat_toNat]

theorem defaultHost_ne_nil : defaultHost ≠ [] := by decide

theorem host_ne_nil (host : Text) : (if host = [] then defaultHost else host) ≠ [] := by
  split
  · exact defaultHost_ne_nil
  · assumption

/-- Only a number behind the last colon that does not fit into 64 bits is refused. -/
theorem parseBindAddress_eq_none_iff (address : Text) :
    parseBindAddress address = none ↔
      ∃ host digits, address = host ++ ':' :: digits ∧ IsNumeral digits ∧
        2 ^ 64 ≤ natValue digits := by
  constructor
  · intro refused
    unfold parseBindAddress at refused
    split at refused
    · cases refused
    · rename_i host portStr cut
      obtain ⟨rfl, -⟩ := splitAtLast_eq_some_iff.mp cut
      simp only at refused
      split at refused
      · rename_i digitsOnly
        have numeral : IsNumeral portStr :=
          ⟨digitsOnly.1, List.all_eq_true.mp digitsOnly.2⟩
        refine ⟨host, portStr, rfl, numeral, ?_⟩
        by_contra small
        rw [stoul_numeral numeral, if_pos (Nat.lt_of_not_le small)] at refused
        cases refused
      · cases refused
  · rintro ⟨host, digits, rfl, numeral, large⟩
    rw [parseBindAddress_numeral host numeral, if_neg (Nat.not_lt.mpr large)]

theorem parseBindAddress_valid {address : Text} {bind : BindAddress}
    (read : parseBindAddress address = some bind) : bind.host ≠ [] ∧ bind.port ≠ 0 := by
  have portValid (p : ℕ) :
      (if 0 < p ∧ p ≤ 65535 then UInt16.ofNat p else defaultBindPort) ≠ 0 := by
    split
    · rename_i range
      intro zero
      have value := congrArg UInt16.toNat zero
      have small : p < UInt16.size := Nat.lt_of_le_of_lt range.2 (by decide)
      rw [UInt16.toNat_ofNat_of_lt' small] at value
      exact absurd value range.1.ne'
    · decide
  unfold parseBindAddress at read
  split at read
  · cases read
    exact ⟨defaultHost_ne_nil, by decide⟩
  · simp only at read
    split at read
    · obtain ⟨p, -, rfl⟩ := Option.map_eq_some_iff.mp read
      exact ⟨host_ne_nil _, portValid p⟩
    · cases read
      exact ⟨host_ne_nil _, show defaultBindPort ≠ 0 by decide⟩

/-- The exporter cannot be made exactly when a number behind the last colon does not fit
into 64 bits.  Otherwise it has a host and a port, which are the ones named by the text of
its endpoint. -/
theorem parseBindAddress_endpoint (address : Text) :
    (parseBindAddress address = none ↔
      ∃ host digits, address = host ++ ':' :: digits ∧ IsNumeral digits ∧
        2 ^ 64 ≤ natValue digits) ∧
    ∀ bind, parseBindAddress address = some bind →
      bind.host ≠ [] ∧ bind.port ≠ 0 ∧
        ∃ named, bind.endpoint = "http://".toList ++ named ++ "/metrics".toList ∧
          parseBindAddress named = some bind := by
  refine ⟨parseBindAddress_eq_none_iff address, fun bind read => ?_⟩
  obtain ⟨named, ported⟩ := parseBindAddress_valid read
  exact ⟨named, ported, bind.text, rfl, parseBindAddress_text named ported⟩

/-! ### The text exposition -/

/-- One metric with its `HELP` and `TYPE` lines. -/
structure MetricFamily where
  name : Text
  help : Text
  kind : Text
  value : Text
  deriving DecidableEq, Repr

def helpMark : Text :=
  "# HELP ".toList

def typeMark : Text :=
  "# TYPE ".toList

/-- The first word of a line and the rest of it. -/
def lineText (word rest : Text) : Text :=
  word ++ ' ' :: (rest ++ ['\n'])

def MetricFamily.text (family : MetricFamily) : Text :=
  helpMark ++ lineText family.name family.help ++
    (typeMark ++ lineText family.name family.kind) ++ lineText family.name family.value

/-- What the last update has stored. -/
structure Figures where
  totalRequests : ℕ
  successfulRequests : ℕ
  failedRequests : ℕ
  errRate : ℚ
  rps : ℚ
  meanLatencyUs : ℚ
  p95LatencyUs : ℕ
  p99LatencyUs : ℕ
  deriving DecidableEq, Repr

section Exposition

variable (showDouble : ℚ → Text)

def Figures.families (figures : Figures) : List MetricFamily :=
  [⟨"volley_requests_total".toList, "Total number of requests".toList, "counter".toList,
      Nat.toDigits 10 figures.totalRequests⟩,
    ⟨"volley_requests_successful_total".toList, "Total successful requests".toList,
      "counter".toList, Nat.toDigits 10 figures.successfulRequests⟩,
    ⟨"volley_requests_failed_total".toList, "Total failed requests".toList,
      "counter".toList, Nat.toDigits 10 figures.failedRequests⟩,
    ⟨"volley_error_rate".toList, "Current error rate (percent)".toList, "gauge".toList,
      showDouble figures.errRate⟩,
    ⟨"volley_requests_per_second".toList, "Current requests per second".toList,
      "gauge".toList, showDouble figures.rps⟩,
    ⟨"volley_mean_latency_us".toList, "Mean latency in microseconds".toList,
      "gauge".toList, showDouble figures.meanLatencyUs⟩,
    ⟨"volley_p95_latency_us".toList, "P95 latency in microseconds".toList,
      "gauge".toList, Nat.toDigits 10 figures.p95LatencyUs⟩,
    ⟨"volley_p99_latency_us".toList, "P99 latency in microseconds".toList,
      "gauge".toList, Nat.toDigits 10 figures.p99LatencyUs⟩]

def metricsText (figures : Figures) : Text :=
  (figures.families showDouble).flatMap MetricFamily.text

inductive Status where
  | ok
  | notFound
  deriving DecidableEq, Repr

/-- The answer to a request that could be read. -/
def handleRequest (figures : Figures) (isGet : Bool) (target : Text) : Status × Text :=
  if isGet = true ∧ target = "/metrics".toList then (.ok, metricsText showDouble figures)
  else if isGet = true ∧ target = "/".toList then (.ok, "volley prometheus exporter\n".toList)
  else (.notFound, "not found\n".toList)

end Exposition

/-! ### Reading an exposition -/

/-- What is behind a text that must come next. -/
def skip (expected text : Text) : Option Text :=
  if expected <+: text then some (text.drop expected.length) else none

theorem skip_append (expected rest : Text) : skip expected (expected ++ rest) = some rest := by
  simp [skip]

/-- A word and the rest of its line. -/
def readLine (text : Text) : Option ((Text × Text) × Text) :=
  (splitAt ['\n'] text).bind fun line =>
    (splitAt [' '] line.1).map fun words => (words, line.2)

theorem readLine_append {word rest : Text} (oneWord : ' ' ∉ word) (wordLine : '\n' ∉ word)
    (restLine : '\n' ∉ rest) (behind : Text) :
    readLine (lineText word rest ++ behind) = some ((word, rest), behind) := by
  have line : '\n' ∉ word ++ ' ' :: rest := by simp [wordLine, restLine]
  have same : lineText word rest ++ behind = (word ++ ' ' :: rest) ++ '\n' :: behind := by
    simp [lineText]
  rw [readLine, same, splitAt_char line]
  simp [splitAt_char oneWord]

/-- A metric whose three lines name the same metric, and what follows it. -/
def readFamily (text : Text) : Option (MetricFamily × Text) :=
  (skip helpMark text).bind fun text =>
    (readLine text).bind fun help =>
      (skip typeMark help.2).bind fun text =>
        (readLine text).bind fun kind =>
          (readLine kind.2).bind fun sample =>
            if kind.1.1 = help.1.1 ∧ sample.1.1 = help.1.1 then
              some (⟨help.1.1, help.1.2, kind.1.2, sample.1.2⟩, sample.2)
            else none

def readFamilies : ℕ → Text → Option (List MetricFamily)
  | _, [] => some []
  | 0, _ => none
  | fuel + 1, text =>
      (readFamily text).bind fun first =>
        (readFamilies fuel first.2).map fun rest => first.1 :: rest

/-- A scraper reads metrics until the text ends. -/
def readExposition (text : Text) : Option (List MetricFamily) :=
  readFamilies text.length text

/-- The name is one word, and no part goes beyond its line. -/
structure MetricFamily.Plain (family : MetricFamily) : Prop where
  oneWord : ' ' ∉ family.name
  name : '\n' ∉ family.name
  help : '\n' ∉ family.help
  kind : '\n' ∉ family.kind
  value : '\n' ∉ family.value

theorem readFamily_append {family : MetricFamily} (plain : family.Plain) (rest : Text) :
    readFamily (family.text ++ rest) = some (family, rest) := by
  have split : family.text ++ rest =
      helpMark ++ (lineText family.name family.help ++ (typeMark ++
        (lineText family.name family.kind ++ (lineText family.name family.value ++ rest)))) := by
    simp only [MetricFamily.text, List.append_assoc]
  rw [readFamily, split, skip_append, Option.bind_some,
    readLine_append plain.oneWord plain.name plain.help, Option.bind_some, skip_append,
    Option.bind_some, readLine_append plain.oneWord plain.name plain.kind, Option.bind_some,
    readLine_append plain.oneWord plain.name plain.value, Option.bind_some,
    if_pos ⟨rfl, rfl⟩]

theorem text_ne_nil (family : MetricFamily) : family.text ≠ [] := by
  refine List.append_ne_nil_of_right_ne_nil _ ?_
  simp [lineText]

theorem readFamilies_flatMap {families : List MetricFamily}
    (plain : ∀ family ∈ families, family.Plain) {fuel : ℕ} (enough : families.length ≤ fuel) :
    readFamilies fuel (families.flatMap MetricFamily.text) = some families := by
  induction families generalizing fuel with
  | nil => cases fuel <;> rfl
  | cons family rest ih =>
      obtain ⟨fuel, rfl⟩ : ∃ less, fuel = less + 1 :=
        ⟨fuel - 1, by simp only [List.length_cons] at enough; omega⟩
      have read := readFamily_append (plain family List.mem_cons_self)
        (rest.flatMap MetricFamily.text)
      have later := ih (fun other member => plain other (List.mem_cons_of_mem _ member))
        (Nat.le_of_succ_le_succ enough)
      rw [List.flatMap_cons]
      have nonempty : family.text ++ rest.flatMap MetricFamily.text ≠ [] := by
        simp [text_ne_nil]
      obtain ⟨c, more, textEq⟩ := List.exists_cons_of_ne_nil nonempty
      rw [textEq] at read ⊢
      simp only [readFamilies, read, Option.bind_some, later, Option.map_some]

theorem length_le_flatMap (families : List MetricFamily) :
    families.length ≤ (families.flatMap MetricFamily.text).length := by
  induction families with
  | nil => exact le_rfl
  | cons family rest ih =>
      have positive := List.length_pos_of_ne_nil (text_ne_nil family)
      simp only [List.flatMap_cons, List.length_append, List.length_cons]
      omega

theorem plain_families {showDouble : ℚ → Text} (oneLine : ∀ value, '\n' ∉ showDouble value)
    (figures : Figures) : ∀ family ∈ figures.families showDouble, family.Plain := by
  have number (value : ℕ) : '\n' ∉ Nat.toDigits 10 value := by
    intro member
    have digit := (isNumeral_toDigits value).digits _ member
    simp at digit
  simp only [Figures.families, List.forall_mem_cons, List.not_mem_nil, false_imp_iff,
    implies_true, and_true]
  refine ⟨?_, ?_, ?_, ?_, ?_, ?_, ?_, ?_⟩
  all_goals
    refine ⟨?_, ?_, ?_, ?_, ?_⟩
    iterate 4
      · dsimp only
        decide
    first | exact number _ | exact oneLine _

/-- A scrape of `/metrics` is answered with a text from which every metric of the last
update can be read back, each under its name and with its kind; the integers are read as
they were stored.  Every other request gets none of the figures. -/
theorem readExposition_handleRequest {showDouble : ℚ → Text}
    (oneLine : ∀ value, '\n' ∉ showDouble value) (figures : Figures) :
    (∃ body, handleRequest showDouble figures true "/metrics".toList = (.ok, body) ∧
      readExposition body = some (figures.families showDouble) ∧
      (figures.families showDouble).map (fun family => (family.name, natValue family.value)) =
        [("volley_requests_total".toList, figures.totalRequests),
          ("volley_requests_successful_total".toList, figures.successfulRequests),
          ("volley_requests_failed_total".toList, figures.failedRequests),
          ("volley_error_rate".toList, natValue (showDouble figures.errRate)),
          ("volley_requests_per_second".toList, natValue (showDouble figures.rps)),
          ("volley_mean_latency_us".toList, natValue (showDouble figures.meanLatencyUs)),
          ("volley_p95_latency_us".toList, figures.p95LatencyUs),
          ("volley_p99_latency_us".toList, figures.p99LatencyUs)]) ∧
    ∀ isGet target other, ¬(isGet = true ∧ target = "/metrics".toList) →
      handleRequest showDouble figures isGet target =
        handleRequest showDouble other isGet target := by
  refine ⟨⟨metricsText showDouble figures, if_pos ⟨rfl, rfl⟩, ?_, ?_⟩, ?_⟩
  · exact readFamilies_flatMap (plain_families oneLine figures)
      (length_le_flatMap (figures.families showDouble))
  · simp only [Figures.families, List.map_cons, List.map_nil, natValue_toDigits]
  · intro isGet target other elsewhere
    simp only [handleRequest, if_neg elsewhere]

theorem readExposition_handleRequest_zero :
    (∀ value : ℚ, '\n' ∉ (fun _ => ['0'] : ℚ → Text) value) ∧
      ∃ body, handleRequest (fun _ => ['0']) ⟨3, 2, 1, 0, 0, 0, 7, 9⟩ true "/metrics".toList =
          (.ok, body) ∧
        (readExposition body).isSome = true := by
  have oneLine : ∀ value : ℚ, '\n' ∉ (fun _ => ['0'] : ℚ → Text) value :=
    fun _ => show '\n' ∉ ['0'] by decide
  obtain ⟨⟨body, answered, read, -⟩, -⟩ :=
    readExposition_handleRequest oneLine ⟨3, 2, 1, 0, 0, 0, 7, 9⟩
  exact ⟨oneLine, body, answered, by rw [read]; rfl⟩

end Cppload.Prometheus

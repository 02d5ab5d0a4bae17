import Mathlib

/-!
# Scanning texts

Where a scan over a text stops that goes on as long as a test on characters is met.
-/

namespace Cppload

/-- A text, byte by byte. -/
abbrev Text :=
  List Char

namespace Text

def isSpace (c : Char) : Bool :=
  c = ' ' || (9 ≤ c.toNat && c.toNat ≤ 13)

/-- The text does not begin with a character that meets the test. -/
def StopsAt (test : Char → Bool) (text : Text) : Prop :=
  ∀ c ∈ text.head?, test c = false

variable {test : Char → Bool} {c : Char} {run rest : Text}

@[simp]
theorem stopsAt_nil : StopsAt test [] := by
  simp [StopsAt]

@[simp]
theorem stopsAt_cons : StopsAt test (c :: rest) ↔ test c = false := by
  simp [StopsAt]

theorem StopsAt.takeWhile_eq_nil (stops : StopsAt test rest) : rest.takeWhile test = [] := by
  cases rest with
  | nil => rfl
  | cons c rest => simp [stopsAt_cons.mp stops]

theorem StopsAt.dropWhile_eq (stops : StopsAt test rest) : rest.dropWhile test = rest := by
  cases rest with
  | nil => rfl
  | cons c rest => simp [stopsAt_cons.mp stops]

/-- The scan takes the characters that meet the test, up to the first that does not. -/
theorem takeWhile_append_of_stopsAt (all : ∀ c ∈ run, test c = true)
    (stops : StopsAt test rest) : (run ++ rest).takeWhile test = run := by
  rw [List.takeWhile_append_of_pos all, stops.takeWhile_eq_nil, List.append_nil]

theorem dropWhile_append_of_stopsAt (all : ∀ c ∈ run, test c = true)
    (stops : StopsAt test rest) : (run ++ rest).dropWhile test = rest := by
  rw [List.dropWhile_append_of_pos all, stops.dropWhile_eq]

theorem stopsAt_dropWhile (test : Char → Bool) (text : Text) :
    StopsAt test (text.dropWhile test) := by
  induction text with
  | nil => simp
  | cons c text ih =>
      by_cases met : test c = true
      · simpa [met] using ih
      · simp [met]

theorem forall_mem_takeWhile (test : Char → Bool) (text : Text) :
    ∀ c ∈ text.takeWhile test, test c = true := by
  intro c member
  exact List.mem_takeWhile_imp member

/-- A text that is not empty stops a scan with whatever follows it. -/
theorem StopsAt.append (stops : StopsAt test run) (nonempty : run ≠ []) (rest : Text) :
    StopsAt test (run ++ rest) := by
  obtain ⟨c, more, rfl⟩ := List.exists_cons_of_ne_nil nonempty
  exact stopsAt_cons.mpr (stopsAt_cons.mp stops)

theorem StopsAt.concat (stops : StopsAt test run) (next : test c = false) :
    StopsAt test (run ++ [c]) := by
  cases run with
  | nil => exact stopsAt_cons.mpr next
  | cons d run => exact stopsAt_cons.mpr (stopsAt_cons.mp stops)

/-- Where a scan stops does not depend on what is behind the next character. -/
theorem StopsAt.of_append_cons (stops : StopsAt test (run ++ c :: rest)) :
    StopsAt test (run ++ [c]) := by
  cases run with
  | nil => exact stopsAt_cons.mpr (stopsAt_cons.mp stops)
  | cons d run => exact stopsAt_cons.mpr (stopsAt_cons.mp stops)

/-- Where a run ends is determined. -/
theorem StopsAt.append_inj {other more : Text} (stops : StopsAt test rest)
    (otherStops : StopsAt test more) (all : ∀ c ∈ run, test c = true)
    (otherAll : ∀ c ∈ other, test c = true) (same : run ++ rest = other ++ more) :
    run = other ∧ rest = more := by
  constructor
  · rw [← takeWhile_append_of_stopsAt all stops, same,
      takeWhile_append_of_stopsAt otherAll otherStops]
  · rw [← dropWhile_append_of_stopsAt all stops, same,
      dropWhile_append_of_stopsAt otherAll otherStops]

/-- The scan cuts every text in two. -/
theorem exists_run (test : Char → Bool) (text : Text) :
    ∃ run rest, text = run ++ rest ∧ (∀ c ∈ run, test c = true) ∧ StopsAt test rest :=
  ⟨text.takeWhile test, text.dropWhile test, List.takeWhile_append_dropWhile.symm,
    forall_mem_takeWhile test text, stopsAt_dropWhile test text⟩

/-! ## Blanks at the ends -/

def trim (text : Text) : Text :=
  (text.dropWhile isSpace).rdropWhile isSpace

theorem rdropWhile_eq_self {text : Text} (ends : ∀ c ∈ text.getLast?, isSpace c = false) :
    text.rdropWhile isSpace = text := by
  rw [List.rdropWhile_eq_self_iff]
  intro nonempty
  rw [ends _ (List.getLast?_eq_some_getLast nonempty)]
  simp

theorem trim_eq_self {text : Text} (begins : StopsAt isSpace text)
    (ends : ∀ c ∈ text.getLast?, isSpace c = false) : trim text = text := by
  rw [trim, begins.dropWhile_eq, rdropWhile_eq_self ends]

end Text

end Cppload

import Cppload.TextScan

/-!
# Finding a mark in a text

`std::string::find` returns the first place where a mark occurs.  Here the text is cut
there, into what is before the mark and what is after it.
-/

namespace Cppload.Text

/-- The first place where `mark` occurs in the text: what is before it and what is
after it. -/
def splitAt (mark : Text) : Text → Option (Text × Text)
  | [] => if mark = [] then some ([], []) else none
  | c :: rest =>
      if mark <+: c :: rest then some ([], (c :: rest).drop mark.length)
      else (splitAt mark rest).map fun parts => (c :: parts.1, parts.2)

/-- In `before ++ mark` the mark occurs at the end only. -/
def FirstAt (mark before : Text) : Prop :=
  ¬ mark <:+: (before ++ mark).dropLast

instance (mark before : Text) : Decidable (FirstAt mark before) :=
  inferInstanceAs (Decidable (¬ _))

variable {mark text before after : Text}

theorem firstAt_nil (nonempty : mark ≠ []) : FirstAt mark [] := by
  intro occurs
  have shorter := occurs.length_le
  have positive := List.length_pos_of_ne_nil nonempty
  rw [List.nil_append, List.length_dropLast] at shorter
  omega

/-- Before a character at which the mark does not begin, nothing changes. -/
theorem firstAt_cons {c : Char} (nonempty : mark ≠ [])
    (other : ¬ mark <+: c :: (before ++ mark ++ after)) :
    FirstAt mark (c :: before) ↔ FirstAt mark before := by
  have marked : before ++ mark ≠ [] := by simp [nonempty]
  have initial : (before ++ mark).dropLast <+: before ++ mark ++ after :=
    (List.dropLast_prefix _).trans (List.prefix_append _ _)
  have behind : ¬ mark <+: c :: (before ++ mark).dropLast :=
    fun begins => other (begins.trans ((List.prefix_cons_inj c).mpr initial))
  unfold FirstAt
  rw [List.cons_append, List.dropLast_cons_of_ne_nil marked, List.infix_cons_iff]
  simp [behind]

/-- No other occurrence is before the first one. -/
theorem FirstAt.length_le {other : Text} (first : FirstAt mark before)
    (occurs : other ++ mark <+: before ++ mark ++ after) : before.length ≤ other.length := by
  by_contra longer
  have initial : (before ++ mark).dropLast <+: before ++ mark ++ after :=
    (List.dropLast_prefix _).trans (List.prefix_append _ _)
  have within : other ++ mark <+: (before ++ mark).dropLast := by
    apply List.prefix_of_prefix_length_le occurs initial
    rw [List.length_dropLast, List.length_append, List.length_append]
    omega
  exact first ((List.suffix_append other mark).isInfix.trans within.isInfix)

/-- What is after another occurrence is after the first one. -/
theorem FirstAt.suffix {other tail : Text} (first : FirstAt mark before)
    (same : other ++ mark ++ tail = before ++ mark ++ after) : tail <:+ after := by
  have short := first.length_le ⟨tail, same⟩
  have lengths := congrArg List.length same
  simp only [List.length_append] at lengths
  have behind : tail <:+ before ++ mark ++ after := by
    rw [← same]
    exact List.suffix_append _ _
  apply List.suffix_of_suffix_length_le behind (List.suffix_append _ _)
  omega

/-- A mark that begins the text is not first anywhere else. -/
theorem eq_nil_of_firstAt (first : FirstAt mark before)
    (begins : mark <+: before ++ mark ++ after) : before = [] := by
  have short := @FirstAt.length_le mark before after [] first begins
  exact List.eq_nil_of_length_eq_zero (Nat.le_zero.mp short)

/-- The cut is at the first place where the mark occurs. -/
theorem splitAt_eq_some_iff (nonempty : mark ≠ []) :
    splitAt mark text = some (before, after) ↔
      text = before ++ mark ++ after ∧ FirstAt mark before := by
  induction text generalizing before with
  | nil => simp [splitAt, nonempty]
  | cons c rest ih =>
      by_cases begins : mark <+: c :: rest
      · rw [splitAt, if_pos begins]
        obtain ⟨tail, split⟩ := begins
        constructor
        · intro cut
          obtain ⟨rfl, rfl⟩ := Prod.mk.inj (Option.some.inj cut)
          refine ⟨?_, firstAt_nil nonempty⟩
          rw [← split, List.drop_left, List.nil_append]
        · rintro ⟨whole, first⟩
          have begins : mark <+: before ++ mark ++ after := whole ▸ ⟨tail, split⟩
          obtain rfl := eq_nil_of_firstAt first begins
          rw [whole, List.nil_append, List.drop_left]
      · rw [splitAt, if_neg begins, Option.map_eq_some_iff]
        constructor
        · rintro ⟨⟨front, back⟩, cut, same⟩
          obtain ⟨rfl, rfl⟩ := Prod.mk.inj same
          obtain ⟨rfl, first⟩ := ih.mp cut
          exact ⟨rfl, (firstAt_cons nonempty begins).mpr first⟩
        · rintro ⟨whole, first⟩
          cases before with
          | nil =>
              rw [whole] at begins
              exact absurd (List.prefix_append mark after) begins
          | cons d front =>
              obtain ⟨rfl, rfl⟩ := List.cons.inj whole
              exact ⟨(front, after), ih.mpr ⟨rfl, (firstAt_cons nonempty begins).mp first⟩, rfl⟩

theorem splitAt_eq_none_iff (nonempty : mark ≠ []) :
    splitAt mark text = none ↔ ¬ mark <:+: text := by
  induction text with
  | nil => simp [splitAt, nonempty]
  | cons c rest ih =>
      rw [List.infix_cons_iff, not_or, ← ih]
      by_cases begins : mark <+: c :: rest
      · simp [splitAt, begins]
      · simp [splitAt, begins]

/-- Only the first occurrence counts, whatever follows it. -/
theorem splitAt_append (nonempty : mark ≠ []) (first : FirstAt mark before) (after : Text) :
    splitAt mark (before ++ mark ++ after) = some (before, after) :=
  (splitAt_eq_some_iff nonempty).mpr ⟨rfl, first⟩

/-! ## Single characters -/

theorem firstAt_singleton {c : Char} : FirstAt [c] before ↔ c ∉ before := by
  rw [FirstAt, List.dropLast_concat, List.singleton_infix_iff]

theorem splitAt_char {c : Char} (absent : c ∉ before) (after : Text) :
    splitAt [c] (before ++ c :: after) = some (before, after) := by
  have cut := splitAt_append (List.cons_ne_nil c []) (firstAt_singleton.mpr absent) after
  rwa [List.append_assoc] at cut

theorem splitAt_char_eq_none {c : Char} (absent : c ∉ text) : splitAt [c] text = none := by
  rw [splitAt_eq_none_iff (List.cons_ne_nil c []), List.singleton_infix_iff]
  exact absent

/-! ## The last occurrence -/

/-- `std::string::rfind`: the text is cut at the last place where the character occurs. -/
def splitAtLast (c : Char) (text : Text) : Option (Text × Text) :=
  (splitAt [c] text.reverse).map fun parts => (parts.2.reverse, parts.1.reverse)

theorem splitAtLast_append {c : Char} (absent : c ∉ after) (before : Text) :
    splitAtLast c (before ++ c :: after) = some (before, after) := by
  have reversed : (before ++ c :: after).reverse = after.reverse ++ c :: before.reverse := by
    simp
  rw [splitAtLast, reversed, splitAt_char (by simpa using absent)]
  simp

theorem splitAtLast_eq_some_iff {c : Char} :
    splitAtLast c text = some (before, after) ↔ text = before ++ c :: after ∧ c ∉ after := by
  constructor
  · intro cut
    obtain ⟨⟨back, front⟩, found, same⟩ := Option.map_eq_some_iff.mp cut
    obtain ⟨rfl, rfl⟩ := Prod.mk.inj same
    obtain ⟨whole, first⟩ := (splitAt_eq_some_iff (List.cons_ne_nil c [])).mp found
    refine ⟨?_, by simpa using firstAt_singleton.mp first⟩
    rw [← List.reverse_reverse text, whole]
    simp
  · rintro ⟨rfl, absent⟩
    exact splitAtLast_append absent before

end Cppload.Text

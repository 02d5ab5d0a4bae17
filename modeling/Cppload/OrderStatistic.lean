import Mathlib

/-!
# Selecting an element by its rank

A selection rearranges a list so that the entry at one position is the one that
sorting would put there, with no larger entry before it and no smaller one after
it.  Which of the possible arrangements results is left open, but the entry at
the position, and up to their order the entries before it, are determined.  The
entry of rank `k` is the least one that at least `k` entries do not exceed.
-/

namespace Cppload.OrderStatistic

variable {Value : Type*} [LinearOrder Value] {position : ℕ}
variable {entries before after : List Value}

/-- The entries in increasing order. -/
def ascending (entries : List Value) : List Value :=
  entries.insertionSort (· ≤ ·)

theorem ascending_perm (entries : List Value) : (ascending entries).Perm entries :=
  List.perm_insertionSort _ _

theorem ascending_pairwise (entries : List Value) : (ascending entries).Pairwise (· ≤ ·) :=
  List.pairwise_insertionSort _ _

@[simp]
theorem length_ascending (entries : List Value) :
    (ascending entries).length = entries.length :=
  (ascending_perm entries).length_eq

/-- An increasing arrangement is the increasing arrangement. -/
theorem eq_ascending (perm : before.Perm entries) (increasing : before.Pairwise (· ≤ ·)) :
    before = ascending entries :=
  (perm.trans (ascending_perm entries).symm).eq_of_pairwise' increasing
    (ascending_pairwise entries)

theorem mergeSort_eq_ascending (entries : List Value) :
    entries.mergeSort (fun first second => first ≤ second) = ascending entries :=
  List.mergeSort_eq_insertionSort (· ≤ ·) entries

theorem ascending_le {first second : ℕ} {low high : Value}
    (lowFound : (ascending entries)[first]? = some low)
    (highFound : (ascending entries)[second]? = some high) (ordered : first ≤ second) :
    low ≤ high := by
  obtain ⟨lowWithin, rfl⟩ := List.getElem?_eq_some_iff.mp lowFound
  obtain ⟨highWithin, rfl⟩ := List.getElem?_eq_some_iff.mp highFound
  rcases Nat.eq_or_lt_of_le ordered with rfl | earlier
  · exact le_rfl
  · exact List.pairwise_iff_getElem.mp (ascending_pairwise entries) _ _ _ _ earlier

/-! ### Selection -/

/-- The rearrangement `after` has at `position` what sorting would put there. -/
structure Selects (position : ℕ) (before after : List Value) : Prop where
  perm : after.Perm before
  placed : ∃ smaller pivot larger, after = smaller ++ pivot :: larger ∧
    smaller.length = position ∧ (∀ entry ∈ smaller, entry ≤ pivot) ∧
    ∀ entry ∈ larger, pivot ≤ entry

/-- Sorting both sides of the pivot sorts the whole list. -/
theorem ascending_append {smaller larger : List Value} {pivot : Value}
    (perm : (smaller ++ pivot :: larger).Perm entries)
    (below : ∀ entry ∈ smaller, entry ≤ pivot) (above : ∀ entry ∈ larger, pivot ≤ entry) :
    ascending smaller ++ pivot :: ascending larger = ascending entries := by
  have smallerPerm := ascending_perm smaller
  have largerPerm := ascending_perm larger
  refine eq_ascending ((smallerPerm.append (largerPerm.cons pivot)).trans perm) ?_
  rw [List.pairwise_append, List.pairwise_cons]
  refine ⟨ascending_pairwise smaller, ⟨?_, ascending_pairwise larger⟩, ?_⟩
  · intro entry member
    exact above entry (largerPerm.mem_iff.mp member)
  · intro first member second secondMember
    have firstBelow := below first (smallerPerm.mem_iff.mp member)
    rcases List.mem_cons.mp secondMember with rfl | later
    · exact firstBelow
    · exact firstBelow.trans (above second (largerPerm.mem_iff.mp later))

theorem Selects.getElem? (selects : Selects position before after) :
    after[position]? = (ascending before)[position]? := by
  obtain ⟨smaller, pivot, larger, rfl, rfl, below, above⟩ := selects.placed
  rw [← ascending_append selects.perm below above]
  have lengthEq := length_ascending smaller
  rw [List.getElem?_append_right le_rfl, List.getElem?_append_right lengthEq.le, lengthEq,
    Nat.sub_self, List.getElem?_cons_zero, List.getElem?_cons_zero]

/-- The entries before the position are those that sorting would put there. -/
theorem Selects.ascending_take (selects : Selects position before after) :
    ascending (after.take position) = (ascending before).take position := by
  obtain ⟨smaller, pivot, larger, rfl, rfl, below, above⟩ := selects.placed
  rw [← ascending_append selects.perm below above, List.take_left, ← length_ascending smaller,
    List.take_left]

theorem Selects.length_eq (selects : Selects position before after) :
    after.length = before.length :=
  selects.perm.length_eq

/-- One way to select: sort everything. -/
theorem selects_ascending (within : position < entries.length) :
    Selects position entries (ascending entries) := by
  refine ⟨ascending_perm entries, ?_⟩
  have inside : position < (ascending entries).length := by simpa using within
  have split := List.take_append_drop position (ascending entries)
  rw [List.drop_eq_getElem_cons inside] at split
  have increasing := ascending_pairwise entries
  rw [← split, List.pairwise_append, List.pairwise_cons] at increasing
  obtain ⟨-, ⟨above, -⟩, below⟩ := increasing
  exact ⟨_, _, _, split.symm, List.length_take_of_le inside.le,
    fun entry member => below entry member _ List.mem_cons_self, above⟩

variable (Value) in
/-- A selection routine, whose choice among the arrangements is its own. -/
structure NthElement where
  arrange : ℕ → List Value → List Value
  selects : ∀ position entries, position < entries.length →
    Selects position entries (arrange position entries)

def NthElement.sorting : NthElement Value where
  arrange _ entries := ascending entries
  selects _ _ within := selects_ascending within

/-! ### Ranks -/

/-- The entry of a rank is the least one that so many entries do not exceed. -/
theorem isLeast_rank {pivot : Value} (found : (ascending entries)[position]? = some pivot) :
    IsLeast {value | value ∈ entries ∧ position < entries.countP (· ≤ value)} pivot := by
  have perm := ascending_perm entries
  obtain ⟨inside, -⟩ := List.getElem?_eq_some_iff.mp found
  rw [length_ascending] at inside
  obtain ⟨smaller, middle, larger, split, rfl, below, above⟩ := (selects_ascending inside).placed
  obtain rfl : middle = pivot := by simpa [split] using found
  rw [split] at perm
  refine ⟨⟨perm.mem_iff.mp (by simp), ?_⟩, ?_⟩
  · rw [← perm.countP_eq, List.countP_append, List.countP_cons]
    have all : smaller.countP (· ≤ middle) = smaller.length := by
      simpa [List.countP_eq_length] using below
    simp [all]
  · rintro value ⟨-, enough⟩
    by_contra exceeds
    have excess : value < middle := lt_of_not_ge exceeds
    have uncounted : (middle :: larger).countP (· ≤ value) = 0 := by
      simpa [List.countP_eq_zero, excess] using
        fun entry member => excess.trans_le (above entry member)
    rw [← perm.countP_eq, List.countP_append, uncounted] at enough
    exact absurd List.countP_le_length (Nat.not_le_of_lt enough)

end Cppload.OrderStatistic

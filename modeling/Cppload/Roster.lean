import Mathlib

/-!
# One entry of a list changes

A list of participants, in which one entry is replaced or a new one is added at
the end, and what this does to membership, to the selected entries and to the
total of a quantity.
-/

namespace Cppload.Roster

variable {Entry Selected : Type*} {entries : List Entry} {index : ℕ}
variable {before after : Entry}

theorem getElem?_set_cases {other : ℕ} {entry : Entry}
    (found : (entries.set index after)[other]? = some entry) :
    (other = index ∧ entry = after) ∨ (other ≠ index ∧ entries[other]? = some entry) := by
  rw [List.getElem?_set] at found
  split at found
  · rename_i same
    split at found
    · exact .inl ⟨same.symm, (Option.some.inj found).symm⟩
    · simp at found
  · rename_i distinct
    exact .inr ⟨fun same => distinct same.symm, found⟩

theorem getElem?_set_self (found : entries[index]? = some before) :
    (entries.set index after)[index]? = some after := by
  obtain ⟨within, -⟩ := List.getElem?_eq_some_iff.mp found
  simp [within]

theorem set_eq_self (found : entries[index]? = some before) :
    entries.set index before = entries := by
  obtain ⟨within, rfl⟩ := List.getElem?_eq_some_iff.mp found
  exact List.set_getElem_self within

theorem getElem?_concat_cases {added entry : Entry} {other : ℕ}
    (found : (entries ++ [added])[other]? = some entry) :
    entries[other]? = some entry ∨ (other = entries.length ∧ entry = added) := by
  rw [List.getElem?_append] at found
  split at found
  · exact .inl found
  · rename_i beyond
    obtain ⟨within, entryEq⟩ := List.getElem?_eq_some_iff.mp found
    simp only [List.length_singleton] at within
    simp only [List.getElem_singleton] at entryEq
    exact .inr ⟨by omega, entryEq.symm⟩

theorem set_concat (finished : List Entry) (last after : Entry) :
    (finished ++ [last]).set finished.length after = finished ++ [after] := by
  rw [List.set_append_right _ _ le_rfl, Nat.sub_self, List.set_cons_zero]

/-- When all entries but the last have ended, one that has not is the last. -/
theorem last_of_running {finished : List Entry} {last entry : Entry} {other : ℕ}
    {ended : Entry → Prop} (returned : ∀ earlier ∈ finished, ended earlier)
    (found : (finished ++ [last])[other]? = some entry) (running : ¬ended entry) :
    other = finished.length ∧ entry = last := by
  rcases getElem?_concat_cases found with old | same
  · exact absurd (returned entry (List.mem_of_getElem? old)) running
  · exact same

theorem mem_set_cases {entry : Entry} (member : entry ∈ entries.set index after) :
    entry = after ∨ ∃ other, other ≠ index ∧ entries[other]? = some entry := by
  obtain ⟨other, found⟩ := List.mem_iff_getElem?.mp member
  rcases getElem?_set_cases found with ⟨-, same⟩ | distinct
  · exact .inl same
  · exact .inr ⟨other, distinct⟩

/-- Both lists are the entry in question and all the others. -/
theorem set_perm (found : entries[index]? = some before) (after : Entry) :
    entries.Perm (before :: entries.eraseIdx index) ∧
      (entries.set index after).Perm (after :: entries.eraseIdx index) := by
  obtain ⟨within, entryEq⟩ := List.getElem?_eq_some_iff.mp found
  subst entryEq
  exact ⟨(List.getElem_cons_eraseIdx_perm within).symm,
    List.set_perm_cons_eraseIdx within after⟩

/-- Different entries select differently when nothing is selected twice. -/
theorem select_ne_of_nodup {select : Entry → Option Selected}
    (nodup : (entries.filterMap select).Nodup) {first second : ℕ} {entry other : Entry}
    (distinct : first ≠ second) (entryFound : entries[first]? = some entry)
    (otherFound : entries[second]? = some other) {selected : Selected}
    (entrySelects : select entry = some selected) : select other ≠ some selected := by
  intro otherSelects
  have old := (set_perm entryFound entry).1
  have rest : other ∈ entries.eraseIdx first := by
    exact List.mem_eraseIdx_iff_getElem?.mpr ⟨second, distinct.symm, otherFound⟩
  have twice := (old.filterMap select).nodup_iff.mp nodup
  simp only [List.filterMap_cons, entrySelects, List.nodup_cons, List.mem_filterMap] at twice
  exact twice.1 ⟨other, rest, otherSelects⟩

/-- Replacing an entry that selects nothing adds what the new one selects. -/
theorem filterMap_set_perm_of_none {select : Entry → Option Selected}
    {selected : Selected} (found : entries[index]? = some before)
    (nothing : select before = none) (something : select after = some selected) :
    ((entries.set index after).filterMap select).Perm
      (entries.filterMap select ++ [selected]) := by
  obtain ⟨old, new⟩ := set_perm found after
  have rest := (old.filterMap select).symm
  simp only [List.filterMap_cons, nothing] at rest
  have all := new.filterMap select
  simp only [List.filterMap_cons, something] at all
  exact (all.trans (rest.cons selected)).trans (List.perm_append_singleton _ _).symm

/-- Replacing an entry by one that selects nothing takes away what it selected. -/
theorem filterMap_set_perm_of_some {select : Entry → Option Selected}
    {selected : Selected} (found : entries[index]? = some before)
    (something : select before = some selected) (nothing : select after = none) :
    (entries.filterMap select).Perm
      (selected :: (entries.set index after).filterMap select) := by
  obtain ⟨old, new⟩ := set_perm found after
  have rest := (new.filterMap select).symm
  simp only [List.filterMap_cons, nothing] at rest
  have all := old.filterMap select
  simp only [List.filterMap_cons, something] at all
  exact all.trans (rest.cons selected)

/-- Taking away an entry that selects nothing changes no selection. -/
theorem filterMap_eraseIdx_of_none {select : Entry → Option Selected}
    (found : entries[index]? = some before) (nothing : select before = none) :
    (entries.eraseIdx index).filterMap select = entries.filterMap select := by
  obtain ⟨within, rfl⟩ := List.getElem?_eq_some_iff.mp found
  have split : entries = entries.take index ++ entries[index] :: entries.drop (index + 1) := by
    simp
  conv_rhs => rw [split]
  rw [List.eraseIdx_eq_take_drop_succ, List.filterMap_append, List.filterMap_append,
    List.filterMap_cons_none nothing]

/-- Taking away an entry that selects something takes that away from the selection. -/
theorem filterMap_eraseIdx_of_some {select : Entry → Option Selected} {selected : Selected}
    (found : entries[index]? = some before) (something : select before = some selected) :
    ∃ position, (entries.filterMap select)[position]? = some selected ∧
      (entries.filterMap select).eraseIdx position =
        (entries.eraseIdx index).filterMap select := by
  obtain ⟨within, rfl⟩ := List.getElem?_eq_some_iff.mp found
  have split : entries.filterMap select = (entries.take index).filterMap select ++
      selected :: (entries.drop (index + 1)).filterMap select := by
    conv_lhs => rw [← List.take_append_drop index entries, List.drop_eq_getElem_cons within]
    rw [List.filterMap_append, List.filterMap_cons_some something]
  refine ⟨((entries.take index).filterMap select).length, ?_, ?_⟩
  · rw [split]
    simp
  · rw [split, List.eraseIdx_append_of_length_le le_rfl, Nat.sub_self, List.eraseIdx_cons_zero,
      List.eraseIdx_eq_take_drop_succ, List.filterMap_append]

/-- Replacing an entry by one with the same image changes no image. -/
theorem map_set_of_eq {image : Entry → Selected} (found : entries[index]? = some before)
    (same : image after = image before) :
    (entries.set index after).map image = entries.map image := by
  obtain ⟨within, rfl⟩ := List.getElem?_eq_some_iff.mp found
  rw [List.map_set, same, ← List.map_set, List.set_getElem_self]

/-- Replacing an entry by one that selects the same changes no selection. -/
theorem filterMap_set_of_eq {select : Entry → Option Selected}
    (found : entries[index]? = some before) (same : select after = select before) :
    (entries.set index after).filterMap select = entries.filterMap select := by
  have images := congrArg (List.filterMap id) (map_set_of_eq found same)
  rwa [List.filterMap_map, List.filterMap_map] at images

theorem filterMap_set_perm_of_eq {select : Entry → Option Selected}
    (found : entries[index]? = some before) (same : select after = select before) :
    ((entries.set index after).filterMap select).Perm (entries.filterMap select) :=
  .of_eq (filterMap_set_of_eq found same)

/-- The total changes by what the entry in question changes. -/
theorem sum_map_set (amount : Entry → ℕ) (found : entries[index]? = some before)
    (after : Entry) :
    ((entries.set index after).map amount).sum + amount before =
      (entries.map amount).sum + amount after := by
  obtain ⟨old, new⟩ := set_perm found after
  rw [(old.map amount).sum_eq, (new.map amount).sum_eq]
  simp only [List.map_cons, List.sum_cons]
  omega

/-- Replacing an entry by one that counts the same changes no count. -/
theorem countP_set_of_eq {counts : Entry → Bool} (found : entries[index]? = some before)
    (same : counts after = counts before) :
    (entries.set index after).countP counts = entries.countP counts := by
  obtain ⟨old, new⟩ := set_perm found after
  rw [old.countP_eq, new.countP_eq, List.countP_cons, List.countP_cons, same]

theorem countP_set_of_ne {counts : Entry → Bool} (found : entries[index]? = some before)
    (uncounted : counts before = false) (counted : counts after = true) :
    (entries.set index after).countP counts = entries.countP counts + 1 := by
  obtain ⟨old, new⟩ := set_perm found after
  rw [old.countP_eq, new.countP_eq, List.countP_cons, List.countP_cons, uncounted, counted]
  rfl

/-- Only the entries from some position on can count. -/
theorem countP_le_of_uncounted {counts : Entry → Bool} (first : ℕ)
    (uncounted : ∀ position entry, position < first → entries[position]? = some entry →
      counts entry = false) :
    entries.countP counts ≤ entries.length - first := by
  have uncountedFirst : (entries.take first).countP counts = 0 := by
    refine List.countP_eq_zero.mpr fun entry member => ?_
    obtain ⟨position, found⟩ := List.mem_iff_getElem?.mp member
    obtain ⟨within, -⟩ := List.getElem?_eq_some_iff.mp found
    rw [List.length_take] at within
    rw [List.getElem?_take_of_lt (by omega)] at found
    simp [uncounted position entry (by omega) found]
  calc
    entries.countP counts =
        (entries.take first).countP counts + (entries.drop first).countP counts := by
      rw [← List.countP_append, List.take_append_drop]
    _ ≤ entries.length - first := by
      rw [uncountedFirst, Nat.zero_add, ← List.length_drop]
      exact List.countP_le_length

end Cppload.Roster

import Mathlib

/-!
# Tickets on a ring of cells

Tickets are natural numbers, and a ticket uses the cell given by its remainder
modulo the capacity.  As long as a window of tickets is no longer than the
capacity its tickets use different cells, so writing the cell of one ticket
disturbs no other ticket of the window.

When one writer takes the tickets in turn, the window holds the latest entries
of what it has written since some ticket.
-/

namespace Cppload.TicketRing

variable {Content : Type*} {capacity head tail : ℕ}
variable {cells : ℕ → Content} {holds : ℕ → Content → Prop} {excused : ℕ → Prop}

theorem mod_ne_of_lt {first second : ℕ} (before : first < second)
    (near : second < first + capacity) : first % capacity ≠ second % capacity := by
  intro equal
  have divides : capacity ∣ second - first :=
    (Nat.modEq_iff_dvd' before.le).mp equal
  have large := Nat.le_of_dvd (by omega) divides
  omega

/-- Different tickets of a window use different cells. -/
theorem mod_ne_of_window {first second : ℕ} (window : tail ≤ head + capacity)
    (distinct : first ≠ second) (firstAbove : head ≤ first) (firstBelow : first < tail)
    (secondAbove : head ≤ second) (secondBelow : second < tail) :
    first % capacity ≠ second % capacity := by
  rcases Nat.lt_or_gt_of_ne distinct with before | after
  · exact mod_ne_of_lt before (by omega)
  · exact (mod_ne_of_lt after (by omega)).symm

/-- The cell of every ticket in the window holds what it should, unless the
ticket is excused. -/
def Covered (capacity : ℕ) (cells : ℕ → Content) (holds : ℕ → Content → Prop)
    (head tail : ℕ) (excused : ℕ → Prop) : Prop :=
  ∀ ticket, head ≤ ticket → ticket < tail →
    holds ticket (cells (ticket % capacity)) ∨ excused ticket

theorem Covered.mono {excusedLater : ℕ → Prop} {laterHead : ℕ}
    (covered : Covered capacity cells holds head tail excused)
    (later : head ≤ laterHead)
    (implied : ∀ ticket, laterHead ≤ ticket → excused ticket → excusedLater ticket) :
    Covered capacity cells holds laterHead tail excusedLater := by
  intro ticket above below
  rcases covered ticket (later.trans above) below with held | excuse
  · exact .inl held
  · exact .inr (implied ticket above excuse)

/-- Claiming the next ticket excuses it. -/
theorem Covered.claim (covered : Covered capacity cells holds head tail excused)
    (claimed : excused tail) :
    Covered capacity cells holds head (tail + 1) excused := by
  intro ticket above below
  rcases Nat.lt_succ_iff_lt_or_eq.mp below with old | rfl
  · exact covered ticket above old
  · exact .inr claimed

/-- Writing the cell of a claimed ticket, while no later ticket uses that cell,
disturbs no other ticket of the window. -/
theorem Covered.write (covered : Covered capacity cells holds head tail excused)
    (window : tail ≤ head + capacity) {ticket : ℕ} (claimed : ticket < tail)
    (current : tail ≤ ticket + capacity) (content : Content) :
    Covered capacity (Function.update cells (ticket % capacity) content) holds head tail
      (fun other => other = ticket ∨ excused other) := by
  intro other above below
  rcases lt_trichotomy other ticket with before | rfl | after
  · rw [Function.update_of_ne (mod_ne_of_lt before (by omega))]
    exact (covered other above below).imp_right .inr
  · exact .inr (.inl rfl)
  · rw [Function.update_of_ne (mod_ne_of_lt after (by omega)).symm]
    exact (covered other above below).imp_right .inr

/-- Writing what a ticket should hold settles it. -/
theorem Covered.settle (ticket : ℕ)
    (covered : Covered capacity cells holds head tail
      (fun other => other = ticket ∨ excused other))
    (held : holds ticket (cells (ticket % capacity))) :
    Covered capacity cells holds head tail excused := by
  intro other above below
  rcases covered other above below with already | rfl | excuse
  · exact .inl already
  · exact .inl held
  · exact .inr excuse

/-! ### One writer -/

/-- The entries written since the ticket `base` are `history`, and those from the
ticket `head` on are in their cells. -/
structure Recent {Value : Type*} (capacity : ℕ) (cells : ℕ → Content)
    (holds : ℕ → Value → Content → Prop) (base head : ℕ) (history : List Value) : Prop where
  above : base ≤ head
  below : head ≤ base + history.length
  window : base + history.length ≤ head + capacity
  held : ∀ ticket value, head ≤ ticket → history[ticket - base]? = some value →
    holds ticket value (cells (ticket % capacity))

section Recent

variable {Value : Type*} {stored : ℕ → Value → Content → Prop} {base : ℕ}
variable {history : List Value}

theorem Recent.empty (capacity : ℕ) (cells : ℕ → Content)
    (stored : ℕ → Value → Content → Prop) (base : ℕ) :
    Recent capacity cells stored base base [] :=
  ⟨le_rfl, le_rfl, Nat.le_add_right _ _, by simp⟩

/-- The oldest entry of the window is given up. -/
theorem Recent.evict (recent : Recent capacity cells stored base head history)
    (occupied : head < base + history.length) :
    Recent capacity cells stored base (head + 1) history where
  above := recent.above.trans (Nat.le_succ head)
  below := occupied
  window := by
    have window := recent.window
    omega
  held := fun ticket value above => recent.held ticket value (Nat.le_of_succ_le above)

/-- The next ticket is written. -/
theorem Recent.push (recent : Recent capacity cells stored base head history)
    (room : base + history.length < head + capacity) {value : Value} {content : Content}
    (holding : stored (base + history.length) value content) :
    Recent capacity (Function.update cells ((base + history.length) % capacity) content)
      stored base head (history ++ [value]) where
  above := recent.above
  below := by
    rw [List.length_append]
    exact recent.below.trans (by omega)
  window := by
    rw [List.length_append, List.length_singleton]
    omega
  held := by
    intro ticket entry above found
    have aboveBase := recent.above.trans above
    rw [List.getElem?_append] at found
    split at found
    · rename_i old
      have before : ticket < base + history.length := by omega
      rw [Function.update_of_ne (mod_ne_of_lt before (by omega))]
      exact recent.held ticket entry above found
    · rename_i new
      have last : ticket - base - history.length = 0 := by
        by_contra later
        rw [List.getElem?_eq_none (by simp only [List.length_singleton]; omega)] at found
        cases found
      obtain rfl : ticket = base + history.length := by omega
      rw [last] at found
      cases found
      rw [Function.update_self]
      exact holding

/-- Only the cells of the window matter. -/
theorem Recent.congr {other : ℕ → Content}
    (recent : Recent capacity cells stored base head history)
    (same : ∀ ticket, head ≤ ticket → ticket < base + history.length →
      other (ticket % capacity) = cells (ticket % capacity)) :
    Recent capacity other stored base head history where
  above := recent.above
  below := recent.below
  window := recent.window
  held := by
    intro ticket value above found
    obtain ⟨within, -⟩ := List.getElem?_eq_some_iff.mp found
    rw [same ticket above (by omega)]
    exact recent.held ticket value above found

/-- Cells that hold the entries themselves, read in the order of their tickets. -/
theorem Recent.map_cells {entries : List Content}
    (recent : Recent capacity cells (fun _ entry content => content = entry) base head entries) :
    (List.range' head (base + entries.length - head)).map
        (fun ticket => cells (ticket % capacity)) =
      entries.drop (head - base) := by
  have above := recent.above
  apply List.ext_getElem
  · rw [List.length_map, List.length_range', List.length_drop]
    omega
  · intro position mapped dropped
    rw [List.length_drop] at dropped
    have entry : entries[head + position - base]? = some entries[head - base + position] := by
      rw [Nat.sub_add_comm above]
      exact List.getElem?_eq_getElem (by omega)
    simp only [List.getElem_map, List.getElem_range', List.getElem_drop, Nat.one_mul]
    exact recent.held _ _ (Nat.le_add_right _ _) entry

end Recent

/-- A whole round of tickets, cell by cell from the cell of the first one. -/
theorem map_mod_range' (positive : 0 < capacity) (start : ℕ) :
    (List.range' start capacity).map (fun ticket => cells (ticket % capacity)) =
      (List.range' (start % capacity) (capacity - start % capacity)).map cells ++
        (List.range (start % capacity)).map cells := by
  have below := Nat.mod_lt start positive
  apply List.ext_getElem
  · simp only [List.length_map, List.length_range', List.length_append, List.length_range]
    omega
  · intro position mapped appended
    rw [List.length_map, List.length_range'] at mapped
    have cellEq : (start + position) % capacity = (start % capacity + position) % capacity := by
      rw [Nat.add_mod, Nat.mod_eq_of_lt mapped]
    simp only [List.getElem_append, List.getElem_map, List.getElem_range', List.getElem_range,
      List.length_map, List.length_range', Nat.one_mul, cellEq]
    split
    · rw [Nat.mod_eq_of_lt (by omega)]
    · rw [Nat.mod_eq_sub_mod (by omega), Nat.mod_eq_of_lt (by omega)]
      exact congrArg cells (by omega)

end Cppload.TicketRing

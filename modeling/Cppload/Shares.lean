import Mathlib

/-!
# Drawing by share

A list of shares cuts the numbers below its sum into consecutive intervals, one for
each share and as long as the share.  A draw is located by taking the shares off it one
after the other, so that it falls on a position exactly as often as the share there
says.
-/

namespace Cppload.Shares

variable {shares : List ℕ} {draw position share : ℕ}

/-- The position of the interval in which the draw lies. -/
def locate : List ℕ → ℕ → Option ℕ
  | [], _ => none
  | share :: rest, draw =>
      if draw < share then some 0 else (locate rest (draw - share)).map (· + 1)

theorem locate_cons_of_lt {rest : List ℕ} (inside : draw < share) :
    locate (share :: rest) draw = some 0 :=
  if_pos inside

theorem locate_cons_of_le {rest : List ℕ} (beyond : share ≤ draw) :
    locate (share :: rest) draw = (locate rest (draw - share)).map (· + 1) :=
  if_neg (not_lt.mpr beyond)

/-- The interval of a position lies between the sums of the shares before it and of
those up to it. -/
theorem locate_eq_some_iff :
    locate shares draw = some position ↔
      (shares.take position).sum ≤ draw ∧ draw < (shares.take (position + 1)).sum := by
  induction shares generalizing draw position with
  | nil => simp [locate]
  | cons share rest ih =>
      by_cases inside : draw < share
      · rw [locate_cons_of_lt inside]
        cases position with
        | zero => simp [inside]
        | succ position =>
            simp only [Option.some.injEq, List.take_succ_cons, List.sum_cons]
            omega
      · rw [locate_cons_of_le (not_lt.mp inside)]
        cases position with
        | zero => simp [inside]
        | succ position =>
            simp only [Option.map_eq_some_iff, Nat.add_right_cancel_iff, exists_eq_right, ih,
              List.take_succ_cons, List.sum_cons]
            omega

theorem isSome_locate_iff : (locate shares draw).isSome ↔ draw < shares.sum := by
  induction shares generalizing draw with
  | nil => simp [locate]
  | cons share rest ih =>
      by_cases inside : draw < share
      · rw [locate_cons_of_lt inside, List.sum_cons, Option.isSome_some]
        simp only [true_iff]
        omega
      · rw [locate_cons_of_le (not_lt.mp inside), Option.isSome_map, ih, List.sum_cons]
        omega

/-- Among the draws below the sum, a position is hit as often as its share says. -/
theorem card_locate (found : shares[position]? = some share) :
    ((Finset.range shares.sum).filter fun draw => locate shares draw = some position).card =
      share := by
  have upTo : (shares.take (position + 1)).sum = (shares.take position).sum + share := by
    rw [List.take_add_one, found, List.sum_append]
    simp
  have within : (shares.take (position + 1)).sum ≤ shares.sum :=
    (List.take_sublist _ _).sum_le_sum fun _ _ => Nat.zero_le _
  have interval :
      ((Finset.range shares.sum).filter fun draw => locate shares draw = some position) =
        Finset.Ico (shares.take position).sum (shares.take (position + 1)).sum := by
    ext draw
    simp only [Finset.mem_filter, Finset.mem_range, Finset.mem_Ico, locate_eq_some_iff]
    omega
  rw [interval, Nat.card_Ico, upTo]
  omega

end Cppload.Shares

import Cppload.ScenarioSteps
import Cppload.Shares

/-!
# The weighted choice of a scenario

`pick_weighted_scenario` adds up the weights in 64 bits, draws a number below the sum
and takes the weights off it until it is smaller than one of them.  It returns a
pointer, that is a position in the list: two scenarios may be equal.  A weight of zero
counts as one, in the sum as in the loop.
-/

namespace Cppload.Engine

variable {scenarios : List Scenario}

/-- `s.weight > 0 ? s.weight : 1`. -/
def Scenario.share (scenario : Scenario) : ℕ :=
  if 0 < scenario.weight then scenario.weight else 1

/-- `total`, a `uint64_t`. -/
def totalWeight (scenarios : List Scenario) : ℕ :=
  scenarios.foldl (fun total scenario => (total + scenario.share) % 2 ^ 64) 0

theorem Scenario.share_eq_max (scenario : Scenario) : scenario.share = max scenario.weight 1 := by
  unfold share
  split <;> omega

/-- The loop is the search for the share that the draw falls on. -/
theorem drawIndex_eq_locate (scenarios : List Scenario) (pick : ℕ) :
    drawIndex scenarios pick = Shares.locate (scenarios.map Scenario.share) pick := by
  induction scenarios generalizing pick with
  | nil => rfl
  | cons scenario rest ih =>
      rw [List.map_cons, Shares.locate, ← ih]
      rfl

/-! ## The sum of the weights -/

theorem foldl_weight (scenarios : List Scenario) (total : ℕ) :
    scenarios.foldl (fun total scenario => (total + scenario.share) % 2 ^ 64) (total % 2 ^ 64) =
      (total + (scenarios.map Scenario.share).sum) % 2 ^ 64 := by
  induction scenarios generalizing total with
  | nil => rfl
  | cons scenario rest ih =>
      rw [List.foldl_cons, Nat.mod_add_mod, ih, List.map_cons, List.sum_cons, Nat.add_assoc]

/-- Fewer than `2 ^ 32` weights of 32 bits do not add up to `2 ^ 64`. -/
theorem sum_share_lt (weights : ∀ scenario ∈ scenarios, scenario.weight < 2 ^ 32)
    (few : scenarios.length < 2 ^ 32) : (scenarios.map Scenario.share).sum < 2 ^ 64 := by
  have bounded : ∀ share ∈ scenarios.map Scenario.share, share ≤ 2 ^ 32 := by
    intro share member
    obtain ⟨scenario, listed, rfl⟩ := List.mem_map.mp member
    have small := weights scenario listed
    rw [scenario.share_eq_max]
    omega
  calc (scenarios.map Scenario.share).sum
      ≤ (scenarios.map Scenario.share).length • 2 ^ 32 := List.sum_le_card_nsmul _ _ bounded
    _ = scenarios.length * 2 ^ 32 := by rw [List.length_map, smul_eq_mul]
    _ < 2 ^ 32 * 2 ^ 32 := by omega
    _ = 2 ^ 64 := by norm_num

theorem totalWeight_eq_sum (weights : ∀ scenario ∈ scenarios, scenario.weight < 2 ^ 32)
    (few : scenarios.length < 2 ^ 32) :
    totalWeight scenarios = (scenarios.map Scenario.share).sum := by
  have added := foldl_weight scenarios 0
  rw [Nat.zero_add, Nat.mod_eq_of_lt (sum_share_lt weights few)] at added
  exact added

/-- Inside the loop the fall-through plays no part. -/
theorem pickWeightedIndex_eq_some_iff {pick position : ℕ}
    (inside : (drawIndex scenarios pick).isSome) :
    pickWeightedIndex scenarios pick = some position ↔
      drawIndex scenarios pick = some position := by
  obtain ⟨found, drawn⟩ := Option.isSome_iff_exists.mp inside
  rw [pickWeightedIndex, drawn, Option.some_or]

/-- Over all draws below the sum of the weights, which is not cut off to 64 bits, the
scenario at each position is returned as often as its weight says, and always inside
the loop. -/
theorem pickWeightedScenario_proportional (nonempty : scenarios ≠ [])
    (weights : ∀ scenario ∈ scenarios, scenario.weight < 2 ^ 32)
    (few : scenarios.length < 2 ^ 32) :
    0 < totalWeight scenarios ∧
    totalWeight scenarios = (scenarios.map fun scenario => max scenario.weight 1).sum ∧
    (∀ position scenario, scenarios[position]? = some scenario →
      ((Finset.range (totalWeight scenarios)).filter fun pick =>
          pickWeightedIndex scenarios pick = some position).card = max scenario.weight 1) ∧
    ∀ pick < totalWeight scenarios, ∃ position scenario,
      drawIndex scenarios pick = some position ∧ scenarios[position]? = some scenario ∧
        pickWeightedScenario scenarios pick = some scenario := by
  have total := totalWeight_eq_sum weights few
  have inside (pick : ℕ) (below : pick < totalWeight scenarios) :
      (drawIndex scenarios pick).isSome := by
    rw [drawIndex_eq_locate, Shares.isSome_locate_iff, ← total]
    exact below
  refine ⟨?_, ?_, ?_, ?_⟩
  · obtain ⟨scenario, rest, rfl⟩ := List.exists_cons_of_ne_nil nonempty
    rw [total, List.map_cons, List.sum_cons, scenario.share_eq_max]
    omega
  · rw [total]
    exact congrArg List.sum (List.map_congr_left fun scenario _ => scenario.share_eq_max)
  · intro position scenario found
    have share : (scenarios.map Scenario.share)[position]? = some (max scenario.weight 1) := by
      rw [List.getElem?_map, found, Option.map_some, scenario.share_eq_max]
    rw [← Shares.card_locate share, ← total]
    congr 1
    apply Finset.filter_congr
    intro pick below
    rw [pickWeightedIndex_eq_some_iff (inside pick (Finset.mem_range.mp below)),
      drawIndex_eq_locate]
  · intro pick below
    obtain ⟨position, drawn⟩ := Option.isSome_iff_exists.mp (inside pick below)
    have within := drawIndex_lt drawn
    refine ⟨position, scenarios[position], drawn, List.getElem?_eq_getElem within, ?_⟩
    rw [pickWeightedScenario_eq,
      (pickWeightedIndex_eq_some_iff (inside pick below)).mpr drawn, Option.bind_some]
    exact List.getElem?_eq_getElem within

/-- Of 101 draws, the scenario of weight 0 gets one. -/
theorem pickWeightedScenario_proportional_zero :
    totalWeight [⟨70, []⟩, ⟨0, []⟩, ⟨30, []⟩] = 101 ∧
    ((Finset.range 101).filter fun pick =>
      pickWeightedIndex [⟨70, []⟩, ⟨0, []⟩, ⟨30, []⟩] pick = some 1).card = 1 := by
  have total : totalWeight [⟨70, []⟩, ⟨0, []⟩, ⟨30, []⟩] = 101 := by decide
  have counts := pickWeightedScenario_proportional
    (List.cons_ne_nil (⟨70, []⟩ : Scenario) [⟨0, []⟩, ⟨30, []⟩]) (by decide) (by decide)
  rw [total] at counts
  exact ⟨total, counts.2.2.1 1 ⟨0, []⟩ rfl⟩

end Cppload.Engine

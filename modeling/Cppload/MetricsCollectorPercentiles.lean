import Cppload.MetricsCollector
import Cppload.OrderStatistic

/-!
# Percentiles of the metrics collector

`snapshot` selects the 99th percentile in the buffered latencies and then the
95th percentile among those before it, `percentile` selects once.  The order in
which `std::nth_element` leaves the other samples is not specified, so every call
has a routine of its own.  The products with the size are taken exactly.
-/

namespace Cppload.Metrics

open OrderStatistic

def kP95 : ℚ :=
  95 / 100

def kP99 : ℚ :=
  99 / 100

/-- `static_cast<uint64_t>` of a signed number. -/
def toUnsigned (value : ℤ) : ℕ :=
  (value % 2 ^ 64).toNat

/-- The truncated product, at most the last index. -/
def percentileIndex (size : ℕ) (p : ℚ) : ℕ :=
  min ⌊size * p⌋₊ (size - 1)

structure Percentiles where
  p95LatencyUs : ℕ
  p99LatencyUs : ℕ
  deriving DecidableEq, Repr

/-- The part of `snapshot` that works on the buffered samples. -/
def snapshotPercentiles (first second : NthElement ℤ) (samples : List ℤ) : Percentiles :=
  if samples.isEmpty then
    { p95LatencyUs := 0
      p99LatencyUs := 0 }
  else
    let p95Idx := percentileIndex samples.length kP95
    let p99Idx := percentileIndex samples.length kP99
    if p99Idx > p95Idx then
      let selected := first.arrange p99Idx samples
      -- the second call works in place on the part left of the pivot
      let sorted := second.arrange p95Idx (selected.take p99Idx) ++ selected.drop p99Idx
      { p95LatencyUs := toUnsigned (sorted.getD p95Idx 0)
        p99LatencyUs := toUnsigned (sorted.getD p99Idx 0) }
    else
      let sorted := first.arrange p95Idx samples
      { p95LatencyUs := toUnsigned (sorted.getD p95Idx 0)
        p99LatencyUs := toUnsigned (sorted.getD p95Idx 0) }

def percentile (select : NthElement ℤ) (samples : List ℤ) (p : ℚ) : ℕ :=
  if p < 0 ∨ p > 1 then 0
  else if samples.isEmpty then 0
  else
    let idx := percentileIndex samples.length p
    toUnsigned ((select.arrange idx samples).getD idx 0)

/-! ### The selected samples -/

section Selection

variable {samples : List ℤ} {p q : ℚ} {size : ℕ}

theorem percentileIndex_lt (positive : 0 < size) : percentileIndex size p < size :=
  (min_le_right _ _).trans_lt (Nat.sub_lt positive Nat.one_pos)

theorem percentileIndex_mono (ordered : p ≤ q) :
    percentileIndex size p ≤ percentileIndex size q := by
  have products : (size : ℚ) * p ≤ size * q :=
    mul_le_mul_of_nonneg_left ordered (Nat.cast_nonneg size)
  exact min_le_min_right _ (Nat.floor_le_floor products)

theorem percentileIndex_zero : percentileIndex size 0 = 0 := by
  simp [percentileIndex]

theorem percentileIndex_one : percentileIndex size 1 = size - 1 := by
  simp [percentileIndex]

/-- The sample of a percentile. -/
def sampleAt (samples : List ℤ) (p : ℚ) : ℤ :=
  (ascending samples).getD (percentileIndex samples.length p) 0

theorem arrange_getD (select : NthElement ℤ) {position : ℕ}
    (within : position < samples.length) :
    (select.arrange position samples).getD position 0 = (ascending samples).getD position 0 := by
  rw [List.getD_eq_getElem?_getD, (select.selects position samples within).getElem?,
    List.getD_eq_getElem?_getD]

theorem percentile_eq (select : NthElement ℤ) (buffered : samples ≠ []) (nonneg : 0 ≤ p)
    (le_one : p ≤ 1) : percentile select samples p = toUnsigned (sampleAt samples p) := by
  have inRange : ¬ (p < 0 ∨ p > 1) := not_or.mpr ⟨nonneg.not_gt, le_one.not_gt⟩
  have occupied : ¬ samples.isEmpty = true := by simpa using buffered
  rw [percentile, if_neg inRange, if_neg occupied]
  exact congrArg toUnsigned
    (arrange_getD select (percentileIndex_lt (List.length_pos_iff.mpr buffered)))

/-- Both passes find the samples of their percentiles. -/
theorem snapshotPercentiles_eq (first second : NthElement ℤ) (buffered : samples ≠ []) :
    snapshotPercentiles first second samples =
      { p95LatencyUs := toUnsigned (sampleAt samples kP95)
        p99LatencyUs := toUnsigned (sampleAt samples kP99) } := by
  have positive := List.length_pos_iff.mpr buffered
  have occupied : ¬ samples.isEmpty = true := by simpa using buffered
  have p95Within : percentileIndex samples.length kP95 < samples.length :=
    percentileIndex_lt positive
  have p99Within : percentileIndex samples.length kP99 < samples.length :=
    percentileIndex_lt positive
  have ordered : percentileIndex samples.length kP95 ≤ percentileIndex samples.length kP99 :=
    percentileIndex_mono (by decide +kernel)
  rw [snapshotPercentiles, if_neg occupied]
  dsimp only [sampleAt]
  generalize percentileIndex samples.length kP95 = p95Idx at *
  generalize percentileIndex samples.length kP99 = p99Idx at *
  split
  · rename_i apart
    have selected := first.selects p99Idx samples p99Within
    have partLength : ((first.arrange p99Idx samples).take p99Idx).length = p99Idx :=
      List.length_take_of_le (selected.length_eq ▸ p99Within.le)
    have refined := second.selects p95Idx _ (partLength.symm ▸ apart)
    have refinedLength := refined.length_eq.trans partLength
    congr 2
    · rw [List.getD_append _ _ _ _ (refinedLength.symm ▸ apart), List.getD_eq_getElem?_getD,
        refined.getElem?, selected.ascending_take, List.getElem?_take_of_lt apart,
        List.getD_eq_getElem?_getD]
    · rw [List.getD_append_right _ _ _ _ refinedLength.le, refinedLength, Nat.sub_self,
        List.getD_eq_getElem?_getD, List.getElem?_drop, Nat.add_zero, selected.getElem?,
        List.getD_eq_getElem?_getD]
  · rename_i same
    obtain rfl : p95Idx = p99Idx := le_antisymm ordered (Nat.le_of_not_lt same)
    rw [arrange_getD first p95Within]

/-- The sample stands at its place in the sorted list. -/
theorem ascending_sampleAt (buffered : samples ≠ []) (p : ℚ) :
    (ascending samples)[percentileIndex samples.length p]? = some (sampleAt samples p) := by
  have within : percentileIndex samples.length p < (ascending samples).length := by
    rw [length_ascending]
    exact percentileIndex_lt (List.length_pos_iff.mpr buffered)
  rw [sampleAt, List.getD_eq_getElem _ _ within]
  exact List.getElem?_eq_getElem within

theorem sampleAt_mem (buffered : samples ≠ []) (p : ℚ) : sampleAt samples p ∈ samples :=
  (ascending_perm samples).mem_iff.mp (List.mem_of_getElem? (ascending_sampleAt buffered p))

theorem sampleAt_mono (buffered : samples ≠ []) (ordered : p ≤ q) :
    sampleAt samples p ≤ sampleAt samples q :=
  ascending_le (ascending_sampleAt buffered p) (ascending_sampleAt buffered q)
    (percentileIndex_mono ordered)

/-- The percentiles at zero and one are the extreme samples. -/
theorem sampleAt_bounds {value : ℤ} (member : value ∈ samples) :
    sampleAt samples 0 ≤ value ∧ value ≤ sampleAt samples 1 := by
  have buffered := List.ne_nil_of_mem member
  have least := ascending_sampleAt buffered 0
  have greatest := ascending_sampleAt buffered 1
  rw [percentileIndex_zero] at least
  rw [percentileIndex_one] at greatest
  obtain ⟨position, found⟩ :=
    List.mem_iff_getElem?.mp ((ascending_perm samples).mem_iff.mpr member)
  obtain ⟨within, -⟩ := List.getElem?_eq_some_iff.mp found
  rw [length_ascending] at within
  exact ⟨ascending_le least found (Nat.zero_le position),
    ascending_le found greatest (Nat.le_sub_one_of_lt within)⟩

end Selection

/-! ### The conversion to an unsigned number -/

section Conversion

variable {value : ℤ}

theorem toUnsigned_of_nonneg (nonneg : 0 ≤ value) (le : value ≤ microsecondsMax) :
    (toUnsigned value : ℤ) = value := by
  unfold toUnsigned microsecondsMax at *
  omega

theorem toUnsigned_of_neg (negative : value < 0) (ge : microsecondsMin ≤ value) :
    microsecondsMax < toUnsigned value := by
  unfold toUnsigned microsecondsMax microsecondsMin at *
  omega

end Conversion

/-! ### Both ways to a percentile -/

/-- The reported percentiles are the samples at their positions of the sorted
list, `snapshot` and `percentile` agree, and percentiles grow with `p`. -/
structure PercentilesExact (samples : List ℤ) (first second select other : NthElement ℤ) :
    Prop where
  p95 : (ascending samples)[min ⌊samples.length * kP95⌋₊ (samples.length - 1)]? =
    some ((snapshotPercentiles first second samples).p95LatencyUs : ℤ)
  p99 : (ascending samples)[min ⌊samples.length * kP99⌋₊ (samples.length - 1)]? =
    some ((snapshotPercentiles first second samples).p99LatencyUs : ℤ)
  p95_eq_percentile : (snapshotPercentiles first second samples).p95LatencyUs =
    percentile select samples kP95
  p99_eq_percentile : (snapshotPercentiles first second samples).p99LatencyUs =
    percentile select samples kP99
  p95_le_p99 : (snapshotPercentiles first second samples).p95LatencyUs ≤
    (snapshotPercentiles first second samples).p99LatencyUs
  p99_le_largest : ∃ largest, IsGreatest {value | value ∈ samples} largest ∧
    ((snapshotPercentiles first second samples).p99LatencyUs : ℤ) ≤ largest
  monotone : ∀ p q, 0 ≤ p → p ≤ q → q ≤ 1 →
    percentile select samples p ≤ percentile other samples q

theorem percentilesExact_of_nonneg {samples : List ℤ} (buffered : samples ≠ [])
    (ranged : ∀ value ∈ samples, microsecondsMin ≤ value ∧ value ≤ microsecondsMax)
    (nonneg : ∀ value ∈ samples, 0 ≤ value) (first second select other : NthElement ℤ) :
    PercentilesExact samples first second select other := by
  have exactly (p : ℚ) : (toUnsigned (sampleAt samples p) : ℤ) = sampleAt samples p :=
    toUnsigned_of_nonneg (nonneg _ (sampleAt_mem buffered p))
      (ranged _ (sampleAt_mem buffered p)).2
  have grows {p q : ℚ} (ordered : p ≤ q) :
      toUnsigned (sampleAt samples p) ≤ toUnsigned (sampleAt samples q) := by
    have increase := sampleAt_mono buffered ordered
    rw [← exactly p, ← exactly q] at increase
    exact_mod_cast increase
  have reported := snapshotPercentiles_eq first second buffered
  refine ⟨?_, ?_, ?_, ?_, ?_, ?_, ?_⟩
  · rw [reported, exactly]
    exact ascending_sampleAt buffered kP95
  · rw [reported, exactly]
    exact ascending_sampleAt buffered kP99
  · rw [reported, percentile_eq select buffered (by decide +kernel) (by decide +kernel)]
  · rw [reported, percentile_eq select buffered (by decide +kernel) (by decide +kernel)]
  · rw [reported]
    exact grows (by decide +kernel)
  · refine ⟨sampleAt samples 1, ⟨sampleAt_mem buffered 1, ?_⟩, ?_⟩
    · intro value member
      exact (sampleAt_bounds member).2
    · rw [reported, exactly]
      exact sampleAt_mono buffered (by decide +kernel)
  · intro p q pNonneg ordered qLe
    rw [percentile_eq select buffered pNonneg (ordered.trans qLe),
      percentile_eq other buffered (pNonneg.trans ordered) qLe]
    exact grows ordered

/-- The percentiles are right exactly when no negative latency is buffered. -/
theorem percentiles_exact_iff (samples : List ℤ) (buffered : samples ≠ [])
    (ranged : ∀ value ∈ samples, microsecondsMin ≤ value ∧ value ≤ microsecondsMax) :
    (∀ first second select other, PercentilesExact samples first second select other) ↔
      ∀ value ∈ samples, 0 ≤ value := by
  refine ⟨?_, percentilesExact_of_nonneg buffered ranged⟩
  intro exactly value member
  have agrees := exactly .sorting .sorting .sorting .sorting
  by_contra negative
  -- the least sample is negative, and its conversion exceeds every sample
  have least : sampleAt samples 0 < 0 :=
    (sampleAt_bounds member).1.trans_lt (Int.not_le.mp negative)
  have large := toUnsigned_of_neg least (ranged _ (sampleAt_mem buffered 0)).1
  have ordered := agrees.monotone 0 kP95 le_rfl (by decide +kernel) (by decide +kernel)
  rw [← agrees.p95_eq_percentile,
    percentile_eq .sorting buffered le_rfl (by decide +kernel)] at ordered
  have within := (ranged _ ((ascending_perm samples).mem_iff.mp
    (List.mem_of_getElem? agrees.p95))).2
  omega

/-- Two samples of which one is negative: the lowest percentile is the largest
number of all. -/
theorem percentile_negative_sample :
    percentile .sorting [-1, 5] 0 = 2 ^ 64 - 1 ∧ percentile .sorting [-1, 5] 1 = 5 ∧
      snapshotPercentiles .sorting .sorting [-1] =
        { p95LatencyUs := 2 ^ 64 - 1
          p99LatencyUs := 2 ^ 64 - 1 } := by
  decide +kernel

/-- Twenty-one samples, the least size at which both passes run. -/
theorem percentiles_exact_two_passes :
    PercentilesExact ((List.range 21).map fun k => 40 - (k : ℤ)) .sorting .sorting .sorting
      .sorting :=
  (percentiles_exact_iff _ (by decide) (by decide +kernel)).mpr (by decide) _ _ _ _

end Cppload.Metrics

import Mathlib.Algebra.BigOperators.Ring.List
import ObstacleTracking.Detection.Histogram
import ObstacleTracking.Proofs.Scalar.Field

/-!
# Totals of histograms

Every coordinate falls into one bin, whatever the rounding of its index. So the bins of an axis hold
the fractions of one whole, and a histogram has a total of at most three.
-/

namespace ObstacleTracking.Histogram

/-! ### One axis -/

section Indices

variable {α : Type} [Scalar α] {bins : ℕ}

theorem binIndex_lt (hbins : 0 < bins) (low width coordinate : α) :
    binIndex bins low width coordinate < bins := by
  have hlast : binIndex bins low width coordinate ≤ bins - 1 := Nat.min_le_right _ _
  omega

/-- Counting each index once counts all of them. -/
theorem sum_count_range {indices : List ℕ} (h : ∀ i ∈ indices, i < bins) :
    ((List.range bins).map indices.count).sum = indices.length := by
  have hsum : ∑ i ∈ Finset.range bins, (indices : Multiset ℕ).count i = indices.length :=
    Multiset.sum_count_eq_card fun i hi => Finset.mem_range.mpr (h i hi)
  simp only [Multiset.coe_count] at hsum
  exact hsum

end Indices

variable {K : Type} [Field K] [LinearOrder K] [ExactRoots K]
  {bins : ℕ} {low high : K} {coordinates : List K}

theorem sum_ofCoordinates (hbins : 0 < bins) (low high : K) (coordinates : List K) :
    (ofCoordinates bins low high coordinates).sum =
      (coordinates.length : K) / (coordinates.length : K) := by
  let indices := coordinates.map (binIndex bins low ((high - low) / (bins : K) + slack))
  have hmem : ∀ i ∈ indices, i < bins := by
    intro i hi
    obtain ⟨coordinate, -, rfl⟩ := List.mem_map.mp hi
    exact binIndex_lt hbins _ _ _
  have hcounts : ((List.range bins).map fun k => (indices.count k : K)).sum =
      (coordinates.length : K) := by
    have hlength : indices.length = coordinates.length := List.length_map _
    rw [← hlength, ← sum_count_range hmem, Nat.cast_list_sum, List.map_map]
    rfl
  unfold ofCoordinates
  dsimp only
  simp only [div_eq_mul_inv _ (coordinates.length : K)]
  rw [List.sum_map_mul_right, hcounts]

variable [IsStrictOrderedRing K]

theorem ofCoordinates_nonneg {x : K} (hx : x ∈ ofCoordinates bins low high coordinates) :
    0 ≤ x := by
  obtain ⟨k, -, rfl⟩ := List.mem_map.mp hx
  exact div_nonneg (Nat.cast_nonneg _) (Nat.cast_nonneg _)

theorem sum_ofCoordinates_le (bins : ℕ) (low high : K) (coordinates : List K) :
    (ofCoordinates bins low high coordinates).sum ≤ 1 := by
  rcases Nat.eq_zero_or_pos bins with rfl | hbins
  · exact zero_le_one
  · rw [sum_ofCoordinates hbins]
    exact div_self_le_one _

/-! ### All axes -/

theorem ofCloud_nonneg (bins : ℕ) (cloud : Cloud K) : ∀ x ∈ ofCloud bins cloud, 0 ≤ x := by
  intro x hx
  unfold ofCloud at hx
  split at hx
  · exact (List.eq_of_mem_replicate hx).ge
  · dsimp only at hx
    rw [List.mem_append, List.mem_append] at hx
    obtain (hx | hx) | hx := hx <;> exact ofCoordinates_nonneg hx

theorem sum_ofCloud_le (bins : ℕ) (cloud : Cloud K) : (ofCloud bins cloud).sum ≤ 3 := by
  unfold ofCloud
  split
  · rw [List.sum_replicate, smul_zero]
    exact zero_le_three
  · dsimp only
    rw [List.sum_append, List.sum_append]
    calc _ ≤ (1 + 1 + 1 : K) :=
          add_le_add (add_le_add (sum_ofCoordinates_le _ _ _ _) (sum_ofCoordinates_le _ _ _ _))
            (sum_ofCoordinates_le _ _ _ _)
      _ = 3 := by norm_num

end ObstacleTracking.Histogram

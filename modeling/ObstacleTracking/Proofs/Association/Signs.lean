import ObstacleTracking.Proofs.Scalar.Signs
import ObstacleTracking.Proofs.Config.Standard
import ObstacleTracking.Association.Dissimilarity

/-!
# Signs of costs

No term of the dissimilarity is below zero, whatever the track and the observation hold, and so is
no cost under weights that are not. A cost that passes a gate is finite, so it is at least zero.
-/

namespace ObstacleTracking

open ExactScalar SignedScalar

variable (K : Type) {α : Type} [Field K] [LinearOrder K] [IsStrictOrderedRing K] [Scalar α]
  [ExactScalar K α] [SignedScalar α]

include K

omit [SignedScalar α] in
theorem Vec3.not_one_lt_cosHorizontal (v w : Vec3 α) : ¬ 1 < v.cosHorizontal w := by
  have hone : ¬ (1 : α) < 1 := by
    rw [one_eq, lt_ofField]
    exact lt_irrefl 1
  unfold cosHorizontal
  dsimp only
  split
  · rw [one_eq, zero_eq, lt_ofField]
    exact not_lt_of_ge zero_le_one
  · refine not_lt_clamp ?_ hone _
    rw [one_eq, ExactScalar.neg_ofField, lt_ofField]
    exact not_lt_of_ge (neg_le_self zero_le_one)

namespace Dissimilarity

theorem not_relativeChange_lt (a b : α) : ¬ relativeChange a b < 0 := by
  have hspacing : (0 : α) ≤ Scalar.doubleSpacing := by
    unfold Scalar.doubleSpacing
    rw [ratio_eq 1 (Nat.ne_of_gt (Nat.two_pow_pos 52)), zero_eq, le_ofField]
    exact div_nonneg (Nat.cast_nonneg _) (Nat.cast_nonneg _)
  unfold relativeChange
  dsimp only
  split
  case isTrue => exact not_zero_lt K
  case isFalse hscale =>
    exact not_div_lt (not_abs_lt _) fun hle => hscale (le_trans hle hspacing)

theorem not_boxChange_lt (u v : Vec2 α) (old new : Vec3 α) : ¬ boxChange u v old new < 0 := by
  unfold boxChange
  split <;> exact not_minNum_lt (not_relativeChange_lt K _ _) (not_relativeChange_lt K _ _)

omit K [Field K] [LinearOrder K] [IsStrictOrderedRing K] [ExactScalar K α] in
theorem not_deviation_lt (motion difference : Vec2 α) : ¬ deviation motion difference < 0 := by
  unfold deviation
  dsimp only
  split <;> exact not_norm_lt _

theorem not_direction_lt (last : Observation α) (expected : MotionState α) (o : Observation α)
    (dt : α) : ¬ direction last expected o dt < 0 := by
  unfold direction
  dsimp only
  split
  · refine not_sub_lt ?_
    unfold undirectedCosine
    rw [ratio_eq 994 (by norm_num : 1000 ≠ 0), one_eq, lt_ofField]
    norm_num
  · exact not_sub_lt (Vec3.not_one_lt_cosHorizontal K _ _)

theorem not_histogramDistance_lt (old new : List α) : ¬ histogramDistance old new < 0 := by
  unfold histogramDistance
  refine not_div_lt (not_foldl_add_lt ?_ (not_zero_lt K)) (not_natCast_le K (by norm_num))
  intro x hx
  obtain ⟨i, hi, rfl⟩ := List.mem_iff_getElem.mp hx
  rw [List.getElem_zipWith]
  exact not_abs_lt _

theorem not_shape_lt (last o : Observation α) : ¬ shape last o < 0 := by
  unfold shape
  split
  · split
    · exact not_histogramDistance_lt K _ _
    · exact not_zero_lt K
  · exact not_zero_lt K

omit K [Field K] [LinearOrder K] [IsStrictOrderedRing K] [ExactScalar K α] in
theorem not_addTerm_lt {sum weight term : α} (hsum : ¬ sum < 0) (hweight : ¬ weight < 0)
    (hterm : ¬ term < 0) : ¬ addTerm sum weight term < 0 := by
  unfold addTerm
  split
  · exact not_add_lt hsum (not_mul_lt hweight hterm)
  · exact hsum

theorem not_total_lt {w : Weights α} (hw : w.NotNegative) (last : Observation α)
    (expected : MotionState α) (o : Observation α) (dt : α) : ¬ total w last expected o dt < 0 := by
  have hlocation := not_addTerm_lt (not_zero_lt K) hw.location
    (not_deviation_lt last.velocity.horizontal
      (o.anchor - MotionState.position expected).horizontal)
  have hdirection := not_addTerm_lt hlocation hw.direction
    (not_direction_lt K last expected o dt)
  have hboxSize := not_addTerm_lt hdirection hw.boxSize
    (not_boxChange_lt K last.detection.direction.horizontal o.detection.direction.horizontal
      last.detection.size o.detection.size)
  have hpointCount := not_addTerm_lt hboxSize hw.pointCount
    (not_relativeChange_lt K (last.pointCount : α) (o.pointCount : α))
  exact not_addTerm_lt hpointCount hw.histogram (not_shape_lt K last o)

end Dissimilarity

end ObstacleTracking

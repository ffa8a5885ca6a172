import Mathlib.Tactic.NormNum
import Mathlib.Tactic.Positivity
import ObstacleTracking.Config.Validity
import ObstacleTracking.Proofs.Scalar.Exact

/-!
# The usual configuration is valid

A passed check says that its requirement holds. Over exact scalars every usual value passes its own
check.
-/

namespace ObstacleTracking

/-! ### Checks that are passed -/

section Checks

variable {α : Type} [Scalar α]

theorem Requirement.holds_of_fault? {r : Requirement} {name : String} {value : α}
    (h : r.fault? name value = none) : r.holds value = true := by
  unfold fault? at h
  by_contra hholds
  rw [if_neg hholds] at h
  cases h

theorem Weights.not_lt_of_fault? {name : String} {value : α} (h : fault? name value = none) :
    ¬ value < 0 := by
  unfold fault? at h
  intro hlt
  rw [if_pos (Or.inr hlt)] at h
  cases h

/-- Weights that are not below zero. -/
structure Weights.NotNegative (w : Weights α) : Prop where
  location : ¬ w.location < 0
  direction : ¬ w.direction < 0
  boxSize : ¬ w.boxSize < 0
  pointCount : ¬ w.pointCount < 0
  histogram : ¬ w.histogram < 0

theorem Weights.notNegative_of_error? {w : Weights α} (h : w.error? = none) : w.NotNegative := by
  unfold error? at h
  simp only [Option.or_eq_none_iff] at h
  obtain ⟨hlocation, hdirection, hboxSize, hpointCount, hhistogram, -⟩ := h
  constructor
  · exact not_lt_of_fault? hlocation
  · exact not_lt_of_fault? hdirection
  · exact not_lt_of_fault? hboxSize
  · exact not_lt_of_fault? hpointCount
  · exact not_lt_of_fault? hhistogram

theorem Config.filter_of_error?_eq_none {c : Config α} (h : c.error? = none) :
    c.filter.error? = none := by
  unfold error? at h
  simp only [Option.or_eq_none_iff] at h
  exact h.2.1

end Checks

/-! ### The usual values -/

open ExactScalar

variable {K α : Type} [Field K] [LinearOrder K] [Scalar α] [ExactScalar K α]

theorem positive_fault?_eq_none {x : K} (h : 0 < x) (name : String) :
    Requirement.positive.fault? name (ofField x : α) = none := by
  have hx : (0 : α) < ofField x := by
    rw [zero_eq, lt_ofField]
    exact h
  simp [Requirement.fault?, Requirement.holds, hx]

theorem nonNegative_fault?_eq_none {x : K} (h : 0 ≤ x) (name : String) :
    Requirement.nonNegative.fault? name (ofField x : α) = none := by
  have hx : (0 : α) ≤ ofField x := by
    rw [zero_eq, le_ofField]
    exact h
  simp [Requirement.fault?, Requirement.holds, hx]

theorem fraction_fault?_eq_none {x : K} (h : 0 ≤ x) (h' : x ≤ 1) (name : String) :
    Requirement.fraction.fault? name (ofField x : α) = none := by
  have hx : (0 : α) ≤ ofField x := by
    rw [zero_eq, le_ofField]
    exact h
  have hx' : (ofField x : α) ≤ 1 := by
    rw [one_eq, le_ofField]
    exact h'
  simp [Requirement.fault?, Requirement.holds, hx, hx']

theorem weight_fault?_eq_none {x : K} (h : 0 ≤ x) (name : String) :
    Weights.fault? name (ofField x : α) = none := by
  have hx : ¬ (ofField x : α) < 0 := by
    rw [zero_eq, lt_ofField]
    exact not_lt_of_ge h
  simp [Weights.fault?, hx]

variable [IsStrictOrderedRing K]

variable (K α)

include K

theorem FilterConfig.error?_standard : (FilterConfig.standard : FilterConfig α).error? = none := by
  unfold FilterConfig.error? FilterConfig.standard
  simp only [ratio_eq 4 (by norm_num : 10 ≠ 0), natCast_eq]
  rw [positive_fault?_eq_none (by norm_num), positive_fault?_eq_none (by norm_num),
    positive_fault?_eq_none (by norm_num), positive_fault?_eq_none (by norm_num),
    positive_fault?_eq_none (by norm_num), positive_fault?_eq_none (by norm_num)]
  rfl

theorem Weights.error?_standard : (Weights.standard : Weights α).error? = none := by
  have hlocation : ¬ (Scalar.ratio 6 10 : α) ≤ Scalar.singleSpacing := by
    unfold Scalar.singleSpacing
    rw [ratio_eq 6 (by norm_num), ratio_eq 1 (by norm_num), le_ofField]
    norm_num
  unfold Weights.error? Weights.standard
  rw [if_neg fun h => hlocation h.1]
  unfold Scalar.half
  rw [ratio_eq 6 (by norm_num), ratio_eq 2 (by norm_num), ratio_eq 1 (by norm_num),
    ratio_eq 1 (by norm_num), weight_fault?_eq_none (by norm_num),
    weight_fault?_eq_none (by norm_num), weight_fault?_eq_none (by norm_num),
    weight_fault?_eq_none (by norm_num), weight_fault?_eq_none (by norm_num)]
  rfl

theorem Config.error?_standard : (Config.standard : Config α).error? = none := by
  have hmatching : (MatchingConfig.standard : MatchingConfig α).error? = none := by
    unfold MatchingConfig.error? MatchingConfig.standard
    rw [natCast_eq, positive_fault?_eq_none (by norm_num), Weights.error?_standard K α]
    rfl
  have hlifecycle : (LifecycleConfig.standard : LifecycleConfig α).error? = none := by
    unfold LifecycleConfig.error? LifecycleConfig.standard
    rw [ratio_eq 6 (by norm_num), ratio_eq 4 (by norm_num), natCast_eq,
      fraction_fault?_eq_none (by norm_num) (by norm_num),
      nonNegative_fault?_eq_none (by norm_num), nonNegative_fault?_eq_none (by norm_num)]
    rfl
  unfold Config.error? Config.standard
  rw [hmatching, FilterConfig.error?_standard K α, hlifecycle]
  rfl

end ObstacleTracking

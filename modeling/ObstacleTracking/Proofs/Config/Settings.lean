import ObstacleTracking.Proofs.Scalar.Field
import ObstacleTracking.Proofs.Config.Standard

/-!
# Settings of a valid configuration

What the checks of a configuration say of its settings when all of them are passed.
-/

namespace ObstacleTracking

variable {K : Type} [Field K] [LinearOrder K] [ExactRoots K]

theorem Requirement.pos_of_holds {value : K} (h : positive.holds value = true) : 0 < value := by
  unfold holds at h
  rw [Bool.and_eq_true] at h
  exact of_decide_eq_true h.2

theorem Requirement.nonneg_of_holds {value : K} (h : nonNegative.holds value = true) :
    0 ≤ value := by
  unfold holds at h
  rw [Bool.and_eq_true] at h
  exact of_decide_eq_true h.2

structure Weights.Bounds (w : Weights K) : Prop where
  location : 0 ≤ w.location
  direction : 0 ≤ w.direction
  boxSize : 0 ≤ w.boxSize
  pointCount : 0 ≤ w.pointCount
  histogram : 0 ≤ w.histogram

theorem Weights.bounds {w : Weights K} (h : w.error? = none) : w.Bounds := by
  have hnot := notNegative_of_error? h
  constructor
  · exact not_lt.mp hnot.location
  · exact not_lt.mp hnot.direction
  · exact not_lt.mp hnot.boxSize
  · exact not_lt.mp hnot.pointCount
  · exact not_lt.mp hnot.histogram

theorem FilterConfig.velocityCorrectionMaximum_pos {c : FilterConfig K} (h : c.error? = none) :
    0 < c.velocityCorrectionMaximum := by
  unfold error? at h
  simp only [Option.or_eq_none_iff] at h
  exact Requirement.pos_of_holds (Requirement.holds_of_fault? h.2.2.2.2.2)

structure Config.Bounds (c : Config K) : Prop where
  gate : 0 < c.matching.gate
  weights : c.matching.weights.Bounds
  filter : c.filter.error? = none
  velocityCorrectionMaximum : 0 < c.filter.velocityCorrectionMaximum
  visibleRatioMinimum : Requirement.fraction.holds c.lifecycle.visibleRatioMinimum = true
  accelerationNoiseMaximum : 0 ≤ c.lifecycle.accelerationNoiseMaximum
  speedNoiseMaximum : 0 ≤ c.lifecycle.speedNoiseMaximum

theorem Config.bounds {c : Config K} (h : c.error? = none) : c.Bounds := by
  unfold error? MatchingConfig.error? LifecycleConfig.error? at h
  simp only [Option.or_eq_none_iff] at h
  obtain ⟨⟨hgate, hweights, -⟩, hfilter, -, hratio, hacceleration, hspeed⟩ := h
  constructor
  · exact Requirement.pos_of_holds (Requirement.holds_of_fault? hgate)
  · exact Weights.bounds hweights
  · exact hfilter
  · exact FilterConfig.velocityCorrectionMaximum_pos hfilter
  · exact Requirement.holds_of_fault? hratio
  · exact Requirement.nonneg_of_holds (Requirement.holds_of_fault? hacceleration)
  · exact Requirement.nonneg_of_holds (Requirement.holds_of_fault? hspeed)

end ObstacleTracking

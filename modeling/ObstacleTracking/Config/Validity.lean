import ObstacleTracking.Config.Basic
import ObstacleTracking.Decimal.Text

/-!
# Valid configurations

What a configuration must satisfy, and the first thing that is wrong with one that does not.
Checks run in a fixed order, so that of two faults the same one is always reported.
-/

namespace ObstacleTracking

/-- What a setting has to be. -/
inductive Requirement where
  | positive
  | nonNegative
  | fraction
  deriving DecidableEq

inductive ConfigError (α : Type) where
  /-- A weight is negative or not finite. -/
  | invalidWeight (name : String) (value : α)
  /-- No term of the dissimilarity is evaluated. -/
  | noEnabledWeights
  /-- A setting is outside its range. -/
  | outOfRange (name : String) (value : α) (expected : Requirement)
  | zeroCount (name : String)

/-! ### Checks -/

section Checks

variable {α : Type} [Scalar α]

/-- The value meets the requirement; one that is not a number meets none. -/
def Requirement.holds : Requirement → α → Bool
  | .positive, v => Scalar.isFinite v && decide (0 < v)
  | .nonNegative, v => Scalar.isFinite v && decide (0 ≤ v)
  | .fraction, v => decide (0 ≤ v) && decide (v ≤ 1)

/-- The fault of a setting that misses its requirement. -/
def Requirement.fault? (r : Requirement) (name : String) (value : α) : Option (ConfigError α) :=
  if r.holds value then none else some (.outOfRange name value r)

def zeroFault? (name : String) (count : Nat) : Option (ConfigError α) :=
  if count = 0 then some (.zeroCount name) else none

namespace Weights

def fault? (name : String) (value : α) : Option (ConfigError α) :=
  if Scalar.isFinite value = false ∨ value < 0 then some (.invalidWeight name value) else none

/-- The first fault of the weights: a bad weight, then that none of them is enabled. -/
def error? (w : Weights α) : Option (ConfigError α) :=
  (fault? "location" w.location).or <|
  (fault? "direction" w.direction).or <|
  (fault? "bbox_size" w.boxSize).or <|
  (fault? "point_num" w.pointCount).or <|
  (fault? "histogram" w.histogram).or <|
  if w.location ≤ Scalar.singleSpacing ∧ w.direction ≤ Scalar.singleSpacing ∧
      w.boxSize ≤ Scalar.singleSpacing ∧ w.pointCount ≤ Scalar.singleSpacing ∧
      w.histogram ≤ Scalar.singleSpacing then some .noEnabledWeights
  else none

end Weights

def MatchingConfig.error? (c : MatchingConfig α) : Option (ConfigError α) :=
  (Requirement.positive.fault? "match_distance_maximum" c.gate).or <|
  c.weights.error?.or <|
  zeroFault? "histogram_bin_size" c.histogramBins

def FilterConfig.error? (c : FilterConfig α) : Option (ConfigError α) :=
  (Requirement.positive.fault? "measurement_noise" c.measurementNoise).or <|
  (Requirement.positive.fault? "initial_velocity_noise" c.initialVelocityNoise).or <|
  (Requirement.positive.fault? "xy_propagation_noise" c.horizontalNoise).or <|
  (Requirement.positive.fault? "z_propagation_noise" c.verticalNoise).or <|
  (Requirement.positive.fault? "association_score_maximum" c.scoreMaximum).or <|
  Requirement.positive.fault? "breakdown_threshold_maximum" c.velocityCorrectionMaximum

def LifecycleConfig.error? (c : LifecycleConfig α) : Option (ConfigError α) :=
  (zeroFault? "track_cached_history_size_maximum" c.historyCapacity).or <|
  (Requirement.fraction.fault? "track_visible_ratio_minimum" c.visibleRatioMinimum).or <|
  (Requirement.nonNegative.fault? "acceleration_noise_maximum" c.accelerationNoiseMaximum).or <|
  Requirement.nonNegative.fault? "speed_noise_maximum" c.speedNoiseMaximum

/-- The first fault of a configuration; a valid one has none. -/
def Config.error? (c : Config α) : Option (ConfigError α) :=
  c.matching.error?.or <| c.filter.error?.or c.lifecycle.error?

end Checks

/-! ### Messages -/

def Requirement.text : Requirement → String
  | .positive => "a finite value greater than zero"
  | .nonNegative => "a finite, non-negative value"
  | .fraction => "a value in [0, 1]"

def ConfigError.message : ConfigError Float → String
  | .invalidWeight name value => "invalid " ++ name ++ " weight: " ++ DigitStyle.plain.text value
  | .noEnabledWeights => "all distance weights are zero"
  | .outOfRange name value expected =>
    "invalid " ++ name ++ ": " ++ DigitStyle.plain.text value ++
      " (expected " ++ expected.text ++ ")"
  | .zeroCount name => name ++ " must be greater than zero"

end ObstacleTracking

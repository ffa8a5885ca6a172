import ObstacleTracking.Config.Basic
import ObstacleTracking.Config.Value

/-!
# Configuration bundles

Configurations as structured values. A bundle names every setting: what is missing is an error
and never filled in, and settings that are not known are passed over. Writing a configuration
and reading it again gives it back.
-/

namespace ObstacleTracking

variable {α : Type} [Scalar α]

open Value (number count flag Slot.content Slot.status)

/-- The largest small count, of 32 bits. -/
def smallCountMaximum : Nat := 4294967295

/-- The largest size, of 64 bits. -/
def sizeMaximum : Nat := 18446744073709551615

def Value.smallCount (v : Value α) : Except BundleError UInt32 :=
  (v.count smallCountMaximum).map UInt32.ofNat

def Value.size (v : Value α) : Except BundleError Nat := v.count sizeMaximum

/-! ### Reading -/

def Weights.ofValue (v : Value α) : Except BundleError (Weights α) := do
  let l ← v.layout
  let location := l.slot 0 "location" number
  let direction := l.slot 1 "direction" number
  let boxSize := l.slot 2 "bbox_size" number
  let pointCount := l.slot 3 "point_num" number
  let histogram := l.slot 4 "histogram" number
  l.record [location.status, direction.status, boxSize.status, pointCount.status,
    histogram.status] do
    return {
      location := ← location.content
      direction := ← direction.content
      boxSize := ← boxSize.content
      pointCount := ← pointCount.content
      histogram := ← histogram.content }

def MatchingConfig.ofValue (v : Value α) : Except BundleError (MatchingConfig α) := do
  let l ← v.layout
  let gate := l.slot 0 "match_distance_maximum" number
  let weights := l.slot 1 "weights" Weights.ofValue
  let bins := l.slot 2 "histogram_bin_size" Value.size
  l.record [gate.status, weights.status, bins.status] do
    return {
      gate := ← gate.content
      weights := ← weights.content
      histogramBins := ← bins.content }

def FilterConfig.ofValue (v : Value α) : Except BundleError (FilterConfig α) := do
  let l ← v.layout
  let measurement := l.slot 0 "measurement_noise" number
  let initial := l.slot 1 "initial_velocity_noise" number
  let horizontal := l.slot 2 "xy_propagation_noise" number
  let vertical := l.slot 3 "z_propagation_noise" number
  let score := l.slot 4 "association_score_maximum" number
  let correction := l.slot 5 "breakdown_threshold_maximum" number
  let adaptive := l.slot 6 "use_adaptive" flag
  l.record [measurement.status, initial.status, horizontal.status, vertical.status,
    score.status, correction.status, adaptive.status] do
    return {
      measurementNoise := ← measurement.content
      initialVelocityNoise := ← initial.content
      horizontalNoise := ← horizontal.content
      verticalNoise := ← vertical.content
      scoreMaximum := ← score.content
      velocityCorrectionMaximum := ← correction.content
      adaptive := ← adaptive.content }

def LifecycleConfig.ofValue (v : Value α) : Except BundleError (LifecycleConfig α) := do
  let l ← v.layout
  let capacity := l.slot 0 "track_cached_history_size_maximum" Value.size
  let invisible := l.slot 1 "track_consecutive_invisible_maximum" Value.smallCount
  let ratio := l.slot 2 "track_visible_ratio_minimum" number
  let age := l.slot 3 "collect_age_minimum" Value.smallCount
  let reported := l.slot 4 "collect_consecutive_invisible_maximum" Value.smallCount
  let acceleration := l.slot 5 "acceleration_noise_maximum" number
  let speed := l.slot 6 "speed_noise_maximum" number
  l.record [capacity.status, invisible.status, ratio.status, age.status, reported.status,
    acceleration.status, speed.status] do
    return {
      historyCapacity := ← capacity.content
      invisibleMaximum := ← invisible.content
      visibleRatioMinimum := ← ratio.content
      reportAgeMinimum := ← age.content
      reportInvisibleMaximum := ← reported.content
      accelerationNoiseMaximum := ← acceleration.content
      speedNoiseMaximum := ← speed.content }

def Config.ofValue (v : Value α) : Except BundleError (Config α) := do
  let l ← v.layout
  let matching := l.slot 0 "matcher" MatchingConfig.ofValue
  let filter := l.slot 1 "filter" FilterConfig.ofValue
  let lifecycle := l.slot 2 "lifecycle" LifecycleConfig.ofValue
  l.record [matching.status, filter.status, lifecycle.status] do
    return {
      matching := ← matching.content
      filter := ← filter.content
      lifecycle := ← lifecycle.content }

/-! ### Writing -/

def Weights.toValue (w : Weights α) : Value α :=
  .object [
    ("location", .ofNumber w.location),
    ("direction", .ofNumber w.direction),
    ("bbox_size", .ofNumber w.boxSize),
    ("point_num", .ofNumber w.pointCount),
    ("histogram", .ofNumber w.histogram)]

def MatchingConfig.toValue (c : MatchingConfig α) : Value α :=
  .object [
    ("match_distance_maximum", .ofNumber c.gate),
    ("weights", c.weights.toValue),
    ("histogram_bin_size", .integer c.histogramBins)]

def FilterConfig.toValue (c : FilterConfig α) : Value α :=
  .object [
    ("measurement_noise", .ofNumber c.measurementNoise),
    ("initial_velocity_noise", .ofNumber c.initialVelocityNoise),
    ("xy_propagation_noise", .ofNumber c.horizontalNoise),
    ("z_propagation_noise", .ofNumber c.verticalNoise),
    ("association_score_maximum", .ofNumber c.scoreMaximum),
    ("breakdown_threshold_maximum", .ofNumber c.velocityCorrectionMaximum),
    ("use_adaptive", .bool c.adaptive)]

def LifecycleConfig.toValue (c : LifecycleConfig α) : Value α :=
  .object [
    ("track_cached_history_size_maximum", .integer c.historyCapacity),
    ("track_consecutive_invisible_maximum", .integer c.invisibleMaximum.toNat),
    ("track_visible_ratio_minimum", .ofNumber c.visibleRatioMinimum),
    ("collect_age_minimum", .integer c.reportAgeMinimum.toNat),
    ("collect_consecutive_invisible_maximum", .integer c.reportInvisibleMaximum.toNat),
    ("acceleration_noise_maximum", .ofNumber c.accelerationNoiseMaximum),
    ("speed_noise_maximum", .ofNumber c.speedNoiseMaximum)]

def Config.toValue (c : Config α) : Value α :=
  .object [
    ("matcher", c.matching.toValue),
    ("filter", c.filter.toValue),
    ("lifecycle", c.lifecycle.toValue)]

end ObstacleTracking

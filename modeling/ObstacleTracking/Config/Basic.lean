import ObstacleTracking.Scalar.Basic

/-!
# Configuration

All thresholds, weights and counts of a tracker, with their usual values. They are fixed when a
tracker is made.
-/

namespace ObstacleTracking

/-- How much each term of the dissimilarity between a track and an observation counts. -/
structure Weights (α : Type) where
  location : α
  direction : α
  boxSize : α
  pointCount : α
  histogram : α
  deriving BEq

/-- Which pairs of tracks and observations are matched. -/
structure MatchingConfig (α : Type) where
  /-- Pairs that are further apart than this are never matched. -/
  gate : α
  weights : Weights α
  /-- Bins of the shape histogram on each axis. -/
  histogramBins : Nat
  deriving BEq

/-- Noise and limits of the filter that every track shares. -/
structure FilterConfig (α : Type) where
  measurementNoise : α
  initialVelocityNoise : α
  horizontalNoise : α
  verticalNoise : α
  /-- A correction with a larger score is an outlier. -/
  scoreMaximum : α
  /-- The longest change of velocity that one correction makes. -/
  velocityCorrectionMaximum : α
  adaptive : Bool
  deriving BEq

/-- When tracks are dropped and which are reported. -/
structure LifecycleConfig (α : Type) where
  /-- Matched observations that a track keeps. -/
  historyCapacity : Nat
  /-- Tracks that were missed more often than this in a row are dropped. -/
  invisibleMaximum : UInt32
  /-- Tracks that were seen in a smaller part of their frames are dropped. -/
  visibleRatioMinimum : α
  /-- Younger tracks are neither reported nor dropped for being rarely seen. -/
  reportAgeMinimum : UInt32
  /-- Tracks that were missed more often than this in a row are not reported. -/
  reportInvisibleMaximum : UInt32
  /-- A larger acceleration is real motion. -/
  accelerationNoiseMaximum : α
  /-- A lower speed is noise on an obstacle that stands still. -/
  speedNoiseMaximum : α
  deriving BEq

structure Config (α : Type) where
  matching : MatchingConfig α
  filter : FilterConfig α
  lifecycle : LifecycleConfig α
  deriving BEq

/-! ### Usual values -/

section Standard

variable {α : Type} [Scalar α]

/-- The location counts most. -/
def Weights.standard : Weights α :=
  { location := Scalar.ratio 6 10
    direction := Scalar.ratio 2 10
    boxSize := Scalar.ratio 1 10
    pointCount := Scalar.ratio 1 10
    histogram := Scalar.half }

/-- Pairs with a dissimilarity of up to four may be matched. -/
def MatchingConfig.standard : MatchingConfig α :=
  { gate := ((4 : Nat) : α)
    weights := .standard
    histogramBins := 10 }

/-- Obstacles that change their velocity quickly. -/
def FilterConfig.standard : FilterConfig α :=
  { measurementNoise := Scalar.ratio 4 10
    initialVelocityNoise := ((5 : Nat) : α)
    horizontalNoise := ((10 : Nat) : α)
    verticalNoise := ((10 : Nat) : α)
    scoreMaximum := ((4 : Nat) : α)
    velocityCorrectionMaximum := ((10 : Nat) : α)
    adaptive := true }

/-- Tracks survive one missed frame and are reported from their first frame on. -/
def LifecycleConfig.standard : LifecycleConfig α :=
  { historyCapacity := 5
    invisibleMaximum := 1
    visibleRatioMinimum := Scalar.ratio 6 10
    reportAgeMinimum := 0
    reportInvisibleMaximum := 0
    accelerationNoiseMaximum := ((5 : Nat) : α)
    speedNoiseMaximum := Scalar.ratio 4 10 }

def Config.standard : Config α := ⟨.standard, .standard, .standard⟩

end Standard

/-! ### Enabled terms -/

section Enabled

variable {α : Type} [Scalar α]

/-- A term is evaluated only if its weight is above the spacing of short numbers near one. -/
def Weights.isEnabled (weight : α) : Bool := Scalar.singleSpacing < weight

def MatchingConfig.bins? (c : MatchingConfig α) : Option Nat :=
  if Weights.isEnabled c.weights.histogram then some c.histogramBins else none

end Enabled

end ObstacleTracking

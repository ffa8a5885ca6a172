import ObstacleTracking.Config.Basic
import ObstacleTracking.Filter.Estimate
import ObstacleTracking.Linear.Inverse

/-!
# The motion filter

A linear filter for points that move at constant velocity up to random accelerations. The
measurement is a full state: the observed point, and the velocity that leads there from the last
confirmed position.
-/

namespace ObstacleTracking.Filter

variable {α : Type} [Scalar α]

/-! ### Prediction -/

/-- The estimate of a point that was seen for the first time and stands still. -/
def initiate (c : FilterConfig α) (anchor : Vec3 α) : Estimate α :=
  { mean := MotionState.ofParts anchor 0
    covariance := Mat.diagonal fun i =>
      if i.val < 3 then c.measurementNoise else c.initialVelocityNoise }

/-- A time step counts if it is finite and longer than the spacing of numbers near one. -/
def isStep (dt : α) : Bool := Scalar.isFinite dt && decide (Scalar.doubleSpacing < dt)

/-- Positions advance by the velocity, velocities stay. -/
def transition (dt : α) : Mat 6 6 α :=
  Mat.ofFn fun i j => if i = j then 1 else if j.val = i.val + 3 then dt else 0

/-- How strong the random accelerations are on an axis. -/
def intensity (c : FilterConfig α) (axis : Nat) : α :=
  if axis < 2 then c.horizontalNoise else c.verticalNoise

/-- What random accelerations of constant intensity add to the covariance during a step. -/
def processNoise (c : FilterConfig α) (dt : α) : Mat 6 6 α :=
  let dt2 := dt * dt
  let dt3 := dt2 * dt
  Mat.ofFn fun i j =>
    let q := intensity c (i.val % 3)
    if i = j then (if i.val < 3 then q * dt3 / ((3 : Nat) : α) else q * dt)
    else if j.val = i.val + 3 ∨ i.val = j.val + 3 then q * dt2 / ((2 : Nat) : α)
    else 0

/-- The estimate a time step later; a step that does not count changes nothing. -/
def predict (c : FilterConfig α) (e : Estimate α) (dt : α) : Estimate α :=
  if isStep dt then
    let f := transition dt
    { mean := f * e.mean
      covariance := f * e.covariance * f.transpose + processNoise c dt }
  else e

/-! ### Correction -/

/-- How an observation was used. -/
inductive Outcome where
  /-- The prediction was corrected. -/
  | corrected
  /-- The prediction was corrected, and the change of velocity was shortened to its maximum. -/
  | breakdown
  /-- The score was above its maximum, and the prediction was kept. -/
  | rejected
  /-- The covariance of the innovation had no inverse, and the prediction was kept. -/
  | singular
  /-- The time step did not count, and the estimate was kept. -/
  | skipped
  deriving DecidableEq

/-- An estimate after an observation, and how the observation was used. -/
structure Correction (α : Type) where
  estimate : Estimate α
  outcome : Outcome

/-- The factor on the measurement noise: with adaptive noise it grows with the score. -/
def noiseScale (c : FilterConfig α) (score : α) : α :=
  if c.adaptive then 1 + Scalar.maxNum score 0 / c.scoreMaximum else 1

/-- The covariance of the innovation of a full-state measurement. -/
def innovationCovariance (c : FilterConfig α) (covariance : Mat 6 6 α) (scale : α) : Mat 6 6 α :=
  covariance + (Mat.identity : Mat 6 6 α) * (c.measurementNoise * scale)

/-- The change of state with its velocity part shortened to the maximum length. -/
def limit (c : FilterConfig α) (change : MotionState α) : MotionState α × Outcome :=
  let velocity := MotionState.velocity change
  let length := velocity.norm
  if c.velocityCorrectionMaximum < length then
    (MotionState.ofParts (MotionState.position change)
      (velocity * (c.velocityCorrectionMaximum / length)), .breakdown)
  else (change, .corrected)

def symmetrize (a : Mat 6 6 α) : Mat 6 6 α := (a + a.transpose) * (Scalar.half : α)

/-- The predicted estimate corrected by an observed state, given the innovation covariance and
its inverse. -/
def correct (c : FilterConfig α) (predicted : Estimate α) (innovation inverse : Mat 6 6 α)
    (observed : MotionState α) : Correction α :=
  let gain := predicted.covariance * inverse
  let (change, outcome) := limit c (gain * MotionState.minus observed predicted.mean)
  { estimate :=
      { mean := MotionState.plus predicted.mean change
        covariance := symmetrize (predicted.covariance - gain * innovation * gain.transpose) }
    outcome }

/-- The estimate a time step later, corrected by the point observed then. -/
def update (c : FilterConfig α) (e : Estimate α) (anchor : Vec3 α) (score dt : α) :
    Correction α :=
  if isStep dt then
    let predicted := predict c e dt
    if c.scoreMaximum < score then ⟨predicted, .rejected⟩
    else
      let innovation := innovationCovariance c predicted.covariance (noiseScale c score)
      match innovation.inverse? with
      | none => ⟨predicted, .singular⟩
      | some inverse =>
        correct c predicted innovation inverse
          (MotionState.ofParts anchor ((anchor - e.position) / dt))
  else ⟨e, .skipped⟩

end ObstacleTracking.Filter

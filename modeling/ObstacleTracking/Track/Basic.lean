import ObstacleTracking.Config.Basic
import ObstacleTracking.Detection.Observation
import ObstacleTracking.Filter.Motion

/-!
# Tracks

One obstacle followed over time: its estimate, how often it was seen, the latest observation of
it, carried along while it is not seen, and the observations that were matched to it.
-/

namespace ObstacleTracking

/-- What happened to a track in the latest frame. -/
inductive TrackState where
  | new
  | tracked
  | lost
  deriving DecidableEq

/-- One obstacle followed over time. -/
@[ext]
structure Track (α : Type) where
  id : Nat
  state : TrackState
  estimate : Estimate α
  /-- The prediction for the frame in work. -/
  predicted : Option (Estimate α)
  /-- Frames survived since the first. -/
  age : UInt32
  /-- Frames missed in a row. -/
  invisible : UInt32
  /-- Frames matched, the first one included. -/
  visible : UInt32
  /-- Seconds since the first frame. -/
  period : α
  current : Observation α
  history : List (Observation α)
  historyCapacity : Nat

namespace Track

variable {α : Type} [Scalar α]

def start (c : FilterConfig α) (capacity id : Nat) (o : Observation α) : Track α :=
  let estimate := Filter.initiate c o.anchor
  let current := { o with
    velocity := 0
    velocityUncertainty := estimate.velocityCovariance }
  { id
    state := .new
    estimate
    predicted := none
    age := 0
    invisible := 0
    visible := 1
    period := 0
    current
    history := [current]
    historyCapacity := max capacity 1 }

/-- The part of its frames in which the track was seen. -/
def visibleRatio (t : Track α) : α := (t.visible.toNat : α) / ((t.age.toNat : α) + 1)

/-- The mean state for the frame in work: the prediction, or the confirmed state without one. -/
def expected (t : Track α) : MotionState α := (t.predicted.getD t.estimate).mean

/-- The track with a prediction for a time step later; its confirmed estimate stays. -/
def predict (c : FilterConfig α) (t : Track α) (dt : α) : Track α :=
  { t with predicted := some (Filter.predict c t.estimate dt) }

/-! ### A matched detection -/

/-- The estimate with its velocity set to zero if that is noise: the speed is low, and the
velocity was not changed by a real acceleration. -/
def settleVelocity (c : LifecycleConfig α) (previous : Vec3 α) (dt : α) (e : Estimate α) :
    Estimate α :=
  let velocity := e.velocity
  let accelerates := decide (Scalar.doubleSpacing < dt) &&
    decide (c.accelerationNoiseMaximum < ((velocity - previous) / dt).norm)
  if !accelerates && decide (velocity.norm < c.speedNoiseMaximum) then
    { e with mean := MotionState.ofParts e.position 0 }
  else e

/-- The detection turned along its motion. A moving one takes the heading of its velocity, and
its box is fitted again; a slow one keeps its direction, or takes that of its lane if it has
none. -/
def orient (c : LifecycleConfig α) (velocity lane : Vec3 α) (d : Detection α) : Detection α :=
  if c.speedNoiseMaximum < velocity.norm then
    match velocity.unitHorizontal? with
    | none => d
    | some heading =>
      match OrientedBox.around? d.cloud heading with
      | none => { d with direction := heading }
      | some box => { d with direction := heading, size := box.size, center := box.center }
  else
    match d.direction.unitHorizontal?, lane.unitHorizontal? with
    | none, some lane => { d with direction := lane }
    | _, _ => d

/-- The observation as the track holds it: at the estimated position, with the estimated
velocity, turned along it. -/
def adopt (c : LifecycleConfig α) (e : Estimate α) (o : Observation α) : Observation α :=
  { o with
    detection := orient c e.velocity o.lane o.detection
    anchor := e.position
    velocity := e.velocity
    velocityUncertainty := e.velocityCovariance }

/-- The history with one more observation; a full one loses its oldest. -/
def remember (capacity : Nat) (history : List (Observation α)) (o : Observation α) :
    List (Observation α) :=
  (if capacity ≤ history.length then history.drop 1 else history) ++ [o]

/-- The track after a frame in which a detection was matched to it, and how it was used. -/
def hit (f : FilterConfig α) (c : LifecycleConfig α) (t : Track α) (o : Observation α)
    (score dt : α) : Track α × Filter.Outcome :=
  let correction := Filter.update f t.estimate o.anchor score dt
  let estimate := settleVelocity c t.estimate.velocity dt correction.estimate
  let current := adopt c estimate o
  ({ t with
      state := .tracked
      estimate
      predicted := none
      age := t.age + 1
      invisible := 0
      visible := t.visible + 1
      period := t.period + Scalar.maxNum dt 0
      current
      history := remember t.historyCapacity t.history current },
    correction.outcome)

/-! ### A missed frame -/

/-- The track after a frame in which no detection was matched to it. -/
def miss (f : FilterConfig α) (t : Track α) (dt : α) : Track α :=
  let estimate := t.predicted.getD (Filter.predict f t.estimate dt)
  let displacement := estimate.position - t.estimate.position
  { t with
    state := .lost
    estimate
    predicted := none
    age := t.age + 1
    invisible := t.invisible + 1
    period := t.period + Scalar.maxNum dt 0
    current := { t.current.shift displacement with
      velocity := estimate.velocity
      velocityUncertainty := estimate.velocityCovariance } }

end Track

end ObstacleTracking

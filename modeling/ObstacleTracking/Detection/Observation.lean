import ObstacleTracking.Detection.Basic
import ObstacleTracking.Detection.Histogram

/-!
# Observations

A detection as the tracker sees it: moved into the local frame, with the point it is followed
by, its shape histogram, the direction of its lane and a velocity.
-/

namespace ObstacleTracking

/-- A detection in the local frame with what association and filtering need. -/
@[ext]
structure Observation (α : Type) where
  detection : Detection α
  barycenter : Vec3 α
  /-- The point that stands for the obstacle in association and filtering. -/
  anchor : Vec3 α
  /-- The shape histogram, where histograms are compared at all. -/
  shape : Option (List α)
  lane : Vec3 α
  velocity : Vec3 α
  velocityUncertainty : Mat 3 3 α

namespace Observation

variable {α : Type} [Scalar α]

/-- The observation of a sensor-frame detection. Its histogram is taken in the sensor frame; its
anchor is the barycenter of the moved cloud, or the moved center when there are no points. -/
def ofDetection (pose : Pose α) (bins : Option Nat) (d : Detection α) : Observation α :=
  let moved := d.move pose
  let barycenter := (Cloud.barycenter? moved.cloud).getD moved.center
  { detection := moved
    barycenter
    anchor := barycenter
    shape := bins.map fun b => Histogram.ofCloud b d.cloud
    lane := 0
    velocity := 0
    velocityUncertainty := Mat.fill 0 }

def pointCount (o : Observation α) : Nat := o.detection.pointCount

/-- The whole obstacle displaced, its anchor included. -/
def shift (offset : Vec3 α) (o : Observation α) : Observation α :=
  { o with
    detection := o.detection.shift offset
    barycenter := o.barycenter + offset
    anchor := o.anchor + offset }

end Observation

end ObstacleTracking

import ObstacleTracking.Geometry.OrientedBox

/-!
# Detections

One obstacle cut out of a sweep, in the frame of the sensor: its points, its outline on the
ground, and the box along its principal direction.
-/

namespace ObstacleTracking

/-- What a classifier takes an obstacle for. -/
inductive ObstacleKind where
  | unknown
  | unknownMovable
  | unknownUnmovable
  | pedestrian
  | bicycle
  | vehicle
  deriving DecidableEq

/-- One obstacle of a sweep. -/
@[ext]
structure Detection (α : Type) where
  cloud : Cloud α
  /-- Corners of the outline on the ground. -/
  outline : Cloud α
  center : Vec3 α
  /-- Principal direction, along which the length of the box runs. -/
  direction : Vec3 α
  /-- Length, width and height of the box. -/
  size : Vec3 α
  kind : ObstacleKind

namespace Detection

variable {α : Type}

def pointCount (d : Detection α) : Nat := d.cloud.length

variable [Scalar α]

/-- The same obstacle seen from another frame: points are moved, the direction is turned. -/
def move (pose : Pose α) (d : Detection α) : Detection α :=
  { d with
    cloud := Cloud.move pose d.cloud
    outline := Cloud.move pose d.outline
    center := pose.move d.center
    direction := pose.turn d.direction }

/-- The obstacle displaced; its direction stays. -/
def shift (offset : Vec3 α) (d : Detection α) : Detection α :=
  { d with
    cloud := Cloud.shift offset d.cloud
    outline := Cloud.shift offset d.outline
    center := d.center + offset }

end Detection

end ObstacleTracking

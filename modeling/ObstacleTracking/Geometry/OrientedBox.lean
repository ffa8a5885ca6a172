import ObstacleTracking.Geometry.Cloud
import ObstacleTracking.Geometry.Heading

/-!
# Oriented boxes

The upright box around a cloud whose length runs along a horizontal direction. A direction that
is too short is taken as forward.
-/

namespace ObstacleTracking

/-- The extent and the middle of an upright box. -/
@[ext]
structure OrientedBox (α : Type) where
  /-- Length along the direction, width across it, and height. -/
  size : Vec3 α
  center : Vec3 α

namespace OrientedBox

variable {α : Type} [Scalar α]

/-- The coordinates of a point along an axis, across it and upwards. -/
def coordinates (axis p : Vec3 α) : Vec3 α := ⟨p.dot axis, p.dot axis.leftward, p.z⟩

/-- The point with given coordinates along an axis, across it and upwards. -/
def place (axis c : Vec3 α) : Vec3 α := axis * c.x + axis.leftward * c.y + ⟨0, 0, c.z⟩

/-- The tight box around a cloud along a direction; an empty cloud has none. -/
def around? (cloud : Cloud α) (direction : Vec3 α) : Option (OrientedBox α) :=
  match cloud with
  | [] => none
  | _ =>
    let axis := direction.axis
    let (low, high) := Cloud.bounds (cloud.map (coordinates axis))
    some ⟨high - low, place axis ((high + low) * (Scalar.half : α))⟩

/-- The four ground corners of a box along a direction, counter-clockwise from front left. -/
def footprint (box : OrientedBox α) (direction : Vec3 α) : Cloud α :=
  let axis := direction.axis
  let ahead := axis * (box.size.x * Scalar.half)
  let aside := axis.leftward * (box.size.y * Scalar.half)
  let base : Vec3 α := ⟨box.center.x, box.center.y, box.center.z - box.size.z * Scalar.half⟩
  [base + ahead + aside, base - ahead + aside, base - ahead - aside, base + ahead - aside]

end OrientedBox

end ObstacleTracking

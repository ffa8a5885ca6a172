import ObstacleTracking.Linear.Vec3

/-!
# Headings

Directions as they lie in the ground plane: their angle, the cosine between two of them, and the
unit vector along one. A horizontal part that is too short has no direction.
-/

namespace ObstacleTracking

/-- Horizontal lengths up to this one have no direction. -/
def directionTolerance {α : Type} [Scalar α] : α := Scalar.ratio 1 1000000

namespace Vec3

variable {α : Type} [Scalar α]

/-- The cosine of the horizontal angle between two vectors, zero when one has no direction. -/
def cosHorizontal (v w : Vec3 α) : α :=
  let lengths := v.horizontal.norm * w.horizontal.norm
  if lengths < directionTolerance * directionTolerance then 0
  else Scalar.clamp (-1) 1 (v.horizontal.dot w.horizontal / lengths)

/-- The angle of a direction in the ground plane. Without a forward part it is a quarter turn,
to the left if the direction points there and else to the right. -/
def heading (v : Vec3 α) : α :=
  if Scalar.abs v.x < Scalar.leastNormal then
    if 0 < v.y then Scalar.quarterTurn else -Scalar.quarterTurn
  else Scalar.atan2 v.y v.x

/-- The horizontal unit vector along `v`, if its horizontal part is long enough. -/
def unitHorizontal? (v : Vec3 α) : Option (Vec3 α) :=
  let length := v.horizontal.norm
  if directionTolerance < length then some ⟨v.x / length, v.y / length, 0⟩ else none

/-- The horizontal unit vector along `v`, or forward if it has none. -/
def axis (v : Vec3 α) : Vec3 α := v.unitHorizontal?.getD forward

end Vec3

end ObstacleTracking

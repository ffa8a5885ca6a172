import ObstacleTracking.Geometry.Pose

/-!
# Clouds

Points measured on one obstacle, in the order in which they came.
-/

namespace ObstacleTracking

abbrev Cloud (α : Type) := List (Vec3 α)

namespace Cloud

variable {α : Type} [Scalar α]

/-- Every point is displaced. -/
def shift (offset : Vec3 α) (cloud : Cloud α) : Cloud α := cloud.map (· + offset)

/-- Every point is turned and displaced. -/
def move (pose : Pose α) (cloud : Cloud α) : Cloud α := cloud.map pose.move

/-- The mean of the points; an empty cloud has none. -/
def barycenter? (cloud : Cloud α) : Option (Vec3 α) :=
  match cloud with
  | [] => none
  | _ => some (cloud.foldl (· + ·) 0 / (cloud.length : α))

/-- The componentwise bounds of a cloud; an empty one has bounds that are the wrong way round. -/
def bounds (cloud : Cloud α) : Vec3 α × Vec3 α :=
  cloud.foldl (fun b p => (b.1.lower p, b.2.upper p))
    (Vec3.fill Scalar.farthest, Vec3.fill (-Scalar.farthest))

@[simp] theorem length_move (pose : Pose α) (cloud : Cloud α) :
    (move pose cloud).length = cloud.length := List.length_map ..

end Cloud

end ObstacleTracking
